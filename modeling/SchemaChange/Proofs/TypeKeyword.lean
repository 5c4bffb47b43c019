import SchemaChange.FieldSpec
import SchemaChange.Proofs.UpperCase

/-!
# What decides the specification of a field

The specification for an SQL type follows from the identifier at its front and from nothing else:
not from what stands behind the identifier, and not from the case in which it is written.
-/

namespace SchemaChange

open SchemaChange.Text

variable {c d : Char} {s v w : List Char}

/-! ## Blanks in front -/

namespace Text

theorem dropWhile_isBlank_of_stops (h : Stops isBlank s) : s.dropWhile isBlank = s := by
  simpa using dropWhile_append_of_stops (w := []) (by simp) h

/-- Trimming a text leaves blanks behind it, at most. -/
theorem exists_dropWhile_eq_trimChars (s : List Char) :
    ∃ behind, s.dropWhile isBlank = trimChars s ++ behind ∧ ∀ c ∈ behind, isBlank c = true := by
  refine ⟨((s.dropWhile isBlank).reverse.takeWhile isBlank).reverse, ?_, ?_⟩
  · have h := congrArg List.reverse
      (List.takeWhile_append_dropWhile (p := isBlank) (l := (s.dropWhile isBlank).reverse))
    rw [List.reverse_append, List.reverse_reverse] at h
    exact h.symm
  · intro c hc
    exact mem_takeWhile c (List.mem_reverse.mp hc)

theorem dropWhile_flatMap_upperChar (s : List Char) :
    (s.flatMap upperChar).dropWhile isBlank = (s.dropWhile isBlank).flatMap upperChar := by
  induction s with
  | nil => rfl
  | cons c s ih =>
    cases hblank : isBlank c with
    | true =>
      rw [List.flatMap_cons, upperChar_of_not_isIdentifier (isIdentifier_of_isBlank hblank),
        List.singleton_append, List.dropWhile_cons_of_pos hblank, ih,
        List.dropWhile_cons_of_pos hblank]
    | false =>
      obtain ⟨d, t, heq, hd⟩ := exists_upperChar_of_not_isBlank hblank
      rw [List.dropWhile_cons_of_neg (by simp [hblank]), List.flatMap_cons, heq, List.cons_append,
        List.dropWhile_cons_of_neg (by simp [hd])]

theorem exists_dropWhile_lowerFrom (afterCased : Bool) (s : List Char) :
    ∃ after, (lowerFrom afterCased s).dropWhile isBlank =
      lowerFrom after (s.dropWhile isBlank) := by
  induction s generalizing afterCased with
  | nil => exact ⟨afterCased, rfl⟩
  | cons c s ih =>
    obtain ⟨image, after, heq, himage⟩ := exists_lowerFrom_cons afterCased c s
    cases hblank : isBlank c with
    | true =>
      have hsigma : c ≠ 'Σ' := by
        rintro rfl
        exact absurd hblank (by decide)
      obtain rfl : image = lowerChar c := himage.resolve_right fun h => hsigma h.1
      rw [heq, lowerChar_of_not_isIdentifier (isIdentifier_of_isBlank hblank),
        List.singleton_append, List.dropWhile_cons_of_pos hblank,
        List.dropWhile_cons_of_pos hblank]
      exact ih after
    | false =>
      have hhead : ∃ d t, image = d :: t ∧ isBlank d = false := by
        obtain rfl | ⟨-, rfl⟩ := himage
        · exact exists_lowerChar_of_not_isBlank hblank
        · exact ⟨'ς', [], rfl, by decide⟩
      obtain ⟨d, t, rfl, hd⟩ := hhead
      refine ⟨afterCased, ?_⟩
      rw [List.dropWhile_cons_of_neg (by simp [hblank]), heq, List.cons_append,
        List.dropWhile_cons_of_neg (by simp [hd])]

end Text

namespace FieldSpec

/-! ## The identifier at the front -/

/-- The identifier at the front of a text without blanks in front, in upper case. -/
def keywordOf (s : List Char) : List Char :=
  (s.flatMap upperChar).takeWhile isIdentifier

theorem stops_flatMap_upperChar (h : Stops isIdentifier s) :
    Stops isIdentifier (s.flatMap upperChar) := by
  cases s with
  | nil => exact stops_nil
  | cons c s =>
    have hc := stops_cons.mp h
    rw [List.flatMap_cons, upperChar_of_not_isIdentifier hc]
    exact stops_cons.mpr hc

/-- What follows an identifier does not matter. -/
theorem keywordOf_append (h : Stops isIdentifier s) : keywordOf (w ++ s) = keywordOf w := by
  have hstop : (s.flatMap upperChar).takeWhile isIdentifier = [] := by
    simpa using takeWhile_append_of_stops (w := []) (by simp) (stops_flatMap_upperChar h)
  rw [keywordOf, keywordOf, List.flatMap_append, List.takeWhile_append, hstop, List.append_nil]
  split
  · rename_i hlength
    exact (List.IsPrefix.eq_of_length (List.takeWhile_prefix _) hlength).symm
  · rfl

theorem keywordOf_eq_nil_iff : keywordOf s = [] ↔ Stops isIdentifier s := by
  constructor
  · intro h
    cases s with
    | nil => exact stops_nil
    | cons c s =>
      cases hc : isIdentifier c with
      | false => exact stops_cons.mpr hc
      | true =>
        obtain ⟨d, t, heq, hd⟩ := exists_upperChar_of_isIdentifier hc
        rw [keywordOf, List.flatMap_cons, heq, List.cons_append, List.takeWhile_cons_of_pos hd] at h
        cases h
  · intro h
    have := keywordOf_append (w := []) h
    exact this

theorem upperChar_of_mem_keywordOf (h : c ∈ keywordOf s) : upperChar c = [c] := by
  obtain ⟨d, -, hd⟩ := List.mem_flatMap.mp ((List.takeWhile_sublist _).subset h)
  exact upperChar_of_mem hd

theorem keywordOf_flatMap_upperChar (s : List Char) :
    keywordOf (s.flatMap upperChar) = keywordOf s := by
  rw [keywordOf, flatMap_upperChar_of_forall, keywordOf]
  intro c hc
  obtain ⟨d, -, hd⟩ := List.mem_flatMap.mp hc
  exact upperChar_of_mem hd

theorem keywordOf_keywordOf (s : List Char) : keywordOf (keywordOf s) = keywordOf s := by
  have hupper : (keywordOf s).flatMap upperChar = keywordOf s :=
    flatMap_upperChar_of_forall fun _ hc => upperChar_of_mem_keywordOf hc
  rw [keywordOf, hupper]
  simpa using takeWhile_append_of_stops (s := []) (w := keywordOf s) mem_takeWhile stops_nil

/-- The keyword of a type, whatever blanks stand around it. -/
theorem toList_typeKeyword (text : String) :
    (typeKeyword text).toList = keywordOf (text.toList.dropWhile isBlank) := by
  obtain ⟨behind, heq, hblank⟩ := exists_dropWhile_eq_trimChars text.toList
  have hstops : Stops isIdentifier behind := fun c hc =>
    isIdentifier_of_isBlank (hblank c (List.mem_of_mem_head? hc))
  rw [heq, keywordOf_append hstops]
  simp [typeKeyword, upper, trim, keywordOf]

theorem typeKeyword_eq_empty_iff (text : String) :
    typeKeyword text = "" ↔ Stops isIdentifier (trim text).toList := by
  have hkeyword : typeKeyword text = String.ofList (keywordOf (trim text).toList) := by
    simp [typeKeyword, upper, keywordOf]
  rw [hkeyword, ← String.toList_eq_nil_iff, String.toList_ofList, keywordOf_eq_nil_iff]

theorem typeKeyword_ofList (h : Stops isBlank s) :
    typeKeyword (String.ofList s) = String.ofList (keywordOf s) := by
  rw [← String.toList_inj, toList_typeKeyword, String.toList_ofList, String.toList_ofList,
    dropWhile_isBlank_of_stops h]

theorem stops_isBlank_of_identifier (h : ∀ c ∈ s, isIdentifier c = true) : Stops isBlank s :=
  fun c hc => isBlank_of_isIdentifier (h c (List.mem_of_mem_head? hc))

theorem typeKeyword_typeKeyword (text : String) :
    typeKeyword (typeKeyword text) = typeKeyword text := by
  have hkeyword : typeKeyword text =
      String.ofList (keywordOf (text.toList.dropWhile isBlank)) := by
    rw [← toList_typeKeyword, String.ofList_toList]
  have hstops : Stops isBlank (keywordOf (text.toList.dropWhile isBlank)) :=
    stops_isBlank_of_identifier mem_takeWhile
  rw [hkeyword, typeKeyword_ofList hstops, keywordOf_keywordOf]

theorem typeKeyword_upper (text : String) : typeKeyword (upper text) = typeKeyword text := by
  rw [← String.toList_inj, toList_typeKeyword, toList_typeKeyword, upper, String.toList_ofList,
    dropWhile_flatMap_upperChar, keywordOf_flatMap_upperChar]

/-! ## Keywords that are not known -/

/-- The keywords that stand in the table of types, and the empty one. -/
def keywords : List String :=
  ["", "VARCHAR", "TEXT", "BOOLEAN", "INTEGER", "SERIAL", "TIMESTAMP", "JSONB"]

theorem ofTypeKeyword_of_not_mem {keyword : String} (h : keyword ∉ keywords) :
    ofTypeKeyword keyword = fallback := by
  unfold ofTypeKeyword
  split
  case h_9 => rfl
  all_goals exact absurd (by decide) h

theorem ofTypeKeyword_eq_plain_iff {keyword : String} :
    ofTypeKeyword keyword = ⟨.string, none⟩ ↔ keyword = "" := by
  unfold ofTypeKeyword
  split
  case h_1 => exact ⟨fun _ => rfl, fun _ => rfl⟩
  case h_9 hne _ _ _ _ _ _ _ => simpa [fallback] using hne
  all_goals decide

/-- No known keyword ends with the text. -/
def Foreign (w : List Char) : Prop :=
  ∀ keyword ∈ keywords, ¬ w <:+ keyword.toList

theorem Foreign.append (h : Foreign w) : Foreign (v ++ w) := fun keyword hkeyword hsuffix =>
  h keyword hkeyword ((List.suffix_append v w).trans hsuffix)

theorem Foreign.ofTypeKeyword_eq (h : Foreign w) :
    ofTypeKeyword (String.ofList w) = fallback := by
  refine ofTypeKeyword_of_not_mem fun hmem => h _ hmem ?_
  simp only [String.toList_ofList, List.suffix_refl]

theorem foreign_cons (h : ∀ keyword ∈ keywords, c ∉ keyword.toList) : Foreign (c :: w) :=
  fun keyword hkeyword hsuffix => h keyword hkeyword (hsuffix.mem List.mem_cons_self)

/-- A known keyword is of ASCII. -/
theorem foreign_of_beyond (hc : 128 ≤ c.toNat) : Foreign (c :: w) := by
  have hascii : ∀ keyword ∈ keywords, ∀ c ∈ keyword.toList, c.toNat < 128 := by decide
  refine foreign_cons fun keyword hkeyword hmem => ?_
  have := hascii keyword hkeyword c hmem
  omega

theorem foreign_of_beginsBeyond (h : BeginsBeyond w) :
    Foreign ((w ++ s).takeWhile isIdentifier) := by
  obtain ⟨d, t, rfl, hidentifier, hd⟩ := h
  rw [List.cons_append, List.takeWhile_cons_of_pos hidentifier]
  exact foreign_of_beyond hd

/-- Two keywords that are equal, or neither of them known. -/
def Equivalent (v w : List Char) : Prop :=
  v = w ∨ Foreign v ∧ Foreign w

theorem Equivalent.append (h : Equivalent v w) : Equivalent (s ++ v) (s ++ w) :=
  h.imp (congrArg (s ++ ·)) fun h => ⟨h.1.append, h.2.append⟩

theorem Equivalent.ofTypeKeyword_eq (h : Equivalent v w) :
    ofTypeKeyword (String.ofList v) = ofTypeKeyword (String.ofList w) := by
  obtain rfl | ⟨hv, hw⟩ := h
  · rfl
  · rw [hv.ofTypeKeyword_eq, hw.ofTypeKeyword_eq]

theorem equivalent_takeWhile_append (h : Equivalent (v.takeWhile isIdentifier)
    (w.takeWhile isIdentifier)) :
    Equivalent ((s ++ v).takeWhile isIdentifier) ((s ++ w).takeWhile isIdentifier) := by
  rw [List.takeWhile_append, List.takeWhile_append]
  split
  · exact h.append
  · exact Or.inl rfl

/-- Of the three letters that have a form beyond ASCII, but one of ASCII if they are lower-cased
first. No known keyword ends with `I`, none has a double `S`, and none has a `K`. -/
theorem foreign_of_special (hc : c = 'İ' ∨ c = 'ẞ' ∨ c = '\u212a') :
    Foreign ((upperChar c ++ v).takeWhile isIdentifier) ∧
      Foreign (((lowerChar c).flatMap upperChar ++ w).takeWhile isIdentifier) := by
  constructor
  · apply foreign_of_beginsBeyond
    have hself : upperChar c = [c] := by
      obtain rfl | rfl | rfl := hc <;> decide
    have hlower : lowerChar c ≠ [c] := by
      obtain rfl | rfl | rfl := hc <;> decide
    have hidentifier : isIdentifier c = true := by
      rw [← Bool.not_eq_false]
      exact fun h => hlower (lowerChar_of_not_isIdentifier h)
    refine ⟨c, [], hself, hidentifier, ?_⟩
    obtain rfl | rfl | rfl := hc <;> decide
  · obtain rfl | rfl | rfl := hc
    · have hform : (lowerChar 'İ').flatMap upperChar = ['I', '\u0307'] := by decide
      have hletter : isIdentifier 'I' = true := by decide
      rw [hform, List.cons_append, List.takeWhile_cons_of_pos hletter, List.cons_append,
        List.takeWhile_cons]
      split
      · exact Foreign.append (v := ['I']) (foreign_of_beyond (by decide))
      · unfold Foreign
        decide
    · have hform : (lowerChar 'ẞ').flatMap upperChar = ['S', 'S'] := by decide
      have hletter : isIdentifier 'S' = true := by decide
      have hsingle : ∀ keyword ∈ keywords, keyword.toList.count 'S' < 2 := by decide
      rw [hform, List.cons_append, List.takeWhile_cons_of_pos hletter, List.cons_append,
        List.takeWhile_cons_of_pos hletter]
      intro keyword hkeyword hsuffix
      have hcount := hsuffix.sublist.count_le 'S'
      have := hsingle keyword hkeyword
      rw [List.count_cons_self, List.count_cons_self] at hcount
      omega
    · have hform : (lowerChar '\u212a').flatMap upperChar = ['K'] := by decide
      have hletter : isIdentifier 'K' = true := by decide
      have hnone : ∀ keyword ∈ keywords, 'K' ∉ keyword.toList := by decide
      rw [hform, List.cons_append, List.takeWhile_cons_of_pos hletter]
      exact foreign_cons hnone

/-- Lower-casing may change a keyword, but then neither form is known. -/
theorem equivalent_keywordOf_lowerFrom (afterCased : Bool) (s : List Char) :
    Equivalent (keywordOf (lowerFrom afterCased s)) (keywordOf s) := by
  induction s generalizing afterCased with
  | nil => exact Or.inl rfl
  | cons c s ih =>
    obtain ⟨image, after, heq, himage⟩ := exists_lowerFrom_cons afterCased c s
    have hform : image.flatMap upperChar = (lowerChar c).flatMap upperChar := by
      obtain rfl | ⟨rfl, rfl⟩ := himage
      · rfl
      · decide
    -- a character whose form changes decides the keyword, and what follows it does not matter
    rw [keywordOf, keywordOf, heq, List.flatMap_append, hform, List.flatMap_cons]
    obtain hsame | ⟨hupper, hlower⟩ | hspecial := upper_lowerChar_cases c
    · rw [hsame]
      exact equivalent_takeWhile_append (ih after)
    · exact Or.inr ⟨foreign_of_beginsBeyond hlower, foreign_of_beginsBeyond hupper⟩
    · exact Or.inr (foreign_of_special hspecial).symm

theorem ofTypeText_eq (text : String) :
    ofTypeText text =
      ofTypeKeyword (String.ofList (keywordOf (text.toList.dropWhile isBlank))) := by
  rw [ofTypeText, ← toList_typeKeyword, String.ofList_toList]

theorem ofTypeText_lower (text : String) : ofTypeText (lower text) = ofTypeText text := by
  obtain ⟨after, hdrop⟩ := exists_dropWhile_lowerFrom false text.toList
  rw [ofTypeText_eq, ofTypeText_eq, lower, String.toList_ofList, hdrop]
  exact (equivalent_keywordOf_lowerFrom after _).ofTypeKeyword_eq

/-- The specification for a type depends on the identifier at its front, in any case. To cut the
keyword out a second time changes nothing, and the keyword, the type in lower case and the type in
upper case have the specification of the type. Blanks in front of the identifier and what stands
behind it do not matter. Only where no identifier stands at the front is a text without a widget
suggested. -/
theorem ofTypeText_follows_identifier (text : String) :
    typeKeyword (typeKeyword text) = typeKeyword text ∧
    ofTypeText (typeKeyword text) = ofTypeText text ∧
    ofTypeText (lower text) = ofTypeText text ∧
    ofTypeText (upper text) = ofTypeText text ∧
    (∀ before identifier behind : List Char, ∀ c : Char, (∀ b ∈ before, isBlank b = true) →
      identifier ≠ [] → (∀ d ∈ identifier, isIdentifier d = true) → isIdentifier c = false →
        typeKeyword (String.ofList (before ++ identifier ++ c :: behind)) =
          typeKeyword (String.ofList identifier)) ∧
    (ofTypeText text = ⟨.string, none⟩ ↔
      trim text = "" ∨ ∃ c rest, (trim text).toList = c :: rest ∧ isIdentifier c = false) := by
  refine ⟨typeKeyword_typeKeyword text, ?_, ofTypeText_lower text, ?_, ?_, ?_⟩
  · rw [ofTypeText, ofTypeText, typeKeyword_typeKeyword]
  · rw [ofTypeText, ofTypeText, typeKeyword_upper]
  · intro before identifier behind c hbefore hne hidentifier hc
    obtain ⟨d, more, rfl⟩ := List.exists_cons_of_ne_nil hne
    have hstops : Stops isBlank (d :: more) := stops_isBlank_of_identifier hidentifier
    have hdrop : (before ++ d :: more ++ c :: behind).dropWhile isBlank =
        d :: more ++ c :: behind := by
      rw [List.append_assoc]
      exact dropWhile_append_of_stops hbefore (stops_cons.mpr (stops_cons.mp hstops))
    rw [typeKeyword_ofList hstops, ← String.toList_inj, toList_typeKeyword, String.toList_ofList,
      String.toList_ofList, hdrop, keywordOf_append (stops_cons.mpr hc)]
  · rw [ofTypeText, ofTypeKeyword_eq_plain_iff, typeKeyword_eq_empty_iff]
    constructor
    · intro h
      cases htrim : (trim text).toList with
      | nil => exact Or.inl (String.toList_eq_nil_iff.mp htrim)
      | cons c rest => exact Or.inr ⟨c, rest, rfl, stops_cons.mp (htrim ▸ h)⟩
    · rintro (hempty | ⟨c, rest, htrim, hc⟩)
      · rw [hempty]
        exact stops_nil
      · rw [htrim]
        exact stops_cons.mpr hc

/-- An identifier with letters that upper-casing makes two of, between wide blanks and a combining
mark, which is no part of an identifier. -/
theorem ofTypeText_follows_identifier_marked :
    (∀ b ∈ ['\u3000', '\t'], isBlank b = true) ∧ "straße_ŉ".toList ≠ [] ∧
      (∀ d ∈ "straße_ŉ".toList, isIdentifier d = true) ∧ isIdentifier '\u0308' = false ∧
      typeKeyword (String.ofList (['\u3000', '\t'] ++ "straße_ŉ".toList ++ '\u0308' :: ['x', ')'])) =
        typeKeyword (String.ofList "straße_ŉ".toList) := by
  have hbefore : ∀ b ∈ ['\u3000', '\t'], isBlank b = true := by decide
  have hne : "straße_ŉ".toList ≠ [] := by decide
  have hidentifier : ∀ d ∈ "straße_ŉ".toList, isIdentifier d = true := by decide +kernel
  have hmark : isIdentifier '\u0308' = false := by decide +kernel
  obtain ⟨-, -, -, -, hlocal, -⟩ := ofTypeText_follows_identifier "straße_ŉ"
  exact ⟨hbefore, hne, hidentifier, hmark,
    hlocal ['\u3000', '\t'] "straße_ŉ".toList ['x', ')'] '\u0308' hbefore hne hidentifier hmark⟩

end FieldSpec

end SchemaChange
