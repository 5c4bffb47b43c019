import SchemaChange.Proofs.JsonScalar
import SchemaChange.Proofs.Parts

/-!
# Texts of JSON values

The texts that denote a JSON value with arrays and objects nested to some depth, as a formal
language for each value. The reader takes these texts and no others, where a number in floating point
denotes what it is scaled to.
-/

namespace SchemaChange.Json

open SchemaChange.Number (Binary64 Numeral)
open SchemaChange.Text (Reader Stops stops_nil stops_cons stops_append afterChar_eq_some_iff)

variable {α : Type} {a : α} {as : List α} {closing opening : Char} {depth n : Nat}
  {gap gap' rest s v w : List Char} {item : Reader α} {forms : α → Language Char}
  {inner : Json → Language Char} {json : Json} {real : Numeral → Binary64 → Prop}

/-- White space, possibly none. -/
def white : Language Char :=
  {w | ∀ c ∈ w, isSpace c = true}

/-! ## Sequences -/

/-- Texts of the given forms with commas between them, and white space around them. -/
def commaTexts : List (Language Char) → Language Char
  | [] => white
  | [item] => white * (item * white)
  | item :: next :: more => white * (item * (white * ({[',']} * commaTexts (next :: more))))

theorem nil_mem_white : [] ∈ white := by
  intro c hc
  cases hc

theorem skipSpace_append (hgap : gap ∈ white) (hs : Stops isSpace s) : skipSpace (gap ++ s) = s :=
  Text.dropWhile_append_of_stops hgap hs

theorem exists_white (s : List Char) :
    ∃ gap ∈ white, s = gap ++ skipSpace s ∧ Stops isSpace (skipSpace s) :=
  ⟨s.takeWhile isSpace, Text.mem_takeWhile, List.takeWhile_append_dropWhile.symm,
    Text.stops_dropWhile _ _⟩

theorem white_append_mem_commaTexts {items : List (Language Char)} (hgap : gap ∈ white)
    (hw : w ∈ commaTexts items) : gap ++ w ∈ commaTexts items := by
  have hwhite {gap' : List Char} (hgap' : gap' ∈ white) : gap ++ gap' ∈ white :=
    List.forall_mem_append.mpr ⟨hgap, hgap'⟩
  match items with
  | [] => exact hwhite hw
  | [item] =>
    obtain ⟨gap', hgap', v, hv, rfl⟩ := Language.mem_mul.mp hw
    rw [← List.append_assoc]
    exact Language.append_mem_mul (hwhite hgap') hv
  | item :: next :: more =>
    obtain ⟨gap', hgap', v, hv, rfl⟩ := Language.mem_mul.mp hw
    rw [← List.append_assoc]
    exact Language.append_mem_mul (hwhite hgap') hv

theorem exists_text_of_itemsUntil
    (hitem : ∀ s a rest, item s = some (a, rest) → ∃ w ∈ forms a, s = w ++ rest)
    (h : itemsUntil closing item n s = some (as, rest)) :
    as ≠ [] ∧ ∃ w ∈ commaTexts (as.map forms), s = w ++ closing :: rest := by
  induction n generalizing s as with
  | zero => cases h
  | succ n ih =>
    simp only [itemsUntil, Option.bind_eq_bind, Option.bind_eq_some_iff] at h
    obtain ⟨⟨a, s'⟩, ha, h⟩ := h
    obtain ⟨gap, hgap, hs, -⟩ := exists_white s
    obtain ⟨v, hv, hfirst⟩ := hitem _ _ _ ha
    obtain ⟨gap', hgap', hs', -⟩ := exists_white s'
    split at h
    · cases h
    · rename_i c t hbehind
      split at h
      · cases h
        rename_i hclosing
        subst hclosing
        refine ⟨by simp, _, Language.append_mem_mul hgap (Language.append_mem_mul hv hgap'), ?_⟩
        simp only [List.append_assoc]
        rw [← hbehind, ← hs', ← hfirst, ← hs]
      · split at h
        · rename_i hcomma
          subst hcomma
          simp only [Option.bind_eq_some_iff, Option.some.injEq, Prod.mk.injEq] at h
          obtain ⟨⟨more, s''⟩, hmore, rfl, rfl⟩ := h
          obtain ⟨hne, w, hw, rfl⟩ := ih hmore
          obtain ⟨b, more, rfl⟩ := List.exists_cons_of_ne_nil hne
          refine ⟨by simp, _, Language.append_mem_mul hgap (Language.append_mem_mul hv
            (Language.append_mem_mul hgap' (Language.append_mem_mul (a := [',']) rfl hw))), ?_⟩
          simp only [List.append_assoc, List.cons_append, List.nil_append]
          rw [← hbehind, ← hs', ← hfirst, ← hs]
        · cases h

theorem exists_text_of_sequence
    (hitem : ∀ s a rest, item s = some (a, rest) → ∃ w ∈ forms a, s = w ++ rest)
    (h : sequence closing item s = some (as, rest)) :
    ∃ w ∈ commaTexts (as.map forms), s = w ++ closing :: rest := by
  obtain ⟨gap, hgap, hs, -⟩ := exists_white s
  unfold sequence at h
  split at h
  · cases h
  · rename_i c t hskip
    rw [hskip] at hs
    split at h
    · rename_i hclosing
      cases h
      exact ⟨gap, hgap, by rw [hs, hclosing]⟩
    · obtain ⟨-, w, hw, heq⟩ := exists_text_of_itemsUntil hitem h
      exact ⟨gap ++ w, white_append_mem_commaTexts hgap hw, by rw [hs, heq, List.append_assoc]⟩

/-- The reader takes the texts of an item, wherever they end, and they begin neither with white space
nor with the closing character. -/
structure Takes (closing : Char) (item : Reader α) (texts : Language Char) (a : α) : Prop where
  read : ∀ v ∈ texts, ∀ rest, Stops isMore rest → item (v ++ rest) = some (a, rest)
  begins : ∀ v ∈ texts, ∃ c t, v = c :: t ∧ isSpace c = false ∧ c ≠ closing

/-- A character that can close a sequence: no white space, no comma and no part of a number. -/
def Closes (c : Char) : Prop :=
  isSpace c = false ∧ c ≠ ',' ∧ isMore c = false

instance (c : Char) : Decidable (Closes c) :=
  inferInstanceAs (Decidable (_ ∧ _))

theorem isMore_of_isSpace {c : Char} (h : isSpace c = true) : isMore c = false := by
  simp only [isSpace, Bool.or_eq_true, beq_iff_eq] at h
  obtain ((rfl | rfl) | rfl) | rfl := h
  all_goals decide

theorem stops_isMore_white_append (hgap : gap ∈ white) (hs : Stops isMore s) :
    Stops isMore (gap ++ s) :=
  stops_append (fun c hc => isMore_of_isSpace (hgap c (List.mem_of_mem_head? hc))) hs

theorem itemsUntil_append (h : ∀ a ∈ as, Takes closing item (forms a) a) (hclosing : Closes closing)
    (hne : as ≠ []) (hw : w ∈ commaTexts (as.map forms)) (hn : as.length ≤ n) :
    itemsUntil closing item n (w ++ closing :: rest) = some (as, rest) := by
  obtain ⟨hspace, hcomma, hmore⟩ := hclosing
  -- One item, with white space around it, in front of a comma or the closing character.
  have hfirst {a : α} {gap v gap' : List Char} {c : Char} (tail : List Char)
      (ha : Takes closing item (forms a) a)
      (hgap : gap ∈ white) (hv : v ∈ forms a) (hgap' : gap' ∈ white) (hc : isMore c = false)
      (hc' : isSpace c = false) :
      item (skipSpace (gap ++ (v ++ (gap' ++ c :: tail)))) = some (a, gap' ++ c :: tail) ∧
        skipSpace (gap' ++ c :: tail) = c :: tail := by
    obtain ⟨d, t, hcons, hd, -⟩ := ha.begins v hv
    rw [skipSpace_append hgap (by rw [hcons]; exact stops_cons.mpr hd),
      skipSpace_append hgap' (stops_cons.mpr hc')]
    exact ⟨ha.read v hv _ (stops_isMore_white_append hgap' (stops_cons.mpr hc)), rfl⟩
  induction as generalizing n w with
  | nil => exact absurd rfl hne
  | cons a more ih =>
    rw [List.forall_mem_cons] at h
    obtain ⟨n, rfl⟩ : ∃ m, n = m + 1 := ⟨n - 1, by simp at hn; omega⟩
    cases more with
    | nil =>
      obtain ⟨gap, hgap, _, hrest, rfl⟩ := Language.mem_mul.mp hw
      obtain ⟨v, hv, gap', hgap', rfl⟩ := Language.mem_mul.mp hrest
      obtain ⟨hread, hbehind⟩ := hfirst rest h.1 hgap hv hgap' hmore hspace
      simp only [itemsUntil, List.append_assoc, hread, Option.bind_eq_bind, Option.bind_some,
        hbehind, if_true]
    | cons b more =>
      obtain ⟨gap, hgap, _, h₁, rfl⟩ := Language.mem_mul.mp hw
      obtain ⟨v, hv, _, h₂, rfl⟩ := Language.mem_mul.mp h₁
      obtain ⟨gap', hgap', _, h₃, rfl⟩ := Language.mem_mul.mp h₂
      obtain ⟨_, rfl, w', hw', rfl⟩ := Language.mem_mul.mp h₃
      obtain ⟨hread, hbehind⟩ := hfirst (c := ',') (w' ++ closing :: rest) h.1 hgap hv
        hgap' (by decide) (by decide)
      have hlater := ih h.2 (by simp) hw' (by simpa using hn)
      simp only [itemsUntil, List.append_assoc, List.cons_append, List.nil_append, hread,
        Option.bind_eq_bind, Option.bind_some, hbehind, if_neg (Ne.symm hcomma), if_true, hlater]

theorem length_le_of_commaTexts {items : List (Language Char)} (hw : w ∈ commaTexts items) :
    items.length ≤ w.length + 1 := by
  induction items generalizing w with
  | nil => simp
  | cons item more ih =>
    cases more with
    | nil => simp
    | cons next more =>
      obtain ⟨gap, -, _, h₁, rfl⟩ := Language.mem_mul.mp hw
      obtain ⟨v, -, _, h₂, rfl⟩ := Language.mem_mul.mp h₁
      obtain ⟨gap', -, _, h₃, rfl⟩ := Language.mem_mul.mp h₂
      obtain ⟨_, rfl, w', hw', rfl⟩ := Language.mem_mul.mp h₃
      have hlength := ih hw'
      simp only [List.length_cons, List.length_append, List.length_nil] at hlength ⊢
      omega

/-- The first item of a sequence, and the sequence without the white space in front of it. -/
theorem exists_first_of_commaTexts {first : Language Char} {items : List (Language Char)}
    (hw : w ∈ commaTexts (first :: items)) : ∃ gap ∈ white, ∃ v ∈ first, ∃ tail,
      w = gap ++ (v ++ tail) ∧ v ++ tail ∈ commaTexts (first :: items) := by
  cases items with
  | nil =>
    obtain ⟨gap, hgap, _, hrest, rfl⟩ := Language.mem_mul.mp hw
    obtain ⟨v, hv, tail, -, rfl⟩ := Language.mem_mul.mp hrest
    exact ⟨gap, hgap, v, hv, tail, rfl, Language.append_mem_mul (a := []) nil_mem_white hrest⟩
  | cons next more =>
    obtain ⟨gap, hgap, _, hrest, rfl⟩ := Language.mem_mul.mp hw
    obtain ⟨v, hv, tail, -, rfl⟩ := Language.mem_mul.mp hrest
    exact ⟨gap, hgap, v, hv, tail, rfl, Language.append_mem_mul (a := []) nil_mem_white hrest⟩

theorem sequence_append (h : ∀ a ∈ as, Takes closing item (forms a) a) (hclosing : Closes closing)
    (hw : w ∈ commaTexts (as.map forms)) :
    sequence closing item (w ++ closing :: rest) = some (as, rest) := by
  cases as with
  | nil =>
    rw [sequence, skipSpace_append hw (stops_cons.mpr hclosing.1)]
    simp
  | cons a more =>
    have ha := h a (by simp)
    obtain ⟨gap, hgap, v, hv, tail, rfl, hmem⟩ := exists_first_of_commaTexts hw
    obtain ⟨d, t, rfl, hd, hd'⟩ := ha.begins v hv
    have hlength := length_le_of_commaTexts hmem
    have hread : itemsUntil closing item (d :: t ++ tail ++ closing :: rest).length
        (d :: t ++ tail ++ closing :: rest) = some (a :: more, rest) := by
      refine itemsUntil_append h hclosing (by simp) hmem ?_
      simp only [List.length_map, List.length_cons, List.length_append] at hlength ⊢
      omega
    have hstops : Stops isSpace (d :: t ++ tail ++ closing :: rest) := stops_cons.mpr hd
    rw [sequence, List.append_assoc, skipSpace_append hgap hstops]
    simpa [hd'] using hread

/-! ## Values -/

/-- A member of an object. -/
def memberTexts (inner : Json → Language Char) (member : String × Json) : Language Char :=
  stringTexts member.1 * (white * ({[':']} * (white * inner member.2)))

/-- The texts of a value that is neither an array nor an object. -/
def scalarTexts (real : Numeral → Binary64 → Prop) : Json → Language Char
  | .null => {['n', 'u', 'l', 'l']}
  | .bool true => {['t', 'r', 'u', 'e']}
  | .bool false => {['f', 'a', 'l', 's', 'e']}
  | .int n => numberTexts real (.int n)
  | .real x => numberTexts real (.real x)
  | .text value => stringTexts value
  | .array _ | .object _ => 0

/-- The texts of an array or an object, whose values have the given texts. In an object that repeats
a name, the last value of the name counts. -/
def nestedTexts (inner : Json → Language Char) : Json → Language Char
  | .array items => {['[']} * (commaTexts (items.map inner) * {[']']})
  | .object members => {w | ∃ pairs, Members.ofPairs pairs = members ∧
      w ∈ {['\x7b']} * (commaTexts (pairs.map (memberTexts inner)) * ({['\x7d']} : Language Char))}
  | _ => 0

/-- The texts of a value in which arrays and objects are nested at most to the given depth. The
relation says what a number in floating point denotes. -/
def texts (real : Numeral → Binary64 → Prop) : Nat → Json → Language Char
  | 0, json => scalarTexts real json
  | depth + 1, json => scalarTexts real json + nestedTexts (texts real depth) json

theorem afterWord_eq_some_iff {letters : List Char} :
    afterWord letters s = some rest ↔ s = letters ++ rest := by
  induction letters generalizing s with
  | nil => simp [afterWord, eq_comm]
  | cons letter letters ih =>
    cases s with
    | nil => simp [afterWord]
    | cons c s =>
      by_cases hc : c = letter
      · simp [afterWord, hc, ih]
      · simp [afterWord, hc]

/-- The reader of a value that is neither an array nor an object. -/
def scalar : Reader Json
  | [] => none
  | c :: s =>
    if c = '"' then (string s).map fun (content, s) => (.text content, s)
    else if c = 'n' then (afterWord ['u', 'l', 'l'] s).map fun s => (.null, s)
    else if c = 't' then (afterWord ['r', 'u', 'e'] s).map fun s => (.bool true, s)
    else if c = 'f' then (afterWord ['a', 'l', 's', 'e'] s).map fun s => (.bool false, s)
    else number (c :: s)

theorem value_of_ne {c : Char} (hbracket : c ≠ '[') (hbrace : c ≠ '\x7b') :
    value depth (c :: s) = scalar (c :: s) := by
  unfold value scalar
  rw [if_neg hbracket, if_neg hbrace]

theorem value_array : value (depth + 1) ('[' :: s) =
    (sequence ']' (value depth) s).map fun (items, s) => (.array items, s) := by
  simp [value]

theorem value_object : value (depth + 1) ('\x7b' :: s) =
    (sequence '\x7d' (namedItem (value depth)) s).map fun (members, s) =>
      (.object (Members.ofPairs members), s) := by
  simp [value]

theorem scalarTexts_of_denotes {n : Numeral} (h : Denotes real n json) :
    scalarTexts real json = numberTexts real json := by
  cases h with
  | int => rfl
  | real => rfl

theorem exists_text_of_scalar (h : scalar s = some (json, rest)) :
    ∃ w ∈ scalarTexts Numeral.ScalesTo json, s = w ++ rest := by
  cases s with
  | nil => cases h
  | cons c s =>
    rw [scalar] at h
    split_ifs at h with hquote hnull htrue hfalse
    · obtain ⟨⟨content, s'⟩, hstring, heq⟩ := Option.map_eq_some_iff.mp h
      cases heq
      rw [hquote]
      exact string_eq_some_iff.mp hstring
    · obtain ⟨s', hword, heq⟩ := Option.map_eq_some_iff.mp h
      cases heq
      exact ⟨_, rfl, by rw [hnull, afterWord_eq_some_iff.mp hword]; rfl⟩
    · obtain ⟨s', hword, heq⟩ := Option.map_eq_some_iff.mp h
      cases heq
      exact ⟨_, rfl, by rw [htrue, afterWord_eq_some_iff.mp hword]; rfl⟩
    · obtain ⟨s', hword, heq⟩ := Option.map_eq_some_iff.mp h
      cases heq
      exact ⟨_, rfl, by rw [hfalse, afterWord_eq_some_iff.mp hword]; rfl⟩
    · obtain ⟨w, hw, heq⟩ := exists_text_of_number h
      obtain ⟨n, -, hvalue⟩ := id hw
      rw [scalarTexts_of_denotes hvalue]
      exact ⟨w, hw, heq⟩

theorem exists_text_of_namedItem {read : Reader Json} {member : String × Json}
    (hread : ∀ s json rest, read s = some (json, rest) → ∃ w ∈ inner json, s = w ++ rest)
    (h : namedItem read s = some (member, rest)) :
    ∃ w ∈ memberTexts inner member, s = w ++ rest := by
  simp only [namedItem, Option.bind_eq_bind, Option.bind_eq_some_iff, Option.some.injEq,
    Prod.mk.injEq] at h
  obtain ⟨s₁, hquote, ⟨name, s₂⟩, hstring, s₃, hcolon, ⟨json, s₄⟩, hvalue, rfl, rfl⟩ := h
  obtain rfl := afterChar_eq_some_iff.mp hquote
  obtain ⟨v, hv, heq⟩ := string_eq_some_iff.mp hstring
  obtain ⟨gap, hgap, hs₂, -⟩ := exists_white s₂
  obtain ⟨gap', hgap', hs₃, -⟩ := exists_white s₃
  obtain ⟨w, hw, hs₄⟩ := hread _ _ _ hvalue
  refine ⟨_, Language.append_mem_mul hv (Language.append_mem_mul hgap
    (Language.append_mem_mul (a := [':']) rfl (Language.append_mem_mul hgap' hw))), ?_⟩
  simp only [List.append_assoc, List.cons_append, List.nil_append]
  rw [← hs₄, ← hs₃, ← afterChar_eq_some_iff.mp hcolon, ← hs₂, heq]

theorem scalarTexts_le_texts (h : w ∈ scalarTexts real json) : w ∈ texts real depth json := by
  cases depth with
  | zero => exact h
  | succ depth => exact Or.inl h

/-- What is read as a value is a text of it. -/
theorem exists_text_of_value (h : value depth s = some (json, rest)) :
    ∃ w ∈ texts Numeral.ScalesTo depth json, s = w ++ rest := by
  induction depth generalizing s json rest with
  | zero =>
    cases s with
    | nil => cases h
    | cons c s =>
      by_cases hbracket : c = '['
      · simp [value, hbracket] at h
      · by_cases hbrace : c = '\x7b'
        · simp [value, hbrace] at h
        · rw [value_of_ne hbracket hbrace] at h
          exact exists_text_of_scalar h
  | succ depth ih =>
    have hinner : ∀ s json rest, value depth s = some (json, rest) →
        ∃ w ∈ texts Numeral.ScalesTo depth json, s = w ++ rest := fun _ _ _ => ih
    cases s with
    | nil => cases h
    | cons c s =>
      by_cases hbracket : c = '['
      · subst hbracket
        rw [value_array] at h
        obtain ⟨⟨items, s'⟩, hitems, heq⟩ := Option.map_eq_some_iff.mp h
        cases heq
        obtain ⟨w, hw, rfl⟩ := exists_text_of_sequence hinner hitems
        refine ⟨_, Or.inr (Language.append_mem_mul (a := ['[']) rfl
          (Language.append_mem_mul hw (b := [']']) rfl)), by simp⟩
      · by_cases hbrace : c = '\x7b'
        · subst hbrace
          rw [value_object] at h
          obtain ⟨⟨pairs, s'⟩, hpairs, heq⟩ := Option.map_eq_some_iff.mp h
          cases heq
          obtain ⟨w, hw, rfl⟩ := exists_text_of_sequence
            (fun _ _ _ => exists_text_of_namedItem hinner) hpairs
          refine ⟨_, Or.inr ⟨pairs, rfl, Language.append_mem_mul (a := ['\x7b']) rfl
            (Language.append_mem_mul hw (b := ['\x7d']) rfl)⟩, by simp⟩
        · rw [value_of_ne hbracket hbrace] at h
          obtain ⟨w, hw, heq⟩ := exists_text_of_scalar h
          exact ⟨w, scalarTexts_le_texts hw, heq⟩

/-- A reader of values that takes the texts of a value makes one that takes the members with it. -/
theorem takes_namedItem {read : Reader Json} {member : String × Json}
    (h : Takes '\x7d' read (inner member.2) member.2) :
    Takes '\x7d' (namedItem read) (memberTexts inner member) member := by
  constructor
  · intro w hw rest hrest
    obtain ⟨v, hv, _, h₁, rfl⟩ := Language.mem_mul.mp hw
    obtain ⟨gap, hgap, _, h₂, rfl⟩ := Language.mem_mul.mp h₁
    obtain ⟨_, rfl, _, h₃, rfl⟩ := Language.mem_mul.mp h₂
    obtain ⟨gap', hgap', w, hmem, rfl⟩ := Language.mem_mul.mp h₃
    obtain ⟨c, t, rfl, hc, -⟩ := h.begins w hmem
    have hread := h.read _ hmem rest hrest
    obtain ⟨u, -, rfl⟩ := id hv
    have hstring := string_eq_some_iff
      (s := u ++ ['"'] ++ (gap ++ (':' :: (gap' ++ (c :: t ++ rest))))) |>.mpr ⟨_, hv, rfl⟩
    have hcolon : Stops isSpace (':' :: (gap' ++ (c :: t ++ rest))) := stops_cons.mpr (by decide)
    have hvalue : Stops isSpace (c :: t ++ rest) := stops_cons.mpr hc
    simp only [List.append_assoc, List.cons_append, List.nil_append] at hstring hcolon hvalue hread ⊢
    simp only [namedItem, Option.bind_eq_bind, Text.afterChar_cons, Option.bind_some, hstring,
      skipSpace_append hgap hcolon, skipSpace_append hgap' hvalue, hread]
  · intro w hw
    obtain ⟨_, ⟨u, -, rfl⟩, t, -, rfl⟩ := Language.mem_mul.mp hw
    exact ⟨'"', _, rfl, by decide, by decide⟩

theorem mem_texts_of_value (h : value depth s = some (json, [])) :
    s ∈ texts Numeral.ScalesTo depth json := by
  obtain ⟨w, hw, rfl⟩ := exists_text_of_value h
  rwa [List.append_nil]

/-- The characters with which a text of a value begins. -/
def Begins (c : Char) : Prop :=
  c ∈ ['"', '[', '\x7b', 'n', 't', 'f', '-'] ∨ c.isDigit = true

theorem begins_of_begins {c : Char} (h : Begins c) :
    isSpace c = false ∧ c ≠ ']' ∧ c ≠ '\x7d' := by
  obtain h | h := h
  · revert c
    decide
  · refine ⟨?_, ?_, ?_⟩
    · rw [← Bool.not_eq_true]
      intro hspace
      have := isMore_of_isSpace hspace
      rw [isMore, h] at this
      cases this
    · rintro rfl
      exact absurd h (by decide)
    · rintro rfl
      exact absurd h (by decide)

theorem begins_of_numberTexts (hw : w ∈ numberTexts Numeral.ScalesTo json) :
    ∃ c t, w = c :: t ∧ (c = '-' ∨ c.isDigit = true) := by
  obtain ⟨n, hn, -⟩ := hw
  obtain ⟨sign, hsign, v, hv, rfl⟩ := Language.mem_mul.mp hn
  obtain ⟨d, t, rfl, hd⟩ := exists_digit_of_unsignedTexts hv
  cases hnegative : n.negative with
  | true =>
    rw [hnegative] at hsign
    obtain rfl : sign = ['-'] := hsign
    exact ⟨'-', d :: t, rfl, Or.inl rfl⟩
  | false =>
    rw [hnegative] at hsign
    obtain rfl : sign = [] := hsign
    exact ⟨d, t, rfl, Or.inr hd⟩

/-- A text of a scalar is read as the scalar. -/
theorem scalar_append (hw : w ∈ scalarTexts Numeral.ScalesTo json) (hrest : Stops isMore rest) :
    scalar (w ++ rest) = some (json, rest) ∧
      ∃ c t, w = c :: t ∧ Begins c ∧ c ≠ '[' ∧ c ≠ '\x7b' := by
  have hnumber (hw : w ∈ numberTexts Numeral.ScalesTo json) :
      scalar (w ++ rest) = some (json, rest) ∧
        ∃ c t, w = c :: t ∧ Begins c ∧ c ≠ '[' ∧ c ≠ '\x7b' := by
    have hread := number_append hw hrest
    obtain ⟨c, t, rfl, hc⟩ := begins_of_numberTexts hw
    have hne (d : Char) (hd : d ≠ '-') (hd' : d.isDigit = false) : c ≠ d := by
      rintro rfl
      obtain rfl | hc := hc
      · exact hd rfl
      · rw [hc] at hd'
        cases hd'
    refine ⟨?_, c, t, rfl, hc.imp (by rintro rfl; decide) id, hne _ (by decide) (by decide),
      hne _ (by decide) (by decide)⟩
    rw [List.cons_append, scalar, if_neg (hne '"' (by decide) (by decide)),
      if_neg (hne 'n' (by decide) (by decide)), if_neg (hne 't' (by decide) (by decide)),
      if_neg (hne 'f' (by decide) (by decide))]
    exact hread
  cases json with
  | null =>
    obtain rfl : w = ['n', 'u', 'l', 'l'] := hw
    exact ⟨rfl, 'n', _, rfl, Or.inl (by decide), by decide, by decide⟩
  | bool b =>
    cases b with
    | true =>
      obtain rfl : w = ['t', 'r', 'u', 'e'] := hw
      exact ⟨rfl, 't', _, rfl, Or.inl (by decide), by decide, by decide⟩
    | false =>
      obtain rfl : w = ['f', 'a', 'l', 's', 'e'] := hw
      exact ⟨rfl, 'f', _, rfl, Or.inl (by decide), by decide, by decide⟩
  | int n => exact hnumber hw
  | real x => exact hnumber hw
  | text content =>
    obtain ⟨v, hv, rfl⟩ := id hw
    have hread := string_eq_some_iff.mpr ⟨_, hw, (by simp : '"' :: (v ++ '"' :: rest) = _ ++ rest)⟩
    refine ⟨?_, '"', _, rfl, Or.inl (by decide), by decide, by decide⟩
    simp [scalar, hread]
  | array items => cases hw
  | object members => cases hw

theorem value_append_of_scalar (hw : w ∈ scalarTexts Numeral.ScalesTo json)
    (hrest : Stops isMore rest) :
    value depth (w ++ rest) = some (json, rest) := by
  obtain ⟨hread, c, t, rfl, -, hbracket, hbrace⟩ := scalar_append hw hrest
  rw [List.cons_append, value_of_ne hbracket hbrace, ← List.cons_append, hread]

theorem begins_of_texts (hw : w ∈ texts Numeral.ScalesTo depth json) :
    ∃ c t, w = c :: t ∧ Begins c := by
  have hscalar (hw : w ∈ scalarTexts Numeral.ScalesTo json) : ∃ c t, w = c :: t ∧ Begins c := by
    obtain ⟨-, c, t, rfl, hc, -⟩ := scalar_append hw stops_nil
    exact ⟨c, t, rfl, hc⟩
  cases depth with
  | zero => exact hscalar hw
  | succ depth =>
    obtain hw | hw := hw
    · exact hscalar hw
    · cases json with
      | array items =>
        obtain ⟨_, rfl, t, -, rfl⟩ := Language.mem_mul.mp hw
        exact ⟨'[', t, rfl, Or.inl (by decide)⟩
      | object members =>
        obtain ⟨pairs, -, hpairs⟩ := hw
        obtain ⟨_, rfl, t, -, rfl⟩ := Language.mem_mul.mp hpairs
        exact ⟨'\x7b', t, rfl, Or.inl (by decide)⟩
      | _ => cases hw

/-- A text of a value is read as the value. -/
theorem value_append (hw : w ∈ texts Numeral.ScalesTo depth json) (hrest : Stops isMore rest) :
    value depth (w ++ rest) = some (json, rest) := by
  induction depth generalizing json w rest with
  | zero => exact value_append_of_scalar hw hrest
  | succ depth ih =>
    have htakes (closing : Char) (hclosing : closing = ']' ∨ closing = '\x7d') (json : Json) :
        Takes closing (value depth) (texts Numeral.ScalesTo depth json) json := by
      refine ⟨fun v hv rest hrest => ih hv hrest, fun v hv => ?_⟩
      obtain ⟨c, t, rfl, hc⟩ := begins_of_texts hv
      obtain ⟨hspace, hbracket, hbrace⟩ := begins_of_begins hc
      refine ⟨c, t, rfl, hspace, ?_⟩
      rintro rfl
      exact hclosing.elim hbracket hbrace
    obtain hw | hw := hw
    · exact value_append_of_scalar hw hrest
    · cases json with
      | array items =>
        obtain ⟨_, rfl, _, h₁, rfl⟩ := Language.mem_mul.mp hw
        obtain ⟨v, hv, _, rfl, rfl⟩ := Language.mem_mul.mp h₁
        have hread : sequence ']' (value depth) (v ++ ']' :: rest) = some (items, rest) :=
          sequence_append (fun item _ => htakes ']' (Or.inl rfl) item) (by decide) hv
        simp [value_array, hread]
      | object members =>
        obtain ⟨pairs, rfl, hpairs⟩ := hw
        obtain ⟨_, rfl, _, h₁, rfl⟩ := Language.mem_mul.mp hpairs
        obtain ⟨v, hv, _, rfl, rfl⟩ := Language.mem_mul.mp h₁
        have hread : sequence '\x7d' (namedItem (value depth)) (v ++ '\x7d' :: rest) =
            some (pairs, rest) :=
          sequence_append (fun member _ => takes_namedItem (htakes '\x7d' (Or.inr rfl) member.2))
            (by decide) hv
        simp [value_object, hread]
      | _ => cases hw

/-- A whole text is read as a value exactly if it is a text of the value between white space. -/
theorem ofChars?_eq_some_iff : ofChars? s = some json ↔
    s ∈ white * (texts Numeral.ScalesTo greatestDepth json * white) := by
  constructor
  · intro h
    simp only [ofChars?, Option.bind_eq_bind, Option.bind_eq_some_iff] at h
    obtain ⟨⟨json', rest⟩, hvalue, h⟩ := h
    split at h
    · rename_i hempty
      cases h
      obtain ⟨gap, hgap, hs, -⟩ := exists_white s
      obtain ⟨w, hw, heq⟩ := exists_text_of_value hvalue
      obtain ⟨gap', hgap', hrest, -⟩ := exists_white rest
      rw [List.isEmpty_iff.mp hempty, List.append_nil] at hrest
      rw [hs, heq, hrest]
      exact Language.append_mem_mul hgap (Language.append_mem_mul hw hgap')
    · cases h
  · intro h
    obtain ⟨gap, hgap, _, h₁, rfl⟩ := Language.mem_mul.mp h
    obtain ⟨w, hw, gap', hgap', rfl⟩ := Language.mem_mul.mp h₁
    have hread := value_append hw (stops_isMore_white_append hgap' stops_nil)
    obtain ⟨c, t, rfl, hc⟩ := begins_of_texts hw
    have hskip : skipSpace gap' = [] := by
      simpa using skipSpace_append hgap' stops_nil
    have hstops : Stops isSpace (c :: t ++ gap') := stops_cons.mpr (begins_of_begins hc).1
    rw [List.append_nil] at hread
    simp only [ofChars?, skipSpace_append hgap hstops, hread, hskip, Option.bind_eq_bind,
      Option.bind_some, List.isEmpty_nil, if_true]

end SchemaChange.Json
