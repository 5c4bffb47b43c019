import SchemaChange.Proofs.Form

/-!
# What the parts of a reader take

Each part takes a text of its form from the front and leaves the rest. Where a part goes on as long
as it can, the rest does not go on with it; the readers of statements need no other look ahead.
-/

namespace SchemaChange.Text

open Form (keyword blanks space phrase perhaps IsPlain Lacks)

variable {s rest : List Char} {letters : String} {keywords : List String}

theorem afterKeyword_eq_some_iff :
    afterKeyword letters.toList s = some rest ↔ ∃ w ∈ keyword letters, s = w ++ rest := by
  change _ ↔ ∃ w, List.Forall₂ (fun letter c => standsFor letter c = true) letters.toList w ∧ _
  generalize letters.toList = letters
  induction letters generalizing s with
  | nil => simp [afterKeyword]
  | cons letter letters ih =>
    cases s with
    | nil => simp [afterKeyword, List.forall₂_cons_left_iff]
    | cons c s =>
      simp only [afterKeyword, List.forall₂_cons_left_iff]
      constructor
      · intro h
        split at h
        · rename_i hstands
          obtain ⟨w, hw, rfl⟩ := ih.mp h
          exact ⟨c :: w, ⟨c, w, hstands, hw, rfl⟩, rfl⟩
        · cases h
      · rintro ⟨_, ⟨d, w, hstands, hw, rfl⟩, heq⟩
        obtain ⟨rfl, rfl⟩ := List.cons.inj heq
        rw [if_pos hstands]
        exact ih.mpr ⟨w, hw, rfl⟩

theorem afterBlanks_eq_some_iff :
    afterBlanks s = some rest ↔ (∃ w ∈ blanks, s = w ++ rest) ∧ Stops isBlank rest := by
  constructor
  · intro h
    cases s with
    | nil => cases h
    | cons c s =>
      simp only [afterBlanks] at h
      split at h
      · rename_i hc
        obtain rfl := Option.some.inj h
        refine ⟨⟨c :: s.takeWhile isBlank, ⟨by simp, ?_⟩, ?_⟩, stops_dropWhile _ _⟩
        · exact List.forall_mem_cons.mpr ⟨hc, mem_takeWhile⟩
        · rw [List.cons_append, List.takeWhile_append_dropWhile]
      · cases h
  · rintro ⟨⟨w, ⟨hne, hall⟩, rfl⟩, hstops⟩
    cases w with
    | nil => exact absurd rfl hne
    | cons c w =>
      obtain ⟨hc, hw⟩ := List.forall_mem_cons.mp hall
      simp [afterBlanks, hc, dropWhile_append_of_stops hw hstops]

theorem word_eq_some_iff {name : String} :
    word s = some (name, rest) ↔
      (∃ w ∈ Form.word, name = String.ofList w ∧ s = w ++ rest) ∧ Stops isWord rest := by
  unfold word
  constructor
  · intro h
    split at h
    · cases h
    · rename_i hne
      obtain ⟨rfl, rfl⟩ := Prod.mk.inj (Option.some.inj h)
      refine ⟨⟨s.takeWhile isWord, ⟨hne, mem_takeWhile⟩, rfl, ?_⟩, stops_dropWhile _ _⟩
      rw [List.takeWhile_append_dropWhile]
  · rintro ⟨⟨w, ⟨hne, hall⟩, rfl, rfl⟩, hstops⟩
    rw [takeWhile_append_of_stops hall hstops, dropWhile_append_of_stops hall hstops]
    cases w with
    | nil => exact absurd rfl hne
    | cons c w => rfl

theorem word_append {w : List Char} (hw : w ∈ Form.word) (hrest : Stops isWord rest) :
    word (w ++ rest) = some (String.ofList w, rest) :=
  word_eq_some_iff.mpr ⟨⟨w, hw, rfl, rfl⟩, hrest⟩

theorem afterBlanks_append {w : List Char} (hw : w ∈ blanks) (hrest : Stops isBlank rest) :
    afterBlanks (w ++ rest) = some rest :=
  afterBlanks_eq_some_iff.mpr ⟨⟨w, hw, rfl⟩, hrest⟩

theorem exists_space_dropWhile (s : List Char) :
    ∃ w ∈ space, s = w ++ s.dropWhile isBlank :=
  ⟨s.takeWhile isBlank, mem_takeWhile, List.takeWhile_append_dropWhile.symm⟩

theorem afterChar_eq_some_iff {c : Char} : afterChar c s = some rest ↔ s = c :: rest := by
  cases s with
  | nil => simp [afterChar]
  | cons d s => simp [afterChar]

@[simp] theorem afterChar_cons {c : Char} : afterChar c (c :: rest) = some rest :=
  afterChar_eq_some_iff.mpr rfl

theorem exists_phrase_of_afterPhrase (h : afterPhrase keywords s = some rest) :
    ∃ w ∈ phrase keywords, s = w ++ rest := by
  induction keywords generalizing s with
  | nil => exact ⟨[], rfl, Option.some.inj h⟩
  | cons letters more ih =>
    simp only [afterPhrase, Option.bind_eq_bind, Option.bind_eq_some_iff] at h
    obtain ⟨s₁, hafter, s₂, hblanks, hmore⟩ := h
    obtain ⟨key, hkey, rfl⟩ := afterKeyword_eq_some_iff.mp hafter
    obtain ⟨⟨gap, hgap, rfl⟩, -⟩ := afterBlanks_eq_some_iff.mp hblanks
    obtain ⟨w, hw, rfl⟩ := ih hmore
    exact ⟨key ++ (gap ++ w), Language.append_mem_mul hkey (Language.append_mem_mul hgap hw),
      by simp⟩

theorem afterPhrase_append (hplain : ∀ letters ∈ keywords, IsPlain letters) {w : List Char}
    (hw : w ∈ phrase keywords) (hrest : Stops isBlank rest) :
    afterPhrase keywords (w ++ rest) = some rest := by
  induction keywords generalizing w with
  | nil =>
    obtain rfl : w = [] := hw
    rfl
  | cons letters more ih =>
    obtain ⟨key, hkey, _, htail, rfl⟩ := Language.mem_mul.mp hw
    obtain ⟨gap, hgap, last, hlast, rfl⟩ := Language.mem_mul.mp htail
    simp only [List.forall_mem_cons] at hplain
    have hstops : Stops isBlank (last ++ rest) := by
      cases more with
      | nil =>
        obtain rfl : last = [] := hlast
        exact hrest
      | cons next more => exact Form.stops_blank_of_phrase (hplain.2 next (by simp)) hlast
    simp only [afterPhrase, Option.bind_eq_bind, Option.bind_eq_some_iff, List.append_assoc]
    exact ⟨_, afterKeyword_eq_some_iff.mpr ⟨key, hkey, rfl⟩, _,
      afterBlanks_eq_some_iff.mpr ⟨⟨gap, hgap, rfl⟩, hstops⟩, ih hplain.2 hlast⟩

theorem afterPhrase_eq_none_of_lacks (h : Lacks letters s) :
    afterPhrase (letters :: keywords) s = none := by
  cases hfound : afterPhrase (letters :: keywords) s with
  | none => rfl
  | some rest =>
    obtain ⟨_, hphrase, heq⟩ := exists_phrase_of_afterPhrase hfound
    obtain ⟨key, hkey, tail, -, rfl⟩ := Language.mem_mul.mp hphrase
    rw [List.append_assoc] at heq
    exact absurd heq (h key hkey _)

/-- A phrase is not found where its second keyword does not follow the first word. -/
theorem afterPhrase_eq_none_of_second {second : String} {name gap : List Char}
    (hfirst : IsPlain letters) (hsecond : IsPlain second) (hname : name ∈ Form.word)
    (hgap : gap ∈ space) (hword : Stops isWord (gap ++ rest)) (hblank : Stops isBlank rest)
    (hlacks : Lacks second rest) :
    afterPhrase (letters :: second :: keywords) (name ++ (gap ++ rest)) = none := by
  cases hfound : afterPhrase (letters :: second :: keywords) (name ++ (gap ++ rest)) with
  | none => rfl
  | some rest' =>
    obtain ⟨_, hphrase, heq⟩ := exists_phrase_of_afterPhrase hfound
    obtain ⟨key, hkey, _, htail, rfl⟩ := Language.mem_mul.mp hphrase
    obtain ⟨gap', hgap', _, hmore, rfl⟩ := Language.mem_mul.mp htail
    obtain ⟨key', hkey', tail, -, rfl⟩ := Language.mem_mul.mp hmore
    simp only [List.append_assoc] at heq
    obtain ⟨-, heq⟩ := append_inj_of_stops hname.2 hword (Form.keyword_subset_word hfirst hkey).2
      (Form.stops_word_of_blanks hgap') heq
    obtain ⟨-, heq⟩ := append_inj_of_stops hgap hblank hgap'.2
      (Form.stops_blank_of_word (Form.keyword_subset_word hsecond hkey')) heq
    exact absurd heq (hlacks key' hkey' _)

theorem skipPhrase_append (hplain : ∀ letters ∈ keywords, IsPlain letters) {w : List Char}
    (hw : w ∈ perhaps keywords) (hrest : Stops isBlank rest)
    (hnone : w = [] → afterPhrase keywords rest = none) :
    skipPhrase keywords (w ++ rest) = rest := by
  obtain hw | hw := hw
  · obtain rfl : w = [] := hw
    simp [skipPhrase, hnone rfl]
  · simp [skipPhrase, afterPhrase_append hplain hw hrest]

/-- `IF NOT EXISTS` is passed over, and a name in its place is not taken for it where the text goes
on otherwise. -/
theorem skipPhrase_guard {given name gap : List Char} (hgiven : given ∈ Form.guard)
    (hname : name ∈ Form.word) (hgap : gap ∈ space) (hword : Stops isWord (gap ++ rest))
    (hblank : Stops isBlank rest) (hlacks : Lacks "NOT" rest) :
    skipPhrase ["IF", "NOT", "EXISTS"] (given ++ (name ++ (gap ++ rest))) =
      name ++ (gap ++ rest) :=
  skipPhrase_append (by decide) hgiven (Form.stops_blank_of_word hname) fun _ =>
    afterPhrase_eq_none_of_second (by decide) (by decide) hname hgap hword hblank hlacks

theorem exists_perhaps_skipPhrase (keywords : List String) (s : List Char) :
    ∃ w ∈ perhaps keywords, s = w ++ skipPhrase keywords s := by
  cases h : afterPhrase keywords s with
  | none => exact ⟨[], Or.inl rfl, by simp [skipPhrase, h]⟩
  | some rest =>
    obtain ⟨w, hw, rfl⟩ := exists_phrase_of_afterPhrase h
    exact ⟨w, Or.inr hw, by simp [skipPhrase, h]⟩

end SchemaChange.Text

namespace SchemaChange.Statement

open SchemaChange.Text
open Form (without)

variable {s rest : List Char}

theorem parenthesized_eq_some_iff {inner : List Char} :
    parenthesized s = some (inner, rest) ↔ inner ∈ without ')' ∧ s = inner ++ ')' :: rest := by
  unfold parenthesized
  simp only [Option.bind_eq_bind, Option.bind_eq_some_iff, afterChar_eq_some_iff]
  constructor
  · rintro ⟨rest', hdrop, h⟩
    split at h
    · cases h
    · rename_i hne
      obtain ⟨rfl, rfl⟩ := Prod.mk.inj (Option.some.inj h)
      refine ⟨⟨by simpa using hne, fun hmem => ?_⟩, ?_⟩
      · simpa using mem_takeWhile _ hmem
      · rw [← hdrop, List.takeWhile_append_dropWhile]
  · rintro ⟨⟨hne, hnot⟩, rfl⟩
    have hall := bne_of_not_mem hnot
    refine ⟨rest, dropWhile_append_of_stops hall (by simp), ?_⟩
    rw [takeWhile_append_of_stops hall (by simp)]
    simp [hne]

theorem parenthesized_append {inner : List Char} (h : inner ∈ without ')') :
    parenthesized (inner ++ ')' :: rest) = some (inner, rest) :=
  parenthesized_eq_some_iff.mpr ⟨h, rfl⟩

theorem tableBody_eq_some_iff {body : List Char} :
    tableBody s = some (body, rest) ↔
      ¬ [')', ';'] <:+: body ∧ s = body ++ ')' :: ';' :: rest := by
  fun_induction tableBody s generalizing body with
  | case1 => simp
  | case2 s =>
    constructor
    · intro h
      obtain ⟨rfl, rfl⟩ := Prod.mk.inj (Option.some.inj h)
      simp
    · rintro ⟨hbody, h⟩
      match body with
      | [] => simpa using h
      | [c] => simp at h
      | c :: d :: body =>
        obtain ⟨rfl, rfl, -⟩ := by simpa using h
        exact absurd (List.prefix_append [')', ';'] body).isInfix hbody
  | case3 c s hends ih =>
    simp only [Option.map_eq_some_iff, Prod.exists, Prod.mk.injEq]
    constructor
    · rintro ⟨inner, rest', h, rfl, rfl⟩
      obtain ⟨hinner, rfl⟩ := ih.mp h
      refine ⟨?_, rfl⟩
      intro hbody
      obtain hfirst | hlater := List.infix_cons_iff.mp hbody
      · obtain ⟨rfl, tail, rfl⟩ := List.cons_prefix_cons.mp hfirst
        exact hends _ rfl rfl
      · exact hinner hlater
    · rintro ⟨hbody, h⟩
      match body with
      | [] =>
        obtain ⟨rfl, rfl⟩ := List.cons.inj h
        exact absurd rfl (hends _ rfl)
      | d :: inner =>
        obtain ⟨rfl, rfl⟩ := List.cons.inj h
        have hinner : ¬ [')', ';'] <:+: inner := fun hin =>
          hbody (List.infix_cons_iff.mpr (Or.inr hin))
        exact ⟨inner, rest, ih.mpr ⟨hinner, rfl⟩, rfl, rfl⟩

theorem tableBody_append {body : List Char} (h : ¬ [')', ';'] <:+: body) :
    tableBody (body ++ ')' :: ';' :: rest) = some (body, rest) :=
  tableBody_eq_some_iff.mpr ⟨h, rfl⟩

end SchemaChange.Statement
