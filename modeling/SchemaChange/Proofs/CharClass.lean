import SchemaChange.Proofs.CodePointSet
import SchemaChange.Text.Pieces
import SchemaChange.Text.Reader

/-!
# How the classes of characters lie to each other

Blanks and the characters of words are apart, and what stands for a letter of a keyword belongs to
a word. So a keyword, a name and the blanks around them can be told apart by their first character.
-/

namespace SchemaChange.Text

open Unicode (Spans alphabetic connector decimalDigit joinControl mark otherNumber union whiteSpace)

/-- What holds of the characters of a text is decided along the text. The other way would be to go
through all characters there are. -/
instance (priority := high) decidableForallMem (p : Char → Prop) [DecidablePred p] (s : List Char) :
    Decidable (∀ c ∈ s, p c) :=
  List.decidableBAll p s

/-- The classes of which words and identifiers are made. -/
def wordClasses : List Spans :=
  [alphabetic, decimalDigit, otherNumber, connector, mark, joinControl]

theorem holds_eq_false_of_isBlank {c : Char} (h : isBlank c = true) :
    ∀ spans ∈ wordClasses, spans.holds c.toNat = false := by
  have hapart : whiteSpace.bits &&& union (wordClasses.map Spans.bits) = 0 := by decide +kernel
  exact fun _ hspans => Spans.holds_eq_false_of_apart hapart hspans h

/-- No blank is part of a word. -/
theorem isWord_of_isBlank {c : Char} (h : isBlank c = true) : isWord c = false := by
  have hnone := holds_eq_false_of_isBlank h
  simp only [wordClasses, List.forall_mem_cons] at hnone
  simp [isWord, hnone]

theorem isBlank_of_isWord {c : Char} (h : isWord c = true) : isBlank c = false := by
  cases hblank : isBlank c
  · rfl
  · rw [isWord_of_isBlank hblank] at h
    cases h

/-- What holds of the characters of ASCII is decided by going through them. -/
theorem of_ascii {p : Char → Prop} {c : Char} (h : ∀ n < 128, p (Char.ofNat n))
    (hc : c.toNat < 128) : p c := by
  have hchar := h c.toNat hc
  rwa [Char.ofNat_toNat] at hchar

/-- What holds of the letters of ASCII is decided by going through them. -/
theorem of_isAlpha {p : Char → Prop} {c : Char}
    (h : ∀ n < 128, (Char.ofNat n).isAlpha = true → p (Char.ofNat n)) (hc : c.isAlpha = true) :
    p c := by
  have hlt : c.toNat < 128 := by
    have heq : c.val.toNat = c.toNat := rfl
    change (decide (c.val ≥ 'A'.val ∧ c.val ≤ 'Z'.val) ||
      (decide (c.val ≥ 'a'.val) && decide (c.val ≤ 'z'.val))) = true at hc
    simp [UInt32.le_iff_toNat_le] at hc
    omega
  exact of_ascii (p := fun c => c.isAlpha = true → p c) h hlt hc

/-- A character of ASCII between two words: no letter, no digit and not the low line. -/
def IsPunctuation (c : Char) : Prop :=
  c.toNat < 128 ∧ c.isAlphanum = false ∧ c ≠ '_'

instance (c : Char) : Decidable (IsPunctuation c) :=
  inferInstanceAs (Decidable (_ ∧ _))

/-- In ASCII, words are made of letters, digits and the low line. -/
theorem isWord_of_ascii {c : Char} (h : c.toNat < 128) :
    isWord c = (c.isAlphanum || c == '_') :=
  of_ascii (p := fun c => isWord c = (c.isAlphanum || c == '_')) (by decide +kernel) h

theorem isWord_of_isPunctuation {c : Char} (h : IsPunctuation c) : isWord c = false := by
  obtain ⟨hascii, halnum, hlow⟩ := h
  rw [isWord_of_ascii hascii, halnum, Bool.false_or, beq_eq_false_iff_ne]
  exact hlow

theorem not_isWord {c : Char} (h : IsPunctuation c) : ¬ isWord c = true := by
  intro hword
  rw [isWord_of_isPunctuation h] at hword
  cases hword

theorem isWord_of_isAlpha {c : Char} (h : c.isAlpha = true) : isWord c = true :=
  of_isAlpha (p := fun c => isWord c = true) (by decide) h

theorem isAlpha_of_isAlpha_toLower {c : Char} (h : c.toLower.isAlpha = true) :
    c.isAlpha = true := by
  unfold Char.toLower at h
  split at h
  · rename_i hupper
    have hupper' : c.isUpper = true := decide_eq_true hupper
    change (c.isUpper || c.isLower) = true
    rw [hupper', Bool.true_or]
  · exact h

/-- Two characters that lower-case alike are the same character or two letters. -/
theorem eq_or_isAlpha_of_toLower_eq {c d : Char} (h : c.toLower = d.toLower) :
    c = d ∨ c.isAlpha = true ∧ d.isAlpha = true := by
  have hself {c : Char} (hc : ¬ c.isAlpha = true) : c.toLower = c := by
    refine dif_neg fun hupper => hc ?_
    change (c.isUpper || c.isLower) = true
    rw [show c.isUpper = true from decide_eq_true hupper, Bool.true_or]
  have hlower {c : Char} (hc : c.isAlpha = true) : c.toLower.isAlpha = true :=
    of_isAlpha (p := fun c => c.toLower.isAlpha = true) (by decide) hc
  by_cases hc : c.isAlpha = true
  · exact Or.inr ⟨hc, isAlpha_of_isAlpha_toLower (h ▸ hlower hc)⟩
  · by_cases hd : d.isAlpha = true
    · exact absurd (isAlpha_of_isAlpha_toLower (h ▸ hlower hd)) hc
    · exact Or.inl (by rw [← hself hc, h, hself hd])

/-- What stands for a letter of a keyword is part of a word. -/
theorem isWord_of_standsFor {letter c : Char} (hletter : letter.toLower.isAlpha = true)
    (h : standsFor letter c = true) : isWord c = true := by
  simp only [standsFor, Bool.or_eq_true, beq_iff_eq, Bool.and_eq_true] at h
  obtain (h | ⟨-, rfl⟩) | ⟨-, rfl⟩ := h
  · exact isWord_of_isAlpha (isAlpha_of_isAlpha_toLower (h ▸ hletter))
  · decide
  · decide +kernel

/-- The lower-case letter for which a character stands, if it stands for one. -/
def foldLetter (c : Char) : Char :=
  if c = 'ſ' then 's' else if c = '\u212a' then 'k' else c.toLower

theorem foldLetter_eq_of_standsFor {letter c : Char} (hletter : letter.toLower.isAlpha = true)
    (h : standsFor letter c = true) : foldLetter c = letter.toLower := by
  simp only [standsFor, Bool.or_eq_true, beq_iff_eq, Bool.and_eq_true] at h
  obtain (h | ⟨hs, rfl⟩) | ⟨hk, rfl⟩ := h
  · have hlong : c ≠ 'ſ' := by
      rintro rfl
      exact absurd (h ▸ hletter) (by decide)
    have hkelvin : c ≠ '\u212a' := by
      rintro rfl
      exact absurd (h ▸ hletter) (by decide)
    rw [foldLetter, if_neg hlong, if_neg hkelvin, h]
  · exact hs.symm
  · exact hk.symm

/-- The text does not begin with a character of the class: a run of the class that ends here is as
long as it can be. -/
def Stops (p : Char → Bool) (s : List Char) : Prop :=
  ∀ c ∈ s.head?, p c = false

section

variable {p : Char → Bool} {c : Char} {s w : List Char}

@[simp] theorem stops_nil : Stops p [] := by
  simp [Stops]

@[simp] theorem stops_cons : Stops p (c :: s) ↔ p c = false := by
  simp [Stops]

theorem stops_append (hw : Stops p w) (hs : Stops p s) : Stops p (w ++ s) := by
  cases w with
  | nil => exact hs
  | cons c w => simpa using hw

theorem takeWhile_append_of_stops (hw : ∀ c ∈ w, p c = true) (hs : Stops p s) :
    (w ++ s).takeWhile p = w := by
  rw [List.takeWhile_append_of_pos hw]
  cases s with
  | nil => simp
  | cons c s => simp [stops_cons.mp hs]

theorem dropWhile_append_of_stops (hw : ∀ c ∈ w, p c = true) (hs : Stops p s) :
    (w ++ s).dropWhile p = s := by
  rw [List.dropWhile_append_of_pos hw]
  cases s with
  | nil => simp
  | cons c s => simp [stops_cons.mp hs]

theorem stops_dropWhile (p : Char → Bool) (s : List Char) : Stops p (s.dropWhile p) := by
  intro c hc
  have := List.head?_dropWhile_not p s
  rw [Option.mem_def.mp hc] at this
  simpa using this

theorem mem_takeWhile {s : List Char} : ∀ c ∈ s.takeWhile p, p c = true := fun c hc =>
  List.all_eq_true.mp List.all_takeWhile c hc

/-- A text splits in one way into a run of a class and a text that does not go on with it. -/
theorem append_inj_of_stops {w' s' : List Char} (hw : ∀ c ∈ w, p c = true) (hs : Stops p s)
    (hw' : ∀ c ∈ w', p c = true) (hs' : Stops p s') (h : w ++ s = w' ++ s') :
    w = w' ∧ s = s' := by
  have htake := congrArg (List.takeWhile p) h
  have hdrop := congrArg (List.dropWhile p) h
  rw [takeWhile_append_of_stops hw hs, takeWhile_append_of_stops hw' hs'] at htake
  rw [dropWhile_append_of_stops hw hs, dropWhile_append_of_stops hw' hs'] at hdrop
  exact ⟨htake, hdrop⟩

/-- A run of a class does not go over a place where the class ends. -/
theorem exists_append_of_stops {u v : List Char} (hu : ∀ c ∈ u, p c = true) (hs : Stops p s)
    (h : w ++ s = u ++ v) : ∃ left, w = u ++ left ∧ v = left ++ s := by
  obtain ⟨extra, rfl, hextra⟩ | ⟨left, rfl, rfl⟩ := List.append_eq_append_iff.mp h
  · cases extra with
    | nil => exact ⟨[], by simp, by simpa using hextra.symm⟩
    | cons c extra =>
      rw [hextra, List.cons_append, stops_cons, hu c (by simp)] at hs
      cases hs
  · exact ⟨left, rfl, rfl⟩

theorem bne_of_not_mem (h : c ∉ w) : ∀ d ∈ w, (d != c) = true := by
  intro d hd
  rw [bne_iff_ne]
  rintro rfl
  exact h hd

/-- A text splits in one way at the first place of a character. -/
theorem append_cons_inj {w' s' : List Char} (hw : c ∉ w) (hw' : c ∉ w')
    (h : w ++ c :: s = w' ++ c :: s') : w = w' ∧ s = s' := by
  obtain ⟨rfl, htail⟩ := append_inj_of_stops (bne_of_not_mem hw) (by simp) (bne_of_not_mem hw')
    (by simp) h
  exact ⟨rfl, (List.cons.inj htail).2⟩

end

end SchemaChange.Text
