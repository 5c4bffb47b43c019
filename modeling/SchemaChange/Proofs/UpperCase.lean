import SchemaChange.Proofs.LowerCase

/-!
# Upper-casing

No character is upper-cased to one that has an upper-case form of its own. Only letters have one,
and it begins with a letter, so an identifier ends where it ended before. A text that is put into
lower case first has mostly the same upper-case form. Where it has another, a character beyond ASCII
shows it in both, but for three letters.
-/

namespace SchemaChange.Text

open Unicode (CaseRun MovesWithin Settled alphabetic listed lowerExpansions lowerRuns testBit_listed
  testBit_of_apart toNat_ofNat upperExpansions upperRuns)

variable {c d : Char} {s : List Char}

theorem settled_upper : Settled upperRuns upperExpansions where
  apart := by decide +kernel
  validRun := by decide +kernel
  validExpansion := by decide +kernel

/-- Upper-casing a second time changes nothing. -/
theorem upperChar_of_mem (h : d ∈ upperChar c) : upperChar d = [d] :=
  settled_upper.mapCase_of_mem h

theorem flatMap_upperChar_of_forall (h : ∀ c ∈ s, upperChar c = [c]) : s.flatMap upperChar = s := by
  induction s with
  | nil => rfl
  | cons c s ih =>
    rw [List.forall_mem_cons] at h
    rw [List.flatMap_cons, h.1, ih h.2, List.singleton_append]

/-! ## Letters -/

/-- Both mappings move letters only, to letters. -/
theorem moves_alphabetic : MovesWithin alphabetic upperRuns upperExpansions ∧
    MovesWithin alphabetic lowerRuns lowerExpansions := by
  have hchain : alphabetic.IsChain fun a b => a.1 ≤ b.1 := by decide +kernel
  have hascends := List.isChain_iff_pairwise.mp hchain
  constructor
  · exact ⟨hascends, by decide +kernel, by decide +kernel, by decide +kernel⟩
  · exact ⟨hascends, by decide +kernel, by decide +kernel, by decide +kernel⟩

theorem isIdentifier_of_alphabetic (h : alphabetic.holds c.toNat = true) :
    isIdentifier c = true := by
  simp [isIdentifier, isAlphanumeric, h]

/-- What is no part of an identifier has no form of the other case. -/
theorem upperChar_of_not_isIdentifier (h : isIdentifier c = false) : upperChar c = [c] := by
  obtain hself | ⟨hletter, -⟩ := moves_alphabetic.1.eq_self_or_holds settled_upper c
  · exact hself
  · rw [isIdentifier_of_alphabetic hletter] at h
    cases h

theorem lowerChar_of_not_isIdentifier (h : isIdentifier c = false) : lowerChar c = [c] := by
  obtain hself | ⟨hletter, -⟩ := moves_alphabetic.2.eq_self_or_holds settled_lower c
  · exact hself
  · rw [isIdentifier_of_alphabetic hletter] at h
    cases h

/-- The form of the other case of a character of an identifier begins with one, too. -/
theorem exists_upperChar_of_isIdentifier (h : isIdentifier c = true) :
    ∃ d s, upperChar c = d :: s ∧ isIdentifier d = true := by
  obtain hself | ⟨-, d, s, heq, hletter⟩ := moves_alphabetic.1.eq_self_or_holds settled_upper c
  · exact ⟨c, [], hself, h⟩
  · exact ⟨d, s, heq, isIdentifier_of_alphabetic hletter⟩

theorem exists_lowerChar_of_isIdentifier (h : isIdentifier c = true) :
    ∃ d s, lowerChar c = d :: s ∧ isIdentifier d = true := by
  obtain hself | ⟨-, d, s, heq, hletter⟩ := moves_alphabetic.2.eq_self_or_holds settled_lower c
  · exact ⟨c, [], hself, h⟩
  · exact ⟨d, s, heq, isIdentifier_of_alphabetic hletter⟩

/-- No blank is part of an identifier. -/
theorem isIdentifier_of_isBlank (h : isBlank c = true) : isIdentifier c = false := by
  have hnone := holds_eq_false_of_isBlank h
  simp only [wordClasses, List.forall_mem_cons] at hnone
  have hline : c ≠ '_' := by
    rintro rfl
    exact absurd h (by decide)
  simp [isIdentifier, isAlphanumeric, hnone, hline]

theorem isBlank_of_isIdentifier (h : isIdentifier c = true) : isBlank c = false := by
  cases hblank : isBlank c with
  | false => rfl
  | true =>
    rw [isIdentifier_of_isBlank hblank] at h
    cases h

/-- No character but a blank has a form that begins with a blank. -/
theorem exists_upperChar_of_not_isBlank (h : isBlank c = false) :
    ∃ d s, upperChar c = d :: s ∧ isBlank d = false := by
  cases hc : isIdentifier c with
  | true =>
    obtain ⟨d, s, heq, hd⟩ := exists_upperChar_of_isIdentifier hc
    exact ⟨d, s, heq, isBlank_of_isIdentifier hd⟩
  | false => exact ⟨c, [], upperChar_of_not_isIdentifier hc, h⟩

theorem exists_lowerChar_of_not_isBlank (h : isBlank c = false) :
    ∃ d s, lowerChar c = d :: s ∧ isBlank d = false := by
  cases hc : isIdentifier c with
  | true =>
    obtain ⟨d, s, heq, hd⟩ := exists_lowerChar_of_isIdentifier hc
    exact ⟨d, s, heq, isBlank_of_isIdentifier hd⟩
  | false => exact ⟨c, [], lowerChar_of_not_isIdentifier hc, h⟩

/-! ## Beyond ASCII -/

/-- The code points beyond ASCII whose upper-case form begins within ASCII. -/
def latinForms : List Nat := [
  0xDF, 0x131, 0x17F, 0x1F0, 0x1E96, 0x1E97, 0x1E98, 0x1E99, 0x1E9A, 0xFB00, 0xFB01, 0xFB02, 0xFB03,
  0xFB04, 0xFB05, 0xFB06]

theorem upper_beyond :
    (∀ run ∈ upperRuns, 128 ≤ run.image ∨ run.first ≤ run.last ∧ run.last < 128 ∨
      run.first = run.last ∧ run.first ∈ latinForms) ∧
    ∀ expansion ∈ upperExpansions,
      expansion.1 ∈ latinForms ∨ ∃ n ∈ expansion.2.head?, 128 ≤ n := by
  decide +kernel

theorem lowerRuns_beyond : ∀ run ∈ lowerRuns,
    65 ≤ run.first ∧ run.first ≤ run.last ∧ run.last ≤ 90 ∨
      run.first = run.last ∧ (run.first = 0x1E9E ∨ run.first = 0x212A) ∨
      128 ≤ run.first ∧ 128 ≤ run.image ∧
        (run.stepsFrom run.first ||| run.stepsFrom run.image) &&& listed latinForms = 0 := by
  decide +kernel

theorem exists_upperChar_beyond (hc : 128 ≤ c.toNat) (hlatin : c.toNat ∉ latinForms) :
    ∃ d s, upperChar c = d :: s ∧ 128 ≤ d.toNat := by
  obtain ⟨run, hrun, k, hk, hstride, heqc, d, heq, hd⟩ | ⟨expansion, hexpansion, heqc, heq⟩ |
    hself := settled_upper.mapCase_cases c
  · refine ⟨d, [], heq, ?_⟩
    obtain himage | hascii | ⟨hsingle, hmem⟩ := upper_beyond.1 run hrun
    · omega
    · omega
    · rw [show c.toNat = run.first by omega] at hlatin
      exact absurd hmem hlatin
  · obtain hmem | ⟨n, hn, hbeyond⟩ := upper_beyond.2 expansion hexpansion
    · exact absurd (heqc ▸ hmem) hlatin
    · obtain ⟨more, hmore⟩ := List.head?_eq_some_iff.mp hn
      have hvalid := settled_upper.validExpansion expansion hexpansion n (by simp [hmore])
      refine ⟨Char.ofNat n, more.map Char.ofNat, ?_, ?_⟩
      · rw [upperChar, heq, hmore, List.map_cons]
      · rw [toNat_ofNat hvalid]
        exact hbeyond
  · exact ⟨c, [], hself, hc⟩

/-- A form that begins with a character of an identifier beyond ASCII. -/
def BeginsBeyond (w : List Char) : Prop :=
  ∃ d s, w = d :: s ∧ isIdentifier d = true ∧ 128 ≤ d.toNat

theorem beginsBeyond_upperChar (hletter : alphabetic.holds c.toNat = true) (hc : 128 ≤ c.toNat)
    (hlatin : c.toNat ∉ latinForms) : BeginsBeyond (upperChar c) := by
  obtain ⟨d, s, heq, hidentifier⟩ :=
    exists_upperChar_of_isIdentifier (isIdentifier_of_alphabetic hletter)
  obtain ⟨e, t, heq', hbeyond⟩ := exists_upperChar_beyond hc hlatin
  obtain ⟨rfl, rfl⟩ := List.cons.inj (heq.symm.trans heq')
  exact ⟨d, s, heq, hidentifier, hbeyond⟩

/-- Lower-casing first changes the upper-case form of few characters. Those are the dotted I, the
capital sharp s, the kelvin sign, and others whose forms lie beyond ASCII. -/
theorem upper_lowerChar_cases (c : Char) :
    (lowerChar c).flatMap upperChar = upperChar c ∨
      (BeginsBeyond (upperChar c) ∧ BeginsBeyond ((lowerChar c).flatMap upperChar)) ∨
      c = 'İ' ∨ c = 'ẞ' ∨ c = '\u212a' := by
  obtain ⟨run, hrun, k, hk, hstride, hc, d, heq, hd⟩ | ⟨expansion, hexpansion, hc, -⟩ | hself :=
    settled_lower.mapCase_cases c
  · obtain hascii | ⟨hsingle, hspecial⟩ | ⟨hbeyond, himage, hlatin⟩ := lowerRuns_beyond run hrun
    · -- the letters of ASCII can be gone through
      have hall : ∀ n ∈ List.range' 65 26, (lowerChar (Char.ofNat n)).flatMap upperChar =
          upperChar (Char.ofNat n) := by decide
      have := hall c.toNat (List.mem_range'_1.mpr (by omega))
      rw [Char.ofNat_toNat] at this
      exact Or.inl this
    · have hcode : c.toNat = run.first := by omega
      refine Or.inr (Or.inr (Or.inr ?_))
      rw [← Char.ofNat_toNat c, hcode]
      obtain hfirst | hfirst := hspecial
      · exact Or.inl (by rw [hfirst])
      · exact Or.inr (by rw [hfirst])
    · -- neither the letter nor its lower-case form has an upper-case form within ASCII
      obtain ⟨hletter, hletter'⟩ := moves_alphabetic.2.holds_of_run hrun hk hstride
      have hnot {n : Nat} (hn : (run.stepsFrom run.first).testBit n = true ∨
          (run.stepsFrom run.image).testBit n = true) : n ∉ latinForms := by
        rw [← Bool.or_eq_true, ← Nat.testBit_or] at hn
        rw [← testBit_listed, testBit_of_apart hlatin hn]
        exact Bool.false_ne_true
      have hmember := hnot (Or.inl (CaseRun.testBit_stepsFrom hk hstride))
      have himage' := hnot (Or.inr (CaseRun.testBit_stepsFrom hk hstride))
      rw [← hc] at hletter hmember
      rw [← hd] at hletter' himage'
      refine Or.inr (Or.inl ⟨beginsBeyond_upperChar hletter (by omega) hmember, ?_⟩)
      rw [lowerChar, heq, List.flatMap_singleton]
      exact beginsBeyond_upperChar hletter' (by omega) himage'
  · have honly : ∀ expansion ∈ lowerExpansions, expansion.1 = 0x130 := by decide
    refine Or.inr (Or.inr (Or.inl ?_))
    rw [← Char.ofNat_toNat c, hc, honly expansion hexpansion]
  · rw [lowerChar, hself, List.flatMap_singleton]
    exact Or.inl rfl

/-- What lower-casing a text does to its first character: it takes its lower-case form, or the other
form of the small sigma. -/
theorem exists_lowerFrom_cons (afterCased : Bool) (c : Char) (s : List Char) :
    ∃ image after, lowerFrom afterCased (c :: s) = image ++ lowerFrom after s ∧
      (image = lowerChar c ∨ c = 'Σ' ∧ image = ['ς']) := by
  rw [lowerFrom]
  refine ⟨_, _, rfl, ?_⟩
  split
  · rename_i hsigma
    split
    · exact Or.inr ⟨hsigma, rfl⟩
    · rw [hsigma, lowerChar_sigma.1]
      exact Or.inl rfl
  · exact Or.inl rfl

end SchemaChange.Text
