import SchemaChange.Proofs.CaseMapping
import SchemaChange.Proofs.CharClass

/-!
# Lower-casing twice

No character is lower-cased to one that has a lower-case form of its own. So a text in lower case
stays as it is.
-/

namespace SchemaChange.Text

open Unicode (Settled lowerRuns lowerExpansions)

variable {c d : Char} {s : List Char}

theorem settled_lower : Settled lowerRuns lowerExpansions where
  apart := by decide +kernel
  validRun := by decide +kernel
  validExpansion := by decide +kernel

theorem lowerExpansions_ne_nil : ∀ expansion ∈ lowerExpansions, expansion.2 ≠ [] := by
  decide

/-- What a character is lower-cased to stands in a run of images or in a longer form, or it is the
character itself. -/
theorem lowerChar_cases (h : d ∈ lowerChar c) :
    (∃ run ∈ lowerRuns, ∃ k ≤ run.last - run.first, k % run.stride = 0 ∧
      d.toNat = run.image + k) ∨
    (∃ expansion ∈ lowerExpansions, d ∈ expansion.2.map Char.ofNat) ∨
    (d = c ∧ lowerChar c = [c]) := by
  obtain ⟨run, hrun, k, hk, hstride, -, e, heq, he⟩ | ⟨expansion, hexpansion, -, heq⟩ | hself :=
    settled_lower.mapCase_cases c
  · rw [lowerChar, heq, List.mem_singleton] at h
    exact Or.inl ⟨run, hrun, k, hk, hstride, h ▸ he⟩
  · rw [lowerChar, heq] at h
    exact Or.inr (Or.inl ⟨expansion, hexpansion, h⟩)
  · rw [lowerChar, hself, List.mem_singleton] at h
    exact Or.inr (Or.inr ⟨h, hself⟩)

/-- What a character is lower-cased to has no lower-case form but itself. -/
theorem lowerChar_of_mem (h : d ∈ lowerChar c) : lowerChar d = [d] :=
  settled_lower.mapCase_of_mem h

theorem lowerChar_ne_nil (c : Char) : lowerChar c ≠ [] :=
  settled_lower.mapCase_ne_nil lowerExpansions_ne_nil c

/-- The capital sigma has a small form, and both small forms stay as they are. -/
theorem lowerChar_sigma : lowerChar 'Σ' = ['σ'] ∧ lowerChar 'σ' = ['σ'] ∧ lowerChar 'ς' = ['ς'] := by
  decide

/-- Nothing is left to lower-case, not even a capital sigma, whose form its neighbours decide. -/
theorem lowerChar_of_mem_lowerFrom {afterCased : Bool} (h : d ∈ lowerFrom afterCased s) :
    lowerChar d = [d] := by
  induction s generalizing afterCased with
  | nil => cases h
  | cons c s ih =>
    rw [lowerFrom, List.mem_append] at h
    obtain h | h := h
    · split at h
      · split at h
        · obtain rfl := List.mem_singleton.mp h
          exact lowerChar_sigma.2.2
        · obtain rfl := List.mem_singleton.mp h
          exact lowerChar_sigma.2.1
      · exact lowerChar_of_mem h
    · exact ih h

theorem lowerFrom_of_lowered (afterCased : Bool) (h : ∀ c ∈ s, lowerChar c = [c]) :
    lowerFrom afterCased s = s := by
  induction s generalizing afterCased with
  | nil => rfl
  | cons c s ih =>
    rw [List.forall_mem_cons] at h
    have hc : c ≠ 'Σ' := by
      rintro rfl
      rw [lowerChar_sigma.1] at h
      exact absurd h.1 (by decide)
    rw [lowerFrom, if_neg hc, h.1, ih _ h.2, List.singleton_append]

/-- Lower-casing a second time changes nothing. -/
theorem lower_lower (s : String) : lower (lower s) = lower s := by
  rw [lower, lower, String.toList_ofList,
    lowerFrom_of_lowered false fun _ hc => lowerChar_of_mem_lowerFrom hc]

theorem lower_ne_empty {name : String} (h : name.toList ≠ []) : lower name ≠ "" := by
  obtain ⟨c, s, hname⟩ := List.exists_cons_of_ne_nil h
  intro hempty
  have hnil := congrArg String.toList hempty
  rw [lower, String.toList_ofList, hname, lowerFrom] at hnil
  have himage := (List.append_eq_nil_iff.mp hnil).1
  split at himage
  · split at himage <;> cases himage
  · exact lowerChar_ne_nil c himage

end SchemaChange.Text
