/-!
# Sets of code points

A set of code points is written as its maximal spans in ascending order.
-/

namespace SchemaChange.Unicode

/-- Spans of code points, first and last included, in ascending order and apart from each other. -/
abbrev Spans := List (Nat × Nat)

/-- Whether a code point lies in one of the spans. The spans ascend, so the search ends at the
first one that begins beyond the code point. -/
def Spans.holds (n : Nat) : Spans → Bool
  | [] => false
  | (first, last) :: rest => decide (first ≤ n) && (decide (n ≤ last) || holds n rest)

/-- A code point that a set holds lies in one of its spans. -/
theorem Spans.exists_of_holds {n : Nat} {spans : Spans} (h : spans.holds n = true) :
    ∃ span ∈ spans, span.1 ≤ n ∧ n ≤ span.2 := by
  induction spans with
  | nil => simp [Spans.holds] at h
  | cons span rest ih =>
    obtain ⟨first, last⟩ := span
    simp only [Spans.holds, Bool.and_eq_true, Bool.or_eq_true, decide_eq_true_eq] at h
    obtain ⟨hfirst, hlast | hrest⟩ := h
    · exact ⟨(first, last), by simp, hfirst, hlast⟩
    · obtain ⟨span, hmem, hin⟩ := ih hrest
      exact ⟨span, by simp [hmem], hin⟩

end SchemaChange.Unicode
