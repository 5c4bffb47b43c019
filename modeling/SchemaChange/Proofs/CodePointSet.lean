import Mathlib.Data.List.Basic
import SchemaChange.Unicode.Spans

/-!
# Sets of code points as numbers

A set of code points is one number here, whose bits are its members. Whether two sets are apart, or
one lies within the other, is then one step, and not one for every pair of spans.
-/

namespace SchemaChange.Unicode

variable {set other : Nat} {sets : List Nat} {k n : Nat}

theorem testBit_of_within (h : set &&& other = set) (hn : set.testBit n = true) :
    other.testBit n = true := by
  rw [← h, Nat.testBit_and, Bool.and_eq_true] at hn
  exact hn.2

theorem testBit_of_apart (h : set &&& other = 0) (hn : set.testBit n = true) :
    other.testBit n = false := by
  have hboth := congrArg (fun bits => Nat.testBit bits n) h
  simpa [hn] using hboth

/-- The members of all the sets. -/
def union (sets : List Nat) : Nat :=
  sets.foldr (fun set all => set ||| all) 0

theorem testBit_union : (union sets).testBit n = true ↔ ∃ set ∈ sets, set.testBit n = true := by
  induction sets with
  | nil => simp [union]
  | cons set sets ih =>
    have hcons : union (set :: sets) = set ||| union sets := rfl
    rw [hcons, Nat.testBit_or, Bool.or_eq_true, ih, List.exists_mem_cons_iff]

/-- The set of the numbers in a list. -/
def listed (ns : List Nat) : Nat :=
  union (ns.map fun n => 1 <<< n)

theorem testBit_listed {ns : List Nat} : (listed ns).testBit n = true ↔ n ∈ ns := by
  simp [listed, testBit_union, Nat.one_shiftLeft, Nat.testBit_two_pow]

/-- The set of `count` numbers in equal steps from zero. -/
def comb (stride : Nat) : Nat → Nat
  | 0 => 0
  | count + 1 => comb stride count <<< stride ||| 1

theorem testBit_comb {stride count : Nat} (hk : k < count) :
    (comb stride count).testBit (stride * k) = true := by
  induction count generalizing k with
  | zero => omega
  | succ count ih =>
    rw [comb, Nat.testBit_or, Bool.or_eq_true]
    cases k with
    | zero => exact Or.inr (by rw [Nat.mul_zero]; rfl)
    | succ k =>
      refine Or.inl ?_
      rw [Nat.testBit_shiftLeft, Nat.mul_succ, Nat.add_sub_cancel, ih (by omega)]
      simp

/-- The set of what lies in the spans. -/
def Spans.bits (spans : Spans) : Nat :=
  union (spans.map fun span => (1 <<< (span.2 + 1 - span.1) - 1) <<< span.1)

theorem Spans.testBit_bits {spans : Spans} :
    spans.bits.testBit n = true ↔ ∃ span ∈ spans, span.1 ≤ n ∧ n ≤ span.2 := by
  have hspan (span : Nat × Nat) :
      ((1 <<< (span.2 + 1 - span.1) - 1) <<< span.1).testBit n = true ↔
        span.1 ≤ n ∧ n ≤ span.2 := by
    rw [Nat.testBit_shiftLeft, Nat.one_shiftLeft, Nat.testBit_two_pow_sub_one, Bool.and_eq_true,
      decide_eq_true_eq, decide_eq_true_eq]
    omega
  rw [bits, testBit_union]
  simp only [List.mem_map, exists_exists_and_eq_and, hspan]

theorem Spans.testBit_bits_of_holds {spans : Spans} (h : spans.holds n = true) :
    spans.bits.testBit n = true :=
  testBit_bits.mpr (exists_of_holds h)

/-- What lies in spans that are apart from others lies in none of those. -/
theorem Spans.holds_eq_false_of_apart {spans other : Spans} {others : List Spans}
    (h : spans.bits &&& union (others.map bits) = 0) (hother : other ∈ others)
    (hn : spans.holds n = true) : other.holds n = false := by
  rw [Bool.eq_false_iff]
  intro hholds
  have hunion : (union (others.map bits)).testBit n = true :=
    testBit_union.mpr ⟨other.bits, List.mem_map_of_mem hother, testBit_bits_of_holds hholds⟩
  rw [testBit_of_apart h (testBit_bits_of_holds hn)] at hunion
  cases hunion

theorem Spans.holds_of_testBit_bits {spans : Spans} (hascends : spans.Pairwise fun a b => a.1 ≤ b.1)
    (h : spans.bits.testBit n = true) : spans.holds n = true := by
  obtain ⟨span, hspan, hfirst, hlast⟩ := testBit_bits.mp h
  induction spans with
  | nil => cases hspan
  | cons first rest ih =>
    obtain ⟨hle, hrest⟩ := List.pairwise_cons.mp hascends
    obtain rfl | hmem := List.mem_cons.mp hspan
    · simp [holds, hfirst, hlast]
    · have hrests := ih hrest (testBit_bits.mpr ⟨span, hmem, hfirst, hlast⟩) hmem
      simp [holds, Nat.le_trans (hle span hmem) hfirst, hrests]

end SchemaChange.Unicode
