import SchemaChange.Proofs.CodePointSet
import SchemaChange.Unicode.CaseRun

/-!
# What a case mapping does to one character

A character lies in a run, or it has a longer form, or it stays as it is. Whether a mapping leaves
its own images alone, and whether what it moves lies in a set, is read off the sets of what it moves
and of where it moves that.
-/

namespace SchemaChange.Unicode

namespace CaseRun

variable {run : CaseRun} {runs : List CaseRun} {image k n : Nat}

theorem exists_run_of_find? (h : find? n runs = some image) :
    ∃ run ∈ runs, run.first ≤ n ∧ n ≤ run.last ∧ (n - run.first) % run.stride = 0 ∧
      image = run.image + (n - run.first) := by
  induction runs with
  | nil => cases h
  | cons run rest ih =>
    simp only [find?] at h
    split at h
    · cases h
    · rename_i hfirst
      split at h
      · rename_i hlast
        split at h
        · rename_i hstride
          exact ⟨run, by simp, by omega, hlast, hstride, (Option.some.inj h).symm⟩
        · cases h
      · obtain ⟨other, hmem, hother⟩ := ih h
        exact ⟨other, List.mem_cons_of_mem run hmem, hother⟩

/-- The last code point that a run maps to. -/
def lastImage (run : CaseRun) : Nat :=
  run.image + (run.last - run.first)

/-- The steps of a run, from any place on. -/
def stepsFrom (run : CaseRun) (start : Nat) : Nat :=
  comb run.stride ((run.last - run.first) / run.stride + 1) <<< start

theorem testBit_stepsFrom {start : Nat} (hk : k ≤ run.last - run.first)
    (hstride : k % run.stride = 0) : (run.stepsFrom start).testBit (start + k) = true := by
  have hsteps : run.stride * (k / run.stride) = k := by
    have := Nat.div_add_mod k run.stride
    omega
  have hcount := Nat.lt_succ_of_le (Nat.div_le_div_right hk (c := run.stride))
  rw [stepsFrom, Nat.testBit_shiftLeft, Nat.add_sub_cancel_left, ← hsteps, testBit_comb hcount]
  simp

end CaseRun

variable {runs : List CaseRun} {expansions : List (Nat × List Nat)} {run : CaseRun} {c d : Char}
  {k : Nat}

/-- The code points that a mapping moves. -/
def moved (runs : List CaseRun) (expansions : List (Nat × List Nat)) : Nat :=
  union (runs.map fun run => run.stepsFrom run.first) ||| listed (expansions.map Prod.fst)

/-- The code points to which the runs of a mapping move others. -/
def images (runs : List CaseRun) : Nat :=
  union (runs.map fun run => run.stepsFrom run.image)

theorem testBit_moved_of_run (hrun : run ∈ runs) (hk : k ≤ run.last - run.first)
    (hstride : k % run.stride = 0) : (moved runs expansions).testBit (run.first + k) = true := by
  rw [moved, Nat.testBit_or, Bool.or_eq_true]
  exact Or.inl (testBit_union.mpr
    ⟨_, List.mem_map_of_mem hrun, CaseRun.testBit_stepsFrom hk hstride⟩)

theorem testBit_moved_of_expansion {expansion : Nat × List Nat} (h : expansion ∈ expansions) :
    (moved runs expansions).testBit expansion.1 = true := by
  rw [moved, Nat.testBit_or, Bool.or_eq_true]
  exact Or.inr (testBit_listed.mpr (List.mem_map_of_mem h))

theorem testBit_images (hrun : run ∈ runs) (hk : k ≤ run.last - run.first)
    (hstride : k % run.stride = 0) : (images runs).testBit (run.image + k) = true :=
  testBit_union.mpr ⟨_, List.mem_map_of_mem hrun, CaseRun.testBit_stepsFrom hk hstride⟩

/-- A mapping leaves alone what it does not move. -/
theorem mapCase_of_not_moved (h : (moved runs expansions).testBit c.toNat = false) :
    mapCase runs expansions c = [c] := by
  have hfind : CaseRun.find? c.toNat runs = none := by
    rw [Option.eq_none_iff_forall_ne_some]
    intro image hfind
    obtain ⟨run, hrun, hfirst, hlast, hstride, -⟩ := CaseRun.exists_run_of_find? hfind
    have hmoved : (moved runs expansions).testBit (run.first + (c.toNat - run.first)) = true :=
      testBit_moved_of_run hrun (Nat.sub_le_sub_right hlast run.first) hstride
    rw [Nat.add_sub_cancel' hfirst, h] at hmoved
    cases hmoved
  have hlookup : expansions.lookup c.toNat = none := by
    refine List.lookup_eq_none_iff.mpr fun expansion hexpansion => ?_
    rw [bne_iff_ne]
    intro hc
    have hmoved : (moved runs expansions).testBit expansion.1 = true :=
      testBit_moved_of_expansion hexpansion
    rw [← hc, h] at hmoved
    cases hmoved
  simp only [mapCase, hfind, hlookup]

theorem toNat_ofNat {n : Nat} (h : n.isValidChar) : (Char.ofNat n).toNat = n := by
  rw [Char.ofNat, dif_pos h]
  rfl

/-- A mapping that moves no character to one that it moves as well: to map a second time changes
nothing. -/
structure Settled (runs : List CaseRun) (expansions : List (Nat × List Nat)) : Prop where
  apart : (images runs ||| listed (expansions.flatMap Prod.snd)) &&& moved runs expansions = 0
  validRun : ∀ run ∈ runs,
    run.lastImage < 0xD800 ∨ 0xDFFF < run.image ∧ run.lastImage < 0x110000
  validExpansion : ∀ expansion ∈ expansions, ∀ n ∈ expansion.2, n.isValidChar

namespace Settled

variable (h : Settled runs expansions)
include h

/-- The three things that can happen to a character. -/
theorem mapCase_cases (c : Char) :
    (∃ run ∈ runs, ∃ k ≤ run.last - run.first, k % run.stride = 0 ∧ c.toNat = run.first + k ∧
      ∃ d, mapCase runs expansions c = [d] ∧ d.toNat = run.image + k) ∨
    (∃ expansion ∈ expansions, c.toNat = expansion.1 ∧
      mapCase runs expansions c = expansion.2.map Char.ofNat) ∨
    mapCase runs expansions c = [c] := by
  cases hfind : CaseRun.find? c.toNat runs with
  | some image =>
    obtain ⟨run, hrun, hfirst, hlast, hstride, rfl⟩ := CaseRun.exists_run_of_find? hfind
    have hvalid : (run.image + (c.toNat - run.first)).isValidChar := by
      have := h.validRun run hrun
      unfold CaseRun.lastImage at this
      unfold Nat.isValidChar
      omega
    refine Or.inl ⟨run, hrun, c.toNat - run.first, by omega, hstride, by omega,
      Char.ofNat (run.image + (c.toNat - run.first)), ?_, toNat_ofNat hvalid⟩
    simp only [mapCase, hfind]
  | none =>
    cases hlookup : expansions.lookup c.toNat with
    | some images =>
      obtain ⟨before, behind, heq, -⟩ := List.lookup_eq_some_iff.mp hlookup
      refine Or.inr (Or.inl ⟨(c.toNat, images), by simp [heq], rfl, ?_⟩)
      simp only [mapCase, hfind, hlookup]
    | none =>
      refine Or.inr (Or.inr ?_)
      simp only [mapCase, hfind, hlookup]

/-- What a character is mapped to has no image but itself. -/
theorem mapCase_of_mem (hd : d ∈ mapCase runs expansions c) : mapCase runs expansions d = [d] := by
  have hsettled (hreached : (images runs).testBit d.toNat = true ∨
      d.toNat ∈ expansions.flatMap Prod.snd) : mapCase runs expansions d = [d] := by
    refine mapCase_of_not_moved (testBit_of_apart h.apart ?_)
    rw [Nat.testBit_or, Bool.or_eq_true, testBit_listed]
    exact hreached
  obtain ⟨run, hrun, k, hk, hstride, -, e, heq, he⟩ | ⟨expansion, hexpansion, -, heq⟩ | hself :=
    h.mapCase_cases c
  · rw [heq, List.mem_singleton] at hd
    have hcode : d.toNat = run.image + k := hd ▸ he
    exact hsettled (Or.inl (hcode ▸ testBit_images hrun hk hstride))
  · rw [heq, List.mem_map] at hd
    obtain ⟨n, hn, rfl⟩ := hd
    have hcode := toNat_ofNat (h.validExpansion expansion hexpansion n hn)
    exact hsettled (Or.inr (hcode.symm ▸ List.mem_flatMap.mpr ⟨expansion, hexpansion, hn⟩))
  · rw [hself, List.mem_singleton] at hd
    rw [hd, hself]

theorem mapCase_ne_nil (hne : ∀ expansion ∈ expansions, expansion.2 ≠ []) (c : Char) :
    mapCase runs expansions c ≠ [] := by
  obtain ⟨run, -, k, -, -, -, d, heq, -⟩ | ⟨expansion, hexpansion, -, heq⟩ | hself :=
    h.mapCase_cases c
  · rw [heq]
    exact List.cons_ne_nil d []
  · rw [heq, ne_eq, List.map_eq_nil_iff]
    exact hne expansion hexpansion
  · rw [hself]
    exact List.cons_ne_nil c []

end Settled

/-- A mapping that moves only what is in a set, by its runs into the set and by its longer forms to
texts that begin in the set. -/
structure MovesWithin (spans : Spans) (runs : List CaseRun) (expansions : List (Nat × List Nat)) :
    Prop where
  ascends : spans.Pairwise fun a b => a.1 ≤ b.1
  members : moved runs expansions &&& spans.bits = moved runs expansions
  images : images runs &&& spans.bits = images runs
  heads : ∀ expansion ∈ expansions, ∃ n ∈ expansion.2.head?, spans.bits.testBit n = true

namespace MovesWithin

variable {spans : Spans} (h : MovesWithin spans runs expansions)
include h

theorem holds_of_run (hrun : run ∈ runs) (hk : k ≤ run.last - run.first)
    (hstride : k % run.stride = 0) :
    spans.holds (run.first + k) = true ∧ spans.holds (run.image + k) = true :=
  ⟨Spans.holds_of_testBit_bits h.ascends
      (testBit_of_within h.members (testBit_moved_of_run hrun hk hstride)),
    Spans.holds_of_testBit_bits h.ascends
      (testBit_of_within h.images (testBit_images hrun hk hstride))⟩

/-- What is moved is in the set, and so is the character with which its image begins. -/
theorem eq_self_or_holds (hsettled : Settled runs expansions) (c : Char) :
    mapCase runs expansions c = [c] ∨
      (spans.holds c.toNat = true ∧ ∃ d s, mapCase runs expansions c = d :: s ∧
        spans.holds d.toNat = true) := by
  obtain ⟨run, hrun, k, hk, hstride, hc, d, heq, hd⟩ | ⟨expansion, hexpansion, hc, heq⟩ | hself :=
    hsettled.mapCase_cases c
  · obtain ⟨hmember, himage⟩ := h.holds_of_run hrun hk hstride
    exact Or.inr ⟨hc ▸ hmember, d, [], heq, hd ▸ himage⟩
  · obtain ⟨n, hn, hbit⟩ := h.heads expansion hexpansion
    obtain ⟨more, hmore⟩ := List.head?_eq_some_iff.mp hn
    have hvalid := hsettled.validExpansion expansion hexpansion n (by simp [hmore])
    refine Or.inr ⟨?_, Char.ofNat n, more.map Char.ofNat, ?_, ?_⟩
    · rw [hc]
      exact Spans.holds_of_testBit_bits h.ascends
        (testBit_of_within h.members (testBit_moved_of_expansion hexpansion))
    · rw [heq, hmore, List.map_cons]
    · rw [toNat_ofNat hvalid]
      exact Spans.holds_of_testBit_bits h.ascends hbit
  · exact Or.inl hself

end MovesWithin

end SchemaChange.Unicode
