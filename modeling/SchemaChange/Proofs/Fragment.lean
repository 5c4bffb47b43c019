import SchemaChange.Text.Reader

/-!
# Fragments of a text

A fragment without a certain character lies on one side of each place where the text has that
character. So what a text contains can be found out between its delimiters, piece by piece.
-/

namespace SchemaChange.Text

variable {x u v : List Char} {c : Char}

theorem prefix_of_prefix_append_cons (hc : c ∉ x) (h : x <+: u ++ c :: v) : x <+: u := by
  obtain hx | ⟨tail, rfl⟩ := List.prefix_or_prefix_of_prefix h (List.prefix_append u (c :: v))
  · exact hx
  · rw [List.prefix_append_right_inj] at h
    cases tail with
    | nil => simp
    | cons d tail =>
      obtain ⟨rfl, -⟩ := List.cons_prefix_cons.mp h
      exact absurd (by simp) hc

/-- A fragment does not reach over a character that it does not have. -/
theorem infix_append_cons_iff (hc : c ∉ x) : x <:+: u ++ c :: v ↔ x <:+: u ∨ x <:+: v := by
  constructor
  · intro h
    obtain h | h | ⟨left, right, rfl, hleft, hright⟩ := List.infix_append_iff.mp h
    · exact Or.inl h
    · obtain h | h := List.infix_cons_iff.mp h
      · obtain rfl := List.prefix_nil.mp (prefix_of_prefix_append_cons (u := []) hc h)
        exact Or.inl List.nil_infix
      · exact Or.inr h
    · rw [List.mem_append, not_or] at hc
      obtain rfl := List.prefix_nil.mp (prefix_of_prefix_append_cons (u := []) hc.2 hright)
      exact Or.inl (by simpa using hleft.isInfix)
  · rintro (h | h)
    · exact List.infix_append_of_infix_left h
    · exact List.infix_append_of_infix_right (List.infix_cons h)

theorem infix_cons_iff_of_not_mem (hne : x ≠ []) (hc : c ∉ x) : x <:+: c :: v ↔ x <:+: v := by
  rw [← List.nil_append (c :: v), infix_append_cons_iff hc, List.infix_nil, or_iff_right hne]

/-- A fragment does not begin in a text without its first character. -/
theorem infix_of_infix_append (hc : c ∉ u) (h : c :: x <:+: u ++ v) : c :: x <:+: v := by
  obtain h | h | ⟨left, right, heq, hleft, hright⟩ := List.infix_append_iff.mp h
  · exact absurd (h.mem (by simp)) hc
  · exact h
  · cases left with
    | nil => exact heq ▸ hright.isInfix
    | cons d left =>
      obtain ⟨rfl, -⟩ := List.cons.inj heq
      exact absurd (hleft.mem (by simp)) hc

/-- A text that begins in one of two texts after each other begins in the second one or in the
first. -/
theorem suffix_append_cases (h : x <:+ u ++ v) :
    x <:+ v ∨ ∃ y, y ≠ [] ∧ y <:+ u ∧ x = y ++ v := by
  obtain hx | ⟨y, rfl⟩ := List.suffix_or_suffix_of_suffix h (List.suffix_append u v)
  · exact Or.inl hx
  · by_cases hy : y = []
    · exact Or.inl (by simp [hy])
    · exact Or.inr ⟨y, hy, List.suffix_append_self_iff.mp h, rfl⟩

/-- The first place where a text holds a fragment. -/
theorem exists_first_infix (hne : x ≠ []) (h : x <:+: u) :
    ∃ front rest, u = front ++ (x ++ rest) ∧ ¬ x <:+: front ++ x.dropLast := by
  induction u with
  | nil => exact absurd (List.eq_nil_of_infix_nil h) hne
  | cons c u ih =>
    by_cases hfirst : x <+: c :: u
    · obtain ⟨rest, hrest⟩ := hfirst
      refine ⟨[], rest, hrest.symm, ?_⟩
      intro hin
      have hlength := hin.length_le
      have hpos := List.length_pos_iff.mpr hne
      rw [List.nil_append, List.length_dropLast] at hlength
      omega
    · obtain hin | hin := List.infix_cons_iff.mp h
      · exact absurd hin hfirst
      · obtain ⟨front, rest, rfl, hlater⟩ := ih hin
        refine ⟨c :: front, rest, rfl, ?_⟩
        intro hin
        obtain hin | hin := List.infix_cons_iff.mp hin
        · have hlonger : front ++ x.dropLast <+: front ++ (x ++ rest) :=
            (List.prefix_append_right_inj front).mpr
              ((List.dropLast_prefix x).trans (List.prefix_append x rest))
          exact hfirst (hin.trans (List.cons_prefix_cons.mpr ⟨rfl, hlonger⟩))
        · exact hlater hin

end SchemaChange.Text
