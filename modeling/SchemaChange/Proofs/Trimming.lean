import SchemaChange.Proofs.Parts
import SchemaChange.Text.Pieces

/-!
# Trimmed texts and lists

What it means that a text is trimmed, and that a list is split at its commas into trimmed items.
Both are said of the text that is put together again, without a reader; there is one way to do
either.
-/

namespace SchemaChange.Text

open Form (space)

variable {s t u v gap gap' : List Char}

/-- A text without blanks at its ends. -/
structure Trimmed (s : List Char) : Prop where
  left : Stops isBlank s
  right : Stops isBlank s.reverse

/-- What is left of a text when all blanks at its ends, and nothing else, are taken away. -/
structure Trims (s t : List Char) : Prop where
  spaced : s ∈ space * ({t} * space)
  trimmed : Trimmed t

/-- The items of a list are what stands between its commas, each trimmed. -/
inductive Lists : List Char → List String → Prop where
  | last {piece item : List Char} (single : ',' ∉ piece) (trims : Trims piece item) :
      Lists piece [String.ofList item]
  | next {piece item rest : List Char} {items : List String} (single : ',' ∉ piece)
      (trims : Trims piece item) (lists : Lists rest items) :
      Lists (piece ++ ',' :: rest) (String.ofList item :: items)

theorem Trims.subset {c : Char} (h : Trims s t) (hc : c ∈ t) : c ∈ s := by
  obtain ⟨before, -, _, hrest, rfl⟩ := Language.mem_mul.mp h.spaced
  obtain ⟨_, rfl, behind, -, rfl⟩ := Language.mem_mul.mp hrest
  simp [hc]

/-! ## Trimming -/

theorem trimmed_trimChars (s : List Char) : Trimmed (trimChars s) where
  left := by
    intro c hc
    exact isBlank_of_head?_trimChars hc
  right := by
    intro c hc
    rw [List.head?_reverse] at hc
    exact isBlank_of_getLast?_trimChars hc

theorem trims_trimChars (s : List Char) : Trims s (trimChars s) := by
  obtain ⟨before, behind, heq, hbefore, hbehind⟩ := exists_eq_append_trimChars s
  refine ⟨?_, trimmed_trimChars s⟩
  have hmem := Language.append_mem_mul (l := space) (List.all_eq_true.mp hbefore)
    (Language.append_mem_mul (l := {trimChars s}) rfl (m := space) (List.all_eq_true.mp hbehind))
  rwa [← List.append_assoc, ← heq] at hmem

/-- Trimming takes away what is put around a text. -/
theorem trimChars_space_append (hgap : gap ∈ space) (hgap' : gap' ∈ space) :
    trimChars (gap ++ (v ++ gap')) = trimChars v := by
  have hfront (s : List Char) : (gap ++ s).dropWhile isBlank = s.dropWhile isBlank :=
    List.dropWhile_append_of_pos hgap
  have hblank : ∀ c ∈ gap'.reverse, isBlank c = true := fun c hc =>
    hgap' c (List.mem_reverse.mp hc)
  have hbehind (s : List Char) :
      (s ++ gap').reverse.dropWhile isBlank = s.reverse.dropWhile isBlank := by
    rw [List.reverse_append]
    exact List.dropWhile_append_of_pos hblank
  rw [trimChars, trimChars, hfront, List.dropWhile_append]
  split
  · rename_i hnil
    have hnil' : gap'.dropWhile isBlank = [] := by
      rw [← List.append_nil gap', List.dropWhile_append_of_pos hgap']
      rfl
    rw [List.isEmpty_iff.mp hnil, hnil']
  · rw [hbehind]

theorem trimChars_append_space (hgap : gap ∈ space) : trimChars (v ++ gap) = trimChars v :=
  trimChars_space_append Form.nil_mem_space hgap

theorem trimChars_of_trimmed (h : Trimmed u) : trimChars u = u := by
  have hdrop {s : List Char} (hs : Stops isBlank s) : s.dropWhile isBlank = s :=
    dropWhile_append_of_stops (w := []) (by simp) hs
  rw [trimChars, hdrop h.left, hdrop h.right, List.reverse_reverse]

theorem trims_iff : Trims s t ↔ trimChars s = t := by
  constructor
  · rintro ⟨hspaced, htrimmed⟩
    obtain ⟨before, hbefore, _, hrest, rfl⟩ := Language.mem_mul.mp hspaced
    obtain ⟨_, rfl, behind, hbehind, rfl⟩ := Language.mem_mul.mp hrest
    rw [trimChars_space_append hbefore hbehind, trimChars_of_trimmed htrimmed]
  · rintro rfl
    exact trims_trimChars s

theorem trimChars_of_word (hu : u ∈ Form.word) : trimChars u = u := by
  have hreverse : u.reverse ∈ Form.word :=
    ⟨by simpa using hu.1, fun c hc => hu.2 c (List.mem_reverse.mp hc)⟩
  apply trimChars_of_trimmed
  constructor
  · simpa using Form.stops_blank_of_word (r := []) hu
  · simpa using Form.stops_blank_of_word (r := []) hreverse

theorem trimChars_ne_nil_iff : trimChars s ≠ [] ↔ ∃ c ∈ s, isBlank c = false := by
  constructor
  · intro hne
    by_contra hnone
    apply hne
    have hspace : s ∈ space := by
      intro c hc
      by_contra hblank
      exact hnone ⟨c, hc, by simpa using hblank⟩
    exact trimChars_append_space (v := []) hspace
  · rintro ⟨c, hc, hblank⟩ hnil
    obtain ⟨before, after, heq, hbefore, hafter⟩ := exists_eq_append_trimChars s
    rw [hnil, List.append_nil] at heq
    rw [heq, List.mem_append] at hc
    have : isBlank c = true :=
      hc.elim (List.all_eq_true.mp hbefore c) (List.all_eq_true.mp hafter c)
    rw [hblank] at this
    cases this

/-! ## Lists -/

theorem lists_listItems (s : List Char) : Lists s (listItems s) := by
  induction hn : s.length using Nat.strongRecOn generalizing s with
  | ind n ih =>
    by_cases hcomma : ',' ∈ s
    · obtain ⟨piece, rest, rfl, hpiece⟩ := List.eq_append_cons_of_mem hcomma
      have hlength : rest.length < n := by
        rw [← hn, List.length_append, List.length_cons]
        omega
      rw [listItems, List.splitOn_append_cons_self_of_not_mem hpiece, List.map_cons]
      exact .next hpiece (trims_trimChars piece) (ih rest.length hlength rest rfl)
    · rw [listItems, List.splitOn_eq_singleton hcomma, List.map_singleton]
      exact .last hcomma (trims_trimChars s)

theorem lists_iff {items : List String} : Lists s items ↔ listItems s = items := by
  constructor
  · intro h
    induction h with
    | last single trims =>
      rw [listItems, List.splitOn_eq_singleton single, List.map_singleton, trims_iff.mp trims]
    | next single trims _ ih =>
      rw [listItems, List.splitOn_append_cons_self_of_not_mem single, List.map_cons,
        trims_iff.mp trims, ← ih, listItems]
  · rintro rfl
    exact lists_listItems s

end SchemaChange.Text
