import SchemaChange.Proofs.Reserved

/-!
# Scripts

A script is a text that holds known statements, one behind the other, and nothing between them that
could be taken for a statement. Each search finds its own statements in it.
-/

namespace SchemaChange.Statement

open SchemaChange.Text
open Form (Clean)

variable {statement : Statement} {statements : List Statement} {shape : Shape}
  {w text plain : List Char}

/-- The statements that stand in a text. What stands between them is clean, and so is the text of
each statement behind its first letter. -/
inductive Script : List Statement → List Char → Prop where
  | done {gap : List Char} (clean : Clean gap) : Script [] gap
  | next {gap w rest : List Char} {statement : Statement} {more : List Statement}
      (clean : Clean gap) (spells : Spells statement w) (secluded : Clean w.tail)
      (others : Script more rest) : Script (statement :: more) (gap ++ (w ++ rest))

/-- A statement goes from a letter to a semicolon. -/
theorem exists_ends_of_spells (h : Spells statement w) :
    ∃ c body, isWord c = true ∧ w = c :: (body ++ [';']) := by
  obtain ⟨c, tail, rfl, hc⟩ := exists_word_of_spells h
  have hlast : (c :: tail).getLast? = some ';' := by
    generalize c :: tail = w at h
    cases h <;> simp [List.getLast?_append, List.getLast?_cons]
  cases htail : tail.getLast? with
  | none =>
    obtain rfl := List.getLast?_eq_none_iff.mp htail
    obtain rfl : c = ';' := by simpa using hlast
    exact absurd hc (not_isWord (by decide))
  | some d =>
    obtain ⟨body, rfl⟩ := List.getLast?_eq_some_iff.mp htail
    obtain rfl : d = ';' := by simpa [List.getLast?_cons] using hlast
    exact ⟨c, body, hc, rfl⟩

/-- A search finds the statements of a script that are of its shape, and no others. -/
theorem occurrences_of_script (h : Script statements text) :
    occurrences (read shape) text = statements.filter fun s => s.shape = shape := by
  induction h with
  | @done gap clean =>
    have hbarren : Barren gap [] := barren_of_clean clean (Or.inl stops_nil)
    rw [← List.append_nil gap, occurrences_append_of_barren hbarren]
    rfl
  | @next gap w rest statement more clean spells secluded _ ih =>
    have hgap : Barren gap (w ++ rest) :=
      barren_of_clean clean (Or.inr ⟨statement, w, rest, spells, rfl⟩)
    rw [occurrences_append_of_barren hgap, List.filter_cons]
    by_cases hshape : statement.shape = shape
    · have hfound : occurrences (read shape) (w ++ rest) =
          statement :: occurrences (read shape) rest :=
        (recognizes_read shape).occurrences_append_of_takes ⟨hshape, spells⟩
      rw [hfound, ih, if_pos (by simpa using hshape)]
    · rw [if_neg (by simpa using hshape), ← ih]
      have hnone : read shape (w ++ rest) = none := by
        rw [Option.eq_none_iff_forall_ne_some]
        rintro ⟨other, left⟩ hread
        obtain ⟨hother, w', hspells, heq⟩ := read_eq_some_iff.mp hread
        exact hshape ((shape_eq_of_spells spells hspells heq).trans hother)
      obtain ⟨c, body, -, rfl⟩ := exists_ends_of_spells spells
      have hbody : Barren body (';' :: rest) :=
        barren_of_clean (secluded.of_infix (List.prefix_append body [';']).isInfix)
          (Or.inl (stops_cons.mpr (isWord_of_isPunctuation (by decide))))
      have hbarren : Barren (body ++ [';']) rest :=
        barren_append hbody (barren_of_not_word (isWord_of_isPunctuation (by decide)))
      rw [List.cons_append] at hnone ⊢
      rw [occurrences_of_none hnone, occurrences_append_of_barren hbarren]

theorem not_hyphens_infix_of_script (h : Script statements text) : ¬ hyphens <:+: text := by
  induction h with
  | done clean => exact clean hyphens (Or.inl rfl)
  | next clean spells secluded _ ih =>
    obtain ⟨c, body, hc, rfl⟩ := exists_ends_of_spells spells
    have hword : c ∉ hyphens := by
      intro hmem
      obtain rfl : c = '-' := by simpa [hyphens] using hmem
      exact not_isWord (by decide) hc
    intro hin
    rw [List.cons_append, infix_append_cons_iff hword, List.append_assoc, List.singleton_append,
      infix_append_cons_iff (by decide)] at hin
    obtain hin | hin | hin := hin
    · exact clean hyphens (Or.inl rfl) hin
    · exact secluded hyphens (Or.inl rfl) (hin.trans (List.prefix_append body [';']).isInfix)
    · exact ih hin

/-- The statements of a script are found, shape by shape, when comments are put into it. -/
theorem ofText_of_script (h : Script statements plain) (htext : Commented plain text) :
    ofText (String.ofList text) =
      Shape.all.flatMap fun shape => statements.filter fun s => s.shape = shape := by
  have hplain := dropComments_of_commented htext (not_hyphens_infix_of_script h)
  simp only [ofText, ofShape, withoutComments, String.toList_ofList, hplain,
    occurrences_of_script h]

end SchemaChange.Statement
