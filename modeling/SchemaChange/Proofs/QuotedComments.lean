import SchemaChange.Proofs.Comments
import SchemaChange.Proofs.Quoted

/-!
# Comments in quoted values

Comments are left out before anything is read, so they are found in quoted values too. Escaping
neither makes nor breaks one, and a value that no comment leaves loses just its own.
-/

namespace SchemaChange.ValueList

open Statement (hyphens dropComments lastLine withoutComments)

variable {v : List Char} {values : List String} {inComment : Bool}

/-- Escaping puts no hyphen in front of a text, and takes none away. -/
theorem head?_escaped (v : List Char) :
    ((escaped v).head? == some '-') = (v.head? == some '-') := by
  cases v with
  | nil => rfl
  | cons c v =>
    rw [escaped_cons, escape]
    split
    · rename_i hc
      have hhyphen : c ≠ '-' := by
        rintro rfl
        exact absurd hc (by decide)
      simp [hhyphen]
    · rfl

/-- Comments do not see what is escaped. -/
theorem dropComments_escaped (v : List Char) :
    dropComments inComment (escaped v) = escaped (dropComments inComment v) := by
  induction v generalizing inComment with
  | nil => rfl
  | cons c v ih =>
    by_cases hc : c = '\\' ∨ c = '\''
    · have hline : c ≠ '\n' := by
        rintro rfl
        exact absurd hc (by decide)
      have hhyphen : c ≠ '-' := by
        rintro rfl
        exact absurd hc (by decide)
      have hescape : escape c = ['\\', c] := if_pos hc
      rw [escaped_cons, hescape]
      cases inComment
      · simp [dropComments, hline, hhyphen, ih, escaped_cons, hescape]
      · simp [dropComments, hline, ih]
    · have hescape : escape c = [c] := if_neg hc
      rw [escaped_cons, hescape, List.singleton_append, dropComments, dropComments, head?_escaped]
      split
      · rw [ih, escaped_cons]
        rfl
      · split
        · exact ih
        · rw [ih, escaped_cons, hescape, List.singleton_append]

theorem lastLine_escaped (v : List Char) : lastLine (escaped v) = escaped (lastLine v) := by
  have hline : '\n' ∉ escaped (lastLine v) := by
    rw [mem_escaped_iff (by decide) (by decide)]
    exact Statement.not_mem_lastLine v
  obtain hv | ⟨lines, hv⟩ := Statement.lastLine_eq v
  · rw [← hv] at hline ⊢
    exact Statement.lastLine_of_not_mem hline
  · have hsplit : escaped v = escaped lines ++ '\n' :: escaped (lastLine v) := by
      conv_lhs => rw [hv, escaped_append, escaped_cons]
      rfl
    rw [hsplit, Statement.lastLine_append_newline _ hline]

theorem hyphens_infix_lastLine_escaped :
    hyphens <:+: lastLine (escaped v) ↔ hyphens <:+: lastLine v := by
  rw [lastLine_escaped, infix_escaped_iff (by decide) (by decide) (by decide)]

/-- A quoted value loses the comments that are its own. -/
theorem dropComments_quoted_append (h : ¬ hyphens <:+: lastLine v) (s : List Char) :
    dropComments false (quoted v ++ s) = quoted (dropComments false v) ++ dropComments false s := by
  have hquote (s : List Char) :
      dropComments false ('\'' :: s) = '\'' :: dropComments false s := by
    simp [dropComments]
  have hline := mt hyphens_infix_lastLine_escaped.mp h
  rw [quoted, quoted, List.cons_append, hquote, List.append_assoc, List.singleton_append,
    Statement.dropComments_append_line hline (by simp), dropComments_escaped, hquote]
  simp

theorem dropComments_lead_append
    (h : ∀ value ∈ values, ¬ hyphens <:+: lastLine value.toList) (s : List Char) :
    dropComments false (lead values ++ s) =
      lead (values.map withoutComments) ++ dropComments false s := by
  induction values with
  | nil => rfl
  | cons value more ih =>
    rw [List.forall_mem_cons] at h
    have hcomma (s : List Char) : dropComments false (',' :: ([' '] ++ s)) =
        ',' :: ([' '] ++ dropComments false s) := by
      simp [dropComments]
    rw [lead_cons, dropComments_quoted_append h.1, hcomma, ih h.2, List.map_cons, lead_cons,
      withoutComments, String.toList_ofList]

end SchemaChange.ValueList
