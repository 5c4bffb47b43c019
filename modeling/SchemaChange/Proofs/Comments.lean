import SchemaChange.Proofs.CharClass
import SchemaChange.Proofs.Fragment
import SchemaChange.Statement.Comment

/-!
# What is left when the comments are gone

Two hyphens begin a comment wherever they stand, inside quotes too. A text without two hyphens is
left as it is, and comments that are put at the ends of its lines go away again.
-/

namespace SchemaChange.Statement

open SchemaChange.Text

variable {c : Char} {s u v note plain text : List Char}

/-- The two hyphens that begin a comment. -/
def hyphens : List Char := ['-', '-']

/-- What stands before the first comment stays. -/
theorem dropComments_append (h : ¬ hyphens <:+: u ++ v.take 1) :
    dropComments false (u ++ v) = u ++ dropComments false v := by
  induction u with
  | nil => rfl
  | cons c u ih =>
    have hu : ¬ hyphens <:+: u ++ v.take 1 := fun hin => h (List.infix_cons hin)
    have hfirst : ¬ (c = '-' ∧ (u ++ v).head? = some '-') := by
      rintro ⟨rfl, hhead⟩
      refine h (List.IsPrefix.isInfix (List.cons_prefix_cons.mpr ⟨rfl, ?_⟩))
      cases u with
      | nil =>
        cases v with
        | nil => cases hhead
        | cons d v =>
          obtain rfl : d = '-' := by simpa using hhead
          simp
      | cons d u =>
        obtain rfl : d = '-' := by simpa using hhead
        simp
    rw [List.cons_append, dropComments, ih hu]
    split
    · rename_i hc
      rw [hc, List.cons_append]
    · rw [if_neg (by simpa using hfirst), List.cons_append]

theorem dropComments_of_plain (h : ¬ hyphens <:+: s) : dropComments false s = s := by
  simpa [dropComments] using dropComments_append (u := s) (v := []) (by simpa using h)

theorem dropComments_true_append (h : '\n' ∉ u) :
    dropComments true (u ++ v) = dropComments true v := by
  induction u with
  | nil => rfl
  | cons c u ih =>
    rw [List.mem_cons, not_or] at h
    rw [List.cons_append, dropComments, if_neg (Ne.symm h.1)]
    simpa using ih h.2

theorem dropComments_true (h : '\n' ∉ s) : dropComments true s = [] := by
  rw [← List.append_nil s, dropComments_true_append h, dropComments]

/-- A comment on the last line takes all that follows it. -/
theorem dropComments_comment (h : '\n' ∉ note) : dropComments false (hyphens ++ note) = [] := by
  have hnote : dropComments true ('-' :: note) = [] := dropComments_true (by simpa using h)
  simpa [hyphens, dropComments] using hnote

/-- A comment gives way to a line end or to nothing. -/
theorem head?_dropComments_true (hc : c ≠ '\n') : (dropComments true s).head? ≠ some c := by
  induction s with
  | nil => simp [dropComments]
  | cons d s ih =>
    rw [dropComments]
    split
    · simpa using hc.symm
    · simpa using ih

/-- The comments of a text do not depend on what follows it, but those that follow depend on whether
one of its own goes on. -/
theorem exists_dropComments_append (inComment : Bool) (hv : v.head? ≠ some '-') :
    ∃ goesOn, dropComments inComment (u ++ v) =
      dropComments inComment u ++ dropComments goesOn v := by
  induction u generalizing inComment with
  | nil => exact ⟨inComment, rfl⟩
  | cons c u ih =>
    have hnext : ((u ++ v).head? == some '-') = (u.head? == some '-') := by
      cases u with
      | nil => simpa using hv
      | cons d u => rfl
    rw [List.cons_append, dropComments, dropComments, hnext]
    split
    · obtain ⟨goesOn, heq⟩ := ih false
      exact ⟨goesOn, by rw [heq, List.cons_append]⟩
    · split
      · exact ih true
      · obtain ⟨goesOn, heq⟩ := ih false
        exact ⟨goesOn, by rw [heq, List.cons_append]⟩

/-- Leaving out comments adds and moves nothing. -/
theorem dropComments_sublist (inComment : Bool) (s : List Char) :
    (dropComments inComment s).Sublist s := by
  induction s generalizing inComment with
  | nil => exact List.Sublist.refl _
  | cons c s ih =>
    rw [dropComments]
    split
    · rename_i hc
      exact hc ▸ (ih false).cons_cons '\n'
    · split
      · exact (ih true).cons c
      · exact (ih false).cons_cons c

/-- What a text adds to another one stands behind what the other keeps. Only a last hyphen may be
lost there, where the two texts begin a comment together. -/
theorem exists_dropComments_kept (inComment : Bool) (u v : List Char) :
    ∃ kept added, dropComments inComment (u ++ v) = kept ++ added ∧ added.Sublist v ∧
      (dropComments inComment u = kept ∨ dropComments inComment u = kept ++ ['-']) := by
  induction u generalizing inComment with
  | nil => exact ⟨[], _, rfl, dropComments_sublist inComment v, Or.inl rfl⟩
  | cons c u ih =>
    rw [List.cons_append, dropComments, dropComments]
    obtain ⟨kept, added, heq, hadded, hkept⟩ := ih false
    have hkeep : c :: dropComments false (u ++ v) = (c :: kept) ++ added ∧ added.Sublist v ∧
        (c :: dropComments false u = c :: kept ∨
          c :: dropComments false u = (c :: kept) ++ ['-']) :=
      ⟨by rw [heq, List.cons_append], hadded, hkept.imp (congrArg _) (congrArg _)⟩
    by_cases hc : c = '\n'
    · rw [if_pos hc, if_pos hc, ← hc]
      exact ⟨c :: kept, added, hkeep⟩
    · rw [if_neg hc, if_neg hc]
      cases u with
      | nil =>
        by_cases hcomment : (inComment || (c == '-' && v.head? == some '-')) = true
        · rw [List.nil_append, if_pos hcomment]
          refine ⟨[], _, rfl, dropComments_sublist true v, ?_⟩
          cases inComment with
          | true => exact Or.inl rfl
          | false =>
            obtain ⟨rfl, -⟩ : c = '-' ∧ v.head? = some '-' := by simpa using hcomment
            exact Or.inr rfl
        · have halone : ¬ (inComment || (c == '-' && ([] : List Char).head? == some '-')) = true := by
            intro h
            simp_all
          rw [List.nil_append, if_neg hcomment, if_neg halone]
          exact ⟨c :: kept, added, hkeep⟩
      | cons d u =>
        rw [List.cons_append, List.head?_cons, List.head?_cons]
        split
        · exact ih true
        · exact ⟨c :: kept, added, hkeep⟩

/-! ## Comments at the ends of lines -/

/-- A text with comments put into it: each goes up to the end of a line, or of the text. None stands
directly behind a hyphen, which would become a part of it. -/
inductive Commented : List Char → List Char → Prop where
  | nil : Commented [] []
  | last {note : List Char} (line : '\n' ∉ note) : Commented [] (hyphens ++ note)
  | keep {c : Char} {plain text : List Char} (apart : c = '-' → text.head? = plain.head?)
      (more : Commented plain text) : Commented (c :: plain) (c :: text)
  | line {note plain text : List Char} (line : '\n' ∉ note) (more : Commented plain text) :
      Commented ('\n' :: plain) (hyphens ++ (note ++ '\n' :: text))

theorem commented_self (s : List Char) : Commented s s := by
  induction s with
  | nil => exact .nil
  | cons c s ih => exact .keep (fun _ => rfl) ih

/-- Leaving out the comments gives the text into which they were put. -/
theorem dropComments_of_commented (h : Commented plain text) (hplain : ¬ hyphens <:+: plain) :
    dropComments false text = plain := by
  induction h with
  | nil => rfl
  | last line => exact dropComments_comment line
  | @keep c plain text apart _ ih =>
    have ih := ih fun hin => hplain (List.infix_cons hin)
    have hfirst : ¬ (c = '-' ∧ text.head? = some '-') := by
      rintro ⟨rfl, hhead⟩
      rw [apart rfl] at hhead
      cases plain with
      | nil => cases hhead
      | cons d plain =>
        obtain rfl : d = '-' := by simpa using hhead
        exact hplain (List.prefix_append hyphens plain).isInfix
    rw [dropComments, ih]
    split
    · rename_i hc
      rw [hc]
    · rw [if_neg (by simpa using hfirst)]
  | @line note plain text line _ ih =>
    have ih := ih fun hin => hplain (List.infix_cons hin)
    rw [← List.append_assoc, dropComments_append_newline, dropComments_comment line,
      List.nil_append, ih]

/-! ## The last line -/

/-- What follows the last line end. -/
def lastLine (s : List Char) : List Char :=
  (s.reverse.takeWhile (· != '\n')).reverse

theorem lastLine_eq (s : List Char) :
    s = lastLine s ∨ ∃ lines, s = lines ++ '\n' :: lastLine s := by
  have hsplit := List.takeWhile_append_dropWhile (p := (· != '\n')) (l := s.reverse)
  have hhead := List.head?_dropWhile_not (· != '\n') s.reverse
  cases hdrop : s.reverse.dropWhile (· != '\n') with
  | nil =>
    left
    rw [hdrop, List.append_nil] at hsplit
    rw [lastLine, hsplit, List.reverse_reverse]
  | cons c lines =>
    right
    obtain rfl : c = '\n' := by simpa [hdrop] using hhead
    refine ⟨lines.reverse, ?_⟩
    rw [hdrop] at hsplit
    simpa [lastLine] using (congrArg List.reverse hsplit).symm

theorem not_mem_lastLine (s : List Char) : '\n' ∉ lastLine s := by
  intro hmem
  have := List.all_eq_true.mp List.all_takeWhile _ (List.mem_reverse.mp hmem)
  simp at this

theorem lastLine_of_not_mem (h : '\n' ∉ s) : lastLine s = s := by
  have hall := bne_of_not_mem (mt List.mem_reverse.mp h)
  have htake := takeWhile_append_of_stops hall stops_nil
  rw [List.append_nil] at htake
  rw [lastLine, htake, List.reverse_reverse]

theorem lastLine_append_newline (lines : List Char) (h : '\n' ∉ s) :
    lastLine (lines ++ '\n' :: s) = s := by
  have hall := bne_of_not_mem (mt List.mem_reverse.mp h)
  have hsplit : (lines ++ '\n' :: s).reverse = s.reverse ++ '\n' :: lines.reverse := by simp
  rw [lastLine, hsplit, takeWhile_append_of_stops hall (by simp), List.reverse_reverse]

/-- A text that goes on with the last line of another one, where no comment stands: each of the two
is freed from its own comments. -/
theorem dropComments_append_line (h : ¬ hyphens <:+: lastLine u) (hv : v.head? ≠ some '-') :
    dropComments false (u ++ v) = dropComments false u ++ dropComments false v := by
  have hline : ¬ hyphens <:+: lastLine u ++ v.take 1 := by
    intro hin
    cases v with
    | nil => exact h (by simpa using hin)
    | cons d v =>
      obtain hin | hin := List.infix_concat_iff.mp hin
      · obtain ⟨front, hfront⟩ := hin
        have hd : d = '-' := by
          have := congrArg List.getLast? hfront
          simpa [hyphens] using this.symm
        exact hv (by rw [hd]; rfl)
      · exact h hin
  obtain hu | ⟨lines, hu⟩ := lastLine_eq u
  · rw [← hu] at h hline
    rw [dropComments_append hline, dropComments_of_plain h]
  · rw [hu, List.append_assoc, List.cons_append, dropComments_append_newline,
      dropComments_append_newline, dropComments_append hline, dropComments_of_plain h]
    simp

/-- A comment on the last line of a text goes on in what follows. -/
theorem dropComments_append_comment (h : hyphens <:+: lastLine u) :
    dropComments false (u ++ v) = dropComments false u ++ dropComments true v := by
  obtain ⟨front, note, hlast, hfirst⟩ := exists_first_infix (by decide) h
  have hnote : '\n' ∉ '-' :: note := by
    have := not_mem_lastLine u
    rw [hlast, List.mem_append, List.mem_append, not_or, not_or] at this
    simpa using this.2.2
  have hline (v : List Char) :
      dropComments false (lastLine u ++ v) = front ++ dropComments true v := by
    have hplain : ¬ hyphens <:+: front ++ (hyphens ++ (note ++ v)).take 1 := hfirst
    have hstart : dropComments false (hyphens ++ (note ++ v)) =
        dropComments true ('-' :: note ++ v) := by
      simp [hyphens, dropComments]
    rw [hlast, List.append_assoc, List.append_assoc, dropComments_append hplain, hstart,
      dropComments_true_append hnote]
  have hend : dropComments false (lastLine u) = front := by
    simpa [dropComments] using hline []
  obtain hu | ⟨lines, hu⟩ := lastLine_eq u
  · rw [← hu] at hline hend
    rw [hline, hend]
  · rw [hu, List.append_assoc, List.cons_append, dropComments_append_newline,
      dropComments_append_newline, hline, hend]
    simp

end SchemaChange.Statement
