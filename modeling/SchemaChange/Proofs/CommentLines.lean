import Mathlib.Data.List.Forall2
import SchemaChange.Proofs.Comments
import SchemaChange.Proofs.Listing

/-!
# Comments line by line

Leaving out the comments of a text is leaving them out of each line by itself: what is left of a line
goes up to its first two hyphens. No two hyphens are left then, so nothing is left out a second time,
and a comment that is put behind a line makes no difference to the statements.
-/

namespace SchemaChange.Statement

open SchemaChange.Text

variable {line marked note s : List Char}

/-! ## One line -/

/-- What is left of a line: all of it where it holds no two hyphens, or else what stands before the
first two. -/
inductive CutAtComment : List Char → List Char → Prop where
  | plain {line : List Char} (free : ¬ hyphens <:+: line) : CutAtComment line line
  | comment {kept note : List Char} (first : ¬ hyphens <:+: kept ++ ['-']) :
      CutAtComment (kept ++ (hyphens ++ note)) kept

theorem cutAtComment_dropComments (h : '\n' ∉ line) :
    CutAtComment line (dropComments false line) := by
  by_cases hin : hyphens <:+: line
  · obtain ⟨kept, note, rfl, hfirst⟩ := exists_first_infix (by decide) hin
    have hplain : ¬ hyphens <:+: kept ++ (hyphens ++ note).take 1 := hfirst
    have hnote : '\n' ∉ note := by
      intro hmem
      apply h
      simp [hmem]
    rw [dropComments_append hplain, dropComments_comment hnote, List.append_nil]
    exact .comment hfirst
  · rw [dropComments_of_plain hin]
    exact .plain hin

/-- A line as it was, or with a comment put behind it. Behind a hyphen the comment would begin
earlier. -/
inductive Remarked : List Char → List Char → Prop where
  | same {line : List Char} : Remarked line line
  | remark {line note : List Char} (apart : line.getLast? ≠ some '-') (single : '\n' ∉ note) :
      Remarked line (line ++ (hyphens ++ note))

/-- A line loses the comment that was put behind it, together with its own if it has one. -/
theorem dropComments_of_remarked (hline : '\n' ∉ line) (h : Remarked line marked) :
    dropComments false marked = dropComments false line := by
  cases h with
  | same => rfl
  | @remark note apart single =>
    by_cases hin : hyphens <:+: line
    · have hlast : hyphens <:+: lastLine line := by
        rw [lastLine_of_not_mem hline]
        exact hin
      have hnote : '\n' ∉ hyphens ++ note := by
        simpa [hyphens] using single
      rw [dropComments_append_comment hlast, dropComments_true hnote, List.append_nil]
    · have hseam : ¬ hyphens <:+: line ++ (hyphens ++ note).take 1 := by
        intro hboth
        obtain hend | hearlier := List.infix_concat_iff.mp hboth
        · obtain ⟨front, hfront⟩ := hend
          -- The two hyphens would be the one that begins the comment and the end of the line.
          have heq : front ++ ['-'] = line := by
            have hsame : front ++ ['-'] ++ ['-'] = line ++ ['-'] := by
              simpa [hyphens] using hfront
            exact List.append_cancel_right hsame
          apply apart
          rw [← heq]
          simp
        · exact hin hearlier
      rw [dropComments_append hseam, dropComments_comment single, List.append_nil,
        dropComments_of_plain hin]

/-! ## All lines -/

/-- Texts that are joined by line ends lose their comments one by one. -/
theorem dropComments_intercalate (texts : List (List Char)) :
    dropComments false (['\n'].intercalate texts) =
      ['\n'].intercalate (texts.map (dropComments false)) := by
  induction texts with
  | nil => rfl
  | cons text more ih =>
    cases more with
    | nil => simp
    | cons next more =>
      rw [List.intercalate_cons_cons, List.append_assoc, List.singleton_append,
        dropComments_append_newline, ih]
      simp [List.intercalate_cons_cons]

theorem withoutComments_intercalate (texts : List String) :
    withoutComments ("\n".intercalate texts) = "\n".intercalate (texts.map withoutComments) := by
  rw [← String.toList_inj]
  have htexts : (texts.map withoutComments).map String.toList =
      (texts.map String.toList).map (dropComments false) := by
    rw [List.map_map, List.map_map]
    apply List.map_congr_left
    intro text _
    exact String.toList_ofList
  rw [withoutComments, String.toList_ofList, String.toList_intercalate, String.toList_intercalate,
    htexts]
  exact dropComments_intercalate _

theorem not_newline_mem_line (h : line ∈ s.splitOn '\n') : '\n' ∉ line := by
  induction hn : s.length using Nat.strongRecOn generalizing s with
  | ind n ih =>
    by_cases hnewline : '\n' ∈ s
    · obtain ⟨front, rest, rfl, hfront⟩ := List.eq_append_cons_of_mem hnewline
      rw [List.splitOn_append_cons_self_of_not_mem hfront] at h
      obtain rfl | h := List.mem_cons.mp h
      · exact hfront
      · have hlength : rest.length < n := by
          rw [← hn, List.length_append, List.length_cons]
          omega
        exact ih rest.length hlength h rfl
    · rw [List.splitOn_eq_singleton hnewline, List.mem_singleton] at h
      rwa [h]

/-- The lines of what is left are what is left of the lines. -/
theorem splitOn_dropComments (s : List Char) :
    (dropComments false s).splitOn '\n' = (s.splitOn '\n').map (dropComments false) := by
  have hlines : ∀ kept ∈ (s.splitOn '\n').map (dropComments false), '\n' ∉ kept := by
    intro kept hkept
    obtain ⟨line, hline, rfl⟩ := List.mem_map.mp hkept
    intro hmem
    exact not_newline_mem_line hline ((dropComments_sublist false line).subset hmem)
  have hne : (s.splitOn '\n').map (dropComments false) ≠ [] := by
    simp
  calc (dropComments false s).splitOn '\n'
      = (dropComments false (['\n'].intercalate (s.splitOn '\n'))).splitOn '\n' := by
        rw [List.intercalate_splitOn]
    _ = (['\n'].intercalate ((s.splitOn '\n').map (dropComments false))).splitOn '\n' := by
        rw [dropComments_intercalate]
    _ = (s.splitOn '\n').map (dropComments false) :=
        List.splitOn_intercalate '\n' hlines hne

/-- Line ends stay, also those behind comments. -/
theorem count_newline_dropComments (inComment : Bool) (s : List Char) :
    (dropComments inComment s).count '\n' = s.count '\n' := by
  induction s generalizing inComment with
  | nil => rfl
  | cons c s ih =>
    rw [dropComments]
    by_cases hc : c = '\n'
    · rw [if_pos hc, hc, List.count_cons_self, List.count_cons_self, ih]
    · rw [if_neg hc, List.count_cons_of_ne hc]
      split
      · exact ih true
      · rw [List.count_cons_of_ne hc, ih]

/-- A hyphen comes first only where one came first before. -/
theorem head?_dropComments_hyphen (h : (dropComments false s).head? = some '-') :
    s.head? = some '-' := by
  cases s with
  | nil => exact h
  | cons c s =>
    rw [dropComments] at h
    split at h
    · simp at h
    · split at h
      · exact absurd h (head?_dropComments_true (by decide))
      · exact h

/-- No comment is left, and what was left out leaves none behind where its ends meet. -/
theorem not_hyphens_infix_dropComments (inComment : Bool) (s : List Char) :
    ¬ hyphens <:+: dropComments inComment s := by
  induction s generalizing inComment with
  | nil => simp [dropComments, hyphens]
  | cons c s ih =>
    rw [dropComments]
    split
    · intro hin
      obtain hfirst | hlater := List.infix_cons_iff.mp hin
      · exact absurd (List.cons_prefix_cons.mp hfirst).1 (by decide)
      · exact ih false hlater
    · split
      · exact ih true
      · rename_i hcomment
        intro hin
        obtain hfirst | hlater := List.infix_cons_iff.mp hin
        · obtain ⟨rfl, tail, htail⟩ := List.cons_prefix_cons.mp hfirst
          have hhead : (dropComments false s).head? = some '-' := by
            rw [← htail]
            rfl
          apply hcomment
          rw [head?_dropComments_hyphen hhead]
          simp
        · exact ih false hlater

/-- Comments that are put behind lines of a text go away again. -/
theorem withoutComments_of_remarked {text : String} {marked : List (List Char)}
    (h : List.Forall₂ Remarked (text.toList.splitOn '\n') marked) :
    withoutComments (String.ofList (['\n'].intercalate marked)) = withoutComments text := by
  have hline : ∀ line ∈ text.toList.splitOn '\n', '\n' ∉ line := by
    intro line hmem
    exact not_newline_mem_line hmem
  have hmarked : marked.map (dropComments false) =
      (text.toList.splitOn '\n').map (dropComments false) := by
    generalize text.toList.splitOn '\n' = lines at h hline
    induction h with
    | nil => rfl
    | cons hfirst _ ih =>
      rw [List.forall_mem_cons] at hline
      rw [List.map_cons, List.map_cons, ih hline.2, dropComments_of_remarked hline.1 hfirst]
  rw [withoutComments, withoutComments, String.toList_ofList, dropComments_intercalate, hmarked,
    ← dropComments_intercalate, List.intercalate_splitOn]

/-- A text keeps its lines, each of them up to its first two hyphens. So no two hyphens are left, and
to leave out comments a second time changes nothing. Texts joined by line ends lose their comments
one by one, and comments put behind lines do not change the statements. -/
theorem withoutComments_cuts_lines (text : String) :
    (withoutComments text).toList.count '\n' = text.toList.count '\n' ∧
    List.Forall₂ CutAtComment (text.toList.splitOn '\n')
      ((withoutComments text).toList.splitOn '\n') ∧
    ¬ hyphens <:+: (withoutComments text).toList ∧
    withoutComments (withoutComments text) = withoutComments text ∧
    (∀ texts : List String, withoutComments ("\n".intercalate texts) =
      "\n".intercalate (texts.map withoutComments)) ∧
    ∀ marked, List.Forall₂ Remarked (text.toList.splitOn '\n') marked →
      ofText (String.ofList (['\n'].intercalate marked)) = ofText text := by
  have hkept : (withoutComments text).toList = dropComments false text.toList :=
    String.toList_ofList
  have hplain : ¬ hyphens <:+: dropComments false text.toList :=
    not_hyphens_infix_dropComments false text.toList
  refine ⟨?_, ?_, ?_, ?_, withoutComments_intercalate, ?_⟩
  · rw [hkept]
    exact count_newline_dropComments false text.toList
  · rw [hkept, splitOn_dropComments, List.forall₂_map_right_iff, List.forall₂_same]
    intro line hline
    exact cutAtComment_dropComments (not_newline_mem_line hline)
  · rw [hkept]
    exact hplain
  · rw [withoutComments, hkept, dropComments_of_plain hplain, ← hkept, String.ofList_toList]
  · intro marked hmarked
    rw [ofText, ofText, withoutComments_of_remarked hmarked]

/-- A statement over two lines, the first of which has a comment already. The comments that are put
behind them hold a semicolon and more hyphens. -/
theorem withoutComments_cuts_lines_remarked :
    List.Forall₂ Remarked ("ALTER TABLE t -- new\nADD COLUMN x TEXT;".toList.splitOn '\n')
      ["ALTER TABLE t -- new-- a;".toList, "ADD COLUMN x TEXT;--- b".toList] ∧
    ofText (String.ofList (['\n'].intercalate
        ["ALTER TABLE t -- new-- a;".toList, "ADD COLUMN x TEXT;--- b".toList])) =
      ofText "ALTER TABLE t -- new\nADD COLUMN x TEXT;" := by
  have hmarked : List.Forall₂ Remarked
      ("ALTER TABLE t -- new\nADD COLUMN x TEXT;".toList.splitOn '\n')
      ["ALTER TABLE t -- new-- a;".toList, "ADD COLUMN x TEXT;--- b".toList] :=
    .cons (@Remarked.remark "ALTER TABLE t -- new".toList " a;".toList (by decide) (by decide))
      (.cons (@Remarked.remark "ADD COLUMN x TEXT;".toList "- b".toList (by decide) (by decide))
        .nil)
  obtain ⟨-, -, -, -, -, hsame⟩ :=
    withoutComments_cuts_lines "ALTER TABLE t -- new\nADD COLUMN x TEXT;"
  exact ⟨hmarked, hsame _ hmarked⟩

end SchemaChange.Statement
