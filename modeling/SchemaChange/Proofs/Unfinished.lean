import SchemaChange.Proofs.Growth

/-!
# Statements without an end

A statement that lacks its semicolon takes the text behind it up to the next place where it can end,
across line ends and over the statements that stand there. Where nothing behind it completes it, it
is passed over, and so is whatever else stands in a text without a semicolon.
-/

namespace SchemaChange.Statement

open SchemaChange.Text

/-- A statement that begins in one line or some lines without an end and ends in the text behind
them. -/
structure Completion (shape : Shape) (front rest : List Char) where
  statement : Statement
  begun : List Char
  taken : List Char
  later : List Char
  shaped : statement.shape = shape
  begins : begun <:+ front
  splits : rest = taken ++ later
  spells : Spells statement (begun ++ '\n' :: taken)

variable {shape : Shape} {front rest : List Char}

namespace Completion

theorem not_newline_mem_terminator (shape : Shape) : '\n' ∉ shape.terminator := by
  cases shape <;> decide

/-- A statement that is completed takes the text behind it up to the first terminator. -/
theorem terminator_suffix (completion : Completion shape front rest) :
    shape.terminator <:+ completion.taken := by
  obtain ⟨before, heq⟩ := exists_eq_append_terminator completion.spells
  rw [completion.shaped] at heq
  obtain h | h := List.suffix_or_suffix_of_suffix
    (heq ▸ List.suffix_append before shape.terminator)
    (List.suffix_append completion.begun ('\n' :: completion.taken))
  · obtain h | h := List.suffix_cons_iff.mp h
    · exact absurd (h ▸ List.mem_cons_self) (not_newline_mem_terminator shape)
    · exact h
  · exact absurd (h.mem List.mem_cons_self) (not_newline_mem_terminator shape)

theorem taken_ne_nil (completion : Completion shape front rest) : completion.taken ≠ [] := by
  have hmem := completion.terminator_suffix.mem (semicolon_mem_terminator shape)
  exact List.ne_nil_of_mem hmem

theorem not_terminator_infix_taken (completion : Completion shape front rest) :
    ¬ shape.terminator <:+: completion.taken.dropLast := by
  intro hin
  apply not_terminator_infix_dropLast completion.spells
  rw [completion.shaped, List.dropLast_append_of_ne_nil (by simp),
    List.dropLast_cons_of_ne_nil completion.taken_ne_nil]
  exact List.infix_append_of_infix_right (List.infix_cons hin)

/-- What is found in the text that is taken ends where the completed statement ends, so it is one
statement at most. -/
theorem length_occurrences_taken (completion : Completion shape front rest) :
    (occurrences (read shape) completion.taken).length ≤ 1 := by
  apply (recognizes_read shape).length_occurrences_le_one
  rintro statement w ⟨rfl, hspells⟩
  exact not_infix_of_spells hspells completion.not_terminator_infix_taken

/-- What stands behind a completed statement is found as if nothing had been taken before it. -/
theorem occurrences_taken_append (completion : Completion shape front rest) :
    occurrences (read shape) rest =
      occurrences (read shape) completion.taken ++ occurrences (read shape) completion.later := by
  obtain ⟨before, hbefore⟩ := completion.terminator_suffix
  rw [congrArg (occurrences (read shape)) completion.splits, ← hbefore,
    occurrences_append_terminator]

end Completion

/-- What is found behind some lines without an end: the same as without them, or first the statement
that begins in them, as far to the left as one does, and is completed behind them. -/
theorem occurrences_append_unfinished (shape : Shape) (rest : List Char) (hopen : ';' ∉ front) :
    (IsEmpty (Completion shape front rest) ∧
        occurrences (read shape) (front ++ '\n' :: rest) = occurrences (read shape) rest) ∨
      ∃ first : Completion shape front rest,
        (∀ other : Completion shape front rest, other.begun.length ≤ first.begun.length) ∧
        occurrences (read shape) (front ++ '\n' :: rest) =
          first.statement :: occurrences (read shape) first.later := by
  have hline : ';' ∉ front ++ ['\n'] := by simpa using hopen
  have hfree : ∀ statement w, statement.shape = shape ∧ Spells statement w →
      ¬ w <:+: front ++ ['\n'] := by
    rintro statement w ⟨-, hspells⟩
    exact not_infix_of_spells hspells (not_terminator_of_not_mem _ hline)
  rw [List.append_cons]
  obtain ⟨hnone, hsame⟩ | ⟨statement, v, taken, later, ⟨hshape, hspells⟩, hne, hv, hrest, hfirst,
      hfound⟩ := (recognizes_read shape).occurrences_append_of_free rest hfree
  · refine Or.inl ⟨⟨fun completion => ?_⟩, hsame⟩
    refine hnone completion.statement (completion.begun ++ ['\n']) completion.taken
      ⟨completion.shaped, ?_⟩ (by simp) ?_ ⟨completion.later, completion.splits.symm⟩
    · rw [← List.append_cons]
      exact completion.spells
    · exact List.suffix_append_self_iff.mpr completion.begins
  · obtain ⟨begun, rfl, hbegun⟩ := (List.suffix_concat_iff.mp hv).resolve_left hne
    rw [← List.append_cons] at hspells
    refine Or.inr ⟨⟨statement, begun, taken, later, hshape, hbegun, hrest, hspells⟩, ?_, hfound⟩
    intro other
    by_contra hlonger
    refine hfirst other.statement (other.begun ++ ['\n']) other.taken ⟨other.shaped, ?_⟩
      (List.suffix_append_self_iff.mpr other.begins) (by simpa using hlonger)
      ⟨other.later, other.splits.symm⟩
    rw [← List.append_cons]
    exact other.spells

/-- Lines without a comment stay as they stand. -/
theorem withoutComments_append_newline (front back : String)
    (hplain : ¬ hyphens <:+: front.toList) :
    (withoutComments (front ++ "\n" ++ back)).toList =
      front.toList ++ '\n' :: (withoutComments back).toList := by
  have hnewline : "\n".toList = ['\n'] := rfl
  simp only [withoutComments, String.toList_append, String.toList_ofList, hnewline,
    List.append_assoc, List.cons_append, List.nil_append]
  rw [dropComments_append_newline, dropComments_of_plain hplain]

/-- Lines without a semicolon in front of a text. If no statement of a shape begins in them and is
completed behind them, they change nothing for that shape. Otherwise the one that begins first is
found. It ends at the first terminator in the text, comments left out; what stands behind that is
found as it would be, and what stood before it was one statement of the shape at most. -/
theorem ofText_append_unfinished (front back : String) (hopen : ';' ∉ front.toList)
    (hplain : ¬ hyphens <:+: front.toList) :
    ((∀ shape, IsEmpty (Completion shape front.toList (withoutComments back).toList)) →
      ofText (front ++ "\n" ++ back) = ofText back) ∧
    ∀ shape : Shape,
      let found (text : String) := (ofText text).filter (fun s => s.shape = shape)
      (IsEmpty (Completion shape front.toList (withoutComments back).toList) →
        found (front ++ "\n" ++ back) = found back) ∧
      (Nonempty (Completion shape front.toList (withoutComments back).toList) →
        ∃ first : Completion shape front.toList (withoutComments back).toList,
          (∀ other : Completion shape front.toList (withoutComments back).toList,
            other.begun.length ≤ first.begun.length) ∧
          shape.terminator <:+ first.taken ∧ ¬ shape.terminator <:+: first.taken.dropLast ∧
          found (front ++ "\n" ++ back) =
            first.statement :: ofShape shape (String.ofList first.later) ∧
          ∃ lost, lost.length ≤ 1 ∧
            found back = lost ++ ofShape shape (String.ofList first.later)) := by
  have hcases (shape : Shape) :=
    occurrences_append_unfinished shape (withoutComments back).toList hopen
  rw [← withoutComments_append_newline front back hplain] at hcases
  constructor
  · intro hempty
    have hsame (shape : Shape) : ofShape shape (withoutComments (front ++ "\n" ++ back)) =
        ofShape shape (withoutComments back) := by
      obtain ⟨-, hsame⟩ | ⟨first, -⟩ := hcases shape
      · exact hsame
      · exact ((hempty shape).false first).elim
    simp only [ofText, hsame]
  · intro shape
    simp only [filter_ofText]
    constructor
    · intro hempty
      obtain ⟨-, hsame⟩ | ⟨first, -⟩ := hcases shape
      · exact hsame
      · exact (hempty.false first).elim
    · rintro ⟨completion⟩
      obtain ⟨hempty, -⟩ | ⟨first, hfirst, hfound⟩ := hcases shape
      · exact (hempty.false completion).elim
      · refine ⟨first, hfirst, first.terminator_suffix, first.not_terminator_infix_taken, ?_,
          occurrences (read shape) first.taken, first.length_occurrences_taken, ?_⟩
        · rw [ofShape, hfound, ofShape, String.toList_ofList]
        · rw [ofShape, first.occurrences_taken_append, ofShape, String.toList_ofList]

/-- A table that is left open is completed by the next one. -/
def openTable :
    Completion .tableDefinition "CREATE TABLE a (x TEXT".toList
      (withoutComments "CREATE TABLE b (y TEXT);").toList where
  statement := .newTable "a" [⟨"y", "TEXT"⟩]
  begun := "CREATE TABLE a (x TEXT".toList
  taken := "CREATE TABLE b (y TEXT);".toList
  later := []
  shaped := rfl
  begins := List.suffix_refl _
  splits := by decide
  spells := by
    have hread : read .tableDefinition
        ("CREATE TABLE a (x TEXT".toList ++ '\n' :: "CREATE TABLE b (y TEXT);".toList) =
        some (.newTable "a" [⟨"y", "TEXT"⟩], []) := by decide +kernel
    obtain ⟨-, w, hspells, heq⟩ := read_eq_some_iff.mp hread
    rw [heq, List.append_nil]
    exact hspells

/-- The table that completes it is lost, for the two end together. -/
theorem ofText_append_unfinished_table :
    ';' ∉ "CREATE TABLE a (x TEXT".toList ∧ ¬ hyphens <:+: "CREATE TABLE a (x TEXT".toList ∧
    ∃ first : Completion .tableDefinition "CREATE TABLE a (x TEXT".toList
        (withoutComments "CREATE TABLE b (y TEXT);").toList,
      (ofText ("CREATE TABLE a (x TEXT" ++ "\n" ++ "CREATE TABLE b (y TEXT);")).filter
          (fun s => s.shape = .tableDefinition) =
        first.statement :: ofShape .tableDefinition (String.ofList first.later) := by
  obtain ⟨first, -, -, -, hfound, -⟩ := ((ofText_append_unfinished "CREATE TABLE a (x TEXT"
    "CREATE TABLE b (y TEXT);" (by decide) (by decide)).2 .tableDefinition).2 ⟨openTable⟩
  exact ⟨by decide, by decide, first, hfound⟩

/-- A table over two lines is one table, whatever its second line is by itself. And an open table
takes the columns of the next one. -/
theorem not_skipped_unfinished :
    (∀ front ∈ ["CREATE TABLE a (x TEXT,", "CREATE TABLE a (x TEXT"],
      ';' ∉ front.toList ∧ ¬ hyphens <:+: front.toList) ∧
    ofText ("CREATE TABLE a (x TEXT," ++ "\n" ++ "y TEXT);") =
      [.newTable "a" [⟨"x", "TEXT"⟩, ⟨"y", "TEXT"⟩]] ∧
    ofText "y TEXT);" = [] ∧
    ofText ("CREATE TABLE a (x TEXT" ++ "\n" ++ "CREATE TABLE b (y TEXT);") =
      [.newTable "a" [⟨"y", "TEXT"⟩]] ∧
    ofText "CREATE TABLE b (y TEXT);" = [.newTable "b" [⟨"y", "TEXT"⟩]] := by
  refine ⟨by decide, ?_, ?_, ?_, ?_⟩
  · decide +kernel
  · decide +kernel
  · decide +kernel
  · decide +kernel

end SchemaChange.Statement
