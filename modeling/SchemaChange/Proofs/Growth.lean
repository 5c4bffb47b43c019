import SchemaChange.Proofs.Boundary

/-!
# Migrations that grow

A statement ends at the first place where a statement of its shape can end. So a text that goes on
with more text keeps all that was found in it: what is added may end a statement that was still
open, but there was nothing of that shape behind the place where it began.
-/

namespace SchemaChange

open SchemaChange.Text

/-- The characters that end a statement of a shape. -/
def Shape.terminator : Shape → List Char
  | .columnAddition => [';']
  | .tableDefinition | .indexDefinition | .rowInsertion => Statement.closing

namespace Statement

variable {statement other : Statement} {shape : Shape} {u v w : List Char}

theorem semicolon_mem_terminator (shape : Shape) : ';' ∈ shape.terminator := by
  cases shape <;> decide

theorem exists_eq_append_terminator (h : Spells statement w) :
    ∃ front, w = front ++ statement.shape.terminator := by
  have hends := ends_of_spells h
  cases hshape : statement.shape with
  | tableDefinition =>
    rw [hshape] at hends
    obtain ⟨head, -, body, -, rfl⟩ := hends
    exact ⟨head ++ '(' :: body, by simp [Shape.terminator, closing]⟩
  | columnAddition =>
    rw [hshape] at hends
    obtain ⟨front, -, rfl⟩ := hends
    exact ⟨front, rfl⟩
  | indexDefinition =>
    rw [hshape] at hends
    obtain ⟨head, -, columns, -, rfl⟩ := hends
    exact ⟨head ++ '(' :: columns, by simp [Shape.terminator, closing]⟩
  | rowInsertion =>
    rw [hshape] at hends
    obtain ⟨head, -, columns, -, link, -, values, -, rfl⟩ := hends
    exact ⟨head ++ '(' :: (columns ++ ')' :: (link ++ '(' :: values)),
      by simp [Shape.terminator, closing]⟩

theorem getLast?_of_spells (h : Spells statement w) : w.getLast? = some ';' := by
  obtain ⟨front, rfl⟩ := exists_eq_append_terminator h
  cases statement.shape <;> simp [Shape.terminator, closing]

/-- A statement goes up to the first terminator of its shape. -/
theorem not_terminator_infix_dropLast (h : Spells statement w) :
    ¬ statement.shape.terminator <:+: w.dropLast := by
  cases hshape : statement.shape with
  | columnAddition =>
    have hends := ends_of_spells h
    rw [hshape] at hends
    obtain ⟨front, hfront, rfl⟩ := hends
    rw [List.dropLast_concat]
    exact fun hin => hfront (hin.mem (by simp [Shape.terminator]))
  | tableDefinition => exact not_closing_infix_dropLast h
  | indexDefinition => exact not_closing_infix_dropLast h
  | rowInsertion => exact not_closing_infix_dropLast h

/-- What is found in a text that ends with the terminator of a shape and in what follows it. -/
theorem occurrences_append_terminator (shape : Shape) (front rest : List Char) :
    occurrences (read shape) (front ++ shape.terminator ++ rest) =
      occurrences (read shape) (front ++ shape.terminator) ++ occurrences (read shape) rest := by
  apply (recognizes_read shape).occurrences_append
  rintro statement w v ⟨rfl, hspells⟩ hne hv hw
  have hends : ∀ shape ∈ Shape.all, ∀ c ∈ shape.terminator, IsPunctuation c := by decide
  exact prefix_of_ending hspells (not_terminator_infix_dropLast hspells)
    (hends _ statement.shape.mem_all) hne hv hw

/-- No statement holds another one of its shape before its end. -/
theorem not_infix_dropLast_of_spells (hv : Spells statement v) (hw : Spells other w)
    (hshape : statement.shape = other.shape) : ¬ v <:+: w.dropLast := by
  intro hin
  obtain ⟨front, rfl⟩ := exists_eq_append_terminator hv
  apply not_terminator_infix_dropLast hw
  rw [← hshape]
  exact (List.suffix_append front _).isInfix.trans hin

/-- What has no terminator in it holds no statement. -/
theorem not_infix_of_spells (h : Spells statement w) (hu : ¬ statement.shape.terminator <:+: u) :
    ¬ w <:+: u := by
  intro hin
  obtain ⟨front, rfl⟩ := exists_eq_append_terminator h
  exact hu ((List.suffix_append front _).isInfix.trans hin)

theorem not_terminator_of_not_mem (shape : Shape) (h : ';' ∉ u) : ¬ shape.terminator <:+: u :=
  fun hin => h (hin.mem (semicolon_mem_terminator shape))

/-- Nothing is found in a text without semicolons. -/
theorem occurrences_of_not_mem (shape : Shape) (h : ';' ∉ u) : occurrences (read shape) u = [] := by
  apply (recognizes_read shape).occurrences_eq_nil
  rintro statement w ⟨-, hspells⟩
  exact not_infix_of_spells hspells (not_terminator_of_not_mem _ h)

/-- A text without semicolons adds nothing to what is found in the text before it. -/
theorem occurrences_append_of_not_mem (shape : Shape) (front : List Char) (h : ';' ∉ u) :
    occurrences (read shape) (front ++ u) = occurrences (read shape) front := by
  rw [(recognizes_read shape).occurrences_append, occurrences_of_not_mem shape h, List.append_nil]
  rintro statement w v ⟨-, hspells⟩ - - hw
  obtain hw | ⟨tail, rfl⟩ := List.prefix_or_prefix_of_prefix hw (List.prefix_append v u)
  · exact hw
  · rw [List.prefix_append_right_inj] at hw
    by_cases htail : tail = []
    · simp [htail]
    · -- The last character of the statement is a semicolon, and it stands in `u`.
      have hlast := getLast?_of_spells hspells
      rw [List.getLast?_append_of_ne_nil _ htail] at hlast
      exact absurd (hw.mem (List.mem_of_getLast? hlast)) h

theorem occurrences_prefix (shape : Shape) (front rest : List Char) :
    occurrences (read shape) front <+: occurrences (read shape) (front ++ rest) := by
  apply (recognizes_read shape).occurrences_prefix_append
  rintro statement other v w ⟨hshape, hv⟩ ⟨hshape', hw⟩
  exact not_infix_dropLast_of_spells hv hw (hshape.trans hshape'.symm)

/-- The texts that are searched before and after more text is added. A hyphen that turns into the
beginning of a comment made no difference to the search. -/
theorem exists_searched_append (text more : String) :
    ∃ kept added : List Char, added.Sublist more.toList ∧
      (withoutComments (text ++ more)).toList = kept ++ added ∧
      ∀ shape, ofShape shape (withoutComments text) = occurrences (read shape) kept := by
  obtain ⟨kept, added, heq, hadded, hkept⟩ :=
    exists_dropComments_kept false text.toList more.toList
  refine ⟨kept, added, hadded, by simp [withoutComments, heq], fun shape => ?_⟩
  rw [ofShape, withoutComments, String.toList_ofList]
  obtain hkept | hkept := hkept
  · rw [hkept]
  · rw [hkept, occurrences_append_of_not_mem shape kept (by decide)]

theorem filter_ofText (shape : Shape) (text : String) :
    (ofText text).filter (fun s => s.shape = shape) = ofShape shape (withoutComments text) :=
  Shape.filter_flatMap_all (fun _ _ => shape_of_mem_ofShape) shape

end Statement

namespace Migration

/-- More text behind a migration changes nothing of what came before it: of every shape, the
statements and steps that there were come first again. Text without a semicolon adds no statement.
Nothing is asked of the two texts; the seam may lie inside a statement, a comment or the hyphens
that begin one. -/
theorem steps_prefix_append (file text more : String) :
    (∀ shape : Shape,
      (Statement.ofText text).filter (fun s => s.shape = shape) <+:
        (Statement.ofText (text ++ more)).filter (fun s => s.shape = shape)) ∧
    (∀ shape : Shape,
      (steps ⟨file, text⟩).filter (fun step => step.origin = shape) <+:
        (steps ⟨file, text ++ more⟩).filter (fun step => step.origin = shape)) ∧
    (';' ∉ more.toList → Statement.ofText (text ++ more) = Statement.ofText text) := by
  obtain ⟨kept, added, hadded, hlonger, hsame⟩ := Statement.exists_searched_append text more
  have hgrows (shape : Shape) : Statement.ofShape shape (Statement.withoutComments text) <+:
      Statement.ofShape shape (Statement.withoutComments (text ++ more)) := by
    rw [hsame, Statement.ofShape, hlonger]
    exact Statement.occurrences_prefix shape kept added
  refine ⟨fun shape => ?_, fun shape => ?_, fun hmore => ?_⟩
  · rw [Statement.filter_ofText, Statement.filter_ofText]
    exact hgrows shape
  · rw [filter_steps, filter_steps]
    exact (hgrows shape).flatMap _
  · have hadded : ';' ∉ added := mt (fun hmem => hadded.mem hmem) hmore
    have hequal (shape : Shape) :
        Statement.ofShape shape (Statement.withoutComments (text ++ more)) =
          Statement.ofShape shape (Statement.withoutComments text) := by
      rw [hsame, Statement.ofShape, hlonger,
        Statement.occurrences_append_of_not_mem shape kept hadded]
    simp only [Statement.ofText, hequal]

/-- The seam makes a comment of two hyphens, inside a table that stays open. -/
theorem steps_prefix_append_open :
    ';' ∉ "- TEXT)".toList ∧
    Statement.ofText ("ALTER TABLE t ADD COLUMN a TEXT; CREATE TABLE u (x -" ++ "- TEXT)") =
      Statement.ofText "ALTER TABLE t ADD COLUMN a TEXT; CREATE TABLE u (x -" :=
  ⟨by decide, (steps_prefix_append "f.sql" _ _).2.2 (by decide)⟩

end Migration

end SchemaChange
