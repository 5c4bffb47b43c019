/-!
# Comments

A comment goes from two hyphens to the end of the line.
-/

namespace SchemaChange.Statement

/-- Leaves out the comments. `inComment` tells whether the text begins inside one. -/
def dropComments (inComment : Bool) : List Char → List Char
  | [] => []
  | c :: rest =>
    if c = '\n' then '\n' :: dropComments false rest
    else if inComment || (c == '-' && rest.head? == some '-') then dropComments true rest
    else c :: dropComments false rest

/-- A comment ends with its line. -/
theorem dropComments_append_newline (inComment : Bool) (line rest : List Char) :
    dropComments inComment (line ++ '\n' :: rest) =
      dropComments inComment line ++ '\n' :: dropComments false rest := by
  induction line generalizing inComment with
  | nil => simp [dropComments]
  | cons c line ih =>
    have hhead : ((line ++ '\n' :: rest).head? == some '-') = (line.head? == some '-') := by
      cases line <;> simp
    rw [List.cons_append, dropComments, dropComments, hhead]
    split
    · simp [ih]
    · split <;> simp [ih]

/-- The text without its comments. Line ends stay. -/
def withoutComments (text : String) : String :=
  String.ofList (dropComments false text.toList)

end SchemaChange.Statement
