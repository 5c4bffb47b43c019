import SchemaChange.Statement.ColumnReader
import SchemaChange.Statement.Comment
import SchemaChange.Text.Pieces

/-!
# Reading statements

There is a reader for each shape of statement. A migration is searched for one shape after the
other, so its statements come grouped by shape. Text between the statements is passed over, and so
is a statement without its semicolon.
-/

namespace SchemaChange.Statement

open SchemaChange.Text

/-- The text up to the first closing parenthesis, and what follows the parenthesis. -/
def parenthesized : Reader (List Char) := fun s => do
  let inner := s.takeWhile (· != ')')
  let rest ← afterChar ')' (s.dropWhile (· != ')'))
  if inner.isEmpty then none else some (inner, rest)

/-- The text up to the first closing parenthesis that a semicolon follows, and what follows both. -/
def tableBody : Reader (List Char)
  | [] => none
  | ')' :: ';' :: s => some ([], s)
  | c :: s => (tableBody s).map fun (body, rest) => (c :: body, rest)

/-- `CREATE TABLE name (body);` -/
def newTable? : Reader Statement := fun s => do
  let s ← afterPhrase ["CREATE", "TABLE"] s
  let (name, s) ← word (skipPhrase ["IF", "NOT", "EXISTS"] s)
  let s ← afterChar '(' (s.dropWhile isBlank)
  let (body, s) ← tableBody s
  some (.newTable name (Column.ofBody body), s)

/-- A column with the clause behind it, up to the semicolon. The clause may be blank, but then it
has to be two characters long at least. -/
def columnClause (table : String) : Reader Statement := fun s => do
  let (name, s) ← word s
  let clause := s.takeWhile (· != ';')
  let rest ← afterChar ';' (s.dropWhile (· != ';'))
  match clause with
  | c :: _ :: _ =>
    if isBlank c then some (.newColumn table ⟨name, String.ofList (trimChars clause)⟩, rest)
    else none
  | _ => none

/-- `ALTER TABLE table ADD COLUMN name clause;` Where `IF NOT EXISTS` is not followed by a column, it
counts as a column `IF` itself. -/
def newColumn? : Reader Statement := fun s => do
  let s ← afterPhrase ["ALTER", "TABLE"] s
  let (table, s) ← word s
  let s ← afterBlanks s
  let s ← afterPhrase ["ADD", "COLUMN"] s
  columnClause table (skipPhrase ["IF", "NOT", "EXISTS"] s) <|> columnClause table s

/-- `CREATE UNIQUE INDEX name ON table (columns);` -/
def newIndex? : Reader Statement := fun s => do
  let s ← afterPhrase ["CREATE"] s
  let s ← afterPhrase ["INDEX"] (skipPhrase ["UNIQUE"] s)
  let (name, s) ← word (skipPhrase ["IF", "NOT", "EXISTS"] s)
  let s ← afterBlanks s
  let s ← afterPhrase ["ON"] s
  let (table, s) ← word s
  let s ← afterChar '(' (s.dropWhile isBlank)
  let (columns, s) ← parenthesized s
  let s ← afterChar ';' s
  some (.newIndex name table (listItems columns), s)

/-- `INSERT INTO table (columns) VALUES (values);` -/
def newRow? : Reader Statement := fun s => do
  let s ← afterPhrase ["INSERT", "INTO"] s
  let (table, s) ← word s
  let s ← afterChar '(' (s.dropWhile isBlank)
  let (columns, s) ← parenthesized s
  let s ← afterKeyword "VALUES".toList (s.dropWhile isBlank)
  let s ← afterChar '(' (s.dropWhile isBlank)
  let (values, s) ← parenthesized s
  let s ← afterChar ';' s
  some (.newRow table (listItems columns) (String.ofList values), s)

/-- The reader for a shape of statement. -/
def read : Shape → Reader Statement
  | .tableDefinition => newTable?
  | .columnAddition => newColumn?
  | .indexDefinition => newIndex?
  | .rowInsertion => newRow?

/-- The statements of one shape in a text without comments. -/
def ofShape (shape : Shape) (text : String) : List Statement :=
  occurrences (read shape) text.toList

/-- The statements of a migration, shape by shape. -/
def ofText (text : String) : List Statement :=
  Shape.all.flatMap fun shape => ofShape shape (withoutComments text)

end SchemaChange.Statement
