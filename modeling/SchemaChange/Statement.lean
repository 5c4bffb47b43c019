/-!
# Statements

The statements of a migration that are understood. Names and types are as they were written.
-/

namespace SchemaChange

/-- The four shapes of statement. -/
inductive Shape where
  | tableDefinition
  | columnAddition
  | indexDefinition
  | rowInsertion
  deriving DecidableEq, Repr

/-- A column with the text of its type. -/
structure Column where
  name : String
  typeText : String
  deriving DecidableEq, Repr

/-- A statement. The values of a new row are still one text, as it stood between its parentheses. -/
inductive Statement where
  | newTable (name : String) (columns : List Column)
  | newColumn (table : String) (column : Column)
  | newIndex (name table : String) (columns : List String)
  | newRow (table : String) (columns : List String) (values : String)
  deriving DecidableEq, Repr

namespace Shape

/-- All shapes, in the order in which a migration is searched for them. -/
def all : List Shape :=
  [.tableDefinition, .columnAddition, .indexDefinition, .rowInsertion]

def label : Shape → String
  | .tableDefinition => "create_table"
  | .columnAddition => "alter_table"
  | .indexDefinition => "create_index"
  | .rowInsertion => "insert_data"

end Shape

def Statement.shape : Statement → Shape
  | .newTable .. => .tableDefinition
  | .newColumn .. => .columnAddition
  | .newIndex .. => .indexDefinition
  | .newRow .. => .rowInsertion

end SchemaChange
