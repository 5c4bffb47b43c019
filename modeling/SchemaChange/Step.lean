import SchemaChange.FieldSpec
import SchemaChange.Statement
import SchemaChange.ValueList

/-!
# Steps

A step is one change to the schema or the data of the target system. This module says which steps a
statement stands for, and how a step is shown.
-/

namespace SchemaChange

/-- A record to insert: a datum under each column name, in order. -/
abbrev Row := Members Datum

/-- What a step does to its table. -/
inductive Effect where
  | addField (name typeText : String) (spec : FieldSpec)
  | addIndex (name : String) (columns : List String)
  | addRow (row : Row)
  deriving Repr, BEq

/-- One change, with the file and the shape of statement that it comes from. -/
structure Step where
  table : String
  file : String
  origin : Shape
  effect : Effect
  deriving Repr, BEq

namespace Effect

def label : Effect → String
  | .addField .. => "add_column"
  | .addIndex .. => "create_index"
  | .addRow _ => "insert_data"

/-- The field that is added, for an effect of that kind. -/
def field? : Effect → Option (String × FieldSpec)
  | .addField name _ spec => some (name, spec)
  | _ => none

end Effect

namespace Step

/-- The step that adds a column. The name goes into lower case, the type stays as it was written. -/
def ofColumn (file table : String) (origin : Shape) (column : Column) : Step :=
  let typeText := Text.trim column.typeText
  ⟨Text.lower table, file, origin,
    .addField (Text.lower column.name) typeText (FieldSpec.ofTypeText typeText)⟩

/-- The steps of a statement from the given file. A row gives a step only if it has as many values
as columns. Column names inside an index or a row keep their case. -/
def ofStatement (file : String) : Statement → List Step
  | .newTable name columns => columns.map (ofColumn file name .tableDefinition)
  | .newColumn table column => [ofColumn file table .columnAddition column]
  | .newIndex name table columns =>
    [⟨Text.lower table, file, .indexDefinition, .addIndex (Text.lower name) columns⟩]
  | .newRow table columns values =>
    let data := ValueList.parse values
    if data.length = columns.length then
      [⟨Text.lower table, file, .rowInsertion, .addRow (Members.ofPairs (columns.zip data))⟩]
    else []

def rowJson (row : Row) : Json :=
  .object (row.map fun (name, datum) => (name, datum.toJson))

def toJson (step : Step) : Json :=
  .object ([("table", .text step.table), ("file", .text step.file),
    ("source", .text step.origin.label), ("type", .text step.effect.label)] ++
    match step.effect with
    | .addField name typeText spec =>
      [("column", .text name), ("data_type", .text typeText), ("field_type", spec.toJson)]
    | .addIndex name columns =>
      [("index_name", .text name), ("columns", .array (columns.map .text))]
    | .addRow row => [("data", rowJson row)])

/-- The step in one line for people. -/
def display (step : Step) : String :=
  let change :=
    match step.effect with
    | .addField name typeText _ => step.table ++ "." ++ name ++ " " ++ typeText
    | .addIndex name columns =>
      name ++ " on " ++ step.table ++ " (" ++ ", ".intercalate columns ++ ")"
    | .addRow row =>
      let cells := row.map fun (name, datum) => name ++ "=" ++ datum.display
      step.table ++ " (" ++ ", ".intercalate cells ++ ")"
  step.effect.label ++ " " ++ change ++ " [" ++ step.origin.label ++ " from " ++ step.file ++ "]"

end Step

end SchemaChange
