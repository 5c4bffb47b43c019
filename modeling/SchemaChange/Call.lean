import SchemaChange.Step

/-!
# Calls to the target system

What a step asks of the target system. Fields and rows are created by a call. Indexes are not: the
target system makes them by itself.
-/

namespace SchemaChange

/-- A call to the target system, which keeps the rows of each table in a collection of its name. -/
inductive Call where
  | createField (collection field : String) (spec : FieldSpec)
  | createRecord (collection : String) (row : Row)
  deriving Repr, BEq

/-- What becomes of a step: a call, or nothing for a reason. -/
inductive Dispatch where
  | send (call : Call)
  | skip (reason : String)
  deriving Repr, BEq

namespace Call

def fieldEndpoint (collection : String) : String :=
  "/fields/" ++ collection

def recordEndpoint (collection : String) : String :=
  "/items/" ++ collection

def action : Call → String
  | .createField .. => "create_field"
  | .createRecord .. => "create_record"

def collection : Call → String
  | .createField collection .. => collection
  | .createRecord collection _ => collection

def endpoint : Call → String
  | .createField collection .. => fieldEndpoint collection
  | .createRecord collection _ => recordEndpoint collection

/-- The body that describes a field. It names the widget only where one is suggested. -/
def fieldBody (field : String) (spec : FieldSpec) : Json :=
  let widget :=
    (spec.widget.map fun w => ("meta", Json.object [("interface", .text w.name)])).toList
  .object ([("field", .text field), ("type", .text spec.kind.name)] ++ widget ++
    [("schema", .object [("name", .text field)])])

def body : Call → Json
  | .createField _ field spec => fieldBody field spec
  | .createRecord _ row => .object [("data", Step.rowJson row)]

end Call

namespace Dispatch

def ofStep (step : Step) : Dispatch :=
  match step.effect with
  | .addField name _ spec => .send (.createField step.table name spec)
  | .addRow row => .send (.createRecord step.table row)
  | .addIndex name _ =>
    .skip ("index " ++ name ++ " on " ++ step.table ++ " is created by the target system")

def call? : Dispatch → Option Call
  | .send call => some call
  | .skip _ => none

def toJson : Dispatch → Json
  | .send call =>
    .object [("action", .text call.action), ("path", .text call.endpoint), ("body", call.body)]
  | .skip reason => .object [("action", .text "skip"), ("reason", .text reason)]

end Dispatch

end SchemaChange
