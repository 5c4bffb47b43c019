import SchemaChange.Json.Value
import SchemaChange.Text.LetterCase
import SchemaChange.Text.Pieces

/-!
# Field specifications

What the target system is told about a field: the kind of its values and the widget in which they
are edited. Both follow from the identifier at the front of an SQL type.
-/

namespace SchemaChange

/-- The kinds of values that the target system knows. -/
inductive FieldKind where
  | string
  | text
  | boolean
  | integer
  | timestamp
  | json
  deriving DecidableEq, Repr

def FieldKind.name : FieldKind → String
  | .string => "string"
  | .text => "text"
  | .boolean => "boolean"
  | .integer => "integer"
  | .timestamp => "timestamp"
  | .json => "json"

/-- The widgets in which the target system lets a value be edited. -/
inductive Widget where
  | input
  | boolean
  | datetime
  | code
  deriving DecidableEq, Repr

def Widget.name : Widget → String
  | .input => "input"
  | .boolean => "boolean"
  | .datetime => "datetime"
  | .code => "code"

/-- The kind of a field, and its widget if one is suggested. -/
structure FieldSpec where
  kind : FieldKind
  widget : Option Widget
  deriving DecidableEq, Repr

namespace FieldSpec

/-- The specification for a type that is not known. -/
def fallback : FieldSpec :=
  ⟨.string, some .input⟩

/-- The identifier at the front of an SQL type, in upper case; empty if there is none. -/
def typeKeyword (typeText : String) : String :=
  String.ofList ((Text.upper (Text.trim typeText)).toList.takeWhile Text.isIdentifier)

/-- The specification that belongs to an upper-case identifier. -/
def ofTypeKeyword : String → FieldSpec
  | "" => ⟨.string, none⟩
  | "VARCHAR" => ⟨.string, some .input⟩
  | "TEXT" => ⟨.text, some .input⟩
  | "BOOLEAN" => ⟨.boolean, some .boolean⟩
  | "INTEGER" => ⟨.integer, none⟩
  | "SERIAL" => ⟨.integer, none⟩
  | "TIMESTAMP" => ⟨.timestamp, some .datetime⟩
  | "JSONB" => ⟨.json, some .code⟩
  | _ => fallback

/-- The specification for an SQL type, whatever follows its identifier. -/
def ofTypeText (typeText : String) : FieldSpec :=
  ofTypeKeyword (typeKeyword typeText)

def toJson (spec : FieldSpec) : Json :=
  .object (("type", .text spec.kind.name) ::
    (spec.widget.map fun w => ("interface", Json.text w.name)).toList)

end FieldSpec

end SchemaChange
