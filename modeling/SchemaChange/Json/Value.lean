import SchemaChange.Members
import SchemaChange.Number.Layout

/-!
# JSON values
-/

namespace SchemaChange

/-- A JSON value. Integers are kept apart from other numbers, and an object keeps the order of its
members. -/
inductive Json where
  | null
  | bool (value : Bool)
  | int (value : Int)
  | real (value : Number.Binary64)
  | text (value : String)
  | array (items : List Json)
  | object (members : List (String × Json))
  deriving Repr, BEq

namespace Json

/-- A member of an object; a name that is not there, or another kind of value, gives `none`. -/
def member? (name : String) : Json → Option Json
  | .object members => Members.get? name members
  | _ => none

/-- The first item of an array. -/
def first? : Json → Option Json
  | .array (item :: _) => some item
  | _ => none

def text? : Json → Option String
  | .text value => some value
  | _ => none

end Json

end SchemaChange
