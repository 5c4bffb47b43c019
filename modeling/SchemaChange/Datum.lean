import SchemaChange.Json.Reader
import SchemaChange.Json.Writer
import SchemaChange.Number.Range

/-!
# Data

The value that stands in one column of a row. A token of a value list is classified by its form
alone: a keyword, a JSON array, a number, or else a text.
-/

namespace SchemaChange

/-- A value to insert. -/
inductive Datum where
  | null
  | bool (value : Bool)
  | int (value : Int)
  | float (value : Number.Binary64)
  | array (items : List Json)
  | text (value : String)
  deriving Repr, BEq

namespace Datum

open SchemaChange.Number (Binary64 Numeral)

/-- The keyword that a token is, in any letter case. -/
def ofKeyword? (token : String) : Option Datum :=
  if Text.eqIgnoringAsciiCase token "NULL" then some .null
  else if Text.eqIgnoringAsciiCase token "TRUE" then some (.bool true)
  else if Text.eqIgnoringAsciiCase token "FALSE" then some (.bool false)
  else none

/-- Whether a token stands in square brackets. -/
def isBracketed (token : List Char) : Bool :=
  token.head? == some '[' && token.getLast? == some ']'

/-- The items of a JSON array. In SQL the strings of an array may stand in single quotes, and every
single quote counts as a double one. -/
def arrayItems? (token : List Char) : Option (List Json) :=
  match Json.ofChars? (token.map fun c => if c = '\'' then '"' else c) with
  | some (.array items) => some items
  | _ => none

/-- The number that a numeral denotes. Digits alone are an integer, or a floating-point number where
the integer would be too large; a fraction makes a floating-point number. A numeral without any
digit, or with an exponent but no point, is no number. -/
def ofNumeral? (n : Numeral) : Option Datum :=
  match n.fraction with
  | none =>
    if n.whole.isEmpty || n.exponent.isSome then none
    else if Number.fitsSigned n.toInt then some (.int n.toInt)
    else some (.float (Binary64.ofNumeral n))
  | some fraction =>
    if n.whole.isEmpty && fraction.isEmpty then none else some (.float (Binary64.ofNumeral n))

/-- Classifies a token. Keywords come before arrays, and arrays before numbers. A bracketed token is
an array or a text, and a token of no other form is a text as it stands. -/
def ofToken (token : String) : Datum :=
  match ofKeyword? token with
  | some datum => datum
  | none =>
    if isBracketed token.toList then
      match arrayItems? token.toList with
      | some items => .array items
      | none => .text token
    else
      match (Numeral.ofChars? token.toList).bind ofNumeral? with
      | some datum => datum
      | none => .text token

/-- The JSON value in which a datum is sent. -/
def toJson : Datum → Json
  | .null => .null
  | .bool value => .bool value
  | .int value => .int value
  | .float value => .real value
  | .array items => .array items
  | .text value => .text value

/-- The datum as people read it, a text without quotes. -/
def display : Datum → String
  | .null => "NULL"
  | .bool true => "TRUE"
  | .bool false => "FALSE"
  | .int value => String.ofList (Json.intText value)
  | .float value => String.ofList (Number.Layout.plain.write value)
  | .array items => Json.compact (.array items)
  | .text value => value

def isNull : Datum → Bool
  | .null => true
  | _ => false

end Datum

end SchemaChange
