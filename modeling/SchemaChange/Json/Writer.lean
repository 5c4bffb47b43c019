import SchemaChange.Json.Value

/-!
# Writing JSON

The compact form has no blanks at all. The spread form puts each item and member on a line of its
own, two blanks deeper than what holds it.
-/

namespace SchemaChange.Json

/-- A character inside quotes. Only what has to be escaped is: the quote, the backslash and the
control characters, by a letter where there is one. -/
def escaped (c : Char) : List Char :=
  match c with
  | '"' => ['\\', '"']
  | '\\' => ['\\', '\\']
  | '\x08' => ['\\', 'b']
  | '\x0c' => ['\\', 'f']
  | '\n' => ['\\', 'n']
  | '\r' => ['\\', 'r']
  | '\t' => ['\\', 't']
  | c =>
    if c.toNat < 0x20 then
      ['\\', 'u', '0', '0', Nat.digitChar (c.toNat / 16), Nat.digitChar (c.toNat % 16)]
    else [c]

def quoted (s : String) : List Char :=
  '"' :: (s.toList.flatMap escaped ++ ['"'])

/-- A decimal integer. -/
def intText (n : Int) : List Char :=
  if n < 0 then '-' :: Nat.toDigits 10 n.natAbs else Nat.toDigits 10 n.natAbs

mutual

def compactChars : Json → List Char
  | .null => ['n', 'u', 'l', 'l']
  | .bool true => ['t', 'r', 'u', 'e']
  | .bool false => ['f', 'a', 'l', 's', 'e']
  | .int n => intText n
  | .real x => Number.Layout.json.write x
  | .text s => quoted s
  | .array items => '[' :: ([','].intercalate (compactItems items) ++ [']'])
  | .object members => '\x7b' :: ([','].intercalate (compactMembers members) ++ ['\x7d'])

def compactItems : List Json → List (List Char)
  | [] => []
  | item :: rest => compactChars item :: compactItems rest

def compactMembers : List (String × Json) → List (List Char)
  | [] => []
  | (name, value) :: rest => (quoted name ++ ':' :: compactChars value) :: compactMembers rest

end

/-- The text of a value in one line. -/
def compact (value : Json) : String :=
  String.ofList (compactChars value)

/-- Blocks between brackets, one block a line, at the given depth of indentation. -/
def spreadBlock (depth : Nat) (opening closing : Char) (blocks : List (List Char)) : List Char :=
  if blocks.isEmpty then [opening, closing]
  else
    let line (n : Nat) := '\n' :: List.replicate (2 * n) ' '
    opening :: (line (depth + 1) ++
      (',' :: line (depth + 1)).intercalate blocks ++ line depth ++ [closing])

mutual

def spreadChars (depth : Nat) : Json → List Char
  | .array items => spreadBlock depth '[' ']' (spreadItems (depth + 1) items)
  | .object members => spreadBlock depth '\x7b' '\x7d' (spreadMembers (depth + 1) members)
  | scalar => compactChars scalar

def spreadItems (depth : Nat) : List Json → List (List Char)
  | [] => []
  | item :: rest => spreadChars depth item :: spreadItems depth rest

def spreadMembers (depth : Nat) : List (String × Json) → List (List Char)
  | [] => []
  | (name, value) :: rest =>
    (quoted name ++ ':' :: ' ' :: spreadChars depth value) :: spreadMembers depth rest

end

/-- The text of a value, indented by two blanks a level. -/
def spread (value : Json) : String :=
  String.ofList (spreadChars 0 value)

end SchemaChange.Json
