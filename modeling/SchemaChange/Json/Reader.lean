import SchemaChange.Json.Value
import SchemaChange.Number.Scaling
import SchemaChange.Text.Reader

/-!
# Reading JSON

A strict reader: it takes what the grammar of JSON allows and nothing else, refuses a number that it
cannot scale to a finite floating-point number, an escape that is half of a surrogate pair, and a
value that is nested too deeply. A repeated name in an object keeps its first place and its last
value.
-/

namespace SchemaChange.Json

open SchemaChange.Text (Reader)
open SchemaChange.Number (Numeral)

/-- The depth to which arrays and objects may be nested. -/
def greatestDepth : Nat := 127

def isSpace (c : Char) : Bool :=
  c == ' ' || c == '\t' || c == '\n' || c == '\r'

def skipSpace (s : List Char) : List Char :=
  s.dropWhile isSpace

/-- What follows a given word. -/
def afterWord : List Char → List Char → Option (List Char)
  | [], s => some s
  | _ :: _, [] => none
  | letter :: letters, c :: s => if c = letter then afterWord letters s else none

def hexDigit? (c : Char) : Option Nat :=
  if '0' ≤ c ∧ c ≤ '9' then some (c.toNat - '0'.toNat)
  else if 'a' ≤ c ∧ c ≤ 'f' then some (c.toNat - 'a'.toNat + 10)
  else if 'A' ≤ c ∧ c ≤ 'F' then some (c.toNat - 'A'.toNat + 10)
  else none

/-- Four hexadecimal digits. -/
def unit16 : Reader Nat
  | a :: b :: c :: d :: s => do
    let a ← hexDigit? a
    let b ← hexDigit? b
    let c ← hexDigit? c
    let d ← hexDigit? d
    some (((a * 16 + b) * 16 + c) * 16 + d, s)
  | _ => none

def isHighSurrogate (u : Nat) : Bool := decide (0xD800 ≤ u) && decide (u < 0xDC00)

def isLowSurrogate (u : Nat) : Bool := decide (0xDC00 ≤ u) && decide (u < 0xE000)

/-- The character behind a backslash and `u`. One beyond the first plane is written as a surrogate
pair of two such escapes; a surrogate that is not part of a pair is refused. -/
def unicodeEscape : Reader Char := fun s => do
  let (u, s) ← unit16 s
  if isHighSurrogate u then
    match s with
    | '\\' :: 'u' :: s => do
      let (v, s) ← unit16 s
      if isLowSurrogate v then
        some (Char.ofNat (0x10000 + (u - 0xD800) * 0x400 + (v - 0xDC00)), s)
      else none
    | _ => none
  else if isLowSurrogate u then none
  else some (Char.ofNat u, s)

/-- The character that a letter behind a backslash stands for. -/
def letterEscape? : Char → Option Char
  | '"' => some '"'
  | '\\' => some '\\'
  | '/' => some '/'
  | 'b' => some '\x08'
  | 'f' => some '\x0c'
  | 'n' => some '\n'
  | 'r' => some '\r'
  | 't' => some '\t'
  | _ => none

/-- One character inside quotes, plain or escaped. -/
def character : Reader Char
  | [] => none
  | '\\' :: 'u' :: s => unicodeEscape s
  | '\\' :: c :: s => (letterEscape? c).map fun c => (c, s)
  | '\\' :: [] => none
  | c :: s => if c.toNat < 0x20 then none else some (c, s)

/-- The characters up to the closing quote, at most as many as the first argument says. -/
def characters : Nat → Reader (List Char)
  | 0, _ => none
  | n + 1, s =>
    match s with
    | '"' :: s => some ([], s)
    | s => do
      let (c, s) ← character s
      let (cs, s) ← characters n s
      some (c :: cs, s)

/-- A string, from behind its opening quote. -/
def string : Reader String := fun s => do
  let (cs, s) ← characters (s.length + 1) s
  some (String.ofList cs, s)

/-- Whether a numeral has the form that JSON asks for: a digit before the point and, if there is a
point, behind it, and no zero in front of other digits. -/
def isJsonNumeral (n : Numeral) : Bool :=
  !n.whole.isEmpty && (n.whole.head? != some '0' || n.whole.length == 1) && n.fraction != some []

/-- Whether a numeral is kept as an integer: it fits a word, signed or unsigned, and is no negative
zero. -/
def staysInteger (n : Numeral) : Bool :=
  n.isIntegral && (Number.fitsSigned n.toInt || Number.fitsUnsigned n.toInt) &&
    !(n.negative && n.toInt == 0)

/-- The value of a numeral. What does not stay an integer is scaled to a floating-point number, which
has to be finite. -/
def ofNumeral? (n : Numeral) : Option Json :=
  if staysInteger n then some (.int n.toInt) else n.scaled?.map .real

/-- A number. -/
def number : Reader Json := fun s => do
  let (negative, s) :=
    match s with
    | '-' :: s => (true, s)
    | s => (false, s)
  let (numeral, s) ← Numeral.unsigned negative s
  if isJsonNumeral numeral then (ofNumeral? numeral).map fun value => (value, s) else none

/-- At least one item, with commas between, up to a closing character; at most as many items as the
first argument says. -/
def itemsUntil {α : Type} (closing : Char) (item : Reader α) : Nat → Reader (List α)
  | 0, _ => none
  | n + 1, s => do
    let (first, s) ← item (skipSpace s)
    match skipSpace s with
    | [] => none
    | c :: s =>
      if c = closing then some ([first], s)
      else if c = ',' then do
        let (more, s) ← itemsUntil closing item n s
        some (first :: more, s)
      else none

/-- Any number of items, from behind the opening character. -/
def sequence {α : Type} (closing : Char) (item : Reader α) : Reader (List α) := fun s =>
  match skipSpace s with
  | [] => none
  | c :: rest =>
    if c = closing then some ([], rest) else itemsUntil closing item (c :: rest).length (c :: rest)

/-- A member of an object: a name, a colon and what the given reader reads. -/
def namedItem (value : Reader Json) : Reader (String × Json) := fun s => do
  let s ← Text.afterChar '"' s
  let (name, s) ← string s
  let s ← Text.afterChar ':' (skipSpace s)
  let (v, s) ← value (skipSpace s)
  some ((name, v), s)

/-- A value in which arrays and objects are nested at most to the given depth. -/
def value : Nat → Reader Json
  | _, [] => none
  | depth, c :: s =>
    if c = '"' then (string s).map fun (content, s) => (.text content, s)
    else if c = '[' then
      match depth with
      | 0 => none
      | depth + 1 => (sequence ']' (value depth) s).map fun (items, s) => (.array items, s)
    else if c = '\x7b' then
      match depth with
      | 0 => none
      | depth + 1 =>
        (sequence '\x7d' (namedItem (value depth)) s).map fun (members, s) =>
          (.object (Members.ofPairs members), s)
    else if c = 'n' then (afterWord ['u', 'l', 'l'] s).map fun s => (.null, s)
    else if c = 't' then (afterWord ['r', 'u', 'e'] s).map fun s => (.bool true, s)
    else if c = 'f' then (afterWord ['a', 'l', 's', 'e'] s).map fun s => (.bool false, s)
    else number (c :: s)

/-- The value that a whole text denotes, with white space around it or without. -/
def ofChars? (s : List Char) : Option Json := do
  let (v, rest) ← value greatestDepth (skipSpace s)
  if (skipSpace rest).isEmpty then some v else none

end SchemaChange.Json
