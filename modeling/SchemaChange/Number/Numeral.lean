import SchemaChange.Text.Reader

/-!
# Written numbers

The parts of a number as it is written: a sign, digits, a fraction after a point, an exponent. Every
part but the digits may be absent, and each format says on its own which of them it wants.
-/

namespace SchemaChange.Number

/-- A number as written. An absent fraction is told from an empty one, as in `1` and `1.`. -/
structure Numeral where
  negative : Bool
  whole : List Char
  fraction : Option (List Char)
  exponent : Option Int
  deriving DecidableEq, Repr

/-- Whether a text begins with a minus, and what follows a sign of either kind. -/
def sign : List Char → Bool × List Char
  | '-' :: s => (true, s)
  | '+' :: s => (false, s)
  | s => (false, s)

def digits (s : List Char) : List Char × List Char :=
  (s.takeWhile Char.isDigit, s.dropWhile Char.isDigit)

/-- An exponent, if there is one. Its mark without a digit behind it is an error. -/
def exponentPart : Text.Reader (Option Int)
  | [] => some (none, [])
  | c :: s =>
    if c = 'e' || c = 'E' then
      let (negative, s) := sign s
      match digits s with
      | ([], _) => none
      | (ds, s) =>
        let n : Int := Nat.ofDigitChars 10 ds 0
        some (some (if negative then -n else n), s)
    else some (none, c :: s)

/-- The fraction after a point, if there is a point. -/
def fractionPart : List Char → Option (List Char) × List Char
  | '.' :: s => (some (digits s).1, (digits s).2)
  | s => (none, s)

/-- The digits, fraction and exponent at the front of a text, behind a sign that was read before. -/
def Numeral.unsigned (negative : Bool) : Text.Reader Numeral := fun s => do
  let (whole, s) := digits s
  let (fraction, s) := fractionPart s
  let (exponent, s) ← exponentPart s
  some (⟨negative, whole, fraction, exponent⟩, s)

/-- The numeral that a whole text is, with an optional sign in front. -/
def Numeral.ofChars? (s : List Char) : Option Numeral := do
  let (negative, s) := sign s
  let (numeral, rest) ← Numeral.unsigned negative s
  if rest.isEmpty then some numeral else none

/-- Whether there is neither a fraction nor an exponent. -/
def Numeral.isIntegral (n : Numeral) : Bool :=
  n.fraction.isNone && n.exponent.isNone

/-- The integer that sign and whole digits denote. -/
def Numeral.toInt (n : Numeral) : Int :=
  let magnitude : Int := Nat.ofDigitChars 10 n.whole 0
  if n.negative then -magnitude else magnitude

/-- All digits, as one natural number. -/
def Numeral.significand (n : Numeral) : Nat :=
  Nat.ofDigitChars 10 (n.whole ++ n.fraction.getD []) 0

/-- The power of ten by which the significand is scaled. -/
def Numeral.scale (n : Numeral) : Int :=
  n.exponent.getD 0 - (n.fraction.getD []).length

end SchemaChange.Number
