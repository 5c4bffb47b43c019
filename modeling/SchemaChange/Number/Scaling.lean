import SchemaChange.Number.Binary64
import SchemaChange.Number.Range

/-!
# Decimal numbers by scaling

A quick way from a written number to a floating-point number. As many of the digits as fit a word
make a significand, and the nearest number to it is multiplied or divided by the nearest number to a
power of ten. Each step rounds. So the result may lie beside the number that is nearest to the
written one, and what is written may be refused though a finite number is near to it.
-/

namespace SchemaChange.Number

/-- A finite number without a sign, `significand * 2 ^ exponent`. -/
structure Magnitude where
  significand : Nat
  exponent : Int
  deriving DecidableEq, Repr

namespace Magnitude

def zero : Magnitude :=
  ⟨0, Binary64.leastExponent⟩

/-- The number nearest to a quotient, unless it is infinite. -/
def nearest? (num den : Nat) : Option Magnitude :=
  if num = 0 then some zero
  else
    match Binary64.ofQuotient false num den with
    | .finite _ significand exponent => some ⟨significand, exponent⟩
    | .infinite _ => none

def numerator (x : Magnitude) : Nat :=
  x.significand <<< x.exponent.toNat

def denominator (x : Magnitude) : Nat :=
  1 <<< (-x.exponent).toNat

/-- The product of two numbers, rounded. -/
def mul? (x y : Magnitude) : Option Magnitude :=
  nearest? (x.numerator * y.numerator) (x.denominator * y.denominator)

/-- The quotient of two numbers, rounded. -/
def div? (x y : Magnitude) : Option Magnitude :=
  nearest? (x.numerator * y.denominator) (x.denominator * y.numerator)

/-- A power of ten, rounded. -/
def tenPow? (power : Nat) : Option Magnitude :=
  nearest? (Nat.pow 10 power) 1

/-- The greatest power of ten that is a finite number. -/
def greatestPower : Nat := 308

/-- A number times a power of ten. A power that is too small to divide by at once is taken in several
steps, until the number is zero; one that is too large leaves only zero as it is. -/
def scale? (x : Magnitude) (power : Int) : Option Magnitude :=
  if power.natAbs ≤ greatestPower then do
    let ten ← tenPow? power.natAbs
    if 0 ≤ power then x.mul? ten else x.div? ten
  else if x.significand = 0 then some x
  else if 0 ≤ power then none
  else do
    let ten ← tenPow? greatestPower
    let y ← x.div? ten
    y.scale? (power + greatestPower)
termination_by power.natAbs
decreasing_by
  unfold greatestPower at *
  omega

end Magnitude

/-- Appends digits to a number as long as it fits an unsigned word, and gives the digits behind. -/
def appendDigits (n : Nat) : List Char → Nat × List Char
  | [] => (n, [])
  | c :: cs =>
    let next := Nat.ofDigitChars 10 [c] n
    if fitsUnsigned next then appendDigits next cs else (n, c :: cs)

/-- The digits of a numeral that fit a word, as one number, and how many are left out. The digits of
the fraction may still fit where some before the point did not. -/
def Numeral.wordDigits (n : Numeral) : Nat × Nat :=
  let (front, omitted) := appendDigits 0 n.whole
  let (significand, left) := appendDigits front (n.fraction.getD [])
  (significand, omitted.length + left.length)

/-- The number that scaling makes of a written one, unless it is infinite on the way. A digit that is
left out still counts a power of ten. -/
def Numeral.scaled? (n : Numeral) : Option Binary64 := do
  let (significand, omitted) := n.wordDigits
  let x ← Magnitude.nearest? significand 1
  let y ← x.scale? (n.scale + omitted)
  some (.finite n.negative y.significand y.exponent)

end SchemaChange.Number
