import SchemaChange.Number.Numeral

/-!
# Binary floating-point numbers

The numbers of the 64-bit binary interchange format, and the one that is nearest to a decimal number.
All arithmetic is exact, on natural numbers.
-/

namespace SchemaChange.Number

/-- A finite number is `significand * 2 ^ exponent` with its sign, where the exponent is at least
-1074 and as small as a significand below `2 ^ 53` allows. Zero has a sign, too. -/
inductive Binary64 where
  | finite (negative : Bool) (significand : Nat) (exponent : Int)
  | infinite (negative : Bool)
  deriving DecidableEq, Repr

namespace Binary64

/-- The least significand with all 53 bits in use, `2 ^ 52`. -/
def leastNormal : Nat := 4503599627370496

def leastExponent : Int := -1074

def greatestExponent : Int := 971

def zero (negative : Bool) : Binary64 :=
  .finite negative 0 leastExponent

/-- The integer nearest to a quotient; halfway between two, the even one. -/
def nearest (num den : Nat) : Nat :=
  let quotient := num / den
  let twice := 2 * (num % den)
  if twice < den then quotient
  else if den < twice then quotient + 1
  else quotient + quotient % 2

/-- The exponent of the greatest power of two that is not above a positive quotient. -/
def log2Quotient (num den : Nat) : Int :=
  let guess : Int := (num.log2 : Int) - den.log2
  if den <<< guess.toNat ≤ num <<< (-guess).toNat then guess else guess - 1

/-- The number nearest to a positive quotient, with the given sign; halfway between two, the one
with the even significand. -/
def ofQuotient (negative : Bool) (num den : Nat) : Binary64 :=
  let exponent := max (log2Quotient num den - 52) leastExponent
  let significand := nearest (num <<< (-exponent).toNat) (den <<< exponent.toNat)
  let (significand, exponent) :=
    if significand = 2 * leastNormal then (leastNormal, exponent + 1) else (significand, exponent)
  if greatestExponent < exponent then .infinite negative
  else .finite negative significand exponent

/-- The number nearest to `significand * 10 ^ scale`. Far outside the range of the format, where the
answer is plain from the count of digits, no power of ten is formed. -/
def ofDecimal (negative : Bool) (significand : Nat) (scale : Int) : Binary64 :=
  let size : Int := (Nat.toDigits 10 significand).length + scale
  if significand = 0 || size < -330 then zero negative
  else if 330 < size then .infinite negative
  else ofQuotient negative (significand * Nat.pow 10 scale.toNat) (Nat.pow 10 (-scale).toNat)

/-- The number nearest to a written one. -/
def ofNumeral (n : Numeral) : Binary64 :=
  ofDecimal n.negative n.significand n.scale

end Binary64

end SchemaChange.Number
