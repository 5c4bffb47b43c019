import SchemaChange.Number.Binary64

/-!
# The shortest decimal that reads back

Among the decimal numbers that round to a given binary number, the shortest are those with the
fewest digits, and of these the nearest to it is chosen. The search goes through the grids of one
digit, two digits and so on. On each grid only the two neighbours of the number can be the answer,
because whatever else on the grid reads back lies farther out on the same side. Seventeen digits
always suffice.
-/

namespace SchemaChange.Number

/-- Which way to go from a number that lies halfway between two shortest decimals. -/
inductive Tie where
  | toEven
  | away
  deriving DecidableEq, Repr

/-- The number `digits * 10 ^ scale`. -/
structure Decimal where
  digits : Nat
  scale : Int
  deriving DecidableEq, Repr

/-- The exponent of the greatest power of ten that is not above a positive quotient. -/
def log10Quotient (num den : Nat) : Int :=
  if den ≤ num then ((Nat.toDigits 10 (num / den)).length : Int) - 1
  else -((Nat.toDigits 10 ((den - 1) / num)).length : Int)

/-- The decimal on the grid of `10 ^ scale` that reads back as `significand * 2 ^ exponent`, if there
is one. The bounds lie halfway to the neighbouring binary numbers. All is measured in quarters of
the last binary place, since the neighbour below a power of two is twice as near. -/
def onGrid? (tie : Tie) (significand : Nat) (exponent scale : Int) : Option Decimal :=
  let quarter := Nat.pow 10 (-scale).toNat <<< (exponent - 2).toNat
  let step := Nat.pow 10 scale.toNat <<< (2 - exponent).toNat
  let value := 4 * significand * quarter
  let narrow := significand == Binary64.leastNormal && decide (Binary64.leastExponent < exponent)
  let least := (4 * significand - if narrow then 1 else 2) * quarter
  let greatest := (4 * significand + 2) * quarter
  let closed := significand % 2 == 0
  let below := value / step
  let above := below + 1
  let belowFits := decide (least < below * step) || closed && least == below * step
  let aboveFits := decide (above * step < greatest) || closed && above * step == greatest
  let belowGap := value - below * step
  let aboveGap := above * step - value
  let belowWins :=
    decide (belowGap < aboveGap) || belowGap == aboveGap && tie == .toEven && below % 2 == 0
  if belowFits && (belowWins || !aboveFits) then some ⟨below, scale⟩
  else if aboveFits then some ⟨above, scale⟩
  else none

/-- The shortest decimal that reads back as `significand * 2 ^ exponent`. Its last digit is no zero:
only the grid of one digit can answer with ten, the next power of ten. -/
def shortest (tie : Tie) (significand : Nat) (exponent : Int) : Decimal :=
  if significand = 0 then ⟨0, 0⟩
  else
    let size :=
      log10Quotient (significand <<< exponent.toNat) (1 <<< (-exponent).toNat)
    let found := (List.range 17).findSome? fun (n : Nat) =>
      onGrid? tie significand exponent (size - n)
    match found with
    | some d => if d.digits = 10 then ⟨1, d.scale + 1⟩ else d
    | none => ⟨0, 0⟩

end SchemaChange.Number
