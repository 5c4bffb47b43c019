import SchemaChange.Number.Shortest

/-!
# Writing floating-point numbers

Both written forms show the shortest decimal that reads back. They differ in where they turn to an
exponent, in the mark of a whole number, in the choice between two equally near decimals, and in the
text for infinity.
-/

namespace SchemaChange.Number

/-- The decisions of a written form. A number whose first digit counts `10 ^ e` is written without an
exponent if `e` lies between the two bounds of `positional`; without bounds every number is. -/
structure Layout where
  positional : Option (Int × Int)
  wholeMark : List Char
  tie : Tie
  infinity : List Char
  negativeInfinity : List Char

/-- Digits with a point behind the first `point` of them, filled up with zeros on either side. -/
def positionalText (wholeMark digits : List Char) (point : Int) : List Char :=
  if point ≤ 0 then '0' :: '.' :: (List.replicate (-point).toNat '0' ++ digits)
  else if digits.length ≤ point.toNat then
    digits ++ List.replicate (point.toNat - digits.length) '0' ++ wholeMark
  else digits.take point.toNat ++ '.' :: digits.drop point.toNat

/-- One digit before the point and the power of ten behind an `e`, with its sign in either case. -/
def exponentText (digits : List Char) (power : Int) : List Char :=
  let mantissa :=
    match digits with
    | d :: e :: rest => d :: '.' :: e :: rest
    | ds => ds
  let mark := if power < 0 then ['e', '-'] else ['e', '+']
  mantissa ++ mark ++ Nat.toDigits 10 power.natAbs

/-- The text of a magnitude. -/
def Layout.magnitude (layout : Layout) (d : Decimal) : List Char :=
  let digits := Nat.toDigits 10 d.digits
  let point : Int := d.scale + digits.length
  match layout.positional with
  | some (first, last) =>
    if first < point ∧ point ≤ last + 1 then positionalText layout.wholeMark digits point
    else exponentText digits (point - 1)
  | none => positionalText layout.wholeMark digits point

/-- The text of a number. -/
def Layout.write (layout : Layout) : Binary64 → List Char
  | .infinite negative => if negative then layout.negativeInfinity else layout.infinity
  | .finite negative significand exponent =>
    let text := layout.magnitude (shortest layout.tie significand exponent)
    if negative then '-' :: text else text

/-- The form of a JSON document: an exponent from `10 ^ 16` upwards and below `10 ^ -5`, a point in
every other number, and `null` for what JSON cannot write. -/
def Layout.json : Layout :=
  ⟨some (-5, 15), ['.', '0'], .toEven, ['n', 'u', 'l', 'l'], ['n', 'u', 'l', 'l']⟩

/-- The form for people: never an exponent, and a point only where a fraction follows. -/
def Layout.plain : Layout :=
  ⟨none, [], .away, ['i', 'n', 'f'], ['-', 'i', 'n', 'f']⟩

end SchemaChange.Number
