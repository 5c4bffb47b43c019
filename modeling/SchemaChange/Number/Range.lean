/-!
# Ranges of machine integers
-/

namespace SchemaChange.Number

/-- Whether an integer fits a signed word of 64 bits. -/
def fitsSigned (n : Int) : Bool :=
  decide (-9223372036854775808 ≤ n) && decide (n ≤ 9223372036854775807)

/-- Whether an integer fits an unsigned word of 64 bits. -/
def fitsUnsigned (n : Int) : Bool :=
  decide (0 ≤ n) && decide (n ≤ 18446744073709551615)

end SchemaChange.Number
