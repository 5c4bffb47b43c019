import SchemaChange.Unicode.Age
import SchemaChange.Unicode.Alphabetic
import SchemaChange.Unicode.Connector
import SchemaChange.Unicode.Mark
import SchemaChange.Unicode.Number
import SchemaChange.Unicode.WhiteSpace

/-!
# Classes of characters

The three classes that the readers ask about: blanks, the characters of a word, and the characters
of an identifier.
-/

namespace SchemaChange.Text

/-- White space of any script. -/
def isBlank (c : Char) : Bool :=
  Unicode.whiteSpace.holds c.toNat

/-- A character of a word: a letter, a combining mark, a decimal digit, or a character that joins
them, such as the low line. Words follow version 16 of the standard, so what version 17 added ends
a word. -/
def isWord (c : Char) : Bool :=
  (Unicode.alphabetic.holds c.toNat || Unicode.decimalDigit.holds c.toNat ||
    Unicode.connector.holds c.toNat || Unicode.mark.holds c.toNat ||
    Unicode.joinControl.holds c.toNat) && !Unicode.age17.holds c.toNat

/-- A letter or a number of any script, as of version 17 of the standard. Unlike `isWord`, this
leaves out the marks that are no letters and takes in numbers that are no decimal digits. -/
def isAlphanumeric (c : Char) : Bool :=
  Unicode.alphabetic.holds c.toNat || Unicode.decimalDigit.holds c.toNat ||
    Unicode.otherNumber.holds c.toNat

/-- A character of a type's leading identifier. -/
def isIdentifier (c : Char) : Bool :=
  isAlphanumeric c || c == '_'

end SchemaChange.Text
