import SchemaChange.Unicode.Cased
import SchemaChange.Unicode.Lowercase
import SchemaChange.Unicode.Uppercase

/-!
# Letter case

The full case mappings, which may turn one character into several, and the looser comparison under
which keywords are found. Lower-casing looks at the neighbours of a capital sigma, since the letter
has a form of its own at the end of a word.
-/

namespace SchemaChange.Text

/-- The lower-case form of a character, whatever stands beside it. -/
def lowerChar (c : Char) : List Char :=
  Unicode.mapCase Unicode.lowerRuns Unicode.lowerExpansions c

/-- The upper-case form of a character. -/
def upperChar (c : Char) : List Char :=
  Unicode.mapCase Unicode.upperRuns Unicode.upperExpansions c

def isCased (c : Char) : Bool :=
  Unicode.cased.holds c.toNat

def isCaseIgnorable (c : Char) : Bool :=
  Unicode.caseIgnorable.holds c.toNat

/-- Whether the first character that counts for case is cased. -/
def beginsCased : List Char → Bool
  | [] => false
  | c :: rest => if isCaseIgnorable c then beginsCased rest else isCased c

/-- Lower-cases a text of which `afterCased` tells whether a cased letter comes just before it. A
capital sigma takes its final form after a cased letter that no cased letter follows. -/
def lowerFrom (afterCased : Bool) : List Char → List Char
  | [] => []
  | c :: rest =>
    let image :=
      if c = 'Σ' then (if afterCased && !beginsCased rest then ['ς'] else ['σ']) else lowerChar c
    image ++ lowerFrom (if isCaseIgnorable c then afterCased else isCased c) rest

/-- The text in lower case. -/
def lower (s : String) : String :=
  String.ofList (lowerFrom false s.toList)

/-- The text in upper case. -/
def upper (s : String) : String :=
  String.ofList (s.toList.flatMap upperChar)

/-- Whether two texts differ at most in the case of ASCII letters. -/
def eqIgnoringAsciiCase (s t : String) : Bool :=
  s.toList.map Char.toLower == t.toList.map Char.toLower

/-- Whether a character stands for a letter of a keyword: the letter in either case, or one of the
two characters that fold to an ASCII letter, the long s and the kelvin sign. -/
def standsFor (letter c : Char) : Bool :=
  c.toLower == letter.toLower ||
    (letter.toLower == 's' && c == 'ſ') || (letter.toLower == 'k' && c == '\u212a')

end SchemaChange.Text
