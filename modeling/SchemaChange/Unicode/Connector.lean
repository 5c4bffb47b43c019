import SchemaChange.Unicode.Spans

/-!
# Joining characters

Punctuation and format characters that stand inside a word without ending it.
-/

namespace SchemaChange.Unicode

/-- Code points of the general category Pc, the low line among them. -/
def connector : Spans := [
  (0x5F, 0x5F), (0x203F, 0x2040), (0x2054, 0x2054), (0xFE33, 0xFE34), (0xFE4D, 0xFE4F),
  (0xFF3F, 0xFF3F)]

/-- Code points with the property Join_Control: the two zero-width joiners. -/
def joinControl : Spans := [
  (0x200C, 0x200D)]

end SchemaChange.Unicode
