import SchemaChange.Unicode.Spans

/-!
# White space

The property White_Space.
-/

namespace SchemaChange.Unicode

/-- Code points with the property White_Space. -/
def whiteSpace : Spans := [
  (0x9, 0xD), (0x20, 0x20), (0x85, 0x85), (0xA0, 0xA0), (0x1680, 0x1680), (0x2000, 0x200A),
  (0x2028, 0x2029), (0x202F, 0x202F), (0x205F, 0x205F), (0x3000, 0x3000)]

end SchemaChange.Unicode
