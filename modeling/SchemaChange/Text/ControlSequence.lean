/-!
# Control sequences

A text for a terminal holds sequences that set parts of it off. This module writes the two that the
program uses, and reads a text without any sequence: `withoutSequences` keeps what a reader sees.
A sequence begins with an escape character and is recognised by its form alone, known or not.

White space inside a sequence that is no string is seen all the same. The text behind it is seen
too, up to the next control character, where the interrupted sequence goes on.
-/

namespace SchemaChange.Text

/-- Text in bold. -/
def bold (text : String) : String :=
  "\x1b[1m" ++ text ++ "\x1b[0m"

/-- Text in bold with a line under it. -/
def heading (text : String) : String :=
  "\x1b[1m\x1b[4m" ++ text ++ "\x1b[0m"

/-- White space that moves on from where it stands. No other control character of ASCII is ever
seen. -/
def isSpacing (c : Char) : Bool :=
  c == '\t' || c == '\n' || c == '\x0c' || c == '\r'

/-- Whether a character is seen where it stands in no sequence. -/
def isSeen (c : Char) : Bool :=
  isSpacing c || (decide (' ' ≤ c) && c != '\x7f')

/-- Whether one of the bytes that follow the first byte of a character is the control code that ends
a string. -/
def hidesTerminator (c : Char) : Bool :=
  (String.utf8EncodeChar c).contains 0x9C

/-- How far the sequence has come in which a reading stands. -/
inductive SequenceState where
  /-- In no sequence. -/
  | outside
  /-- Behind the escape character. -/
  | escape
  /-- In an escape sequence that ends with its next character from the zero on. -/
  | escapeTail
  /-- In a control sequence, which ends with its first character from the at sign on. -/
  | control
  /-- At the start of the header of a device string. -/
  | header
  /-- Among the parameters of such a header. -/
  | parameters
  /-- Behind those parameters, where no more may follow. -/
  | headerTail
  /-- In a string of which nothing is seen. -/
  | string
  /-- In a command to the system, which a bell ends. -/
  | command
  deriving DecidableEq, Repr

namespace SequenceState

/-- The state behind a character that is no part of the text seen. An escape character begins a
sequence anywhere, and the characters that cancel and substitute end one anywhere. -/
def next (state : SequenceState) (c : Char) : SequenceState :=
  if c = '\x1b' then .escape
  else if c = '\x18' ∨ c = '\x1a' then .outside
  else
    match state with
    | .outside => .outside
    | .escape =>
      if c = '[' then .control
      else if c = ']' then .command
      else if c = 'P' then .header
      else if c = 'X' ∨ c = '^' ∨ c = '_' then .string
      else if ' ' ≤ c ∧ c ≤ '/' then .escapeTail
      else if '0' ≤ c ∧ c ≤ '~' then .outside
      else .escape
    | .escapeTail => if '0' ≤ c ∧ c ≤ '~' then .outside else .escapeTail
    | .control => if '@' ≤ c ∧ c ≤ '~' then .outside else .control
    | .header =>
      if ' ' ≤ c ∧ c ≤ '/' then .headerTail
      else if '0' ≤ c ∧ c ≤ '?' then .parameters
      else if '@' ≤ c ∧ c ≤ '~' then .string
      else .header
    | .parameters =>
      if ' ' ≤ c ∧ c ≤ '/' then .headerTail
      else if '<' ≤ c ∧ c ≤ '~' then .string
      else .parameters
    | .headerTail => if '0' ≤ c ∧ c ≤ '~' then .string else .headerTail
    | .string => if hidesTerminator c then .outside else .string
    | .command => if c = '\x07' then .outside else .command

/-- Whether a character is seen that meets a reading in this state. -/
def shows (state : SequenceState) (c : Char) : Bool :=
  match state with
  | .outside => isSeen c
  | .escape | .escapeTail | .control => isSpacing c
  | _ => false

end SequenceState

/-- A reading of a text: the state of its sequence, and whether the character before was seen. -/
structure SequenceReading where
  state : SequenceState
  running : Bool
  deriving DecidableEq, Repr

namespace SequenceReading

/-- Whether a character is seen. Behind a character that was, it is judged as if it stood in no
sequence. -/
def shows (reading : SequenceReading) (c : Char) : Bool :=
  (reading.running && isSeen c) || reading.state.shows c

/-- The reading behind a character. Text that is seen leaves an interrupted sequence as it is,
except that a character beyond ASCII ends it. -/
def next (reading : SequenceReading) (c : Char) : SequenceReading :=
  if reading.running && isSeen c then
    ⟨if c.toNat < 0x80 then reading.state else .outside, true⟩
  else ⟨reading.state.next c, reading.state.shows c⟩

end SequenceReading

/-- The characters of a text that are seen, from a reading on. -/
def seen (reading : SequenceReading) : List Char → List Char
  | [] => []
  | c :: rest =>
    if reading.shows c then c :: seen (reading.next c) rest else seen (reading.next c) rest

/-- A text without its control sequences and the control characters of ASCII. -/
def withoutSequences (text : String) : String :=
  String.ofList (seen ⟨.outside, false⟩ text.toList)

end SchemaChange.Text
