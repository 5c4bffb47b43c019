import SchemaChange.Statement
import SchemaChange.Text.Reader

/-!
# Columns of a table definition

A column in the body of a table definition is a name and a type, then at most one of `NOT NULL` and
a default, then references and the actions on deleting and updating, then a comma or the end. Every
part takes as much of the text as it can, and gives some of it back where the parts behind it do not
fit otherwise. A part that gives back is written as a function of what has to follow it.
-/

namespace SchemaChange.Column

open SchemaChange.Text

/-- What is left of a text when something at its front has been taken; `none` if it is not there. -/
abbrev Tail (α : Type) := List Char → Option α

/-- Takes as many characters of a class as `next` allows, possibly none. -/
def longest {α : Type} (p : Char → Bool) (next : Tail α) : Tail α
  | [] => next []
  | c :: s => if p c then longest p next s <|> next (c :: s) else next (c :: s)

/-- Takes as many characters of a class as `next` allows, at least one. -/
def longest1 {α : Type} (p : Char → Bool) (next : Tail α) : Tail α
  | [] => none
  | c :: s => if p c then longest p next s else none

/-- Takes a keyword with blanks in front of it. -/
def blanksThen {α : Type} (keyword : String) (next : Tail α) : Tail α := fun s => do
  let s ← afterBlanks s
  let s ← afterKeyword keyword.toList s
  next s

/-- Takes a clause or, if nothing that follows fits then, does without it. -/
def optional {α : Type} (clause : Tail α → Tail α) (next : Tail α) : Tail α := fun s =>
  clause next s <|> next s

/-- `NOT NULL`, directly at the front. -/
def notNull {α : Type} (next : Tail α) : Tail α := fun s => do
  let s ← afterKeyword "NOT".toList s
  blanksThen "NULL" next s

/-- `DEFAULT`, directly at the front, and text without a comma. -/
def defaultValue {α : Type} (next : Tail α) : Tail α := fun s => do
  let s ← afterKeyword "DEFAULT".toList s
  longest (· != ',') next s

/-- `REFERENCES` and a target without blanks and closing parentheses. -/
def references {α : Type} (next : Tail α) : Tail α :=
  blanksThen "REFERENCES" fun s => do
    let s ← afterBlanks s
    longest1 (fun c => !isBlank c && c != ')') next s

/-- `ON`, an event, and a word for the action. -/
def onEvent {α : Type} (event : String) (next : Tail α) : Tail α :=
  blanksThen "ON" <| blanksThen event fun s => do
    let s ← afterBlanks s
    longest1 isWord next s

/-- The end of a column: a comma, or nothing but blanks. -/
def ending : Tail (List Char)
  | ',' :: s => some s
  | s => if s.all isBlank then some [] else none

theorem ending_cons {c : Char} {s : List Char} (hc : c ≠ ',') :
    ending (c :: s) = if (c :: s).all isBlank then some [] else none := by
  unfold ending
  split
  · rename_i heq
    exact absurd (List.cons.inj heq).1 hc
  · rfl

/-- What follows a type. -/
def clauses : Tail (List Char) :=
  longest isBlank fun s =>
    (notNull tail s <|> defaultValue tail s) <|> tail s
where
  tail : Tail (List Char) :=
    optional references <| optional (onEvent "DELETE") <| optional (onEvent "UPDATE") ending

/-- What follows a parenthesis that opens at the front, up to the first one that closes. -/
def afterParameters : List Char → Option (List Char)
  | '(' :: s =>
    match s.dropWhile (· != ')') with
    | _ :: rest => some rest
    | [] => none
  | _ => none

/-- Takes a type: a word, with its parameters if there are any and if `next` allows. -/
def typeThen {α : Type} (next : Tail α) : Tail α :=
  longest1 isWord fun s => ((afterParameters s).bind next) <|> next s

/-- A column at the front of a text, whatever its name. -/
def read : Reader Column := fun s => do
  let (name, s) ← word s
  let s ← afterBlanks s
  let (behindType, rest) ← typeThen (fun t => (clauses t).map fun rest => (t, rest)) s
  some (⟨name, String.ofList (s.take (s.length - behindType.length))⟩, rest)

/-- Words that begin a constraint. A column of such a name is none. -/
def constraintWords : List String :=
  ["SERIAL", "PRIMARY", "CONSTRAINT", "INDEX", "KEY"]

def isConstraint (column : Column) : Bool :=
  constraintWords.any (eqIgnoringAsciiCase column.name)

/-- The columns in the body of a table definition. -/
def ofBody (body : List Char) : List Column :=
  (occurrences read body).filter fun column => !isConstraint column

end SchemaChange.Column
