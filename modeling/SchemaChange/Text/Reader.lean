import SchemaChange.Text.CharClass
import SchemaChange.Text.LetterCase

/-!
# Readers

A reader takes what it knows from the front of a text and leaves the rest. This module holds the
small readers that statements are made of, and the search that runs a reader along a whole text.
-/

namespace SchemaChange.Text

/-- Reads a value from the front of a text; `none` where the text does not begin with one. -/
abbrev Reader (α : Type) := List Char → Option (α × List Char)

/-- What follows a keyword at the front of the text. -/
def afterKeyword : List Char → List Char → Option (List Char)
  | [], s => some s
  | _ :: _, [] => none
  | letter :: letters, c :: s => if standsFor letter c then afterKeyword letters s else none

/-- What follows a run of at least one blank. -/
def afterBlanks : List Char → Option (List Char)
  | [] => none
  | c :: s => if isBlank c then some (s.dropWhile isBlank) else none

/-- What follows some keywords, each of them followed by blanks. -/
def afterPhrase : List String → List Char → Option (List Char)
  | [], s => some s
  | keyword :: more, s => do
    let s ← afterKeyword keyword.toList s
    let s ← afterBlanks s
    afterPhrase more s

/-- What follows a phrase that may be left out. -/
def skipPhrase (keywords : List String) (s : List Char) : List Char :=
  (afterPhrase keywords s).getD s

/-- What follows one given character. -/
def afterChar (expected : Char) : List Char → Option (List Char)
  | [] => none
  | c :: s => if c = expected then some s else none

/-- A word, as long as it goes. -/
def word : Reader String := fun s =>
  match s.takeWhile isWord with
  | [] => none
  | letters => some (String.ofList letters, s.dropWhile isWord)

/-- The values that a reader finds in a text. The search tries the reader at each place, from left
to right, and goes on behind the text that it took; `skip` counts the characters of that text that
are still ahead. -/
def occurrencesFrom {α : Type} (read : Reader α) : Nat → List Char → List α
  | _, [] => []
  | skip + 1, _ :: s => occurrencesFrom read skip s
  | 0, c :: s =>
    match read (c :: s) with
    | none => occurrencesFrom read 0 s
    | some (a, rest) => a :: occurrencesFrom read (s.length - rest.length) s

/-- The values that a reader finds in a text, leftmost first and without overlap. -/
def occurrences {α : Type} (read : Reader α) (s : List Char) : List α :=
  occurrencesFrom read 0 s

section

variable {α : Type} {read : Reader α}

theorem occurrencesFrom_eq_drop {s : List Char} {n : Nat} (h : n ≤ s.length) :
    occurrencesFrom read n s = occurrences read (s.drop n) := by
  induction s generalizing n with
  | nil => simp_all [occurrences, occurrencesFrom]
  | cons c s ih =>
    cases n with
    | zero => rfl
    | succ n => simpa [occurrencesFrom] using ih (by simpa using h)

@[simp] theorem occurrences_nil : occurrences read [] = [] := rfl

/-- Where the reader finds nothing, the search moves on by one character. -/
theorem occurrences_of_none {c : Char} {s : List Char} (h : read (c :: s) = none) :
    occurrences read (c :: s) = occurrences read s := by
  simp [occurrences, occurrencesFrom, h]

/-- Where the reader finds a value, the search goes on with what it left. -/
theorem occurrences_of_some {c : Char} {s rest : List Char} {a : α}
    (h : read (c :: s) = some (a, rest)) (hrest : rest <:+ s) :
    occurrences read (c :: s) = a :: occurrences read rest := by
  obtain ⟨taken, rfl⟩ := hrest
  have hlength : (taken ++ rest).length - rest.length = taken.length := by simp
  simp only [occurrences, occurrencesFrom, h, hlength]
  rw [occurrencesFrom_eq_drop (by simp), List.drop_left, occurrences]

end

end SchemaChange.Text
