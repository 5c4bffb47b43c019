import SchemaChange.Datum
import SchemaChange.Text.Pieces

/-!
# Value lists

A value list is split at its commas. A backslash takes the next character as it is, a single quote
begins or ends a stretch in which a comma does not split, and neither of them is part of a token.
-/

namespace SchemaChange.ValueList

/-- Splits a text into its tokens, untrimmed. `quoted` tells whether the text begins inside quotes,
and `escaped` whether a backslash stands just before it. There is one token more than there are
separating commas. -/
def rawTokens (quoted escaped : Bool) : List Char → List (List Char)
  | [] => [[]]
  | c :: rest =>
    if escaped then extend c (rawTokens quoted false rest)
    else if c = '\\' then rawTokens quoted true rest
    else if c = '\'' then rawTokens (!quoted) false rest
    else if c = ',' && !quoted then [] :: rawTokens quoted false rest
    else extend c (rawTokens quoted false rest)
where
  /-- Puts a character in front of the first token. -/
  extend (c : Char) : List (List Char) → List (List Char)
    | [] => [[c]]
    | token :: more => (c :: token) :: more

/-- The tokens without the last one if that is empty. -/
def dropEmptyEnd (tokens : List (List Char)) : List (List Char) :=
  if tokens.getLast? = some [] then tokens.dropLast else tokens

/-- The trimmed tokens of a value list. An empty token counts, but not at the end. -/
def tokens (raw : String) : List String :=
  (dropEmptyEnd ((rawTokens false false (Text.trimChars raw.toList)).map Text.trimChars)).map
    String.ofList

/-- The classified tokens of a value list. -/
def parse (raw : String) : List Datum :=
  (tokens raw).map Datum.ofToken

end SchemaChange.ValueList
