/-!
# The environment

The variables that the program looks up.
-/

namespace SchemaChange.CommandLine

/-- The values of the variables, where they have one. -/
structure Environment where
  /-- The folder of the migrations. -/
  folder : Option String
  /-- Asks for text without styles. -/
  plain : Option String
  /-- Asks for text with styles. -/
  styled : Option String
  deriving DecidableEq, Repr

/-- Looks up each variable once. -/
def Environment.read {m : Type → Type} [Monad m] (value? : String → m (Option String)) :
    m Environment := do
  return ⟨← value? "MIGRATIONS_DIR", ← value? "NO_COLOR", ← value? "CLICOLOR_FORCE"⟩

/-- Styles are shown only where they are asked for. The wish for text without them wins, and an
empty value is no wish. -/
def Environment.showsStyles (environment : Environment) : Bool :=
  environment.plain.getD "" == "" && environment.styled.getD "" != ""

end SchemaChange.CommandLine
