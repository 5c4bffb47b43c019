import SchemaChange.Statement.Reader
import SchemaChange.Step

/-!
# Migrations

A migration is a named text. Compiling it never fails: what is not understood is passed over.
-/

namespace SchemaChange

/-- A migration file that has been read. -/
structure Migration where
  name : String
  text : String
  deriving DecidableEq, Repr

namespace Migration

/-- The steps of a migration, grouped by the shape of their statements. -/
def steps (migration : Migration) : List Step :=
  (Statement.ofText migration.text).flatMap (Step.ofStatement migration.name)

/-- Migrations in the order in which they take effect: by name, code point by code point. Those of
one name keep their order. -/
def inOrder (migrations : List Migration) : List Migration :=
  migrations.mergeSort fun a b => decide (a.name ≤ b.name)

/-- The steps of several migrations. A step that comes more than once is kept each time. -/
def allSteps (migrations : List Migration) : List Step :=
  (inOrder migrations).flatMap steps

end Migration

end SchemaChange
