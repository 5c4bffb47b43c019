import SchemaChange.Proofs.NameOrder
import SchemaChange.Proofs.WellFormed

/-!
# The order of several migrations

Migrations take effect in the order of their names, in whatever order they are handed over. Among
migrations of one name that order is kept, and the steps of each are all there.
-/

namespace SchemaChange.Migration

open SchemaChange.Text

variable {listed sources : List Migration} {name : String}

/-- The same migrations in another order, except that those of one name come as before. -/
structure Reorders (listed sources : List Migration) : Prop where
  perm : listed.Perm sources
  kept : ∀ name, named Migration.name name listed = named Migration.name name sources

theorem inOrder_eq (sources : List Migration) :
    inOrder sources = inNameOrder Migration.name sources :=
  rfl

theorem inOrder_of_reorders (h : Reorders listed sources) : inOrder listed = inOrder sources := by
  rw [inOrder_eq, inOrder_eq]
  apply eq_of_named_eq (pairwise_inNameOrder Migration.name listed)
    (pairwise_inNameOrder Migration.name sources)
  intro name
  rw [named_inNameOrder, named_inNameOrder]
  exact h.kept name

/-- A step tells from which migration it comes. -/
theorem file_of_mem_steps {migration : Migration} {step : Step} (h : step ∈ migration.steps) :
    step.file = migration.name :=
  (wellFormed_of_mem h).file

/-- The steps of a file are all steps of a migration, or none. -/
theorem named_steps (name : String) (migration : Migration) :
    named Step.file name migration.steps =
      if migration.name = name then migration.steps else [] := by
  unfold named
  split
  · rename_i hname
    rw [List.filter_eq_self]
    intro step hstep
    simp [file_of_mem_steps hstep, hname]
  · rename_i hname
    rw [List.filter_eq_nil_iff]
    intro step hstep
    simp [file_of_mem_steps hstep, hname]

theorem named_flatMap_steps (name : String) (migrations : List Migration) :
    named Step.file name (migrations.flatMap steps) =
      (named Migration.name name migrations).flatMap steps := by
  induction migrations with
  | nil => rfl
  | cons migration more ih =>
    have hsplit : named Step.file name ((migration :: more).flatMap steps) =
        named Step.file name migration.steps ++ named Step.file name (more.flatMap steps) := by
      rw [named, List.flatMap_cons, List.filter_append]
      rfl
    rw [hsplit, ih, named_steps]
    by_cases hname : migration.name = name
    · simp [named, hname]
    · simp [named, hname]

/-- The steps of a file are those of the migrations of that name, one migration after the other as
they were handed over. -/
theorem named_allSteps (name : String) (sources : List Migration) :
    named Step.file name (allSteps sources) =
      (named Migration.name name sources).flatMap steps := by
  rw [allSteps, named_flatMap_steps, inOrder_eq, named_inNameOrder]

/-- The files of the steps do not descend, compared by the bytes of their names. -/
theorem pairwise_allSteps (sources : List Migration) :
    (allSteps sources).Pairwise fun a b => bytes a.file ≤ bytes b.file := by
  refine List.pairwise_flatMap.mpr ⟨?_, ?_⟩
  · intro migration _
    refine List.pairwise_of_forall_mem_list ?_
    intro a ha b hb
    rw [file_of_mem_steps ha, file_of_mem_steps hb]
    exact List.le_refl _
  · rw [inOrder_eq]
    refine (pairwise_inNameOrder Migration.name sources).imp ?_
    intro a b hle step hstep step' hstep'
    rw [file_of_mem_steps hstep, file_of_mem_steps hstep']
    intro hlt
    exact hle (bytes_lt_iff.mp hlt)

/-- Another order of the sources gives the same steps. They come file by file, and each file has the
steps of all its migrations. -/
theorem allSteps_of_reorders (h : Reorders listed sources) :
    allSteps listed = allSteps sources ∧
      (allSteps sources).Pairwise (fun a b => bytes a.file ≤ bytes b.file) ∧
      ∀ name, named Step.file name (allSteps sources) =
        (named Migration.name name sources).flatMap steps := by
  refine ⟨?_, pairwise_allSteps sources, ?_⟩
  · rw [allSteps, allSteps, inOrder_of_reorders h]
  · intro name
    exact named_allSteps name sources

/-- Two migrations of one name with another between them. -/
def interleaved : List Migration :=
  [⟨"b.sql", "ALTER TABLE t ADD COLUMN x TEXT;"⟩, ⟨"a.sql", "INSERT INTO t (x) VALUES (1);"⟩,
    ⟨"b.sql", "ALTER TABLE t ADD COLUMN y TEXT;"⟩]

/-- The same migrations with the other one behind them. -/
def gathered : List Migration :=
  [⟨"b.sql", "ALTER TABLE t ADD COLUMN x TEXT;"⟩, ⟨"b.sql", "ALTER TABLE t ADD COLUMN y TEXT;"⟩,
    ⟨"a.sql", "INSERT INTO t (x) VALUES (1);"⟩]

theorem allSteps_of_reorders_gathered :
    Reorders gathered interleaved ∧ allSteps gathered = allSteps interleaved := by
  have hreorders : Reorders gathered interleaved := by
    refine ⟨by decide, ?_⟩
    intro name
    by_cases hname : "a.sql" = name
    · subst hname
      rfl
    · simp [named, gathered, interleaved, List.filter_cons, hname]
  exact ⟨hreorders, (allSteps_of_reorders hreorders).1⟩

end SchemaChange.Migration
