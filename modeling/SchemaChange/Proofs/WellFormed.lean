import SchemaChange.Proofs.Boundary
import SchemaChange.Proofs.Listing
import SchemaChange.Proofs.LowerCase

/-!
# Well-formed steps

Whatever a migration holds, its steps are in order: the names are in lower case, the types and the
columns are trimmed, a row has each of its columns once, and the steps come shape by shape.
-/

namespace SchemaChange

open SchemaChange.Text

/-- A name of a table, a field or an index: in lower case, and not empty. -/
structure IsLowerName (name : String) : Prop where
  nonempty : name ≠ ""
  lowered : lower name = name

/-- A column in a list of columns, as it was written there. -/
structure IsListed (column : String) : Prop where
  trimmed : Trimmed column.toList
  noComma : ',' ∉ column.toList
  noParenthesis : ')' ∉ column.toList

theorem isLowerName_lower {name : String} (h : name.toList ∈ Form.word) : IsLowerName (lower name) :=
  ⟨lower_ne_empty h.1, lower_lower name⟩

/-- What a list of columns holds that goes up to its closing parenthesis. -/
theorem isListed_of_lists {columns : List Char} {items : List String}
    (hcolumns : ')' ∉ columns) (h : Lists columns items) : ∀ item ∈ items, IsListed item := by
  have hlisted {piece item : List Char} (hpiece : ')' ∉ piece) (hcomma : ',' ∉ piece)
      (htrims : Trims piece item) : IsListed (String.ofList item) := by
    refine ⟨?_, ?_, ?_⟩
    · rw [String.toList_ofList]
      exact htrims.trimmed
    · rw [String.toList_ofList]
      exact fun hc => hcomma (htrims.subset hc)
    · rw [String.toList_ofList]
      exact fun hc => hpiece (htrims.subset hc)
  induction h with
  | last single trims =>
    rw [List.forall_mem_singleton]
    exact hlisted hcolumns single trims
  | next single trims _ ih =>
    rw [List.mem_append, List.mem_cons, not_or, not_or] at hcolumns
    rw [List.forall_mem_cons]
    exact ⟨hlisted hcolumns.1 single trims, ih hcolumns.2.2⟩

theorem ne_nil_of_lists {columns : List Char} {items : List String} (h : Lists columns items) :
    items ≠ [] := by
  cases h with
  | last => exact List.cons_ne_nil _ _
  | next => exact List.cons_ne_nil _ _

/-- The name of a column in the body of a table is a word. -/
theorem Column.name_mem_word {body : List Char} {column : Column}
    (h : column ∈ Column.ofBody body) : column.name.toList ∈ Form.word := by
  obtain ⟨v, rest, -, hread⟩ := exists_read_of_mem (List.mem_of_mem_filter h)
  simp only [Column.read, Option.bind_eq_bind, Option.bind_eq_some_iff] at hread
  obtain ⟨⟨name, s⟩, hname, _, -, ⟨_, _⟩, -, hcolumn⟩ := hread
  obtain ⟨⟨w, hw, rfl, -⟩, -⟩ := word_eq_some_iff.mp hname
  obtain ⟨rfl, -⟩ := Prod.mk.inj (Option.some.inj hcolumn)
  simpa using hw

/-- What every statement of a migration keeps to: its names are words, and its lists have trimmed
items, one at least. -/
inductive Statement.WellFormed : Statement → Prop where
  | newTable {name : String} {columns : List Column}
      (named : name.toList ∈ Form.word)
      (columned : ∀ column ∈ columns, column.name.toList ∈ Form.word) :
      WellFormed (.newTable name columns)
  | newColumn {table : String} {column : Column}
      (tabled : table.toList ∈ Form.word)
      (named : column.name.toList ∈ Form.word) :
      WellFormed (.newColumn table column)
  | newIndex {name table : String} {columns : List String}
      (named : name.toList ∈ Form.word)
      (tabled : table.toList ∈ Form.word)
      (nonempty : columns ≠ [])
      (listed : ∀ column ∈ columns, IsListed column) :
      WellFormed (.newIndex name table columns)
  | newRow {table : String} {columns : List String} {values : String}
      (tabled : table.toList ∈ Form.word)
      (nonempty : columns ≠ [])
      (listed : ∀ column ∈ columns, IsListed column) :
      WellFormed (.newRow table columns values)

theorem Statement.wellFormed_of_spells {statement : Statement} {w : List Char}
    (h : Spells statement w) : statement.WellFormed := by
  cases h with
  | newTable opens named spaced ends =>
    exact .newTable (by simpa using named.word) fun _ hcolumn => Column.name_mem_word hcolumn
  | newColumn opens tabled spaced adds guarded named =>
    exact .newColumn (by simpa using tabled.word) (by simpa using named.word)
  | newIndex opens named spaced ons tabled spaced' listed lists =>
    exact .newIndex (by simpa using named.word) (by simpa using tabled.word) (ne_nil_of_lists lists)
      (isListed_of_lists listed.2 lists)
  | newRow opens tabled spaced listed links valued lists =>
    exact .newRow (by simpa using tabled.word) (ne_nil_of_lists lists)
      (isListed_of_lists listed.2 lists)

theorem Statement.wellFormed_of_mem_ofText {statement : Statement} {text : String}
    (h : statement ∈ ofText text) : statement.WellFormed := by
  obtain ⟨shape, -, hstatement⟩ := List.mem_flatMap.mp h
  obtain ⟨w, ⟨-, hspells⟩, -⟩ := (recognizes_read shape).exists_takes_of_mem hstatement
  exact wellFormed_of_spells hspells

/-- What an effect keeps to that comes from a statement of a shape. -/
inductive Effect.WellFormed : Shape → Effect → Prop where
  | addField {origin : Shape} {name typeText : String}
      (added : origin = .tableDefinition ∨ origin = .columnAddition)
      (named : IsLowerName name)
      (trimmed : Trimmed typeText.toList) :
      WellFormed origin (.addField name typeText (FieldSpec.ofTypeText typeText))
  | addIndex {name : String} {columns : List String}
      (named : IsLowerName name)
      (nonempty : columns ≠ [])
      (listed : ∀ column ∈ columns, IsListed column) :
      WellFormed .indexDefinition (.addIndex name columns)
  | addRow {row : Row}
      (nonempty : row ≠ [])
      (distinct : (row.map Prod.fst).Nodup)
      (listed : ∀ column ∈ row.map Prod.fst, IsListed column) :
      WellFormed .rowInsertion (.addRow row)

/-- What a step of the given file keeps to. -/
structure Step.WellFormed (file : String) (step : Step) : Prop where
  file : step.file = file
  table : IsLowerName step.table
  effect : step.effect.WellFormed step.origin

namespace Step

variable {file : String} {step : Step}

theorem wellFormed_ofColumn {table : String} {origin : Shape} {column : Column}
    (horigin : origin = .tableDefinition ∨ origin = .columnAddition)
    (htable : table.toList ∈ Form.word) (hname : column.name.toList ∈ Form.word) :
    (ofColumn file table origin column).WellFormed file where
  file := rfl
  table := isLowerName_lower htable
  effect := .addField horigin (isLowerName_lower hname) (by
    rw [trim, String.toList_ofList]
    exact trimmed_trimChars _)

/-- A row that has as many values as columns gives each of its columns one of them. -/
theorem wellFormed_ofPairs {columns : List String} {data : List Datum} (hne : columns ≠ [])
    (hlisted : ∀ column ∈ columns, IsListed column) (hlength : data.length = columns.length) :
    (Effect.addRow (Members.ofPairs (columns.zip data))).WellFormed .rowInsertion := by
  obtain ⟨hnodup, hmem⟩ := Members.nodup_ofPairs (columns.zip data)
  have hkeys : (columns.zip data).map Prod.fst = columns :=
    List.map_fst_zip (Nat.le_of_eq hlength.symm)
  rw [hkeys] at hmem
  refine .addRow ?_ hnodup fun column hcolumn => hlisted column ((hmem column).mp hcolumn)
  intro hnil
  obtain ⟨column, more, rfl⟩ := List.exists_cons_of_ne_nil hne
  simpa [hnil] using (hmem column).mpr (by simp)

theorem wellFormed_of_mem {statement : Statement} (hstatement : statement.WellFormed)
    (h : step ∈ ofStatement file statement) : step.WellFormed file := by
  cases hstatement with
  | newTable named columned =>
    obtain ⟨column, hcolumn, rfl⟩ := List.mem_map.mp h
    exact wellFormed_ofColumn (Or.inl rfl) named (columned column hcolumn)
  | newColumn tabled named =>
    obtain rfl := List.mem_singleton.mp h
    exact wellFormed_ofColumn (Or.inr rfl) tabled named
  | newIndex named tabled nonempty listed =>
    obtain rfl := List.mem_singleton.mp h
    exact ⟨rfl, isLowerName_lower tabled, .addIndex (isLowerName_lower named) nonempty listed⟩
  | newRow tabled nonempty listed =>
    simp only [ofStatement] at h
    split at h
    · rename_i hlength
      obtain rfl := List.mem_singleton.mp h
      exact ⟨rfl, isLowerName_lower tabled, wellFormed_ofPairs nonempty listed hlength⟩
    · cases h

end Step

namespace Migration

/-- Steps in groups stand in the order of their shapes. -/
theorem pairwise_grouped (steps : List Step) :
    (grouped steps).Pairwise fun a b => Shape.all.idxOf a.origin ≤ Shape.all.idxOf b.origin := by
  have horigin {shape : Shape} {step : Step}
      (h : step ∈ steps.filter fun step => step.origin = shape) : step.origin = shape := by
    simpa using (List.mem_filter.mp h).2
  refine List.pairwise_flatMap.mpr ⟨fun shape _ => ?_, ?_⟩
  · exact List.pairwise_of_forall_mem_list fun a ha b hb => by rw [horigin ha, horigin hb]
  · have hall : Shape.all.Pairwise fun a b => Shape.all.idxOf a ≤ Shape.all.idxOf b := by decide
    refine hall.imp fun hle a ha b hb => ?_
    rw [horigin ha, horigin hb]
    exact hle

theorem wellFormed_of_mem {migration : Migration} {step : Step} (h : step ∈ migration.steps) :
    step.WellFormed migration.name := by
  obtain ⟨statement, hstatement, hstep⟩ := List.mem_flatMap.mp h
  exact Step.wellFormed_of_mem (Statement.wellFormed_of_mem_ofText hstatement) hstep

/-- The steps of a migration are well-formed, whatever its text and its name, and they come in the
order of the shapes of their statements. -/
theorem steps_wellFormed (migration : Migration) :
    (∀ step ∈ migration.steps, step.WellFormed migration.name) ∧
      migration.steps.Pairwise fun a b =>
        Shape.all.idxOf a.origin ≤ Shape.all.idxOf b.origin := by
  refine ⟨fun _ => wellFormed_of_mem, ?_⟩
  rw [← grouped_steps]
  exact pairwise_grouped migration.steps

end Migration

end SchemaChange
