import Mathlib.Data.List.Forall2
import Mathlib.Data.List.Induction
import SchemaChange.Migration

/-!
# Collecting steps

The steps of a migration are collected in one list, statement by statement. A statement touches
nothing that is in the list already. Behind it stand exactly the steps that the statement asks for,
and the row of an insertion has each column once: where it came first, with the value it had last.
-/

namespace SchemaChange

/-! ## Rows -/

namespace Members

variable {α : Type} {name other : String} {value v : α} {names : List String} {values : List α}
  {members others : Members α}

/-- The value at the last place of a name. -/
def IsLast (names : List String) (values : List α) (name : String) (value : α) : Prop :=
  ∃ i : Nat, names[i]? = some name ∧ values[i]? = some value ∧
    ∀ j : Nat, i < j → names[j]? ≠ some name

/-- The members that a list of names gives with a list of values: every name stands at its first
place, with the value at its last place. -/
structure Gathers (names : List String) (values : List α) (members : Members α) : Prop where
  complete : ∀ name, name ∈ members.map Prod.fst ↔ name ∈ names
  ordered : (members.map Prod.fst).Pairwise fun a b => names.idxOf a < names.idxOf b
  last : ∀ name value, (name, value) ∈ members ↔ IsLast names values name value

theorem Gathers.nodup (h : Gathers names values members) : (members.map Prod.fst).Nodup :=
  h.ordered.imp fun hlt heq => by simp [heq] at hlt

theorem mem_put_iff (h : (members.map Prod.fst).Nodup) :
    (other, v) ∈ members.put name value ↔ if other = name then v = value else (other, v) ∈ members := by
  induction members with
  | nil =>
    rw [put, List.mem_singleton, Prod.mk.injEq]
    split
    · rename_i heq
      simp [heq]
    · rename_i hne
      simp [hne]
  | cons member rest ih =>
    obtain ⟨key, old⟩ := member
    rw [List.map_cons, List.nodup_cons] at h
    have hfresh (w : α) : (key, w) ∉ rest := fun hmem =>
      h.1 (List.mem_map.mpr ⟨(key, w), hmem, rfl⟩)
    by_cases hkey : key = name
    · subst hkey
      rw [put, if_pos rfl, List.mem_cons, Prod.mk.injEq]
      split
      · rename_i heq
        subst heq
        simp [hfresh]
      · rename_i hne
        simp [hne]
    · rw [put, if_neg hkey, List.mem_cons, List.mem_cons, ih h.2]
      split
      · rename_i heq
        simp [heq, Ne.symm hkey]
      · rfl

theorem getElem?_concat_eq_some_iff {β : Type} {xs : List β} {x y : β} {i : Nat} :
    (xs ++ [x])[i]? = some y ↔ xs[i]? = some y ∨ i = xs.length ∧ x = y := by
  obtain hlt | rfl | hgt := Nat.lt_trichotomy i xs.length
  · rw [List.getElem?_append_left hlt]
    simp [Nat.ne_of_lt hlt]
  · simp
  · have hnone : (xs ++ [x])[i]? = none := List.getElem?_eq_none (by simp; omega)
    have hnone' : xs[i]? = none := List.getElem?_eq_none (Nat.le_of_lt hgt)
    simp [hnone, hnone', Nat.ne_of_gt hgt]

theorem isLast_concat_self (hlength : names.length = values.length) :
    IsLast (names ++ [name]) (values ++ [value]) name v ↔ v = value := by
  constructor
  · rintro ⟨i, -, hvalue, hlast⟩
    -- the name stands at the end, so no place before it is its last one
    have hnot : ¬ i < names.length := fun hlt =>
      hlast names.length hlt List.getElem?_concat_length
    obtain hold | ⟨-, rfl⟩ := getElem?_concat_eq_some_iff.mp hvalue
    · obtain ⟨hlt, -⟩ := List.getElem?_eq_some_iff.mp hold
      omega
    · rfl
  · rintro rfl
    refine ⟨names.length, List.getElem?_concat_length, ?_, fun j hj => ?_⟩
    · rw [hlength]
      exact List.getElem?_concat_length
    · rw [List.getElem?_eq_none (by simp; omega)]
      simp

theorem isLast_concat_of_ne (hlength : names.length = values.length) (hne : other ≠ name) :
    IsLast (names ++ [name]) (values ++ [value]) other v ↔ IsLast names values other v := by
  have hsame (j : Nat) : (names ++ [name])[j]? = some other ↔ names[j]? = some other := by
    rw [getElem?_concat_eq_some_iff]
    simp [Ne.symm hne]
  unfold IsLast
  simp only [hsame, ne_eq]
  refine exists_congr fun i => and_congr_right fun hi => and_congr_left fun _ => ?_
  obtain ⟨hlt, -⟩ := List.getElem?_eq_some_iff.mp hi
  rw [List.getElem?_append_left (by omega)]

/-- A further name with its value: the name keeps its place if it has one, and has the new value. -/
theorem Gathers.put (h : Gathers names values members) (hlength : names.length = values.length)
    (name : String) (value : α) :
    Gathers (names ++ [name]) (values ++ [value]) (members.put name value) where
  complete other := by
    rw [mem_map_fst_put, h.complete, List.mem_append, List.mem_singleton, or_comm]
  ordered := by
    have hkept {other : String} (hmem : other ∈ members.map Prod.fst) :
        (names ++ [name]).idxOf other = names.idxOf other :=
      List.idxOf_append_of_mem ((h.complete other).mp hmem)
    have hordered : (members.map Prod.fst).Pairwise fun a b =>
        (names ++ [name]).idxOf a < (names ++ [name]).idxOf b :=
      h.ordered.imp_of_mem fun ha hb hlt => by rwa [hkept ha, hkept hb]
    rw [map_fst_put]
    split
    · exact hordered
    · rename_i hnew
      refine List.pairwise_append.mpr ⟨hordered, List.pairwise_singleton _ _, ?_⟩
      intro other hother fresh hfresh
      obtain rfl := List.mem_singleton.mp hfresh
      rw [hkept hother, List.idxOf_append_of_notMem fun hmem => hnew ((h.complete fresh).mpr hmem)]
      exact Nat.lt_of_lt_of_le (List.idxOf_lt_length_of_mem ((h.complete other).mp hother))
        (Nat.le_add_right _ _)
  last other v := by
    rw [mem_put_iff h.nodup]
    split
    · rename_i heq
      rw [heq, isLast_concat_self hlength]
    · rename_i hne
      rw [h.last, isLast_concat_of_ne hlength hne]

/-- Setting the names one after the other gathers them. -/
theorem gathers_ofPairs (h : names.length = values.length) :
    Gathers names values (ofPairs (names.zip values)) := by
  induction names using List.reverseRecOn generalizing values with
  | nil => exact ⟨by simp [ofPairs], by simp [ofPairs], by simp [ofPairs, IsLast]⟩
  | append_singleton names name ih =>
    obtain rfl | ⟨values, value, rfl⟩ := List.eq_nil_or_concat values
    · simp at h
    · have hlength : names.length = values.length := by simpa using h
      rw [List.concat_eq_append, List.zip_append hlength]
      simpa [ofPairs] using (ih hlength).put hlength name value

/-- There is one way to gather. -/
theorem Gathers.unique (h : Gathers names values members) (h' : Gathers names values others) :
    members = others := by
  have hmem (member : String × α) : member ∈ members ↔ member ∈ others :=
    (h.last member.1 member.2).trans (h'.last member.1 member.2).symm
  have hordered {m : Members α} (hm : Gathers names values m) :
      m.Pairwise fun a b => names.idxOf a.1 < names.idxOf b.1 :=
    List.Pairwise.of_map Prod.fst (fun _ _ hlt => hlt) hm.ordered
  have hnodup {m : Members α} (hm : Gathers names values m) : m.Nodup :=
    (hordered hm).imp fun hlt heq => by simp [heq] at hlt
  have hperm : members.Perm others :=
    (List.perm_ext_iff_of_nodup (hnodup h) (hnodup h')).mpr hmem
  exact hperm.eq_of_pairwise (fun a b _ _ hab hba => absurd hab (Nat.lt_asymm hba)) (hordered h)
    (hordered h')

end Members

/-! ## Steps -/

namespace Step

variable {file : String} {out added : List Step} {statement : Statement}

/-- The step for a column: the name of the table and the column in lower case, and the trimmed type
with the specification that belongs to it. -/
structure AddsColumn (file table : String) (origin : Shape) (column : Column) (step : Step) :
    Prop where
  file : step.file = file
  table : step.table = Text.lower table
  origin : step.origin = origin
  effect : step.effect = .addField (Text.lower column.name) (Text.trim column.typeText)
    (FieldSpec.ofTypeText (Text.trim column.typeText))

/-- The steps for which a statement asks. A row whose values are more or fewer than its columns asks
for none. -/
inductive AddedBy (file : String) : Statement → List Step → Prop where
  | newTable {name : String} {columns : List Column} {steps : List Step}
      (each : List.Forall₂ (AddsColumn file name .tableDefinition) columns steps) :
      AddedBy file (.newTable name columns) steps
  | newColumn {table : String} {column : Column} {step : Step}
      (adds : AddsColumn file table .columnAddition column step) :
      AddedBy file (.newColumn table column) [step]
  | newIndex {name table : String} {columns : List String} :
      AddedBy file (.newIndex name table columns)
        [⟨Text.lower table, file, .indexDefinition, .addIndex (Text.lower name) columns⟩]
  | newRow {table : String} {columns : List String} {values : String} {row : Row}
      (counted : columns.length = (ValueList.parse values).length)
      (gathers : Members.Gathers columns (ValueList.parse values) row) :
      AddedBy file (.newRow table columns values)
        [⟨Text.lower table, file, .rowInsertion, .addRow row⟩]
  | uneven {table : String} {columns : List String} {values : String}
      (counted : columns.length ≠ (ValueList.parse values).length) :
      AddedBy file (.newRow table columns values) []

/-- Collects the steps of one more statement, one by one. -/
def push (file : String) (out : List Step) : Statement → List Step
  | .newTable name columns =>
    columns.foldl (fun out column => out ++ [ofColumn file name .tableDefinition column]) out
  | .newColumn table column => out ++ [ofColumn file table .columnAddition column]
  | .newIndex name table columns =>
    out ++ [⟨Text.lower table, file, .indexDefinition, .addIndex (Text.lower name) columns⟩]
  | .newRow table columns values =>
    let data := ValueList.parse values
    if data.length = columns.length then
      let row := Members.ofPairs (columns.zip data)
      out ++ [⟨Text.lower table, file, .rowInsertion, .addRow row⟩]
    else out

theorem push_eq_append (file : String) (out : List Step) (statement : Statement) :
    push file out statement = out ++ ofStatement file statement := by
  cases statement with
  | newTable name columns =>
    rw [push, List.foldl_append_eq_append, ofStatement, ← List.flatMap_def,
      ← List.map_eq_flatMap]
  | newColumn table column => rfl
  | newIndex name table columns => rfl
  | newRow table columns values =>
    simp only [push, ofStatement]
    split
    · rfl
    · exact (List.append_nil out).symm

theorem addsColumn_iff {table : String} {origin : Shape} {column : Column} {step : Step} :
    AddsColumn file table origin column step ↔ step = ofColumn file table origin column := by
  constructor
  · rintro ⟨hfile, htable, horigin, heffect⟩
    obtain ⟨_, _, _, _⟩ := step
    subst hfile htable horigin heffect
    rfl
  · rintro rfl
    exact ⟨rfl, rfl, rfl, rfl⟩

theorem addedBy_ofStatement (file : String) (statement : Statement) :
    AddedBy file statement (ofStatement file statement) := by
  cases statement with
  | newTable name columns =>
    refine .newTable (List.forall₂_map_right_iff.mpr (List.forall₂_same.mpr fun _ _ => ?_))
    exact addsColumn_iff.mpr rfl
  | newColumn table column => exact .newColumn (addsColumn_iff.mpr rfl)
  | newIndex name table columns => exact .newIndex
  | newRow table columns values =>
    simp only [ofStatement]
    split
    · rename_i hlength
      exact .newRow hlength.symm (Members.gathers_ofPairs hlength.symm)
    · rename_i hlength
      exact .uneven (Ne.symm hlength)

theorem AddedBy.eq_ofStatement (h : AddedBy file statement added) :
    added = ofStatement file statement := by
  cases h with
  | newTable each =>
    rw [ofStatement, ← List.forall₂_eq_eq_eq, List.forall₂_map_right_iff]
    exact each.flip.imp fun _ _ => addsColumn_iff.mp
  | newColumn adds => rw [addsColumn_iff.mp adds, ofStatement]
  | newIndex => rfl
  | newRow counted gathers =>
    rw [ofStatement, if_pos counted.symm, gathers.unique (Members.gathers_ofPairs counted)]
  | uneven counted => rw [ofStatement, if_neg (Ne.symm counted)]

theorem push_eq_iff {result : List Step} : push file out statement = result ↔
    ∃ added, AddedBy file statement added ∧ result = out ++ added := by
  rw [push_eq_append]
  constructor
  · rintro rfl
    exact ⟨_, addedBy_ofStatement file statement, rfl⟩
  · rintro ⟨added, hadded, rfl⟩
    rw [hadded.eq_ofStatement]

/-- The steps of a migration are what is collected from its statements. -/
theorem steps_eq_foldl (file text : String) :
    Migration.steps ⟨file, text⟩ = (Statement.ofText text).foldl (push file) [] := by
  have happend : push file = fun out statement => out ++ ofStatement file statement :=
    funext fun out => funext fun statement => push_eq_append file out statement
  rw [Migration.steps, List.flatMap_eq_foldl, happend]

/-- A statement leaves what was collected before as it is, in front, and adds exactly the steps for
which it asks. So the steps of a migration are collected, one statement after the other. -/
theorem push_appends (file : String) (out : List Step) (statement : Statement) :
    (∀ result, push file out statement = result ↔
      ∃ added, AddedBy file statement added ∧ result = out ++ added) ∧
    ∀ text, Migration.steps ⟨file, text⟩ = (Statement.ofText text).foldl (push file) [] :=
  ⟨fun _ => push_eq_iff, steps_eq_foldl file⟩

end Step

end SchemaChange
