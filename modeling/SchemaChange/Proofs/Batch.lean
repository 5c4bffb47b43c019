import SchemaChange.Folder
import SchemaChange.Proofs.NameOrder
import SchemaChange.Proofs.WellFormed

/-!
# What a batch accounts for

Compiling a folder tells of each migration file in it exactly once, in the order of the names: it
was compiled, or it could not be read. The steps are those of the files that could be read, and the
order in which the folder lists its entries does not matter.
-/

namespace SchemaChange

/-! ## Trees -/

namespace FileTree

/-- A tree in which the entries of each folder have different names. -/
inductive Proper : FileTree → Prop where
  | file {bytes : ByteArray} : Proper (.file bytes)
  | folder {entries : List (String × FileTree)}
      (distinct : (entries.map Prod.fst).Nodup)
      (inner : ∀ entry ∈ entries, Proper entry.2) :
      Proper (.folder entries)

theorem proper_empty : Proper (.folder []) :=
  .folder List.nodup_nil fun _ h => by cases h

/-- What stands under a name of a proper folder is proper. -/
theorem proper_of_get? {entries : List (String × FileTree)} {name : String} {next : FileTree}
    (inner : ∀ entry ∈ entries, entry.2.Proper) (h : Members.get? name entries = some next) :
    next.Proper := by
  obtain ⟨before, behind, rfl, -⟩ := List.lookup_eq_some_iff.mp h
  exact inner (name, next) (by simp)

/-- Trees that are put together from proper ones are proper. -/
theorem proper_put {path : List String} {new tree : FileTree} (hnew : new.Proper)
    (htree : tree.Proper) : (put path new tree).Proper := by
  induction path generalizing tree with
  | nil =>
    unfold put
    split
    · exact htree
    · exact hnew
    all_goals contradiction
  | cons name more ih =>
    cases htree with
    | file =>
      refine .folder (by simp) fun entry hentry => ?_
      obtain rfl := List.mem_singleton.mp hentry
      exact ih proper_empty
    | @folder entries distinct inner =>
      refine .folder (Members.nodup_put _ _ distinct) fun entry hentry => ?_
      obtain rfl | hentry := Members.eq_or_mem_of_mem_put hentry
      · apply ih
        cases hget : Members.get? name entries with
        | none => exact proper_empty
        | some next => exact proper_of_get? inner hget
      · exact inner entry hentry

theorem proper_of_follow {outer : List FileTree} {here found : FileTree} {path : List String}
    (h : follow outer here path = .ok found) (hhere : here.Proper)
    (houter : ∀ around ∈ outer, around.Proper) : found.Proper := by
  induction path generalizing outer here with
  | nil =>
    obtain rfl := Except.ok.inj h
    exact hhere
  | cons part more ih =>
    cases hhere with
    | file => cases h
    | @folder entries distinct inner =>
      have hfolder : Proper (.folder entries) := .folder distinct inner
      simp only [follow] at h
      split at h
      · exact ih h hfolder houter
      · split at h
        · cases outer with
          | nil => cases h
          | cons around outer =>
            rw [List.forall_mem_cons] at houter
            exact ih h houter.1 houter.2
        · split at h
          · cases h
          · rename_i next hnext
            exact ih h (proper_of_get? inner hnext) (List.forall_mem_cons.mpr ⟨hfolder, houter⟩)

theorem proper_of_at? {tree found : FileTree} {path : String} (htree : tree.Proper)
    (h : tree.at? path = .ok found) : found.Proper := by
  unfold at? at h
  split at h
  · cases h
  · exact proper_of_follow h htree fun _ hmem => by cases hmem

end FileTree

/-! ## Folders -/

namespace Migration

/-- A name with the extension `sql`: something stands before the last dot. -/
def IsSql (name : String) : Prop :=
  ∃ stem, stem ≠ [] ∧ name.toList = stem ++ ['.', 's', 'q', 'l']

theorem isFileName_iff {name : String} : isFileName name = true ↔ IsSql name := by
  have hsuffix : ".sql".toList = ['.', 's', 'q', 'l'] := rfl
  have hne : name ≠ ".sql" ↔ name.toList ≠ ".sql".toList := String.toList_inj.not.symm
  rw [isFileName, Bool.and_eq_true, List.isSuffixOf_iff_suffix, bne_iff_ne, hne, hsuffix, IsSql]
  constructor
  · rintro ⟨⟨stem, hstem⟩, hne⟩
    refine ⟨stem, ?_, hstem.symm⟩
    rintro rfl
    exact hne hstem.symm
  · rintro ⟨stem, hstem, heq⟩
    refine ⟨⟨stem, heq.symm⟩, ?_⟩
    rw [heq]
    exact fun h => hstem (List.append_left_eq_self.mp h)

theorem ofContent_eq_ok_iff {name path : String} {content : Except Obstacle ByteArray}
    {migration : Migration} :
    ofContent name path content = .ok migration ↔
      ∃ bytes, content = .ok bytes ∧ String.fromUTF8? bytes = some migration.text ∧
        migration.name = name := by
  cases content with
  | error obstacle => simp [ofContent]
  | ok bytes =>
    cases htext : String.fromUTF8? bytes with
    | none => simp [ofContent, htext]
    | some text =>
      obtain ⟨name', text'⟩ := migration
      simp [ofContent, htext, and_comm, eq_comm]

end Migration

namespace Folder

open SchemaChange.Text

variable {folder : Folder} {name : String}

/-- A migration file of the folder, with what comes of reading it. -/
def Holds (folder : Folder) (name : String) (content : Except Obstacle ByteArray) : Prop :=
  (name, Entry.regular content) ∈ folder.entries ∧ Migration.IsSql name

/-- A migration of the folder that can be read. -/
def Reads (folder : Folder) (migration : Migration) : Prop :=
  ∃ bytes, folder.Holds migration.name (.ok bytes) ∧ String.fromUTF8? bytes = some migration.text

/-- A migration file of the folder that cannot be read, or that is no valid text. -/
def Fails (folder : Folder) (name : String) : Prop :=
  ∃ content, folder.Holds name content ∧ ∀ bytes, content = .ok bytes → String.fromUTF8? bytes = none

/-- The names in a folder are all different. -/
def Distinct (folder : Folder) : Prop :=
  (folder.entries.map Prod.fst).Nodup

/-- An entry as a migration file, if it is one. -/
def held? : String × Entry → Option (String × Except Obstacle ByteArray)
  | (name, .regular content) => if Migration.isFileName name then some (name, content) else none
  | (_, .other) => none

theorem held?_eq_some_iff {entry : String × Entry} {content : Except Obstacle ByteArray} :
    held? entry = some (name, content) ↔ entry = (name, .regular content) ∧ Migration.IsSql name := by
  rw [← Migration.isFileName_iff]
  obtain ⟨name', entry⟩ := entry
  cases entry with
  | other => simp [held?]
  | regular content' =>
    simp only [held?, Option.ite_none_right_eq_some, Option.some.injEq, Prod.mk.injEq,
      Entry.regular.injEq]
    constructor
    · rintro ⟨hname, rfl, rfl⟩
      exact ⟨⟨rfl, rfl⟩, hname⟩
    · rintro ⟨⟨rfl, rfl⟩, hname⟩
      exact ⟨hname, rfl, rfl⟩

theorem migrationFiles_eq (folder : Folder) :
    folder.migrationFiles = inNameOrder Prod.fst (folder.entries.filterMap held?) := by
  refine congrArg (List.mergeSort · _) (List.filterMap_congr fun (name, entry) _ => ?_)
  cases entry <;> rfl

theorem mem_migrationFiles_iff {content : Except Obstacle ByteArray} :
    (name, content) ∈ folder.migrationFiles ↔ folder.Holds name content := by
  rw [migrationFiles_eq, (inNameOrder_perm _ _).mem_iff, List.mem_filterMap, Holds]
  constructor
  · rintro ⟨entry, hmem, hheld⟩
    obtain ⟨rfl, hname⟩ := held?_eq_some_iff.mp hheld
    exact ⟨hmem, hname⟩
  · rintro ⟨hmem, hname⟩
    exact ⟨_, hmem, held?_eq_some_iff.mpr ⟨rfl, hname⟩⟩

theorem pairwise_migrationFiles (h : folder.Distinct) :
    folder.migrationFiles.Pairwise fun a b => a.1 < b.1 := by
  rw [migrationFiles_eq]
  apply pairwise_lt_inNameOrder
  rw [Distinct, List.Nodup, List.pairwise_map] at h
  rw [List.Nodup, List.pairwise_map, List.pairwise_filterMap]
  refine h.imp fun {a b} hne x hx y hy => ?_
  obtain ⟨rfl, -⟩ := held?_eq_some_iff.mp hx
  obtain ⟨rfl, -⟩ := held?_eq_some_iff.mp hy
  exact hne

/-- The order in which a folder lists its entries does not matter. -/
theorem compile_eq_of_perm {path : String} {entries listed : List (String × Entry)}
    (h : (⟨path, entries⟩ : Folder).Distinct) (hperm : listed.Perm entries) :
    (⟨path, listed⟩ : Folder).compile = (⟨path, entries⟩ : Folder).compile := by
  have hfiles : (⟨path, listed⟩ : Folder).migrationFiles =
      (⟨path, entries⟩ : Folder).migrationFiles := by
    refine eq_of_perm_of_pairwise_lt ?_ (pairwise_migrationFiles ?_) (pairwise_migrationFiles h)
    · rw [migrationFiles_eq, migrationFiles_eq]
      exact ((inNameOrder_perm _ _).trans (hperm.filterMap held?)).trans
        (inNameOrder_perm _ _).symm
    · exact (hperm.map Prod.fst).nodup_iff.mpr h
  simp only [compile, load, hfiles, filePath]

theorem mem_load_iff {result : Except LoadError Migration} :
    (name, result) ∈ folder.load ↔
      ∃ content, folder.Holds name content ∧
        Migration.ofContent name (folder.filePath name) content = result := by
  simp only [load, List.mem_map, Prod.exists, Prod.mk.injEq, mem_migrationFiles_iff]
  constructor
  · rintro ⟨name, content, hholds, rfl, hresult⟩
    exact ⟨content, hholds, hresult⟩
  · rintro ⟨content, hholds, hresult⟩
    exact ⟨name, content, hholds, rfl, hresult⟩

theorem exists_error_mem_load_iff : (∃ error, (name, .error error) ∈ folder.load) ↔
    folder.Fails name := by
  simp only [mem_load_iff, Fails]
  constructor
  · rintro ⟨error, content, hholds, hresult⟩
    refine ⟨content, hholds, fun bytes hbytes => Option.eq_none_iff_forall_ne_some.mpr ?_⟩
    intro text htext
    have hok : Migration.ofContent name (folder.filePath name) content = .ok ⟨name, text⟩ :=
      Migration.ofContent_eq_ok_iff.mpr ⟨bytes, hbytes, htext, rfl⟩
    cases hresult.symm.trans hok
  · rintro ⟨content, hholds, hfails⟩
    cases hresult : Migration.ofContent name (folder.filePath name) content with
    | error error => exact ⟨error, content, hholds, hresult⟩
    | ok migration =>
      obtain ⟨bytes, hbytes, htext, -⟩ := Migration.ofContent_eq_ok_iff.mp hresult
      rw [hfails bytes hbytes] at htext
      cases htext

theorem ok_mem_load_iff {migration : Migration} :
    (name, .ok migration) ∈ folder.load ↔ migration.name = name ∧ folder.Reads migration := by
  simp only [mem_load_iff, Migration.ofContent_eq_ok_iff, Reads]
  constructor
  · rintro ⟨_, hholds, bytes, rfl, htext, rfl⟩
    exact ⟨rfl, bytes, hholds, htext⟩
  · rintro ⟨rfl, bytes, hholds, htext⟩
    exact ⟨_, hholds, bytes, rfl, htext, rfl⟩

/-- The migrations of the folder that can be read, in the order of their names. -/
def readable (folder : Folder) : List Migration :=
  folder.load.filterMap fun (_, result) => result.toOption

theorem mem_readable_iff {migration : Migration} :
    migration ∈ folder.readable ↔ folder.Reads migration := by
  simp only [readable, List.mem_filterMap, Prod.exists]
  constructor
  · rintro ⟨name, result, hmem, hresult⟩
    cases result with
    | error error => cases hresult
    | ok other =>
      obtain rfl := Option.some.inj hresult
      exact (ok_mem_load_iff.mp hmem).2
  · intro hreads
    exact ⟨migration.name, .ok migration, ok_mem_load_iff.mpr ⟨rfl, hreads⟩, rfl⟩

theorem pairwise_load (h : folder.Distinct) : folder.load.Pairwise fun a b => a.1 < b.1 :=
  List.pairwise_map.mpr (pairwise_migrationFiles h)

/-- What is picked from the loaded files ascends as their names do. -/
theorem pairwise_filterMap_load {α : Type} {named : α → String}
    {pick : String × Except LoadError Migration → Option α} (h : folder.Distinct)
    (hname : ∀ loaded ∈ folder.load, ∀ x ∈ pick loaded, named x = loaded.1) :
    (folder.load.filterMap pick).Pairwise fun a b => named a < named b := by
  refine List.pairwise_filterMap.mpr ((pairwise_load h).imp_of_mem ?_)
  intro loaded loaded' hmem hmem' hlt x hx y hy
  rw [hname loaded hmem x hx, hname loaded' hmem' y hy]
  exact hlt

theorem pairwise_readable (h : folder.Distinct) :
    folder.readable.Pairwise fun a b => a.name < b.name := by
  refine pairwise_filterMap_load h fun (name, result) hmem migration hmigration => ?_
  cases result with
  | error error => cases hmigration
  | ok other =>
    obtain rfl := Option.some.inj hmigration
    exact (ok_mem_load_iff.mp hmem).1

theorem steps_compile (folder : Folder) :
    folder.compile.steps = folder.readable.flatMap Migration.steps := by
  simp only [compile, readable]
  induction folder.load with
  | nil => rfl
  | cons loaded more ih =>
    obtain ⟨name, result⟩ := loaded
    cases result with
    | error error => simpa [Except.toOption] using ih
    | ok migration => simp [ih, Except.toOption]

/-- The files that were compiled and those that could not be read are the files of the folder. -/
theorem files_append_failures_perm (folder : Folder) :
    (folder.compile.files ++ folder.compile.failures.map Prod.fst).Perm
      (folder.load.map Prod.fst) := by
  simp only [compile]
  induction folder.load with
  | nil => exact List.Perm.refl _
  | cons loaded more ih =>
    obtain ⟨name, result⟩ := loaded
    cases result with
    | error error => exact List.perm_middle.trans (ih.cons name)
    | ok migration => exact ih.cons name

theorem mem_files_iff : name ∈ folder.compile.files ↔ ∃ text, folder.Reads ⟨name, text⟩ := by
  simp only [compile, List.mem_filterMap, Prod.exists]
  constructor
  · rintro ⟨name', result, hmem, hresult⟩
    cases result with
    | error error => cases hresult
    | ok migration =>
      obtain rfl := Option.some.inj hresult
      obtain ⟨rfl, hreads⟩ := ok_mem_load_iff.mp hmem
      exact ⟨migration.text, hreads⟩
  · rintro ⟨text, hreads⟩
    exact ⟨name, _, ok_mem_load_iff.mpr ⟨rfl, hreads⟩, rfl⟩

theorem mem_failures_iff : name ∈ folder.compile.failures.map Prod.fst ↔ folder.Fails name := by
  rw [← exists_error_mem_load_iff]
  simp only [compile, List.mem_map, List.mem_filterMap, Prod.exists]
  constructor
  · rintro ⟨_, error, ⟨name', result, hmem, hresult⟩, rfl⟩
    cases result with
    | ok migration => cases hresult
    | error error' =>
      obtain ⟨rfl, rfl⟩ := Prod.mk.inj (Option.some.inj hresult)
      exact ⟨_, hmem⟩
  · rintro ⟨error, hmem⟩
    exact ⟨name, error, ⟨name, _, hmem, rfl⟩, rfl⟩

theorem pairwise_files (h : folder.Distinct) :
    folder.compile.files.Pairwise fun a b => bytes a < bytes b := by
  refine List.Pairwise.imp bytes_lt_iff.mpr (pairwise_filterMap_load h ?_)
  intro (name, result) _ file hfile
  cases result with
  | error error => cases hfile
  | ok migration => exact (Option.some.inj hfile).symm

theorem pairwise_failures (h : folder.Distinct) :
    (folder.compile.failures.map Prod.fst).Pairwise fun a b => bytes a < bytes b := by
  refine List.pairwise_map.mpr (List.Pairwise.imp bytes_lt_iff.mpr (pairwise_filterMap_load h ?_))
  intro (name, result) _ failure hfailure
  cases result with
  | ok migration => cases hfailure
  | error error => exact congrArg Prod.fst (Option.some.inj hfailure).symm

/-- Migrations of different names that are all put in order. -/
theorem allSteps_of_perm {sources : List Migration} (h : folder.Distinct)
    (hperm : sources.Perm folder.readable) : Migration.allSteps sources = folder.compile.steps := by
  have hnames : (folder.readable.map Migration.name).Nodup := by
    rw [List.Nodup, List.pairwise_map]
    exact (pairwise_readable h).imp fun hlt => Std.ne_of_lt hlt
  have horder : Migration.inOrder sources = folder.readable := by
    refine eq_of_perm_of_pairwise_lt ((inNameOrder_perm _ _).trans hperm) ?_ (pairwise_readable h)
    exact pairwise_lt_inNameOrder ((hperm.map Migration.name).nodup_iff.mpr hnames)
  rw [Migration.allSteps, horder, steps_compile]

/-- What a batch tells of a folder. Each migration file is in one of its two lists, once; both
ascend by the bytes of the names. The steps are those of the files that could be read, in whatever
order these are handed over. -/
structure Accounts (folder : Folder) (batch : Batch) : Prop where
  once : (batch.files ++ batch.failures.map Prod.fst).Nodup
  covered : ∀ name, name ∈ batch.files ++ batch.failures.map Prod.fst ↔
    ∃ content, folder.Holds name content
  files : ∀ name, name ∈ batch.files ↔ ∃ text, folder.Reads ⟨name, text⟩
  failures : ∀ name, name ∈ batch.failures.map Prod.fst ↔ folder.Fails name
  filesAscend : batch.files.Pairwise fun a b => bytes a < bytes b
  failuresAscend : (batch.failures.map Prod.fst).Pairwise fun a b => bytes a < bytes b
  steps : ∃ sources : List Migration, sources.Nodup ∧ (∀ m, m ∈ sources ↔ folder.Reads m) ∧
    ∀ handed, handed.Perm sources → Migration.allSteps handed = batch.steps
  stamped : ∀ step ∈ batch.steps, step.file ∈ batch.files
  isEmpty : batch.isEmpty = true ↔ ∀ name content, ¬ folder.Holds name content
  allRead : batch.allRead = true ↔ batch.failures = []

theorem mem_map_fst_load_iff :
    name ∈ folder.load.map Prod.fst ↔ ∃ content, folder.Holds name content := by
  rw [load, List.map_map, List.mem_map, Prod.exists]
  constructor
  · rintro ⟨_, content, hmem, rfl⟩
    exact ⟨content, mem_migrationFiles_iff.mp hmem⟩
  · rintro ⟨content, hholds⟩
    exact ⟨name, content, mem_migrationFiles_iff.mpr hholds, rfl⟩

theorem file_mem_of_mem_steps {step : Step} (h : step ∈ folder.compile.steps) :
    step.file ∈ folder.compile.files := by
  rw [steps_compile, List.mem_flatMap] at h
  obtain ⟨migration, hmem, hstep⟩ := h
  rw [(Migration.wellFormed_of_mem hstep).file]
  exact mem_files_iff.mpr ⟨migration.text, mem_readable_iff.mp hmem⟩

theorem accounts_compile (h : folder.Distinct) : Accounts folder folder.compile := by
  have hperm := files_append_failures_perm folder
  have hcovered (name : String) :
      name ∈ folder.compile.files ++ folder.compile.failures.map Prod.fst ↔
        ∃ content, folder.Holds name content :=
    hperm.mem_iff.trans mem_map_fst_load_iff
  exact {
    once := by
      rw [hperm.nodup_iff, List.Nodup, List.pairwise_map]
      exact (pairwise_load h).imp fun hlt => Std.ne_of_lt hlt
    covered := hcovered
    files := fun _ => mem_files_iff
    failures := fun _ => mem_failures_iff
    filesAscend := pairwise_files h
    failuresAscend := pairwise_failures h
    steps := ⟨folder.readable, (pairwise_readable h).imp fun hlt heq =>
        Std.ne_of_lt hlt (congrArg Migration.name heq), fun _ => mem_readable_iff,
      fun _ hhanded => allSteps_of_perm h hhanded⟩
    stamped := fun _ => file_mem_of_mem_steps
    isEmpty := by
      have hnone : folder.compile.isEmpty = true ↔
          folder.compile.files ++ folder.compile.failures.map Prod.fst = [] := by
        simp [Batch.isEmpty]
      rw [hnone, List.eq_nil_iff_forall_not_mem]
      simp only [hcovered, not_exists]
    allRead := List.isEmpty_iff }

/-- The folder when some of its files cannot be read, with what stands in the way of each. -/
def blocking (blocked : String → Option Obstacle) (folder : Folder) : Folder :=
  { folder with
    entries := folder.entries.map fun (name, entry) =>
      match entry, blocked name with
      | .regular _, some obstacle => (name, .regular (.error obstacle))
      | entry, _ => (name, entry) }

end Folder

/-! ## Folders of a tree -/

namespace FileTree

/-- Compiles the folder at a path of a tree some of whose files cannot be read. -/
def compileAt (tree : FileTree) (blocked : String → Option Obstacle) (path : String) :
    Except LoadError Batch :=
  (tree.folderAt path).map fun folder => (folder.blocking blocked).compile

/-- An entry of a listed folder, with what may stand in the way of reading it. -/
def entry (blocked : Option Obstacle) : FileTree → Entry
  | .file bytes => .regular (blocked.elim (.ok bytes) .error)
  | .folder _ => .other

/-- The folder that comes of a tree's folder. -/
def opened (path : String) (blocked : String → Option Obstacle)
    (entries : List (String × FileTree)) : Folder :=
  ⟨path, entries.map fun (name, inner) => (name, inner.entry (blocked name))⟩

variable {tree : FileTree} {path : String} {blocked : String → Option Obstacle}
  {entries : List (String × FileTree)}

theorem blocking_folderAt (h : tree.at? path = .ok (.folder entries)) :
    (tree.folderAt path).map (Folder.blocking blocked) = .ok (opened path blocked entries) := by
  simp only [folderAt, h, Except.map, Folder.blocking, opened, List.map_map]
  refine congrArg (fun listed => Except.ok (Folder.mk path listed)) ?_
  refine List.map_congr_left fun (name, inner) _ => ?_
  cases inner with
  | folder _ => rfl
  | file bytes => cases hname : blocked name <;> simp [entry, hname]

theorem compileAt_eq_ok (h : tree.at? path = .ok (.folder entries)) :
    tree.compileAt blocked path = .ok (opened path blocked entries).compile := by
  have hfolder : (tree.folderAt path).map (Folder.blocking blocked) =
      .ok (opened path blocked entries) :=
    blocking_folderAt h
  rw [folderAt, h] at hfolder
  rw [compileAt, folderAt, h]
  exact congrArg (fun folder => Except.ok folder.compile) (Except.ok.inj hfolder)

theorem compileAt_eq_error (blocked : String → Option Obstacle)
    (h : ∀ entries, tree.at? path ≠ .ok (.folder entries)) :
    ∃ obstacle, tree.compileAt blocked path = .error (.folder path obstacle) := by
  rw [compileAt, folderAt]
  split
  · exact ⟨_, rfl⟩
  · exact ⟨_, rfl⟩
  · exact absurd ‹_› (h _)

theorem distinct_opened (path : String) (blocked : String → Option Obstacle)
    (h : (entries.map Prod.fst).Nodup) :
    (opened path blocked entries).Distinct := by
  rw [Folder.Distinct, opened, List.map_map]
  exact h

/-- Compiling a folder accounts for each of its migration files, and does not depend on the order in
which the folder lists its entries. It fails only where there is no folder. -/
theorem accounts_compileAt (htree : tree.Proper) (blocked : String → Option Obstacle)
    (path : String) :
    (∀ error, tree.compileAt blocked path = .error error →
      (∀ entries, tree.at? path ≠ .ok (.folder entries)) ∧
        ∃ obstacle, error = .folder path obstacle) ∧
    ((∀ entries, tree.at? path ≠ .ok (.folder entries)) →
      ∃ error, tree.compileAt blocked path = .error error) ∧
    ∀ entries, tree.at? path = .ok (.folder entries) →
      ∃ batch, tree.compileAt blocked path = .ok batch ∧
        (opened path blocked entries).Accounts batch ∧
        ∀ other listed, FileTree.at? other path = .ok (.folder listed) → listed.Perm entries →
          other.compileAt blocked path = .ok batch := by
  refine ⟨fun error herror => ?_, fun hnone => ?_, fun entries hentries => ?_⟩
  · have hnone : ∀ entries, tree.at? path ≠ .ok (.folder entries) := fun entries hentries => by
      cases herror.symm.trans (compileAt_eq_ok hentries)
    obtain ⟨obstacle, hobstacle⟩ := compileAt_eq_error blocked hnone
    exact ⟨hnone, obstacle, Except.error.inj (herror.symm.trans hobstacle)⟩
  · obtain ⟨obstacle, hobstacle⟩ := compileAt_eq_error blocked hnone
    exact ⟨_, hobstacle⟩
  · cases proper_of_at? htree hentries with
    | folder distinct inner =>
      have hdistinct := distinct_opened path blocked distinct
      refine ⟨_, compileAt_eq_ok hentries, Folder.accounts_compile hdistinct, ?_⟩
      intro other listed hlisted hperm
      rw [compileAt_eq_ok hlisted]
      exact congrArg Except.ok (Folder.compile_eq_of_perm hdistinct (hperm.map _))

/-- A folder with a migration, a file that is no text and a file of another kind. -/
def mixedEntries : List (String × FileTree) :=
  [("b.sql", .file "CREATE TABLE t (x INT);".toUTF8), ("a.sql", .file ⟨#[0xFF]⟩),
    ("notes.txt", .file "".toUTF8)]

theorem proper_mixedEntries : Proper (.folder mixedEntries) := by
  have hput : put ["notes.txt"] (.file "".toUTF8) (put ["a.sql"] (.file ⟨#[0xFF]⟩)
      (put ["b.sql"] (.file "CREATE TABLE t (x INT);".toUTF8) (.folder []))) =
        .folder mixedEntries := rfl
  rw [← hput]
  exact proper_put .file (proper_put .file (proper_put .file proper_empty))

theorem reads_mixedEntries : (opened "." (fun _ => none) mixedEntries).Reads
    ⟨"b.sql", "CREATE TABLE t (x INT);"⟩ :=
  ⟨"CREATE TABLE t (x INT);".toUTF8,
    ⟨by simp [opened, entry, mixedEntries], ['b'], by decide, by decide⟩, by decide⟩

theorem fails_mixedEntries : (opened "." (fun _ => none) mixedEntries).Fails "a.sql" :=
  ⟨.ok ⟨#[0xFF]⟩, ⟨by simp [opened, entry, mixedEntries], ['a'], by decide, by decide⟩,
    fun bytes hbytes => by cases hbytes; decide⟩

theorem accounts_compileAt_mixedEntries :
    Proper (.folder mixedEntries) ∧
    ∃ batch, compileAt (.folder mixedEntries) (fun _ => none) "." = .ok batch ∧
      "b.sql" ∈ batch.files ∧ "a.sql" ∈ batch.failures.map Prod.fst ∧
      compileAt (.folder mixedEntries.reverse) (fun _ => none) "." = .ok batch := by
  refine ⟨proper_mixedEntries, ?_⟩
  obtain ⟨batch, hbatch, haccounts, hany⟩ :=
    (accounts_compileAt proper_mixedEntries (fun _ => none) ".").2.2 mixedEntries rfl
  exact ⟨batch, hbatch, (haccounts.files _).mpr ⟨_, reads_mixedEntries⟩,
    (haccounts.failures _).mpr fails_mixedEntries, hany _ _ rfl (List.reverse_perm _)⟩

end FileTree

end SchemaChange
