import SchemaChange.Proofs.Batch
import SchemaChange.Proofs.OneLine

/-!
# Files that cannot be read

A migration file that cannot be read makes a run fail, and that is all it does: what is printed of
the other files is what would be printed if the file were not there.
-/

namespace SchemaChange

/-! ## Trees without such files -/

namespace FileTree

variable {blocked : String → Option Obstacle} {name part path : String} {tree : FileTree}
  {entries inner : List (String × FileTree)}

/-- Whether something in a folder is a migration file that cannot be read as text. -/
def isUnreadable (blocked : String → Option Obstacle) (name : String) : FileTree → Bool
  | .file bytes =>
    Migration.isFileName name && ((blocked name).isSome || (String.fromUTF8? bytes).isNone)
  | .folder _ => false

mutual

/-- The tree when the migration files that cannot be read are deleted from all its folders. -/
def withoutUnreadable (blocked : String → Option Obstacle) : FileTree → FileTree
  | .file bytes => .file bytes
  | .folder entries => .folder (keepReadable blocked entries)

/-- What is left of the entries of a folder then. -/
def keepReadable (blocked : String → Option Obstacle) :
    List (String × FileTree) → List (String × FileTree)
  | [] => []
  | (name, inner) :: rest =>
    if isUnreadable blocked name inner then keepReadable blocked rest
    else (name, withoutUnreadable blocked inner) :: keepReadable blocked rest

end

/-- Deleting files does not touch the folders. -/
theorem get?_keepReadable (h : Members.get? name entries = some (.folder inner)) :
    Members.get? name (keepReadable blocked entries) =
      some (.folder (keepReadable blocked inner)) := by
  induction entries with
  | nil => cases h
  | cons entry rest ih =>
    obtain ⟨other, found⟩ := entry
    rw [Members.get?, List.lookup_cons] at h
    rw [keepReadable]
    by_cases hname : name = other
    · subst hname
      rw [beq_self_eq_true] at h
      obtain rfl := Option.some.inj h
      rw [isUnreadable, if_neg Bool.false_ne_true, Members.get?, List.lookup_cons,
        beq_self_eq_true, withoutUnreadable]
    · rw [beq_false_of_ne hname] at h
      split
      · exact ih h
      · rw [Members.get?, List.lookup_cons, beq_false_of_ne hname]
        exact ih h

/-- No path leads through a file. -/
theorem follow_file_ne {outer : List FileTree} {bytes : ByteArray} {parts : List String} :
    follow outer (.file bytes) parts ≠ .ok (.folder entries) := by
  cases parts with
  | nil =>
    intro h
    cases h
  | cons part more =>
    intro h
    cases h

/-- A path to a folder still leads there. -/
theorem follow_withoutUnreadable (outer : List FileTree) {here : FileTree} {parts : List String}
    (h : follow outer here parts = .ok (.folder entries)) :
    follow (outer.map (withoutUnreadable blocked)) (withoutUnreadable blocked here) parts =
      .ok (.folder (keepReadable blocked entries)) := by
  induction parts generalizing outer here with
  | nil =>
    obtain rfl := Except.ok.inj h
    rw [withoutUnreadable]
    rfl
  | cons part more ih =>
    cases here with
    | file bytes => exact absurd h follow_file_ne
    | folder listed =>
      simp only [withoutUnreadable, follow] at h ⊢
      split at h
      · rename_i hstay
        rw [if_pos hstay]
        have := ih outer h
        rwa [withoutUnreadable] at this
      · rename_i hstay
        rw [if_neg hstay]
        split at h
        · rename_i hup
          rw [if_pos hup]
          cases outer with
          | nil => cases h
          | cons around outer => exact ih outer h
        · rename_i hup
          rw [if_neg hup]
          cases hget : Members.get? part listed with
          | none =>
            rw [hget] at h
            cases h
          | some next =>
            rw [hget] at h
            cases next with
            | file bytes => exact absurd h follow_file_ne
            | folder inner =>
              rw [get?_keepReadable hget]
              have := ih _ h
              rwa [List.map_cons, withoutUnreadable, withoutUnreadable] at this

theorem at?_withoutUnreadable (h : tree.at? path = .ok (.folder entries)) :
    (withoutUnreadable blocked tree).at? path = .ok (.folder (keepReadable blocked entries)) := by
  unfold at? at h ⊢
  split at h
  · cases h
  · rename_i habsolute
    rw [if_neg habsolute]
    exact follow_withoutUnreadable [] h

end FileTree

/-! ## Folders without such files -/

namespace FileTree

variable {tree : FileTree} {path : String} {blocked : String → Option Obstacle}
  {entries : List (String × FileTree)}

/-- The folder at a path of a tree some of whose files cannot be read. -/
def openedAt (tree : FileTree) (blocked : String → Option Obstacle) (path : String) :
    Except LoadError Folder :=
  (tree.folderAt path).map (Folder.blocking blocked)

theorem openedAt_eq_ok (h : tree.at? path = .ok (.folder entries)) :
    tree.openedAt blocked path = .ok (opened path blocked entries) :=
  blocking_folderAt h

theorem compileAt_eq (tree : FileTree) (blocked : String → Option Obstacle) (path : String) :
    tree.compileAt blocked path = (tree.openedAt blocked path).map Folder.compile := by
  rw [compileAt, openedAt]
  cases tree.folderAt path with
  | error error => rfl
  | ok folder => rfl

/-- Where there is no folder, none is opened. -/
theorem openedAt_eq_error (blocked : String → Option Obstacle)
    (h : ∀ entries, tree.at? path ≠ .ok (.folder entries)) :
    ∃ error, tree.openedAt blocked path = .error error := by
  obtain ⟨obstacle, hcompile⟩ := compileAt_eq_error blocked h
  rw [compileAt_eq] at hcompile
  cases hopened : tree.openedAt blocked path with
  | error error => exact ⟨error, rfl⟩
  | ok folder =>
    rw [hopened] at hcompile
    cases hcompile

end FileTree

namespace Folder

open FileTree (opened keepReadable isUnreadable)

variable {folder : Folder} {path : String} {blocked : String → Option Obstacle}
  {entries : List (String × FileTree)}

/-- The text in the content of a file. -/
def text? : Except Obstacle ByteArray → Option String
  | .error _ => none
  | .ok bytes => String.fromUTF8? bytes

theorem toOption_ofContent (name path : String) (content : Except Obstacle ByteArray) :
    (Migration.ofContent name path content).toOption = (text? content).map (Migration.mk name) := by
  cases content with
  | error obstacle => rfl
  | ok bytes =>
    rw [Migration.ofContent, text?]
    cases String.fromUTF8? bytes with
    | none => rfl
    | some text => rfl

theorem readable_eq (folder : Folder) :
    folder.readable =
      folder.migrationFiles.filterMap fun file => (text? file.2).map (Migration.mk file.1) := by
  rw [readable, load, List.filterMap_map]
  refine List.filterMap_congr fun file _ => ?_
  exact toOption_ofContent _ _ _

theorem entry_withoutUnreadable (obstacle : Option Obstacle) (inner : FileTree) :
    (inner.withoutUnreadable blocked).entry obstacle = inner.entry obstacle := by
  cases inner with
  | folder entries =>
    rw [FileTree.withoutUnreadable]
    rfl
  | file bytes => rw [FileTree.withoutUnreadable]

/-- The entries that are deleted are the migration files without a text. -/
theorem isUnreadable_eq (blocked : String → Option Obstacle) (name : String) (inner : FileTree) :
    isUnreadable blocked name inner =
      (held? (name, inner.entry (blocked name))).any fun file => (text? file.2).isNone := by
  cases inner with
  | folder entries => rfl
  | file bytes =>
    rw [isUnreadable, FileTree.entry, held?]
    cases Migration.isFileName name with
    | false => rfl
    | true =>
      cases blocked name with
      | none => rfl
      | some obstacle => rfl

/-- The files that are left are those that can be read. -/
theorem filterMap_held?_keepReadable (path : String) (blocked : String → Option Obstacle)
    (entries : List (String × FileTree)) :
    (opened path blocked (keepReadable blocked entries)).entries.filterMap held? =
      ((opened path blocked entries).entries.filterMap held?).filter
        fun file => (text? file.2).isSome := by
  simp only [opened, List.filterMap_map]
  induction entries with
  | nil => rfl
  | cons entry rest ih =>
    obtain ⟨name, inner⟩ := entry
    rw [keepReadable, isUnreadable_eq, List.filterMap_cons]
    cases hheld : held? (name, inner.entry (blocked name)) with
    | none => simpa [hheld, entry_withoutUnreadable] using ih
    | some file =>
      cases htext : text? file.2 with
      | none => simpa [hheld, htext] using ih
      | some text => simpa [hheld, htext, entry_withoutUnreadable] using ih

theorem migrationFiles_keepReadable :
    (opened path blocked (keepReadable blocked entries)).migrationFiles =
      (opened path blocked entries).migrationFiles.filter fun file => (text? file.2).isSome := by
  rw [migrationFiles_eq, migrationFiles_eq, filter_inNameOrder, filterMap_held?_keepReadable]

/-- The migrations that can be read do not depend on the files that cannot. -/
theorem readable_keepReadable :
    (opened path blocked (keepReadable blocked entries)).readable =
      (opened path blocked entries).readable := by
  rw [readable_eq, readable_eq, migrationFiles_keepReadable, List.filterMap_filter]
  refine List.filterMap_congr fun file _ => ?_
  cases text? file.2 with
  | none => rfl
  | some text => rfl

theorem failures_eq_nil_iff : folder.compile.failures = [] ↔ ∀ name, ¬ folder.Fails name := by
  simp only [← mem_failures_iff, ← List.eq_nil_iff_forall_not_mem, List.map_eq_nil_iff]

theorem not_fails_keepReadable (name : String) :
    ¬ (opened path blocked (keepReadable blocked entries)).Fails name := by
  rintro ⟨content, hholds, hfails⟩
  rw [← mem_migrationFiles_iff, migrationFiles_keepReadable, List.mem_filter] at hholds
  obtain ⟨text, htext⟩ := Option.isSome_iff_exists.mp hholds.2
  cases content with
  | error obstacle => cases htext
  | ok bytes =>
    rw [text?, hfails bytes rfl] at htext
    cases htext

end Folder

/-! ## Runs -/

namespace CommandLine

open FileTree (opened keepReadable withoutUnreadable)

variable {folder : Folder} {format : Format} {batch cleaned : Batch} {tree : FileTree}
  {blocked : String → Option Obstacle} {entries : List (String × FileTree)}

/-- The end of a run on a tree some of whose files cannot be read. -/
def runIn (tree : FileTree) (blocked : String → Option Obstacle) (environment : Environment)
    (arguments : List String) : Ending :=
  run (tree.openedAt blocked) environment arguments

/-- Only a summary tells of anything but the steps. -/
theorem text_eq_of_steps (hformat : format ≠ .summary) (hsteps : cleaned.steps = batch.steps) :
    format.text cleaned = format.text batch := by
  cases format with
  | json => simp only [Format.text, jsonText, hsteps]
  | plan => simp only [Format.text, planText, hsteps]
  | summary => exact absurd rfl hformat

theorem status_report (format : Format) (folder : Folder) :
    (report format (.ok folder)).status = if folder.compile.failures = [] then 0 else 1 := by
  simp only [report, Batch.isEmpty, Batch.allRead]
  by_cases h : folder.compile.failures = []
  · simp only [h]
    split
    · rfl
    · rfl
  · simp [h]

/-- As soon as one file was read, something is printed. -/
theorem output_report (format : Format) (h : folder.readable ≠ []) :
    (report format (.ok folder)).output = format.text folder.compile := by
  obtain ⟨migration, more, hreadable⟩ := List.exists_cons_of_ne_nil h
  have hreads : folder.Reads migration := by
    rw [← Folder.mem_readable_iff, hreadable]
    exact List.mem_cons_self
  have hfile : migration.name ∈ folder.compile.files :=
    Folder.mem_files_iff.mpr ⟨migration.text, hreads⟩
  have hfiles : folder.compile.files ≠ [] := List.ne_nil_of_mem hfile
  simp [report, Batch.isEmpty, hfiles]

/-- Where nothing is printed, no step is there either. -/
theorem output_report_plan (folder : Folder) :
    (report .plan (.ok folder)).output = planText folder.compile := by
  by_cases h : folder.readable = []
  · have hsteps : folder.compile.steps = [] := by
      rw [Folder.steps_compile, h]
      rfl
    have htext : planText folder.compile = "" := by
      rw [planText, hsteps]
      rfl
    simp only [report]
    split
    · exact htext.symm
    · rfl
  · exact output_report .plan h

theorem status_report_eq_zero_iff :
    (report format (.ok folder)).status = 0 ↔ ∀ name, ¬ folder.Fails name := by
  rw [status_report, ← Folder.failures_eq_nil_iff]
  by_cases h : folder.compile.failures = []
  · simp [h]
  · simp [h]

/-- A folder in which the same files can be read, and no others stand, makes a run succeed and print
the same. -/
theorem report_of_readable_eq {other : Folder} (hformat : format ≠ .summary)
    (hne : folder.readable ≠ []) (hreadable : other.readable = folder.readable)
    (hnone : ∀ name, ¬ other.Fails name) :
    report format (.ok other) = ⟨0, (report format (.ok folder)).output⟩ := by
  have hstatus : (report format (.ok other)).status = 0 := status_report_eq_zero_iff.mpr hnone
  have houtput : (report format (.ok other)).output = (report format (.ok folder)).output := by
    rw [output_report format hne, output_report format (hreadable ▸ hne)]
    apply text_eq_of_steps hformat
    rw [Folder.steps_compile, Folder.steps_compile, hreadable]
  rw [← hstatus, ← houtput]

/-- How a run on a tree ends, beside one on the tree without the migration files that cannot be
read. The status tells whether each file could be read, and the printed text does not depend on
those that could not. A plan has one line for each step. -/
structure Ending.Reports (tree : FileTree) (blocked : String → Option Obstacle) (options : Options)
    (ending cleaned : Ending) : Prop where
  status : ending.status = 0 ∨ ending.status = 1
  succeeds : ending.status = 0 ↔ ∃ entries, tree.at? options.folder = .ok (.folder entries) ∧
    ∀ name, ¬ (opened options.folder blocked entries).Fails name
  undisturbed : options.format ≠ .summary →
    ∀ entries migration, tree.at? options.folder = .ok (.folder entries) →
      (opened options.folder blocked entries).Reads migration → cleaned = ⟨0, ending.output⟩
  framed : options.format = .plan → ∀ batch, tree.compileAt blocked options.folder = .ok batch →
    ending.output.toList.splitOn '\n' =
      batch.steps.map (fun step => step.requestText.toList) ++ [[]]

theorem reports_of_folder {options : Options}
    (hentries : tree.at? options.folder = .ok (.folder entries)) :
    Ending.Reports tree blocked options
      (report options.format (tree.openedAt blocked options.folder))
      (report options.format
        ((tree.withoutUnreadable blocked).openedAt blocked options.folder)) := by
  have hunique {other : List (String × FileTree)}
      (hother : tree.at? options.folder = .ok (.folder other)) : other = entries := by
    rw [hentries] at hother
    injection hother with hother
    injection hother with hother
    exact hother.symm
  rw [FileTree.openedAt_eq_ok hentries,
    FileTree.openedAt_eq_ok (FileTree.at?_withoutUnreadable hentries)]
  refine ⟨?_, ?_, ?_, ?_⟩
  · rw [status_report]
    split
    · exact Or.inl rfl
    · exact Or.inr rfl
  · rw [status_report_eq_zero_iff]
    constructor
    · intro hnone
      exact ⟨entries, hentries, hnone⟩
    · rintro ⟨other, hother, hnone⟩
      rwa [hunique hother] at hnone
  · intro hformat other migration hother hreads
    rw [hunique hother, ← Folder.mem_readable_iff] at hreads
    exact report_of_readable_eq hformat (List.ne_nil_of_mem hreads) Folder.readable_keepReadable
      Folder.not_fails_keepReadable
  · intro hformat batch hbatch
    rw [FileTree.compileAt_eq_ok hentries] at hbatch
    obtain rfl := Except.ok.inj hbatch
    rw [hformat, output_report_plan, splitOn_planText]

theorem reports_of_no_folder {options : Options}
    (hnone : ∀ entries, tree.at? options.folder ≠ .ok (.folder entries)) (cleaned : Ending) :
    Ending.Reports tree blocked options
      (report options.format (tree.openedAt blocked options.folder)) cleaned := by
  obtain ⟨error, herror⟩ := FileTree.openedAt_eq_error blocked hnone
  rw [herror]
  refine ⟨Or.inr rfl, ?_, ?_, ?_⟩
  · constructor
    · intro hzero
      cases hzero
    · rintro ⟨entries, hentries, -⟩
      exact absurd hentries (hnone entries)
  · intro _ entries _ hentries
    exact absurd hentries (hnone entries)
  · intro _ batch hbatch
    rw [FileTree.compileAt_eq, herror] at hbatch
    cases hbatch

/-- With valid arguments, a file that cannot be read changes the status of a run and nothing else
that is printed, and no request takes more than its line. -/
theorem runIn_reports (environment : Environment) {arguments : List String} {options : Options}
    (h : Action.ofArguments environment.folder arguments = .ok (.compile options))
    (tree : FileTree) (blocked : String → Option Obstacle) :
    Ending.Reports tree blocked options (runIn tree blocked environment arguments)
        (runIn (tree.withoutUnreadable blocked) blocked environment arguments) ∧
      ∀ step : Step, '\n' ∉ step.requestText.toList := by
  have hrun (tree : FileTree) : runIn tree blocked environment arguments =
      report options.format (tree.openedAt blocked options.folder) := by
    simp only [runIn, run, h]
  refine ⟨?_, Step.newline_not_mem_requestText⟩
  rw [hrun, hrun]
  by_cases hfolder : ∃ entries, tree.at? options.folder = .ok (.folder entries)
  · obtain ⟨entries, hentries⟩ := hfolder
    exact reports_of_folder hentries
  · exact reports_of_no_folder (not_exists.mp hfolder) _

theorem runIn_reports_mixedEntries :
    Action.ofArguments none ["--dir", ".", "--format", "plan"] =
      .ok (.compile ⟨".", .plan, false⟩) ∧
    ∃ output,
      runIn (.folder FileTree.mixedEntries) (fun _ => none) ⟨none, none, none⟩
        ["--dir", ".", "--format", "plan"] = ⟨1, output⟩ ∧
      runIn (withoutUnreadable (fun _ => none) (.folder FileTree.mixedEntries)) (fun _ => none)
        ⟨none, none, none⟩ ["--dir", ".", "--format", "plan"] = ⟨0, output⟩ := by
  have harguments : Action.ofArguments none ["--dir", ".", "--format", "plan"] =
      .ok (.compile ⟨".", .plan, false⟩) := rfl
  obtain ⟨hreports, -⟩ := runIn_reports ⟨none, none, none⟩ harguments
    (.folder FileTree.mixedEntries) fun _ => none
  refine ⟨harguments, _, ?_, hreports.undisturbed (by decide) FileTree.mixedEntries _ rfl
    FileTree.reads_mixedEntries⟩
  have hfails : ¬ (runIn (.folder FileTree.mixedEntries) (fun _ => none) ⟨none, none, none⟩
      ["--dir", ".", "--format", "plan"]).status = 0 := by
    intro hzero
    obtain ⟨entries, hentries, hnone⟩ := hreports.succeeds.mp hzero
    injection hentries with hentries
    injection hentries with hentries
    subst hentries
    exact hnone "a.sql" FileTree.fails_mixedEntries
  have hstatus := hreports.status.resolve_left hfails
  rw [← hstatus]

end CommandLine

end SchemaChange
