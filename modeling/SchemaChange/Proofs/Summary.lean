import Mathlib.Algebra.BigOperators.Group.List.Basic
import Mathlib.Algebra.GroupWithZero.Nat
import SchemaChange.Proofs.SourceOrder
import SchemaChange.Proofs.Unreadable

/-!
# What a summary tells

A summary counts the same steps twice, by their kinds and by their files. Each step is of one kind
and comes from one of the files that could be read, so both columns of counts add up to the number of
steps, which the last line states.
-/

namespace SchemaChange

open SchemaChange.Text

/-! ## Counts by name -/

section

variable {α : Type} {name : α → String} {xs : List α} {counts : List (String × Nat)}

/-- Counts of values under their names: the names ascend, and each value is counted under one. -/
structure CountsBy (name : α → String) (xs : List α) (counts : List (String × Nat)) : Prop where
  ascend : (counts.map Prod.fst).Pairwise fun a b => bytes a < bytes b
  count : ∀ entry ∈ counts, entry.2 = xs.countP fun x => name x == entry.1
  covered : ∀ x ∈ xs, name x ∈ counts.map Prod.fst

theorem nodup_of_ascend {names : List String} (h : names.Pairwise fun a b => bytes a < bytes b) :
    names.Nodup := by
  refine h.imp ?_
  rintro a _ hlt rfl
  exact List.lt_irrefl _ hlt

/-- Each value is counted once where its name is one of the names, and these are all different. -/
theorem sum_countP_eq_length {names : List String} (hnodup : names.Nodup)
    (hcovered : ∀ x ∈ xs, name x ∈ names) :
    (names.map fun key => xs.countP fun x => name x == key).sum = xs.length := by
  induction xs with
  | nil => simp
  | cons x xs ih =>
    rw [List.forall_mem_cons] at hcovered
    have hone : (names.map fun key => if (name x == key) = true then 1 else 0).sum = 1 := by
      have hothers : ∀ key, key ≠ name x → key ∈ names →
          (if (name x == key) = true then 1 else 0) = 0 := by
        intro key hne _
        rw [if_neg (by simpa using hne.symm)]
      rw [List.sum_map_eq_nsmul_single (name x) _ hothers,
        List.count_eq_one_of_mem hnodup hcovered.1]
      simp
    simp only [List.countP_cons, List.sum_map_add, List.length_cons]
    rw [ih hcovered.2, hone]

theorem CountsBy.sum_eq_length (h : CountsBy name xs counts) :
    (counts.map Prod.snd).sum = xs.length := by
  have hcounts : counts.map Prod.snd =
      (counts.map Prod.fst).map fun key => xs.countP fun x => name x == key := by
    rw [List.map_map]
    apply List.map_congr_left
    intro entry hentry
    exact h.count entry hentry
  rw [hcounts]
  exact sum_countP_eq_length (nodup_of_ascend h.ascend) h.covered

end

/-! ## The parts of a summary -/

namespace CommandLine

/-- What a summary tells: the kinds of steps and the files that could be read, each with its count,
and the files that could not. -/
structure Summary where
  kinds : List (String × Nat)
  files : List (String × Nat)
  unreadable : List String

namespace Summary

/-- A name, blanks up to the end of a column of the given width, and what is told of the name. -/
def entry (width : Nat) (name told : String) : String :=
  String.ofList (name.toList.rightpad width ' ') ++ told

/-- The lines of a summary of so many steps. -/
def lines (summary : Summary) (total : Nat) : List String :=
  let rule := "============================================================"
  [rule, "SUMMARY", rule] ++
    (summary.kinds.map fun (kind, count) => entry 14 kind (toString count)) ++ [rule] ++
    ((summary.files.map fun (file, count) => entry 40 file (toString count)) ++
      summary.unreadable.map fun file => entry 40 file "unreadable") ++
    [rule, toString total ++ " operations in " ++ toString summary.files.length ++ " files"]

def ofBatch (batch : Batch) : Summary where
  kinds := kindNames.filterMap fun kind =>
    let count := batch.steps.countP fun step => step.effect.label == kind
    if count = 0 then none else some (kind, count)
  files := batch.files.map fun file => (file, batch.steps.countP fun step => step.file == file)
  unreadable := batch.failures.map Prod.fst

theorem padded_append (width : Nat) (name told : String) :
    padded width name ++ told = entry width name told := by
  rw [padded, entry, List.rightpad, String.length_toList, String.ofList_append, String.ofList_toList]

theorem summaryLines_eq (batch : Batch) :
    summaryLines batch = (ofBatch batch).lines batch.steps.length := by
  have hkinds : kindLines batch =
      (ofBatch batch).kinds.map fun (kind, count) => entry 14 kind (toString count) := by
    rw [kindLines, ofBatch, List.map_filterMap]
    apply List.filterMap_congr
    intro kind _
    by_cases hcount : (batch.steps.countP fun step => step.effect.label == kind) = 0
    · simp only [hcount, if_true, Option.map_none]
    · simp only [hcount, if_false, Option.map_some, padded_append]
  have hfiles : fileLines batch =
      ((ofBatch batch).files.map fun (file, count) => entry 40 file (toString count)) ++
        (ofBatch batch).unreadable.map fun file => entry 40 file "unreadable" := by
    rw [fileLines, ofBatch, List.map_map, List.map_map]
    simp only [padded_append, Function.comp_def]
  have hruler : ruler = "============================================================" := by decide
  rw [summaryLines, lines, hkinds, hfiles, hruler, ofBatch, List.length_map]

/-! ## Kinds -/

variable {batch : Batch} {folder : Folder} {kind file : String} {count : Nat}

theorem label_mem_kindNames (effect : Effect) : effect.label ∈ kindNames := by
  cases effect with
  | addField name typeText spec => simp [Effect.label, kindNames]
  | addIndex name columns => simp [Effect.label, kindNames]
  | addRow row => simp [Effect.label, kindNames]

theorem mem_kinds_iff : (kind, count) ∈ (ofBatch batch).kinds ↔
    count ≠ 0 ∧ count = batch.steps.countP fun step => step.effect.label == kind := by
  simp only [ofBatch, List.mem_filterMap, Option.ite_none_left_eq_some, Option.some.injEq,
    Prod.mk.injEq]
  constructor
  · rintro ⟨_, -, hne, rfl, rfl⟩
    exact ⟨hne, rfl⟩
  · rintro ⟨hne, rfl⟩
    refine ⟨kind, ?_, hne, rfl, rfl⟩
    obtain ⟨step, -, hlabel⟩ := List.countP_pos_iff.mp (Nat.pos_of_ne_zero hne)
    rw [← eq_of_beq hlabel]
    exact label_mem_kindNames step.effect

/-- A kind is told of if there is a step of that kind. -/
theorem mem_map_fst_kinds_iff : kind ∈ (ofBatch batch).kinds.map Prod.fst ↔
    ∃ step ∈ batch.steps, step.effect.label = kind := by
  have hpos : (∃ step ∈ batch.steps, step.effect.label = kind) ↔
      (batch.steps.countP fun step => step.effect.label == kind) ≠ 0 := by
    rw [← Nat.pos_iff_ne_zero, List.countP_pos_iff]
    simp only [beq_iff_eq]
  rw [hpos, List.mem_map, Prod.exists]
  constructor
  · rintro ⟨_, count, hmem, rfl⟩
    obtain ⟨hne, rfl⟩ := mem_kinds_iff.mp hmem
    exact hne
  · intro hne
    exact ⟨kind, _, mem_kinds_iff.mpr ⟨hne, rfl⟩, rfl⟩

theorem countsBy_kinds (batch : Batch) :
    CountsBy (fun step => step.effect.label) batch.steps (ofBatch batch).kinds where
  ascend := by
    have hnames : kindNames.Pairwise fun a b => bytes a < bytes b := by
      refine List.Pairwise.imp bytes_lt_iff.mpr ?_
      decide
    simp only [ofBatch, List.pairwise_map, List.pairwise_filterMap]
    refine hnames.imp ?_
    intro kind kind' hlt entry hentry entry' hentry'
    rw [Option.ite_none_left_eq_some, Option.some.injEq] at hentry hentry'
    obtain ⟨-, rfl⟩ := hentry
    obtain ⟨-, rfl⟩ := hentry'
    exact hlt
  count := by
    rintro ⟨kind, count⟩ hmem
    exact (mem_kinds_iff.mp hmem).2
  covered := by
    intro step hstep
    exact mem_map_fst_kinds_iff.mpr ⟨step, hstep, rfl⟩

/-! ## Files -/

/-- A file that was read has as many steps in the batch as it has by itself. -/
theorem countP_file_eq (hdistinct : folder.Distinct) {migration : Migration}
    (hreads : folder.Reads migration) :
    (folder.compile.steps.countP fun step => step.file == migration.name) =
      migration.steps.length := by
  have hown : named Step.file migration.name folder.compile.steps = migration.steps := by
    rw [Folder.steps_compile, Migration.named_flatMap_steps,
      named_eq_singleton (Folder.pairwise_readable hdistinct) (Folder.mem_readable_iff.mpr hreads),
      List.flatMap_singleton]
  rw [List.countP_eq_length_filter, ← hown, named]
  simp only [beq_eq_decide]

theorem map_fst_files (batch : Batch) : (ofBatch batch).files.map Prod.fst = batch.files := by
  simp [ofBatch, Function.comp_def]

theorem mem_files_iff : (file, count) ∈ (ofBatch batch).files ↔
    file ∈ batch.files ∧ count = batch.steps.countP fun step => step.file == file := by
  simp only [ofBatch, List.mem_map, Prod.mk.injEq]
  constructor
  · rintro ⟨_, hmem, rfl, rfl⟩
    exact ⟨hmem, rfl⟩
  · rintro ⟨hmem, rfl⟩
    exact ⟨file, hmem, rfl, rfl⟩

theorem countsBy_files (hdistinct : folder.Distinct) :
    CountsBy Step.file folder.compile.steps (ofBatch folder.compile).files where
  ascend := by
    rw [map_fst_files]
    exact Folder.pairwise_files hdistinct
  count := by
    rintro ⟨file, count⟩ hmem
    exact (mem_files_iff.mp hmem).2
  covered := by
    intro step hstep
    rw [map_fst_files]
    exact Folder.file_mem_of_mem_steps hstep

/-- How the parts of a summary fit the folder it tells of. Both columns of counts add up to the number
of steps. Each migration file of the folder has one line: with the number of its own steps, or as one
that cannot be read. -/
structure Balances (folder : Folder) (summary : Summary) : Prop where
  kindsAscend : (summary.kinds.map Prod.fst).Pairwise fun a b => bytes a < bytes b
  kinds : ∀ kind count, (kind, count) ∈ summary.kinds ↔ count ≠ 0 ∧
    count = folder.compile.steps.countP fun step => step.effect.label == kind
  labels : ∀ kind, kind ∈ summary.kinds.map Prod.fst ↔
    ∃ step ∈ folder.compile.steps, step.effect.label = kind
  kindsSum : (summary.kinds.map Prod.snd).sum = folder.compile.steps.length
  filesAscend : (summary.files.map Prod.fst).Pairwise fun a b => bytes a < bytes b
  files : ∀ file count, (file, count) ∈ summary.files ↔
    ∃ text, folder.Reads ⟨file, text⟩ ∧ count = (Migration.steps ⟨file, text⟩).length
  filesSum : (summary.files.map Prod.snd).sum = folder.compile.steps.length
  unreadableAscend : summary.unreadable.Pairwise fun a b => bytes a < bytes b
  unreadable : ∀ file, file ∈ summary.unreadable ↔ folder.Fails file
  once : (summary.files.map Prod.fst ++ summary.unreadable).Nodup
  covered : ∀ file, file ∈ summary.files.map Prod.fst ++ summary.unreadable ↔
    ∃ content, folder.Holds file content

theorem balances_ofBatch (h : folder.Distinct) : (ofBatch folder.compile).Balances folder where
  kindsAscend := (countsBy_kinds folder.compile).ascend
  kinds := fun _ _ => mem_kinds_iff
  labels := fun _ => mem_map_fst_kinds_iff
  kindsSum := (countsBy_kinds folder.compile).sum_eq_length
  filesAscend := (countsBy_files h).ascend
  files := by
    intro file count
    rw [mem_files_iff, Folder.mem_files_iff]
    constructor
    · rintro ⟨⟨text, hreads⟩, rfl⟩
      exact ⟨text, hreads, countP_file_eq h hreads⟩
    · rintro ⟨text, hreads, hcount⟩
      rw [hcount]
      exact ⟨⟨text, hreads⟩, (countP_file_eq h hreads).symm⟩
  filesSum := (countsBy_files h).sum_eq_length
  unreadableAscend := Folder.pairwise_failures h
  unreadable := fun _ => Folder.mem_failures_iff
  once := by
    rw [map_fst_files]
    exact (Folder.accounts_compile h).once
  covered := by
    rw [map_fst_files]
    exact (Folder.accounts_compile h).covered

/-! ## Lines -/

theorem newline_not_mem_toString (n : Nat) : '\n' ∉ (toString n).toList := by
  rw [Nat.toString_eq_repr, Nat.toList_repr]
  exact newline_not_mem (controlFree_toDigits n)

theorem newline_not_mem_append {s t : String} (hs : '\n' ∉ s.toList) (ht : '\n' ∉ t.toList) :
    '\n' ∉ (s ++ t).toList := by
  simp [hs, ht]

theorem newline_not_mem_entry {width : Nat} {name told : String} (hname : '\n' ∉ name.toList)
    (htold : '\n' ∉ told.toList) : '\n' ∉ (entry width name told).toList := by
  rw [← padded_append]
  refine newline_not_mem_append (newline_not_mem_append hname ?_) htold
  rw [String.toList_ofList]
  exact newline_not_mem (controlFree_replicate _ (by decide))

/-- Nothing of a summary takes more than its line, unless a name of a file does. -/
theorem newline_not_mem_lines {summary : Summary} (hbalances : summary.Balances folder)
    (hnames : ∀ name content, folder.Holds name content → '\n' ∉ name.toList) (total : Nat) :
    ∀ line ∈ summary.lines total, '\n' ∉ line.toList := by
  have hheld {file : String} (hmem : file ∈ summary.files.map Prod.fst ++ summary.unreadable) :
      '\n' ∉ file.toList := by
    obtain ⟨content, hholds⟩ := (hbalances.covered file).mp hmem
    exact hnames file content hholds
  have hkind {kind : String} {count : Nat} (hmem : (kind, count) ∈ summary.kinds) :
      '\n' ∉ kind.toList := by
    have hlabel : kind ∈ summary.kinds.map Prod.fst := List.mem_map_of_mem hmem
    obtain ⟨step, -, rfl⟩ := (hbalances.labels kind).mp hlabel
    have hall : ∀ kind ∈ kindNames, '\n' ∉ kind.toList := by decide
    exact hall _ (label_mem_kindNames step.effect)
  intro line hline
  simp only [lines, List.mem_append, List.mem_cons, List.not_mem_nil, or_false, List.mem_map,
    Prod.exists] at hline
  obtain ((((rfl | rfl | rfl) | ⟨kind, count, hmem, rfl⟩) | rfl) |
    (⟨file, count, hmem, rfl⟩ | ⟨file, hmem, rfl⟩)) | (rfl | rfl) := hline
  · decide
  · decide
  · decide
  · exact newline_not_mem_entry (hkind hmem) (newline_not_mem_toString count)
  · decide
  · have hfile : file ∈ summary.files.map Prod.fst := List.mem_map_of_mem hmem
    exact newline_not_mem_entry (hheld (List.mem_append_left _ hfile))
      (newline_not_mem_toString count)
  · exact newline_not_mem_entry (hheld (List.mem_append_right _ hmem)) (by decide)
  · decide
  · have htotals := newline_not_mem_append (newline_not_mem_append (newline_not_mem_toString total)
      (t := " operations in ") (by decide)) (newline_not_mem_toString summary.files.length)
    exact newline_not_mem_append htotals (by decide)

end Summary

/-! ## Runs -/

open FileTree (opened)

variable {tree : FileTree} {blocked : String → Option Obstacle} {options : Options}
  {entries : List (String × FileTree)} {folder : Folder} {name : String}
  {content : Except Obstacle ByteArray}

/-- A summary is printed as soon as there is one migration file, even if it cannot be read. -/
theorem output_report_summary (hdistinct : folder.Distinct) (hholds : folder.Holds name content) :
    (report .summary (.ok folder)).output =
      String.join (((Summary.ofBatch folder.compile).lines folder.compile.steps.length).map
        (· ++ "\n")) := by
  have hsome : ¬ folder.compile.isEmpty = true := by
    intro hempty
    exact (Folder.accounts_compile hdistinct).isEmpty.mp hempty name content hholds
  simp only [report]
  rw [if_neg hsome, ← Summary.summaryLines_eq]
  rfl

/-- Where a folder holds a migration file, the summary of a run balances: it is printed line by line,
and its counts add up to the number of steps that its last line states. -/
theorem runIn_balances (environment : Environment) {arguments : List String}
    (harguments : Action.ofArguments environment.folder arguments = .ok (.compile options))
    (hformat : options.format = .summary) (htree : tree.Proper)
    (hfolder : tree.at? options.folder = .ok (.folder entries))
    (hholds : (opened options.folder blocked entries).Holds name content) :
    ∃ summary : Summary,
      summary.Balances (opened options.folder blocked entries) ∧
      let lines := summary.lines (opened options.folder blocked entries).compile.steps.length
      let ending := runIn tree blocked environment arguments
      ending.output = String.join (lines.map (· ++ "\n")) ∧
      ((∀ name content, (opened options.folder blocked entries).Holds name content →
          '\n' ∉ name.toList) →
        ending.output.toList.splitOn '\n' = lines.map String.toList ++ [[]]) := by
  have hdistinct : (opened options.folder blocked entries).Distinct := by
    cases FileTree.proper_of_at? htree hfolder with
    | folder distinct inner => exact FileTree.distinct_opened options.folder blocked distinct
  have hbalances := Summary.balances_ofBatch hdistinct
  have houtput : (runIn tree blocked environment arguments).output =
      (report .summary (.ok (opened options.folder blocked entries))).output := by
    simp only [runIn, run, harguments, hformat, FileTree.openedAt_eq_ok hfolder]
  rw [output_report_summary hdistinct hholds] at houtput
  refine ⟨Summary.ofBatch (opened options.folder blocked entries).compile, hbalances, houtput, ?_⟩
  intro hnames
  rw [houtput]
  exact splitOn_lines _ (Summary.newline_not_mem_lines hbalances hnames _)

/-- A folder with a file of one step and a file that cannot be read. -/
theorem runIn_balances_mixedEntries :
    Action.ofArguments none ["--dir", ".", "--format", "summary"] =
      .ok (.compile ⟨".", .summary, false⟩) ∧
    ∃ summary : Summary,
      ("b.sql", 1) ∈ summary.files ∧ "a.sql" ∈ summary.unreadable ∧
      (summary.kinds.map Prod.snd).sum = (summary.files.map Prod.snd).sum ∧
      (runIn (.folder FileTree.mixedEntries) (fun _ => none) ⟨none, none, none⟩
          ["--dir", ".", "--format", "summary"]).output.toList.splitOn '\n' =
        (summary.lines (summary.files.map Prod.snd).sum).map String.toList ++ [[]] := by
  have harguments : Action.ofArguments none ["--dir", ".", "--format", "summary"] =
      .ok (.compile ⟨".", .summary, false⟩) := rfl
  obtain ⟨content, hholds, -⟩ := FileTree.fails_mixedEntries
  obtain ⟨summary, hbalances, -, hlines⟩ := runIn_balances ⟨none, none, none⟩ harguments rfl
    FileTree.proper_mixedEntries (rfl : FileTree.at? _ "." = .ok (.folder FileTree.mixedEntries))
    hholds
  have hnames : ∀ name content,
      (opened "." (fun _ => none) FileTree.mixedEntries).Holds name content →
        '\n' ∉ name.toList := by
    intro name content hholds
    have hname : name ∈ FileTree.mixedEntries.map Prod.fst := by
      have := List.mem_map_of_mem (f := Prod.fst) hholds.1
      rwa [opened, List.map_map] at this
    have hall : ∀ name ∈ FileTree.mixedEntries.map Prod.fst, '\n' ∉ name.toList := by decide
    exact hall name hname
  refine ⟨harguments, summary, ?_, ?_, ?_, ?_⟩
  · exact (hbalances.files "b.sql" 1).mpr ⟨_, FileTree.reads_mixedEntries, by decide⟩
  · exact (hbalances.unreadable "a.sql").mpr FileTree.fails_mixedEntries
  · rw [hbalances.kindsSum, hbalances.filesSum]
  · rw [hbalances.filesSum]
    exact hlines hnames

end CommandLine

end SchemaChange
