import SchemaChange.Proofs.Boundary
import SchemaChange.Proofs.Quoted

/-!
# A row by itself

One row is written as a statement of its own, with its values in quotes. What comes of it is decided
by what is left of the values when the comments are gone, and nothing in front of them matters.
-/

namespace SchemaChange

open SchemaChange.Text
open Form (space without phrase keyword)
open Statement (hyphens closing dropComments Barren)
open ValueList (quoted lead lead_cons trail trail_cons)

/-! ## Pairs with different names -/

namespace Members

variable {α : Type} {name : String} {value : α} {members : Members α}

theorem put_of_not_mem (h : name ∉ members.map Prod.fst) :
    members.put name value = members ++ [(name, value)] := by
  induction members with
  | nil => rfl
  | cons member rest ih =>
    rw [List.map_cons, List.mem_cons, not_or] at h
    rw [put, if_neg (Ne.symm h.1), ih h.2, List.cons_append]

/-- Pairs whose names are all different are kept as they are. -/
theorem ofPairs_of_nodup {pairs : List (String × α)} (h : (pairs.map Prod.fst).Nodup) :
    ofPairs pairs = pairs := by
  have hfold (members rest : List (String × α)) (h : ((members ++ rest).map Prod.fst).Nodup) :
      rest.foldl (fun members pair => Members.put pair.1 pair.2 members) members =
        members ++ rest := by
    induction rest generalizing members with
    | nil => simp
    | cons pair rest ih =>
      have hnot : pair.1 ∉ members.map Prod.fst := by
        intro hmem
        rw [List.map_append, List.map_cons] at h
        exact (List.nodup_append.mp h).2.2 _ hmem _ (by simp) rfl
      rw [List.foldl_cons, put_of_not_mem hnot, ih _ (by simpa using h), List.append_assoc]
      rfl
  simpa [ofPairs] using hfold [] pairs h

end Members

/-- A row to write: a table, distinct columns, and a trimmed value for each of them. -/
structure SingleRow where
  table : String
  columns : List String
  values : List String
  tabled : table.toList ∈ Form.word
  filled : columns ≠ []
  listed : ∀ column ∈ columns, column.toList ∈ Form.word
  distinct : columns.Nodup
  paired : values.length = columns.length
  trimmed : ∀ value ∈ values, trimChars value.toList = value.toList
  ended : values.getLast? ≠ some ""

namespace SingleRow

variable {row : SingleRow} {file : String} {front back : List String}
  {s u rest : List Char}

/-- The values as they are written, and what ends the statement behind them. -/
def valuesText (row : SingleRow) : String :=
  ", ".intercalate (row.values.map fun value => String.ofList (quoted value.toList)) ++ ");"

def text (row : SingleRow) : String :=
  "INSERT INTO " ++ row.table ++ " (" ++ ", ".intercalate row.columns ++ ") VALUES (" ++
    row.valuesText

/-- The step that adds the row with the values. -/
def step (file : String) (row : SingleRow) (values : List String) : Step :=
  ⟨lower row.table, file, .rowInsertion, .addRow (row.columns.zip (values.map Datum.ofToken))⟩

def valueList (row : SingleRow) : List Char :=
  [',', ' '].intercalate (row.values.map fun value => quoted value.toList)

/-- What is left without comments behind the parenthesis that opens the values. -/
def remainder (row : SingleRow) : List Char :=
  dropComments false (row.valueList ++ closing)

/-! ## The text in front of the values -/

def columnList (row : SingleRow) : List Char :=
  [',', ' '].intercalate (row.columns.map String.toList)

def opening : List Char := "INSERT INTO ".toList

def link : List Char := " VALUES ".toList

/-- The text up to the parenthesis that opens the values. -/
def stem (row : SingleRow) : List Char :=
  opening ++ (row.table.toList ++ ([' '] ++ '(' :: (row.columnList ++ ')' :: (link ++ ['(']))))

theorem stem_append (row : SingleRow) (rest : List Char) : row.stem ++ rest =
    opening ++ (row.table.toList ++ ([' '] ++ '(' :: (row.columnList ++ ')' ::
      (link ++ '(' :: rest)))) := by
  simp [stem]

theorem columnList_mem (row : SingleRow) :
    row.columnList ∈ Form.listing (row.columns.map fun column => {column.toList}) :=
  Form.intercalate_mem_listing fun _ _ => rfl

theorem toList_valuesText (row : SingleRow) :
    row.valuesText.toList = row.valueList ++ closing := by
  have hcomma : ", ".toList = [',', ' '] := by decide
  have hend : ");".toList = closing := by decide
  -- The equation of `valuesText` would be found by computing with its strings, which takes long.
  delta valuesText
  rw [String.toList_append, String.toList_intercalate, hcomma, hend, List.map_map, valueList]
  simp only [Function.comp_def, String.toList_ofList]

theorem toList_text (row : SingleRow) :
    row.text.toList = row.stem ++ (row.valueList ++ closing) := by
  have hcomma : ", ".toList = [',', ' '] := by decide
  have hcolumns : (", ".intercalate row.columns).toList = row.columnList := by
    rw [String.toList_intercalate, hcomma, columnList]
  have hopen : "INSERT INTO ".toList = opening := rfl
  have hlink : ") VALUES (".toList = ')' :: (link ++ ['(']) := by decide
  have hgap : " (".toList = [' '] ++ ['('] := by decide
  delta text
  simp only [String.toList_append, hcolumns, toList_valuesText, hopen, hlink, hgap, stem_append,
    List.append_assoc, List.cons_append, List.nil_append]

theorem not_hyphen_mem_stem (row : SingleRow) : '-' ∉ row.stem := by
  have hlist : '-' ∉ row.columnList :=
    Form.not_mem_listing (by decide) (by decide) (Form.forall_mem_singletons fun column hcolumn =>
      Form.not_mem_of_wording (Form.wording_of_word (row.listed column hcolumn))
        (by decide) (by decide)) row.columnList_mem
  have htable : '-' ∉ row.table.toList :=
    Form.not_mem_of_wording (Form.wording_of_word row.tabled) (by decide) (by decide)
  have hopen : '-' ∉ opening := by decide
  have hlink : '-' ∉ link := by decide
  simp [stem, hlist, htable, hopen, hlink]

/-- A value with those in front of it and behind it. -/
theorem valueList_eq {value : String} (h : row.values = front ++ value :: back) :
    row.valueList = lead front ++ (quoted value.toList ++ trail back) := by
  have hlast (value : String) :
      [',', ' '].intercalate ((value :: back).map fun v => quoted v.toList) =
        quoted value.toList ++ trail back := by
    clear h
    induction back generalizing value with
    | nil => simp [trail]
    | cons next back ih =>
      rw [List.map_cons, List.intercalate_cons_of_ne_nil (by simp), ih, trail_cons,
        List.append_assoc]
      rfl
  rw [valueList, h]
  clear h
  induction front with
  | nil => exact hlast value
  | cons first front ih =>
    rw [List.cons_append, List.map_cons, List.intercalate_cons_of_ne_nil (by simp), ih, lead_cons,
      List.append_assoc]
    rfl

theorem values_ne_nil (row : SingleRow) : row.values ≠ [] := by
  intro hvalues
  have hpaired := row.paired
  rw [hvalues] at hpaired
  exact row.filled (List.length_eq_zero_iff.mp hpaired.symm)

theorem exists_quote_valueList (row : SingleRow) : ∃ tail, row.valueList = '\'' :: tail := by
  obtain ⟨value, more, hvalues⟩ := List.exists_cons_of_ne_nil row.values_ne_nil
  have hlist : row.valueList = lead [] ++ (quoted value.toList ++ trail more) :=
    valueList_eq hvalues
  exact ⟨_, hlist⟩

theorem withoutComments_text :
    Statement.withoutComments row.text = String.ofList (row.stem ++ row.remainder) := by
  have hplain : ¬ hyphens <:+: row.stem ++ (row.valueList ++ closing).take 1 := by
    obtain ⟨tail, htail⟩ := row.exists_quote_valueList
    rw [htail, List.cons_append, List.take_succ_cons, List.take_zero,
      infix_append_cons_iff (by decide), not_or]
    exact ⟨fun hin => row.not_hyphen_mem_stem (hin.mem (by simp [hyphens])), by decide⟩
  rw [Statement.withoutComments, toList_text, Statement.dropComments_append hplain, ← remainder]

theorem withoutComments_valuesText :
    Statement.withoutComments row.valuesText = String.ofList row.remainder := by
  rw [Statement.withoutComments, toList_valuesText, remainder]

/-! ## What is found in the text -/

theorem opening_mem : opening ∈ phrase ["INSERT", "INTO"] := by
  have htext : opening = Form.phraseText ["INSERT", "INTO"] := by decide
  rw [htext]
  exact Form.phraseText_mem_phrase _

theorem link_mem : link ∈ space * (keyword "VALUES" * space) := by
  have hsplit : link = " ".toList ++ ("VALUES".toList ++ " ".toList) := by decide
  rw [hsplit]
  exact Language.append_mem_mul (by decide) <| Language.append_mem_mul (by decide) (by decide)

theorem newRow?_stem (row : SingleRow) (rest : List Char) :
    Statement.newRow? (row.stem ++ rest) =
      (do
        let (values, s) ← Statement.parenthesized rest
        let s ← afterChar ';' s
        some (.newRow row.table row.columns (String.ofList values), s)) := by
  have hgap : [' '] ∈ space := by decide
  have hcolumns := listItems_of_words row.filled row.listed row.columnList_mem
  have hlist := without_of_words row.filled row.listed row.columnList_mem
  rw [stem_append, Statement.newRow?_eq opening_mem row.tabled hgap hlist link_mem, hcolumns,
    String.ofList_toList]

theorem barren_columnList (columns : List String)
    (hwords : ∀ column ∈ columns, column.toList ∈ Form.word) :
    Barren ([',', ' '].intercalate (columns.map String.toList)) (')' :: rest) := by
  have hword {column : String} {c : Char} {rest : List Char} (hcolumn : column.toList ∈ Form.word)
      (hc : isWord c = false) (hblank : isBlank c = false) : Barren column.toList (c :: rest) :=
    Statement.barren_of_word hcolumn.2 Form.nil_mem_space (stops_cons.mpr hc)
      (stops_cons.mpr hblank)
  have hcomma : isWord ',' = false := isWord_of_isPunctuation (by decide)
  have hspace : isWord ' ' = false := isWord_of_isPunctuation (by decide)
  induction columns with
  | nil => exact Statement.barren_nil
  | cons column more ih =>
    rw [List.forall_mem_cons] at hwords
    cases more with
    | nil =>
      rw [List.map_singleton, List.intercalate_singleton]
      exact hword hwords.1 (isWord_of_isPunctuation (by decide)) (by decide)
    | cons next more =>
      rw [List.map_cons, List.map_cons, List.intercalate_cons_cons, List.append_assoc]
      refine Statement.barren_append (hword hwords.1 hcomma (by decide)) ?_
      exact Statement.barren_cons hcomma (Statement.barren_cons hspace (ih hwords.2))

/-- No statement begins between the first letter and the values. -/
theorem barren_tail_stem (row : SingleRow) (rest : List Char) : Barren row.stem.tail rest := by
  have hgap : [' '] ∈ space := by decide
  have hblank : isWord ' ' = false := isWord_of_isPunctuation (by decide)
  have hparen : isWord '(' = false := isWord_of_isPunctuation (by decide)
  have hopen : opening = 'I' :: ("NSERT INTO".toList ++ [' ']) := by decide
  have hlink : link = ' ' :: ("VALUES".toList ++ [' ']) := by decide
  have hclean : Form.Clean "NSERT INTO".toList :=
    Form.clean_of_fold (by decide) fun shape => by cases shape <;> decide
  have hword {u : List Char} (hu : u ∈ Form.word) (tail : List Char) :
      Barren u (([' '] ++ '(' :: tail) ++ rest) := by
    rw [List.append_assoc]
    exact Statement.barren_of_word hu.2 hgap (stops_cons.mpr hparen) Form.stops_blank_paren
  have hvalues : Barren (link ++ ['(']) rest := by
    rw [hlink, List.cons_append, List.append_assoc]
    refine Statement.barren_cons hblank (Statement.barren_append (hword ?_ []) ?_)
    · exact Form.mem_word_of_ascii (by decide)
    exact Statement.barren_cons hblank (Statement.barren_cons hparen Statement.barren_nil)
  have hcolumns : Barren (row.columnList ++ ')' :: (link ++ ['('])) rest :=
    Statement.barren_append (barren_columnList row.columns row.listed)
      (Statement.barren_cons (isWord_of_isPunctuation (by decide)) hvalues)
  rw [stem, hopen, List.cons_append, List.tail_cons, List.append_assoc, List.singleton_append]
  refine Statement.barren_append
    (Statement.barren_of_clean hclean (Or.inl (stops_cons.mpr hblank))) ?_
  refine Statement.barren_cons hblank (Statement.barren_append (hword row.tabled _) ?_)
  exact Statement.barren_cons hblank (Statement.barren_cons hparen hcolumns)

/-- A row is read if the first parenthesis that closes the list stands before a semicolon. -/
theorem newRow?_eq_some_iff {found : Statement × List Char} :
    Statement.newRow? (row.stem ++ s) = some found ↔
      ∃ u rest, u ∈ without ')' ∧ s = u ++ closing ++ rest ∧
        found = (.newRow row.table row.columns (String.ofList u), rest) := by
  rw [newRow?_stem]
  constructor
  · intro h
    simp only [Option.bind_eq_bind, Option.bind_eq_some_iff, afterChar_eq_some_iff] at h
    obtain ⟨⟨u, s⟩, hinner, rest, rfl, hfound⟩ := h
    obtain ⟨hu, rfl⟩ := Statement.parenthesized_eq_some_iff.mp hinner
    refine ⟨u, rest, hu, ?_, (Option.some.inj hfound).symm⟩
    rw [List.append_assoc]
    rfl
  · rintro ⟨u, rest, hu, rfl, rfl⟩
    have hsplit : u ++ closing ++ rest = u ++ ')' :: ';' :: rest := by simp [closing]
    rw [hsplit, Statement.parenthesized_append hu]
    simp

theorem newRow?_eq_none (h : ∀ u rest, u ∈ without ')' → s ≠ u ++ closing ++ rest) :
    Statement.newRow? (row.stem ++ s) = none := by
  rw [Option.eq_none_iff_forall_ne_some]
  intro found hfound
  obtain ⟨u, rest, hu, hclosed, -⟩ := newRow?_eq_some_iff.mp hfound
  exact h u rest hu hclosed

/-- The row that begins where the text does. -/
def found (row : SingleRow) : List Statement :=
  ((Statement.newRow? (row.stem ++ row.remainder)).map Prod.fst).toList

theorem found_of_closed (hu : u ∈ without ')') (hclosed : row.remainder = u ++ closing ++ rest) :
    row.found = [.newRow row.table row.columns (String.ofList u)] := by
  rw [found, newRow?_eq_some_iff.mpr ⟨u, rest, hu, hclosed, rfl⟩]
  rfl

theorem found_of_not_closed
    (h : ∀ u rest, u ∈ without ')' → row.remainder ≠ u ++ closing ++ rest) : row.found = [] := by
  rw [found, newRow?_eq_none h]
  rfl

/-- No row stands in a text in which one list is closed. -/
theorem occurrences_closed (hu : u ∈ without ')') :
    occurrences (Statement.read .rowInsertion) (u ++ closing) = [] := by
  rw [List.eq_nil_iff_forall_not_mem]
  intro statement hmem
  obtain ⟨w, ⟨hshape, hspells⟩, hin⟩ :=
    (Statement.recognizes_read .rowInsertion).exists_takes_of_mem hmem
  have hends := Statement.ends_of_spells hspells
  rw [hshape] at hends
  obtain ⟨head, -, columns, -, between, -, values, -, rfl⟩ := hends
  have hone : List.count ')' u = 0 := List.count_eq_zero.mpr hu.2
  have hle := hin.sublist.count_le ')'
  simp [closing, hone] at hle
  omega

/-- Where no row begins, what is found begins in the values. -/
theorem ofShape_of_not_read {shape : Shape}
    (hread : Statement.read shape (row.stem ++ row.remainder) = none) :
    Statement.ofShape shape (Statement.withoutComments row.text) =
      Statement.ofShape shape (Statement.withoutComments row.valuesText) := by
  have hcons : row.stem ++ row.remainder = 'I' :: (row.stem.tail ++ row.remainder) := rfl
  rw [hcons] at hread
  rw [withoutComments_text, withoutComments_valuesText, Statement.ofShape, Statement.ofShape,
    String.toList_ofList, String.toList_ofList, hcons, occurrences_of_none hread,
    Statement.occurrences_append_of_barren (row.barren_tail_stem row.remainder)]

theorem read_stem_of_ne {shape : Shape} (hshape : shape ≠ .rowInsertion) :
    Statement.read shape (row.stem ++ rest) = none := by
  have hinsert : "INSERT".toList ∈ keyword "INSERT" := by decide
  have hopen : opening = "INSERT".toList ++ " INTO ".toList := by decide
  rw [stem_append, hopen, List.append_assoc]
  apply Statement.read_eq_none_of_keyword (by decide) hinsert
  cases shape
  · decide
  · decide
  · decide
  · exact absurd rfl hshape

/-- The rows of the text are the one that begins where the text does, and those of its values. -/
theorem ofShape_rowInsertion :
    Statement.ofShape .rowInsertion (Statement.withoutComments row.text) =
      row.found ++ Statement.ofShape .rowInsertion (Statement.withoutComments row.valuesText) := by
  by_cases hclosed : ∃ u ∈ without ')', ∃ rest, row.remainder = u ++ closing ++ rest
  · obtain ⟨u, hu, rest, hclosed⟩ := hclosed
    have hread : Statement.read .rowInsertion (row.stem ++ row.remainder) =
        some (.newRow row.table row.columns (String.ofList u), rest) :=
      newRow?_eq_some_iff.mpr ⟨u, rest, hu, hclosed, rfl⟩
    obtain ⟨w, htakes, heq⟩ :=
      (Statement.recognizes_read .rowInsertion).read_eq_some_iff.mp hread
    rw [found_of_closed hu hclosed, withoutComments_text, withoutComments_valuesText,
      Statement.ofShape, Statement.ofShape, String.toList_ofList, String.toList_ofList, heq,
      (Statement.recognizes_read .rowInsertion).occurrences_append_of_takes htakes, hclosed,
      Statement.occurrences_append_closing, occurrences_closed hu]
    rfl
  · have hnot (u rest : List Char) (hu : u ∈ without ')') :
        row.remainder ≠ u ++ closing ++ rest := fun h => hclosed ⟨u, hu, rest, h⟩
    rw [found_of_not_closed hnot, List.nil_append]
    exact ofShape_of_not_read (newRow?_eq_none hnot)

/-- What comes of the row by itself. -/
def own (file : String) (row : SingleRow) : List Step :=
  row.found.flatMap (Step.ofStatement file)

/-- A list of as many values as there are columns gives the row of these values. -/
theorem own_of_tokens (hu : u ∈ without ')') (hclosed : row.remainder = u ++ closing ++ rest)
    {values : List String} (htokens : ValueList.tokens (String.ofList u) = values)
    (hlength : values.length = row.columns.length) : row.own file = [row.step file values] := by
  have hlength' : (values.map Datum.ofToken).length = row.columns.length := by
    rw [List.length_map, hlength]
  have hdistinct : ((row.columns.zip (values.map Datum.ofToken)).map Prod.fst).Nodup := by
    rw [List.map_fst_zip (Nat.le_of_eq hlength'.symm)]
    exact row.distinct
  rw [own, found_of_closed hu hclosed, List.flatMap_singleton, Step.ofStatement, ValueList.parse,
    htokens, if_pos hlength', Members.ofPairs_of_nodup hdistinct, step]

/-- Nothing comes of a list that is not closed so, or that has too few values or too many. -/
theorem own_eq_nil
    (hcount : ∀ u rest, u ∈ without ')' → row.remainder = u ++ closing ++ rest →
      (ValueList.tokens (String.ofList u)).length ≠ row.columns.length) : row.own file = [] := by
  by_cases hclosed : ∃ u ∈ without ')', ∃ rest, row.remainder = u ++ closing ++ rest
  · obtain ⟨u, hu, rest, hclosed⟩ := hclosed
    have hlength := hcount u rest hu hclosed
    rw [own, found_of_closed hu hclosed, List.flatMap_singleton, Step.ofStatement,
      ValueList.parse, if_neg (by rwa [List.length_map])]
  · rw [own, found_of_not_closed fun u rest hu h => hclosed ⟨u, hu, rest, h⟩, List.flatMap_nil]

theorem origin_of_own {step : Step} (h : step ∈ row.own file) : step.origin = .rowInsertion := by
  obtain ⟨statement, hmem, hstep⟩ := List.mem_flatMap.mp h
  rw [Step.origin_of_mem hstep]
  by_cases hclosed : ∃ u ∈ without ')', ∃ rest, row.remainder = u ++ closing ++ rest
  · obtain ⟨u, hu, rest, hclosed⟩ := hclosed
    rw [found_of_closed hu hclosed] at hmem
    obtain rfl := List.mem_singleton.mp hmem
    rfl
  · rw [found_of_not_closed fun u rest hu h => hclosed ⟨u, hu, rest, h⟩] at hmem
    cases hmem

/-- What comes of the text is what comes of the row, and what comes of its values by themselves. -/
theorem steps_eq (row : SingleRow) (file : String) :
    Migration.steps ⟨file, row.text⟩ =
      Migration.grouped (row.own file ++ Migration.steps ⟨file, row.valuesText⟩) := by
  rw [← Migration.grouped_steps]
  unfold Migration.grouped
  apply List.flatMap_congr
  intro shape _
  rw [List.filter_append, Migration.filter_steps, Migration.filter_steps]
  by_cases hshape : shape = .rowInsertion
  · subst hshape
    have hown : (row.own file).filter (fun step => decide (step.origin = .rowInsertion)) =
        row.own file :=
      List.filter_eq_self.mpr fun step hstep => by simpa using origin_of_own hstep
    rw [hown, ofShape_rowInsertion, List.flatMap_append, own]
  · have hnone : (row.own file).filter (fun step => decide (step.origin = shape)) = [] :=
      List.filter_eq_nil_iff.mpr fun step hstep => by
        simpa [origin_of_own hstep] using Ne.symm hshape
    rw [hnone, List.nil_append, ofShape_of_not_read (read_stem_of_ne hshape)]

/-- If nothing comes of the values by themselves, what comes of the text comes of the row. -/
theorem steps_eq_own (hidle : Migration.steps ⟨file, row.valuesText⟩ = []) :
    Migration.steps ⟨file, row.text⟩ = row.own file := by
  rw [steps_eq, hidle, List.append_nil]
  exact Migration.grouped_of_origin fun step => origin_of_own

end SingleRow

end SchemaChange
