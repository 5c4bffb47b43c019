import SchemaChange.Migration
import SchemaChange.Proofs.Field
import SchemaChange.Proofs.Quoted
import SchemaChange.Proofs.Script

/-!
# Drafts of statements

A draft says what a statement is to do; there are many ways to write it down. Whichever of them is
taken, and in whatever order and company, compiling gives the steps of the draft.
-/

namespace SchemaChange

open SchemaChange.Text
open Form (blanks space without phrase phraseText perhaps keyword listing Clean IsDelimiter)

/-- A statement without the ways to write it: the letter case of its keywords, its blanks, and the
words that change nothing. -/
inductive Draft where
  | newTable (name : String) (columns : List Column)
  | newColumn (table : String) (column : Column)
  | newIndex (name table : String) (columns : List String)
  | newRow (table : String) (columns values : List String)

/-- A name: a word without a reserved word in it. -/
structure IsName (name : String) : Prop where
  word : name.toList ∈ Form.word
  clean : Clean name.toList

/-- A field of a new table: a name that begins no constraint, and a type. -/
structure IsField (column : Column) : Prop where
  name : IsName column.name
  unconstrained : Column.isConstraint column = false
  type : column.typeText.toList ∈ Column.typeToken
  clean : Clean column.typeText.toList

/-- A column to add: a name that is not taken for `IF`, and a clause without a semicolon. -/
structure IsAddition (column : Column) : Prop where
  name : IsName column.name
  unguarded : eqIgnoringAsciiCase column.name "IF" = false
  trimmed : trimChars column.typeText.toList = column.typeText.toList
  closed : column.typeText.toList ∈ without ';'
  clean : Clean column.typeText.toList

/-- A column of an index: any text that a list of columns can hold. -/
structure IsIndexed (column : String) : Prop where
  trimmed : trimChars column.toList = column.toList
  closed : column.toList ∈ without ')'
  single : ',' ∉ column.toList
  clean : Clean column.toList

/-- A value to insert: any text without a closing parenthesis. -/
structure IsValue (value : String) : Prop where
  trimmed : trimChars value.toList = value.toList
  closed : ')' ∉ value.toList
  clean : Clean (ValueList.quoted value.toList)

namespace Draft

open ValueList (quoted)

inductive WellFormed : Draft → Prop where
  | newTable {name : String} {columns : List Column} (named : IsName name)
      (fields : ∀ column ∈ columns, IsField column) : WellFormed (.newTable name columns)
  | newColumn {table : String} {column : Column} (tabled : IsName table)
      (adds : IsAddition column) : WellFormed (.newColumn table column)
  | newIndex {name table : String} {columns : List String} (named : IsName name)
      (tabled : IsName table) (filled : columns ≠ [])
      (listed : ∀ column ∈ columns, IsIndexed column) : WellFormed (.newIndex name table columns)
  | newRow {table : String} {columns values : List String} (tabled : IsName table)
      (filled : columns ≠ []) (listed : ∀ column ∈ columns, IsName column)
      (paired : values.length = columns.length) (valued : ∀ value ∈ values, IsValue value)
      (ended : values.getLast? ≠ some "") : WellFormed (.newRow table columns values)

def shape : Draft → Shape
  | .newTable .. => .tableDefinition
  | .newColumn .. => .columnAddition
  | .newIndex .. => .indexDefinition
  | .newRow .. => .rowInsertion

/-- What a draft does. -/
def steps (file : String) : Draft → List Step
  | .newTable name columns => columns.map fun column =>
    ⟨lower name, file, .tableDefinition,
      .addField (lower column.name) column.typeText (FieldSpec.ofTypeText column.typeText)⟩
  | .newColumn table column =>
    [⟨lower table, file, .columnAddition,
      .addField (lower column.name) column.typeText (FieldSpec.ofTypeText column.typeText)⟩]
  | .newIndex name table columns =>
    [⟨lower table, file, .indexDefinition, .addIndex (lower name) columns⟩]
  | .newRow table columns values =>
    [⟨lower table, file, .rowInsertion,
      .addRow (Members.ofPairs (columns.zip (values.map Datum.ofToken)))⟩]

/-- The texts of a draft. Keywords stand in any letter case, at least one blank between two words
and any number around parentheses and commas. -/
def texts : Draft → Language Char
  | .newTable name columns =>
    phrase ["CREATE", "TABLE"] * (Form.guard * ({name.toList} * (space * ({['(']} *
      (listing (columns.map Column.field) * {[')', ';']})))))
  | .newColumn table column =>
    phrase ["ALTER", "TABLE"] * ({table.toList} * (blanks * (phrase ["ADD", "COLUMN"] *
      (Form.guard * ({column.name.toList} * (blanks * ({column.typeText.toList} *
        (space * {[';']}))))))))
  | .newIndex name table columns =>
    phrase ["CREATE"] * (perhaps ["UNIQUE"] * (phrase ["INDEX"] * (Form.guard * ({name.toList} *
      (blanks * (phrase ["ON"] * ({table.toList} * (space * ({['(']} *
        (listing (columns.map fun column => {column.toList}) * {[')', ';']}))))))))))
  | .newRow table columns values =>
    phrase ["INSERT", "INTO"] * ({table.toList} * (space * ({['(']} *
      (listing (columns.map fun column => {column.toList}) * ({[')']} *
        (space * (keyword "VALUES" * (space * ({['(']} *
          (listing (values.map fun value => {quoted value.toList}) * {[')', ';']}))))))))))

/-- A text between statements. -/
def gap : Language Char :=
  {w | Clean w}

/-- The texts in which drafts stand one behind the other, with nothing reserved between them. -/
def script : List Draft → Language Char
  | [] => gap
  | draft :: more => gap * (draft.texts * script more)

variable {draft : Draft} {w : List Char}

/-! ## A draft is spelled by its texts -/

/-- The statement that a text of a draft spells. -/
def SpelledBy (draft : Draft) (w : List Char) (statement : Statement) : Prop :=
  statement.shape = draft.shape ∧ Statement.Spells statement w ∧ Clean w.tail ∧
    ∀ file, Step.ofStatement file statement = draft.steps file

theorem trim_of_typeToken {type : String} (h : type.toList ∈ Column.typeToken) :
    trim type = type := by
  have hchars : trimChars type.toList = type.toList := by
    obtain hword | ⟨head, hhead, parameters, -, heq⟩ := h
    · exact trimChars_of_word hword
    · rw [heq]
      apply trimChars_of_trimmed
      constructor
      · exact Form.stops_blank_of_word hhead
      · rw [List.reverse_append, List.reverse_cons, List.reverse_append]
        exact stops_cons.mpr (by decide)
  rw [trim, hchars, String.ofList_toList]

theorem exists_spelledBy_newTable {name : String} {columns : List Column} (named : IsName name)
    (fields : ∀ column ∈ columns, IsField column) (hw : w ∈ texts (.newTable name columns)) :
    ∃ statement, SpelledBy (.newTable name columns) w statement := by
  obtain ⟨create, hcreate, _, h₁, rfl⟩ := Language.mem_mul.mp hw
  obtain ⟨given, hgiven, _, h₂, rfl⟩ := Language.mem_mul.mp h₁
  obtain ⟨_, rfl, _, h₃, rfl⟩ := Language.mem_mul.mp h₂
  obtain ⟨gap, hgap, _, h₄, rfl⟩ := Language.mem_mul.mp h₃
  obtain ⟨_, rfl, _, h₅, rfl⟩ := Language.mem_mul.mp h₄
  obtain ⟨body, hbody, _, rfl, rfl⟩ := Language.mem_mul.mp h₅
  have hname (column : Column) (hcolumn : column ∈ columns) := (fields column hcolumn).name.word
  have htype (column : Column) (hcolumn : column ∈ columns) := (fields column hcolumn).type
  have hcolumns : Column.ofBody body = columns := Column.ofBody_of_listing hname htype
    (fun column hcolumn => (fields column hcolumn).unconstrained) hbody
  have hspells := Statement.spells_newTable (Language.append_mem_mul hcreate hgiven) named.word hgap
    (Column.not_closing_infix_of_listing hname htype hbody)
  have hclean : Clean body := by
    apply Form.clean_listing _ hbody
    intro item hitem v hv
    obtain ⟨column, hcolumn, rfl⟩ := List.mem_map.mp hitem
    obtain ⟨_, rfl, _, htail, rfl⟩ := Language.mem_mul.mp hv
    obtain ⟨between, hbetween, _, rfl, rfl⟩ := Language.mem_mul.mp htail
    exact Form.clean_append_blanks hbetween (fields column hcolumn).name.clean
      (fields column hcolumn).clean
  refine ⟨.newTable name columns, rfl, ?_, ?_, ?_⟩
  · rw [hcolumns, String.ofList_toList, List.append_assoc] at hspells
    exact hspells
  · apply Form.clean_tail_append_of_phrase .tableDefinition (by decide) hcreate
    apply Form.clean_perhaps_append (by decide) hgiven
    apply Form.clean_append_space hgap Form.isDelimiter_paren named.clean
    exact Form.clean_append_closing hclean
  · intro file
    simp only [Step.ofStatement, steps]
    apply List.map_congr_left
    intro column hcolumn
    simp only [Step.ofColumn, trim_of_typeToken (htype column hcolumn)]

/-- A column that is not called `IF` is not taken for the beginning of `IF NOT EXISTS`. -/
theorem not_guarded {name described : List Char} (hname : name ∈ Form.word)
    (hdescribed : described ∈ Form.clause)
    (hif : name.map Char.toLower ≠ Form.lowered "IF") :
    name ++ described ∉ phrase ["IF", "NOT", "EXISTS"] * (Form.word * Form.clause) := by
  intro hmem
  obtain ⟨_, hphrase, rest, -, heq⟩ := Language.mem_mul.mp hmem
  obtain ⟨key, hkey, _, htail, rfl⟩ := Language.mem_mul.mp hphrase
  obtain ⟨gap, hgap, last, -, rfl⟩ := Language.mem_mul.mp htail
  obtain ⟨b, hb, text, -, rfl⟩ := Language.mem_mul.mp hdescribed
  simp only [List.append_assoc] at heq
  obtain ⟨rfl, -⟩ := append_inj_of_stops (Form.keyword_subset_word (by decide) hkey).2
    (Form.stops_word_of_blanks hgap) hname.2 (Form.stops_word_of_blanks hb) heq
  exact hif (Form.map_toLower_of_keyword (by decide) hkey)

theorem exists_spelledBy_newColumn {table : String} {column : Column} (tabled : IsName table)
    (adds : IsAddition column) (hw : w ∈ texts (.newColumn table column)) :
    ∃ statement, SpelledBy (.newColumn table column) w statement := by
  obtain ⟨alter, halter, _, h₁, rfl⟩ := Language.mem_mul.mp hw
  obtain ⟨_, rfl, _, h₂, rfl⟩ := Language.mem_mul.mp h₁
  obtain ⟨gap, hgap, _, h₃, rfl⟩ := Language.mem_mul.mp h₂
  obtain ⟨adding, hadding, _, h₄, rfl⟩ := Language.mem_mul.mp h₃
  obtain ⟨given, hgiven, _, h₅, rfl⟩ := Language.mem_mul.mp h₄
  obtain ⟨_, rfl, _, h₆, rfl⟩ := Language.mem_mul.mp h₅
  obtain ⟨before, hbefore, _, h₇, rfl⟩ := Language.mem_mul.mp h₆
  obtain ⟨_, rfl, _, h₈, rfl⟩ := Language.mem_mul.mp h₇
  obtain ⟨behind, hbehind, _, rfl, rfl⟩ := Language.mem_mul.mp h₈
  have hdescribed : before ++ (column.typeText.toList ++ behind) ∈ Form.clause := by
    refine Language.append_mem_mul hbefore ⟨by simp [adds.closed.1], ?_⟩
    rw [List.mem_append, not_or]
    exact ⟨adds.closed.2, fun hmem => absurd (hbehind ';' hmem) (by decide)⟩
  have htrim : trimChars (before ++ (column.typeText.toList ++ behind)) =
      column.typeText.toList := by
    rw [trimChars_space_append hbefore.2 hbehind, adds.trimmed]
  have hspells := Statement.spells_newColumn halter tabled.word hgap hadding hgiven adds.name.word
    hdescribed fun _ => not_guarded adds.name.word hdescribed
      (beq_eq_false_iff_ne.mp adds.unguarded)
  refine ⟨.newColumn table column, rfl, ?_, ?_, ?_⟩
  · rw [htrim, String.ofList_toList, String.ofList_toList, String.ofList_toList] at hspells
    simpa using hspells
  · apply Form.clean_tail_append_of_phrase .columnAddition (by decide) halter
    apply Form.clean_append_blanks hgap tabled.clean
    apply Form.clean_phrase_append (by decide) hadding
    apply Form.clean_perhaps_append (by decide) hgiven
    apply Form.clean_append_blanks hbefore adds.name.clean
    apply Form.clean_append_space hbehind _ adds.clean Form.clean_nil
    exact Form.isDelimiter_of_isPunctuation (by decide) (by decide)
  · intro file
    have htype : trim column.typeText = column.typeText := by
      rw [trim, adds.trimmed, String.ofList_toList]
    simp only [Step.ofStatement, Step.ofColumn, htype, steps]

theorem exists_spelledBy_newIndex {name table : String} {columns : List String}
    (named : IsName name) (tabled : IsName table) (filled : columns ≠ [])
    (listed : ∀ column ∈ columns, IsIndexed column)
    (hw : w ∈ texts (.newIndex name table columns)) :
    ∃ statement, SpelledBy (.newIndex name table columns) w statement := by
  obtain ⟨create, hcreate, _, h₁, rfl⟩ := Language.mem_mul.mp hw
  obtain ⟨unique, hunique, _, h₂, rfl⟩ := Language.mem_mul.mp h₁
  obtain ⟨index, hindex, _, h₃, rfl⟩ := Language.mem_mul.mp h₂
  obtain ⟨given, hgiven, _, h₄, rfl⟩ := Language.mem_mul.mp h₃
  obtain ⟨_, rfl, _, h₅, rfl⟩ := Language.mem_mul.mp h₄
  obtain ⟨gap, hgap, _, h₆, rfl⟩ := Language.mem_mul.mp h₅
  obtain ⟨on, hon, _, h₇, rfl⟩ := Language.mem_mul.mp h₆
  obtain ⟨_, rfl, _, h₈, rfl⟩ := Language.mem_mul.mp h₇
  obtain ⟨gap', hgap', _, h₉, rfl⟩ := Language.mem_mul.mp h₈
  obtain ⟨_, rfl, _, h₁₀, rfl⟩ := Language.mem_mul.mp h₉
  obtain ⟨list, hlist, _, rfl, rfl⟩ := Language.mem_mul.mp h₁₀
  have hcolumns : listItems list = columns := listItems_of_listing filled
    (fun column hcolumn => (listed column hcolumn).single)
    (fun column hcolumn => (listed column hcolumn).trimmed) hlist
  have hwithout : list ∈ without ')' := by
    refine ⟨?_, Form.not_mem_listing (by decide) (by decide)
      (Form.forall_mem_singletons fun column hcolumn => (listed column hcolumn).closed.2) hlist⟩
    rintro rfl
    have hempty : columns = [""] := hcolumns.symm
    exact (listed "" (by simp [hempty])).closed.1 rfl
  have hspells := Statement.spells_newIndex (Language.append_mem_mul hcreate
    (Language.append_mem_mul hunique (Language.append_mem_mul hindex hgiven))) named.word hgap hon
    tabled.word hgap' hwithout
  refine ⟨.newIndex name table columns, rfl, ?_, ?_, fun file => rfl⟩
  · rw [hcolumns, String.ofList_toList, String.ofList_toList] at hspells
    simpa using hspells
  · apply Form.clean_tail_append_of_phrase .indexDefinition (by decide) hcreate
    apply Form.clean_perhaps_append (by decide) hunique
    apply Form.clean_phrase_append (by decide) hindex
    apply Form.clean_perhaps_append (by decide) hgiven
    apply Form.clean_append_blanks hgap named.clean
    apply Form.clean_phrase_append (by decide) hon
    apply Form.clean_append_space hgap' Form.isDelimiter_paren tabled.clean
    exact Form.clean_append_closing (Form.clean_listing
      (Form.forall_mem_singletons fun column hcolumn => (listed column hcolumn).clean) hlist)

theorem exists_spelledBy_newRow {table : String} {columns values : List String}
    (tabled : IsName table) (filled : columns ≠ []) (listed : ∀ column ∈ columns, IsName column)
    (paired : values.length = columns.length) (valued : ∀ value ∈ values, IsValue value)
    (ended : values.getLast? ≠ some "") (hw : w ∈ texts (.newRow table columns values)) :
    ∃ statement, SpelledBy (.newRow table columns values) w statement := by
  obtain ⟨insert, hinsert, _, h₁, rfl⟩ := Language.mem_mul.mp hw
  obtain ⟨_, rfl, _, h₂, rfl⟩ := Language.mem_mul.mp h₁
  obtain ⟨gap, hgap, _, h₃, rfl⟩ := Language.mem_mul.mp h₂
  obtain ⟨_, rfl, _, h₄, rfl⟩ := Language.mem_mul.mp h₃
  obtain ⟨names, hnames, _, h₅, rfl⟩ := Language.mem_mul.mp h₄
  obtain ⟨_, rfl, _, h₆, rfl⟩ := Language.mem_mul.mp h₅
  obtain ⟨before, hbefore, _, h₇, rfl⟩ := Language.mem_mul.mp h₆
  obtain ⟨key, hkey, _, h₈, rfl⟩ := Language.mem_mul.mp h₇
  obtain ⟨behind, hbehind, _, h₉, rfl⟩ := Language.mem_mul.mp h₈
  obtain ⟨_, rfl, _, h₁₀, rfl⟩ := Language.mem_mul.mp h₉
  obtain ⟨list, hlist, _, rfl, rfl⟩ := Language.mem_mul.mp h₁₀
  have hwords (column : String) (hcolumn : column ∈ columns) := (listed column hcolumn).word
  have hcolumns : listItems names = columns := listItems_of_words filled hwords hnames
  have hnames' : names ∈ without ')' := without_of_words filled hwords hnames
  have hfilled : values ≠ [] := by
    rintro rfl
    exact filled (List.length_eq_zero_iff.mp paired.symm)
  have htokens : ValueList.tokens (String.ofList list) = values :=
    ValueList.tokens_of_listing (by rintro value - _ rfl; exact ValueList.conveys_quoted _)
      (fun value hvalue => (valued value hvalue).trimmed) ended hlist
  have hlist' : list ∈ without ')' := by
    refine ⟨?_, Form.not_mem_listing (by decide) (by decide) (Form.forall_mem_singletons
      fun value hvalue => ?_) hlist⟩
    · rintro rfl
      exact hfilled htokens.symm
    · rw [ValueList.mem_quoted_iff (by decide) (by decide)]
      exact (valued value hvalue).closed
  have hspells := Statement.spells_newRow hinsert tabled.word hgap hnames'
    (Language.append_mem_mul hbefore (Language.append_mem_mul hkey hbehind)) hlist'
  refine ⟨.newRow table columns (String.ofList list), rfl, ?_, ?_, ?_⟩
  · rw [hcolumns, String.ofList_toList] at hspells
    simpa using hspells
  · apply Form.clean_tail_append_of_phrase .rowInsertion (by decide) hinsert
    apply Form.clean_append_space hgap Form.isDelimiter_paren tabled.clean
    apply Form.clean_append_cons
      (Form.isDelimiter_of_isPunctuation (by decide) (by decide)) (Form.clean_listing
      (Form.forall_mem_singletons fun column hcolumn => (listed column hcolumn).clean) hnames)
    apply Form.clean_space_append hbefore
    apply Form.clean_append_space hbehind Form.isDelimiter_paren
      (Form.clean_keyword (by decide) hkey)
    exact Form.clean_append_closing (Form.clean_listing
      (Form.forall_mem_singletons fun value hvalue => (valued value hvalue).clean) hlist)
  · intro file
    simp only [Step.ofStatement, ValueList.parse, htokens, List.length_map, paired, if_true, steps]

/-- Each text of a well-formed draft spells a statement that stands for the steps of the draft. -/
theorem exists_spelledBy (h : draft.WellFormed) (hw : w ∈ draft.texts) :
    ∃ statement, SpelledBy draft w statement := by
  cases h with
  | newTable named fields => exact exists_spelledBy_newTable named fields hw
  | newColumn tabled adds => exact exists_spelledBy_newColumn tabled adds hw
  | newIndex named tabled filled listed =>
    exact exists_spelledBy_newIndex named tabled filled listed hw
  | newRow tabled filled listed paired valued ended =>
    exact exists_spelledBy_newRow tabled filled listed paired valued ended hw

/-! ## Scripts of drafts -/

variable {drafts : List Draft} {plain text : List Char}

theorem exists_script (hdrafts : ∀ draft ∈ drafts, draft.WellFormed)
    (hplain : plain ∈ script drafts) :
    ∃ statements, Statement.Script statements plain ∧
      List.Forall₂ (fun statement draft => statement.shape = draft.shape ∧
        ∀ file, Step.ofStatement file statement = draft.steps file) statements drafts := by
  induction drafts generalizing plain with
  | nil => exact ⟨[], .done hplain, .nil⟩
  | cons draft more ih =>
    rw [List.forall_mem_cons] at hdrafts
    obtain ⟨gap, hgap, _, htail, rfl⟩ := Language.mem_mul.mp hplain
    obtain ⟨w, hw, rest, hrest, rfl⟩ := Language.mem_mul.mp htail
    obtain ⟨statement, hshape, hspells, hclean, hsteps⟩ := exists_spelledBy hdrafts.1 hw
    obtain ⟨statements, hscript, hforall⟩ := ih hdrafts.2 hrest
    exact ⟨statement :: statements, .next hgap hspells hclean hscript,
      .cons ⟨hshape, hsteps⟩ hforall⟩

/-- Compiling undoes writing: from drafts in any order, written in any way, with comments at the
ends of lines, come the steps of the drafts, shape by shape and otherwise in their order. -/
theorem steps_of_script (file : String) (hdrafts : ∀ draft ∈ drafts, draft.WellFormed)
    (hplain : plain ∈ script drafts) (htext : Statement.Commented plain text) :
    Migration.steps ⟨file, String.ofList text⟩ =
      Shape.all.flatMap fun shape =>
        (drafts.filter fun draft => draft.shape = shape).flatMap (steps file) := by
  obtain ⟨statements, hscript, hforall⟩ := exists_script hdrafts hplain
  rw [Migration.steps, Statement.ofText_of_script hscript htext, List.flatMap_assoc]
  congr 1
  funext shape
  clear hdrafts hplain hscript
  induction hforall with
  | nil => rfl
  | @cons statement draft _ _ hpair _ ih =>
    obtain ⟨hshape, hsteps⟩ := hpair
    simp only [List.filter_cons, hshape]
    split
    · rw [List.flatMap_cons, List.flatMap_cons, hsteps, ih]
    · exact ih

/-! ## Drafts as they are usually written -/

/-- A list with a comma and a space between each two of its texts. -/
def listText (items : List (List Char)) : List Char :=
  [',', ' '].intercalate items

/-- A draft with all keywords as they are spelled here, and single spaces. -/
def plainText : Draft → List Char
  | .newTable name columns =>
    phraseText ["CREATE", "TABLE"] ++ (name.toList ++ (' ' :: '(' :: (listText
      (columns.map fun column => column.name.toList ++ ' ' :: column.typeText.toList) ++
        [')', ';'])))
  | .newColumn table column =>
    phraseText ["ALTER", "TABLE"] ++ (table.toList ++ (' ' :: (phraseText ["ADD", "COLUMN"] ++
      (column.name.toList ++ (' ' :: (column.typeText.toList ++ [';']))))))
  | .newIndex name table columns =>
    phraseText ["CREATE"] ++ (phraseText ["UNIQUE"] ++ (phraseText ["INDEX"] ++ (name.toList ++
      (' ' :: (phraseText ["ON"] ++ (table.toList ++
        (' ' :: '(' :: (listText (columns.map String.toList) ++ [')', ';']))))))))
  | .newRow table columns values =>
    phraseText ["INSERT", "INTO"] ++ (table.toList ++ (' ' :: '(' ::
      (listText (columns.map String.toList) ++ (')' :: ' ' :: ("VALUES".toList ++ (' ' :: '(' ::
        (listText (values.map fun value => quoted value.toList) ++ [')', ';'])))))))

theorem plainText_mem_texts (draft : Draft) : draft.plainText ∈ draft.texts := by
  have hspace : [' '] ∈ space := by decide
  have hphrase := Form.phraseText_mem_phrase
  have hguard : [] ∈ Form.guard := Or.inl rfl
  have hlisting {α : Type} (list : List α) (f : α → List Char) :
      listText (list.map f) ∈ listing (list.map fun a => ({f a} : Language Char)) :=
    Form.intercalate_mem_listing fun _ _ => rfl
  have hvalues := Form.toList_mem_keyword "VALUES"
  cases draft with
  | newTable name columns =>
    have hfields : listText
        (columns.map fun column => column.name.toList ++ ' ' :: column.typeText.toList) ∈
          listing (columns.map Column.field) :=
      Form.intercalate_mem_listing fun _ _ =>
        Language.append_mem_mul rfl (Language.append_mem_mul (a := [' ']) Form.space_mem_blanks rfl)
    exact Language.append_mem_mul (hphrase _) <| Language.append_mem_mul (a := []) hguard <|
      Language.append_mem_mul rfl <| Language.append_mem_mul (a := [' ']) hspace <|
      Language.append_mem_mul (a := ['(']) rfl <| Language.append_mem_mul hfields rfl
  | newColumn table column =>
    exact Language.append_mem_mul (hphrase _) <| Language.append_mem_mul rfl <|
      Language.append_mem_mul (a := [' ']) Form.space_mem_blanks <|
      Language.append_mem_mul (hphrase _) <| Language.append_mem_mul (a := []) hguard <|
      Language.append_mem_mul rfl <| Language.append_mem_mul (a := [' ']) Form.space_mem_blanks <|
      Language.append_mem_mul rfl <| Language.append_mem_mul (a := []) Form.nil_mem_space rfl
  | newIndex name table columns =>
    exact Language.append_mem_mul (hphrase _) <| Language.append_mem_mul (Or.inr (hphrase _)) <|
      Language.append_mem_mul (hphrase _) <| Language.append_mem_mul (a := []) hguard <|
      Language.append_mem_mul rfl <| Language.append_mem_mul (a := [' ']) Form.space_mem_blanks <|
      Language.append_mem_mul (hphrase _) <| Language.append_mem_mul rfl <|
      Language.append_mem_mul (a := [' ']) hspace <| Language.append_mem_mul (a := ['(']) rfl <|
      Language.append_mem_mul (hlisting _ _) rfl
  | newRow table columns values =>
    exact Language.append_mem_mul (hphrase _) <| Language.append_mem_mul rfl <|
      Language.append_mem_mul (a := [' ']) hspace <| Language.append_mem_mul (a := ['(']) rfl <|
      Language.append_mem_mul (hlisting _ _) <| Language.append_mem_mul (a := [')']) rfl <|
      Language.append_mem_mul (a := [' ']) hspace <| Language.append_mem_mul hvalues <|
      Language.append_mem_mul (a := [' ']) hspace <| Language.append_mem_mul (a := ['(']) rfl <|
      Language.append_mem_mul (hlisting _ _) rfl

/-- Drafts with each of them on lines of its own. -/
def scriptText : List Draft → List Char
  | [] => []
  | draft :: more => '\n' :: (draft.plainText ++ scriptText more)

theorem scriptText_mem_script (drafts : List Draft) : scriptText drafts ∈ script drafts := by
  induction drafts with
  | nil => exact Form.clean_nil
  | cons draft more ih =>
    have hline : Form.IsDelimiter '\n' := Form.isDelimiter_of_isBlank (by decide)
    exact Language.append_mem_mul (a := ['\n']) (Form.clean_cons hline Form.clean_nil)
      (Language.append_mem_mul draft.plainText_mem_texts ih)

/-- A row, an index, a new column and a new table, against the order in which steps come. -/
def mixedDrafts : List Draft :=
  [.newRow "Items" ["name", "note"] ["a", "it's"],
    .newIndex "by_name" "Items" ["name", "note DESC"],
    .newColumn "Items" ⟨"size", "NUMERIC(4, 2)"⟩,
    .newTable "Items" [⟨"name", "TEXT"⟩, ⟨"note", "TEXT"⟩]]

theorem wellFormed_mixedDrafts : ∀ draft ∈ mixedDrafts, draft.WellFormed := by
  have hclean (s : List Char) (h : ¬ Statement.hyphens <:+: s ∧
      ∀ shape ∈ Shape.all, ¬ Form.lowered shape.opener <:+: s.map foldLetter) : Clean s :=
    Form.clean_of_fold h.1 fun shape => h.2 shape shape.mem_all
  have hname (name : String) (hword : _) (h : _) : IsName name :=
    ⟨Form.mem_word_of_ascii hword, hclean name.toList h⟩
  have hitems : IsName "Items" := hname _ (by decide) (by decide)
  rw [mixedDrafts, List.forall_mem_cons, List.forall_mem_cons, List.forall_mem_cons,
    List.forall_mem_singleton]
  refine ⟨.newRow hitems (by decide) ?_ rfl ?_ (by decide),
    .newIndex (hname _ (by decide) (by decide)) hitems (by decide) ?_,
    .newColumn hitems ?_, .newTable hitems ?_⟩
  · rw [List.forall_mem_cons, List.forall_mem_singleton]
    exact ⟨hname _ (by decide) (by decide), hname _ (by decide) (by decide)⟩
  · rw [List.forall_mem_cons, List.forall_mem_singleton]
    exact ⟨⟨by decide, by decide, hclean _ (by decide)⟩,
      ⟨by decide, by decide, hclean _ (by decide)⟩⟩
  · rw [List.forall_mem_cons, List.forall_mem_singleton]
    exact ⟨⟨by decide, ⟨by decide, by decide⟩, by decide, hclean _ (by decide)⟩,
      ⟨by decide, ⟨by decide, by decide⟩, by decide, hclean _ (by decide)⟩⟩
  · exact ⟨hname _ (by decide) (by decide), by decide, by decide,
      ⟨by decide, by decide⟩, hclean _ (by decide)⟩
  · have htext : "TEXT".toList ∈ Column.typeToken := Or.inl (Form.mem_word_of_ascii (by decide))
    rw [List.forall_mem_cons, List.forall_mem_singleton]
    exact ⟨⟨hname _ (by decide) (by decide), by decide, htext, hclean _ (by decide)⟩,
      ⟨hname _ (by decide) (by decide), by decide, htext, hclean _ (by decide)⟩⟩

/-- Behind a comment that names a keyword, a statement of each shape, the last shape first. -/
theorem steps_of_script_mixed :
    Migration.steps ⟨"f.sql", "-- CREATE\nINSERT INTO Items (name, note) VALUES ('a', 'it\\'s');" ++
        "\nCREATE UNIQUE INDEX by_name ON Items (name, note DESC);" ++
        "\nALTER TABLE Items ADD COLUMN size NUMERIC(4, 2);" ++
        "\nCREATE TABLE Items (name TEXT, note TEXT);"⟩ =
      [⟨"items", "f.sql", .tableDefinition,
          .addField "name" "TEXT" (FieldSpec.ofTypeText "TEXT")⟩,
        ⟨"items", "f.sql", .tableDefinition,
          .addField "note" "TEXT" (FieldSpec.ofTypeText "TEXT")⟩,
        ⟨"items", "f.sql", .columnAddition,
          .addField "size" "NUMERIC(4, 2)" (FieldSpec.ofTypeText "NUMERIC(4, 2)")⟩,
        ⟨"items", "f.sql", .indexDefinition, .addIndex "by_name" ["name", "note DESC"]⟩,
        ⟨"items", "f.sql", .rowInsertion,
          .addRow [("name", Datum.ofToken "a"), ("note", Datum.ofToken "it's")]⟩] := by
  have htext : "-- CREATE\nINSERT INTO Items (name, note) VALUES ('a', 'it\\'s');" ++
      "\nCREATE UNIQUE INDEX by_name ON Items (name, note DESC);" ++
      "\nALTER TABLE Items ADD COLUMN size NUMERIC(4, 2);" ++
      "\nCREATE TABLE Items (name TEXT, note TEXT);" =
        String.ofList (Statement.hyphens ++ (" CREATE".toList ++ scriptText mixedDrafts)) := by
    decide +kernel
  have hcommented : Statement.Commented (scriptText mixedDrafts)
      (Statement.hyphens ++ (" CREATE".toList ++ scriptText mixedDrafts)) := by
    have hnote : '\n' ∉ " CREATE".toList := by decide
    rw [mixedDrafts, scriptText]
    exact .line hnote (Statement.commented_self _)
  have hlower : ["Items", "name", "note", "size", "by_name"].map lower =
      ["items", "name", "note", "size", "by_name"] := by
    decide +kernel
  simp only [List.map_cons, List.map_nil, List.cons.injEq, and_true] at hlower
  rw [htext, steps_of_script "f.sql" wellFormed_mixedDrafts (scriptText_mem_script _) hcommented]
  simp [Shape.all, mixedDrafts, shape, steps, hlower, Members.ofPairs, Members.put]

end Draft

end SchemaChange
