import SchemaChange.Proofs.Listing
import SchemaChange.Statement.ColumnReader

/-!
# Fields of a table

A field that is just a name and a type is read as the column of that name and type. So the body of
a table gives back the fields that were listed in it.
-/

namespace SchemaChange.Column

open SchemaChange.Text
open Form (blanks space separated listing)

variable {α : Type} {a : α} {c : Char} {p : Char → Bool} {next : Tail α}
  {name gap gap' type rest s w : List Char}

/-- A part takes all that it can where what follows then fits. -/
theorem longest_append (hw : ∀ c ∈ w, p c = true) (hrest : Stops p rest)
    (hnext : next rest = some a) : longest p next (w ++ rest) = some a := by
  induction w with
  | nil =>
    cases rest with
    | nil => exact hnext
    | cons c rest => simp [longest, stops_cons.mp hrest, hnext]
  | cons c w ih =>
    obtain ⟨hc, hw⟩ := List.forall_mem_cons.mp hw
    simp [longest, hc, ih hw]

/-- The end of a field: a comma or the end of the body. -/
def IsEnd (rest : List Char) : Prop :=
  rest = [] ∨ ∃ tail, rest = ',' :: tail

theorem stops_of_isEnd (hp : p ',' = false) (h : IsEnd rest) : Stops p rest := by
  obtain rfl | ⟨tail, rfl⟩ := h
  · exact stops_nil
  · exact stops_cons.mpr hp

/-- Where a field ends, nothing else of it is read. -/
theorem tail_of_isEnd (h : IsEnd rest) : clauses.tail rest = some rest.tail := by
  obtain rfl | ⟨tail, rfl⟩ := h
  · rfl
  · have hcomma : isBlank ',' = false := by decide
    simp [clauses.tail, optional, references, onEvent, blanksThen, afterBlanks, hcomma, ending]

theorem clauses_append (hgap : gap ∈ space) (h : IsEnd rest) :
    clauses (gap ++ rest) = some rest.tail := by
  apply longest_append hgap (stops_of_isEnd (by decide) h)
  have hkey (letters : List Char) (hletters : letters ≠ [])
      (hall : ∀ letter ∈ letters, standsFor letter ',' = false) :
      afterKeyword letters rest = none := by
    obtain ⟨letter, letters, rfl⟩ := List.exists_cons_of_ne_nil hletters
    obtain rfl | ⟨tail, rfl⟩ := h
    · rfl
    · simp [afterKeyword, hall letter (by simp)]
  have hnot := hkey "NOT".toList (by decide) (by decide)
  have hdefault := hkey "DEFAULT".toList (by decide) (by decide)
  simp only [notNull, defaultValue, hnot, hdefault, tail_of_isEnd h]
  rfl

/-- A type: a word, and parameters in parentheses if it has any. -/
def typeToken : Language Char :=
  {w | w ∈ Form.word ∨ ∃ head ∈ Form.word, ∃ parameters, ')' ∉ parameters ∧
    w = head ++ '(' :: (parameters ++ [')'])}

theorem longest1_append (hne : w ≠ []) (hw : ∀ c ∈ w, p c = true) (hrest : Stops p rest)
    (hnext : next rest = some a) : longest1 p next (w ++ rest) = some a := by
  obtain ⟨c, w, rfl⟩ := List.exists_cons_of_ne_nil hne
  obtain ⟨hc, hw⟩ := List.forall_mem_cons.mp hw
  rw [List.cons_append, longest1, if_pos hc]
  exact longest_append hw hrest hnext

theorem afterParameters_append {parameters : List Char} (h : ')' ∉ parameters) :
    afterParameters ('(' :: (parameters ++ ')' :: rest)) = some rest := by
  have hall : ∀ c ∈ parameters, (c != ')') = true := by
    intro c hc
    rw [bne_iff_ne]
    rintro rfl
    exact h hc
  rw [afterParameters, dropWhile_append_of_stops hall (stops_cons.mpr (by simp))]

theorem typeThen_append (htype : type ∈ typeToken) (hword : Stops isWord rest)
    (hparen : rest.head? ≠ some '(') (hnext : next rest = some a) :
    typeThen next (type ++ rest) = some a := by
  obtain ⟨hne, hall⟩ | ⟨head, ⟨hne, hall⟩, parameters, hparameters, rfl⟩ := htype
  · have hnone : afterParameters rest = none := by
      cases rest with
      | nil => rfl
      | cons c rest =>
        unfold afterParameters
        split
        · rename_i heq
          obtain ⟨rfl, -⟩ := List.cons.inj heq
          exact absurd rfl hparen
        · rfl
    apply longest1_append hne hall hword
    rw [hnone, hnext]
    rfl
  · simp only [List.append_assoc, List.cons_append, List.nil_append]
    apply longest1_append hne hall (stops_cons.mpr (isWord_of_isPunctuation (by decide)))
    rw [afterParameters_append hparameters, Option.bind_some, hnext]
    rfl

theorem stops_blank_of_typeToken (htype : type ∈ typeToken) : Stops isBlank (type ++ s) := by
  obtain htype | ⟨head, hhead, parameters, -, rfl⟩ := htype
  · exact Form.stops_blank_of_word htype
  · rw [List.append_assoc]
    exact Form.stops_blank_of_word hhead

/-- A column is read up to where its clauses end, if the type can be told from them. -/
theorem read_of_clauses {behind : List Char} (hname : name ∈ Form.word) (hgap : gap ∈ blanks)
    (htype : type ∈ typeToken) (hword : Stops isWord behind) (hparen : behind.head? ≠ some '(')
    (h : clauses behind = some rest) :
    read (name ++ (gap ++ (type ++ behind))) =
      some (⟨String.ofList name, String.ofList type⟩, rest) := by
  have hread : typeThen (fun t => (clauses t).map fun rest => (t, rest)) (type ++ behind) =
      some (behind, rest) :=
    typeThen_append htype hword hparen (by rw [h, Option.map_some])
  have hlength : (type ++ behind).length - behind.length = type.length := by simp
  simp only [read, Option.bind_eq_bind, word_append hname (Form.stops_word_of_blanks hgap),
    Option.bind_some, afterBlanks_append hgap (stops_blank_of_typeToken htype), hread, hlength,
    List.take_left]

/-- A field of a name and a type is read up to the comma behind it. -/
theorem read_append (hname : name ∈ Form.word) (hgap : gap ∈ blanks) (htype : type ∈ typeToken)
    (hgap' : gap' ∈ space) (hend : IsEnd rest) :
    read (name ++ (gap ++ (type ++ (gap' ++ rest)))) =
      some (⟨String.ofList name, String.ofList type⟩, rest.tail) := by
  have hword : Stops isWord (gap' ++ rest) :=
    Form.stops_word_of_space hgap' (stops_of_isEnd (isWord_of_isPunctuation (by decide)) hend)
  have hparen : (gap' ++ rest).head? ≠ some '(' := by
    intro h
    have hstops : Stops (· == '(') (gap' ++ rest) := by
      apply stops_append
      · intro c hc
        have hblank := hgap' c (List.mem_of_mem_head? hc)
        rw [beq_eq_false_iff_ne]
        rintro rfl
        exact absurd hblank (by decide)
      · exact stops_of_isEnd (by decide) hend
    simpa using hstops '(' h
  exact read_of_clauses hname hgap htype hword hparen (clauses_append hgap' hend)

/-! ## The body of a table -/

/-- The text of a field. -/
def field (column : Column) : Language Char :=
  {column.name.toList} * (blanks * {column.typeText.toList})

theorem read_blank_cons (hc : isBlank c = true) : read (c :: s) = none := by
  simp [read, word, isWord_of_isBlank hc]

theorem occurrences_space_append (hgap : gap ∈ space) :
    occurrences read (gap ++ s) = occurrences read s := by
  apply occurrences_append_of_none
  intro v hne hv
  obtain ⟨c, v, rfl⟩ := List.exists_cons_of_ne_nil hne
  exact read_blank_cons (hgap c (hv.isInfix.mem (by simp)))

theorem occurrences_field_append {column : Column} (hname : column.name.toList ∈ Form.word)
    (htype : column.typeText.toList ∈ typeToken) (hw : w ∈ field column) (hgap' : gap' ∈ space)
    (hend : IsEnd rest) :
    occurrences read (w ++ (gap' ++ rest)) = column :: occurrences read rest.tail := by
  obtain ⟨_, rfl, _, htail, rfl⟩ := Language.mem_mul.mp hw
  obtain ⟨gap, hgap, _, rfl, rfl⟩ := Language.mem_mul.mp htail
  have hread := read_append hname hgap htype hgap' hend
  rw [String.ofList_toList, String.ofList_toList] at hread
  obtain ⟨c, name, hcons⟩ := List.exists_cons_of_ne_nil hname.1
  rw [hcons, List.cons_append] at hread
  simp only [hcons, List.append_assoc, List.cons_append]
  refine occurrences_of_some hread ((List.tail_suffix rest).trans ?_)
  exact ⟨name ++ (gap ++ (column.typeText.toList ++ gap')), by simp⟩

/-- The columns of a list of fields are those that were put into it. -/
theorem occurrences_separated {columns : List Column}
    (hname : ∀ column ∈ columns, column.name.toList ∈ Form.word)
    (htype : ∀ column ∈ columns, column.typeText.toList ∈ typeToken)
    (hw : w ∈ separated (columns.map field)) (hgap : gap ∈ space) (hgap' : gap' ∈ space) :
    occurrences read (gap ++ (w ++ gap')) = columns := by
  rw [occurrences_space_append hgap]
  induction columns generalizing w with
  | nil =>
    obtain rfl : w = [] := hw
    rw [List.nil_append, ← List.append_nil gap', occurrences_space_append hgap']
    rfl
  | cons column more ih =>
    rw [List.forall_mem_cons] at hname htype
    cases more with
    | nil =>
      have hread := occurrences_field_append hname.1 htype.1 hw hgap' (Or.inl rfl)
      rwa [List.append_nil] at hread
    | cons next more =>
      obtain ⟨v, hv, before, hbefore, behind, hbehind, w', hw', rfl⟩ :=
        Form.mem_separated_cons.mp hw
      have hend : IsEnd (',' :: (behind ++ (w' ++ gap'))) := Or.inr ⟨_, rfl⟩
      simp only [List.append_assoc, List.cons_append]
      rw [occurrences_field_append hname.1 htype.1 hv hbefore hend, List.tail_cons,
        occurrences_space_append hbehind, ih hname.2 htype.2 hw']

/-- A name that begins a constraint: one of five words, in ASCII letters of either case. -/
def NamesConstraint (name : String) : Prop :=
  ∃ letters ∈ ["SERIAL", "PRIMARY", "CONSTRAINT", "INDEX", "KEY"],
    name.toList.map Char.toLower = letters.toList.map Char.toLower

instance (name : String) : Decidable (NamesConstraint name) :=
  inferInstanceAs (Decidable (∃ letters ∈ _, _))

theorem isConstraint_iff {column : Column} :
    isConstraint column = true ↔ NamesConstraint column.name := by
  simp only [isConstraint, List.any_eq_true, eqIgnoringAsciiCase, beq_iff_eq, constraintWords,
    NamesConstraint]

theorem ofBody_of_listing {columns : List Column}
    (hname : ∀ column ∈ columns, column.name.toList ∈ Form.word)
    (htype : ∀ column ∈ columns, column.typeText.toList ∈ typeToken)
    (hconstraint : ∀ column ∈ columns, isConstraint column = false)
    (hw : w ∈ listing (columns.map field)) : ofBody w = columns := by
  obtain ⟨gap, hgap, v, hv, gap', hgap', rfl⟩ := Form.mem_listing.mp hw
  rw [ofBody, occurrences_separated hname htype hv hgap hgap', List.filter_eq_self]
  intro column hcolumn
  simp [hconstraint column hcolumn]

/-- No `);` stands in the fields of a table, though a type may end with a parenthesis. -/
theorem not_closing_infix_of_listing {columns : List Column}
    (hname : ∀ column ∈ columns, column.name.toList ∈ Form.word)
    (htype : ∀ column ∈ columns, column.typeText.toList ∈ typeToken)
    (hw : w ∈ listing (columns.map field)) : ¬ [')', ';'] <:+: w := by
  intro hin
  obtain ⟨_, hmem, v, hv, hin⟩ := Form.exists_item_of_infix_listing (by simp) (by decide)
    (by decide) hw hin
  obtain ⟨column, hcolumn, rfl⟩ := List.mem_map.mp hmem
  obtain ⟨_, rfl, _, htail, rfl⟩ := Language.mem_mul.mp hv
  obtain ⟨gap, hgap, _, rfl, rfl⟩ := Language.mem_mul.mp htail
  have hword {u : List Char} (hu : u ∈ Form.word) : ')' ∉ u :=
    Form.not_mem_of_wording (Form.wording_of_word hu) (by decide) (by decide)
  have hin := Form.infix_of_infix_space_append (by simp) (by decide) hgap.2
    (infix_of_infix_append (hword (hname column hcolumn)) hin)
  obtain hplain | ⟨head, hhead, parameters, hparameters, heq⟩ := htype column hcolumn
  · exact hword hplain (hin.mem (by simp))
  · rw [heq] at hin
    have hin := infix_of_infix_append (hword hhead) hin
    have hin := (List.infix_cons_iff.mp hin).resolve_left (by simp)
    have := infix_of_infix_append hparameters hin
    exact absurd this.length_le (by decide)

end SchemaChange.Column
