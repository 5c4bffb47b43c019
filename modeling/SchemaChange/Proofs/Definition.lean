import SchemaChange.Proofs.Clauses

/-!
# Definitions of columns

The body of a table as a list of definitions, each of them a name, a type and clauses, with the
comma directly behind. Every definition is read from its own name to its own comma, so the body
gives back the columns that it defines, but for the constraints.
-/

namespace SchemaChange.Column

open SchemaChange.Text
open Form (keyword blanks space IsPlain)

variable {behind gap gap' name rest s type u v w : List Char} {column : Column}
  {columns : List Column}

/-! ## A name behind a comma -/

/-- A name of a column that is read as such wherever it stands: a word other than `ON`. -/
def IsName (name : String) : Prop :=
  name.toList ∈ Form.word ∧ eqIgnoringAsciiCase name "ON" = false

instance (name : String) : Decidable (IsName name) :=
  inferInstanceAs (Decidable (_ ∧ _))

theorem not_mem_keyword_of_isName {name : String} (h : IsName name) :
    name.toList ∉ keyword "ON" := by
  intro hmem
  have heq : eqIgnoringAsciiCase name "ON" = true :=
    beq_iff_eq.mpr (Form.map_toLower_of_keyword (by decide) hmem)
  rw [h.2] at heq
  cases heq

/-- No event comes behind a name with its type: the type would have to be one of the two events. -/
theorem events_type_append (htype : type ∈ typeToken) (hgap : gap ∈ space)
    (hbehind : Stops isWord behind)
    (hevent : ∀ event ∈ ["DELETE", "UPDATE"], ¬ Leads [event] behind) :
    events (gap ++ (type ++ behind)) = none := by
  obtain hplain | ⟨head, hhead, parameters, -, rfl⟩ := htype
  · exact events_eq_none_of_word hplain hgap hbehind
      fun _ => ⟨hevent _ (by simp), hevent _ (by simp)⟩
  · simp only [List.append_assoc, List.cons_append]
    have hparen : Stops isBlank ('(' :: (parameters ++ ([')'] ++ behind))) :=
      stops_cons.mpr (by decide)
    exact events_eq_none_of_word hhead hgap (stops_cons.mpr (isWord_of_isPunctuation (by decide)))
      fun _ => ⟨not_leads_of_stops hparen, not_leads_of_stops hparen⟩

/-- The target of a reference ends at the comma in front of a name with its type. -/
theorem refuses_field {clause : List Char} (hname : IsName column.name)
    (htype : column.typeText.toList ∈ typeToken) (hgap : gap ∈ space) (hw : w ∈ field column)
    (hbegins : BeginsClause clause) (hrest : IsStop rest) :
    Refuses (gap ++ (w ++ (clause ++ rest))) := by
  obtain ⟨_, rfl, _, h₁, rfl⟩ := Language.mem_mul.mp hw
  obtain ⟨gap', hgap', _, rfl, rfl⟩ := Language.mem_mul.mp h₁
  simp only [List.append_assoc]
  have hplain : ∀ event ∈ ["DELETE", "UPDATE"], IsPlain event := by decide
  have hclash : ∀ event ∈ ["DELETE", "UPDATE"], ∀ other ∈ clauseWords, Clash [other] [event] := by
    decide
  have htypes := events_type_append htype hgap'.2 (hbegins.stops_word hrest) fun event hevent =>
    hbegins.not_leads hrest (hplain event hevent) (hclash event hevent)
  intro u v heq hu
  have hunblank : ∀ c ∈ u, (!isBlank c) = true := fun c hc => by simp [hu c hc]
  have hp : ∀ c, isBlank c = true → (!isBlank c) = false := fun c hc => by simp [hc]
  obtain rfl | hne := eq_or_ne gap []
  · -- Without blanks the target may go on into the name, but not over its end.
    rw [List.nil_append] at heq
    obtain ⟨left, hleft, rfl⟩ := exists_append_of_stops hunblank (stops_of_blanks hp hgap') heq
    obtain rfl | hne := eq_or_ne left []
    · exact htypes
    · exact events_word_append ⟨hne, fun c hc => hname.1.2 c (by simp [hleft, hc])⟩
  · obtain ⟨left, hleft, rfl⟩ := exists_append_of_stops (w := []) hunblank
      (stops_of_blanks hp ⟨hne, hgap⟩) heq
    obtain ⟨-, rfl⟩ := List.nil_eq_append_iff.mp hleft
    rw [List.nil_append]
    exact events_eq_none_of_word hname.1 hgap (Form.stops_word_of_blanks hgap')
      fun hon => absurd hon (not_mem_keyword_of_isName hname)

/-! ## Bodies of definitions -/

/-- The text of a column with its clauses. -/
def definition (column : Column) : Language Char :=
  field column * clauseTexts

/-- Texts of the given forms, each of them but the last with a comma directly behind. -/
def chained : List (Language Char) → Language Char
  | [] => 1
  | [item] => item
  | item :: next :: more => item * ({[',']} * (space * chained (next :: more)))

/-- A body of definitions, between blanks. -/
def definitions (columns : List Column) : Language Char :=
  space * (chained (columns.map definition) * space)

theorem mem_chained_cons {item next : Language Char} {items : List (Language Char)} :
    w ∈ chained (item :: next :: items) ↔ ∃ v ∈ item, ∃ gap ∈ space,
      ∃ more ∈ chained (next :: items), w = v ++ ',' :: (gap ++ more) := by
  constructor
  · intro hw
    obtain ⟨v, hv, _, h₁, rfl⟩ := Language.mem_mul.mp hw
    obtain ⟨_, rfl, _, h₂, rfl⟩ := Language.mem_mul.mp h₁
    obtain ⟨gap, hgap, more, hmore, rfl⟩ := Language.mem_mul.mp h₂
    exact ⟨v, hv, gap, hgap, more, hmore, by simp⟩
  · rintro ⟨v, hv, gap, hgap, more, hmore, rfl⟩
    exact Language.append_mem_mul hv
      (Language.append_mem_mul (a := [',']) rfl (Language.append_mem_mul hgap hmore))

theorem exists_front_of_chained {item : Language Char} {items : List (Language Char)}
    (hw : w ∈ chained (item :: items)) (hgap : gap ∈ space) :
    ∃ v ∈ item, ∃ rest, IsStop rest ∧ w ++ gap = v ++ rest := by
  cases items with
  | nil => exact ⟨w, hw, gap, Or.inl hgap, rfl⟩
  | cons next items =>
    obtain ⟨v, hv, between, -, more, -, rfl⟩ := mem_chained_cons.mp hw
    exact ⟨v, hv, ',' :: (between ++ more ++ gap), Or.inr ⟨_, rfl⟩, by simp⟩

theorem suffix_of_ending (h : ending rest = some s) : s <:+ rest := by
  obtain hspace | ⟨tail, rfl⟩ := isStop_of_ending h
  · rw [ending_of_space hspace] at h
    cases h
    exact List.nil_suffix
  · cases h
    exact List.suffix_cons ..

/-- Texts in which the search finds one column, up to the comma behind them, and over which no
reference in front of them goes on. -/
structure Defines (texts : Language Char) (Gives : Column → Prop) : Prop where
  found : ∀ w ∈ texts, ∀ rest s, ending rest = some s →
    (∀ tail, rest = ',' :: tail → Refuses tail) →
    ∃ column, Gives column ∧ occurrences read (w ++ rest) = column :: occurrences read s
  refuses : ∀ w ∈ texts, ∀ gap ∈ space, ∀ rest, IsStop rest → Refuses (gap ++ (w ++ rest))

/-- A list of definitions gives one column for each of them. -/
theorem forall₂_occurrences_chained {α : Type} {items : List α} {texts : α → Language Char}
    {Gives : α → Column → Prop} (h : ∀ a ∈ items, Defines (texts a) (Gives a))
    (hw : w ∈ chained (items.map texts)) (hgap : gap ∈ space) :
    List.Forall₂ Gives items (occurrences read (w ++ gap)) := by
  induction items generalizing w with
  | nil =>
    obtain rfl : w = [] := hw
    rw [List.nil_append, ← List.append_nil gap, occurrences_space_append hgap]
    exact .nil
  | cons a more ih =>
    rw [List.forall_mem_cons] at h
    cases more with
    | nil =>
      have hover : ∀ tail, gap = ',' :: tail → Refuses tail := by
        rintro tail rfl
        exact absurd (hgap ',' (by simp)) (by decide)
      obtain ⟨column, hcolumn, heq⟩ := h.1.found w hw gap [] (ending_of_space hgap) hover
      rw [heq]
      exact .cons hcolumn .nil
    | cons b more =>
      obtain ⟨v, hv, between, hbetween, w', hw', rfl⟩ := mem_chained_cons.mp hw
      have hover : ∀ tail, ',' :: (between ++ (w' ++ gap)) = ',' :: tail → Refuses tail := by
        rintro _ ⟨⟩
        obtain ⟨front, hfront, rest, hrest, heq⟩ := exists_front_of_chained hw' hgap
        rw [heq]
        exact (h.2 b (by simp)).refuses front hfront between hbetween rest hrest
      obtain ⟨column, hcolumn, heq⟩ := h.1.found v hv _ _ rfl hover
      rw [List.append_assoc, List.cons_append, List.append_assoc, heq,
        occurrences_space_append hbetween]
      exact .cons hcolumn (ih h.2 hw')

/-- A definition is read up to its comma, or up to the end. -/
theorem defines_definition (hname : IsName column.name)
    (htype : column.typeText.toList ∈ typeToken) : Defines (definition column) (column = ·) := by
  refine ⟨fun w hw rest s hrest hover => ?_, fun w hw gap hgap rest hrest => ?_⟩
  · obtain ⟨_, hfield, clause, hclause, rfl⟩ := Language.mem_mul.mp hw
    obtain ⟨_, rfl, _, h₁, rfl⟩ := Language.mem_mul.mp hfield
    obtain ⟨gap, hgap, _, rfl, rfl⟩ := Language.mem_mul.mp h₁
    have hstop := isStop_of_ending hrest
    have hbegins := beginsClause_of_texts hclause
    have hread := read_of_clauses hname.1 hgap htype (hbegins.stops_word hstop)
      (hbegins.head_ne_paren hstop) (clauses_of_texts hclause hrest hover)
    rw [String.ofList_toList, String.ofList_toList] at hread
    obtain ⟨c, name, hcons⟩ := List.exists_cons_of_ne_nil hname.1.1
    rw [hcons, List.cons_append] at hread
    simp only [hcons, List.append_assoc, List.cons_append]
    refine ⟨column, rfl, occurrences_of_some hread ((suffix_of_ending hrest).trans ?_)⟩
    exact ⟨name ++ (gap ++ (column.typeText.toList ++ clause)), by simp⟩
  · obtain ⟨v, hfield, clause, hclause, rfl⟩ := Language.mem_mul.mp hw
    rw [List.append_assoc]
    exact refuses_field hname htype hgap hfield (beginsClause_of_texts hclause) hrest

/-- The columns of a body of definitions are those that it defines, but for the constraints. -/
theorem ofBody_of_definitions (hname : ∀ column ∈ columns, IsName column.name)
    (htype : ∀ column ∈ columns, column.typeText.toList ∈ typeToken)
    (hw : w ∈ definitions columns) :
    ofBody w = columns.filter fun column => ¬ NamesConstraint column.name := by
  obtain ⟨gap, hgap, _, h₁, rfl⟩ := Language.mem_mul.mp hw
  obtain ⟨v, hv, gap', hgap', rfl⟩ := Language.mem_mul.mp h₁
  have hfound := forall₂_occurrences_chained
    (fun column hmem => defines_definition (hname column hmem) (htype column hmem)) hv hgap'
  rw [List.forall₂_eq_eq_eq] at hfound
  rw [ofBody, occurrences_space_append hgap, ← hfound]
  apply List.filter_congr
  intro column _
  simp [← isConstraint_iff]

theorem append_mem_definition (column : Column) {option target delete update : List Char}
    (hgap : gap ∈ blanks) (hoption : option ∈ 1 + notNullClause + defaultClause)
    (htarget : target ∈ 1 + referencesClause)
    (hdelete : delete ∈ 1 + eventClause "DELETE") (hupdate : update ∈ updateTexts) :
    column.name.toList ++ (gap ++ column.typeText.toList) ++
      (option ++ (target ++ (delete ++ update))) ∈ definition column :=
  Language.append_mem_mul (Language.append_mem_mul rfl (Language.append_mem_mul hgap rfl))
    (Language.append_mem_mul hoption (Language.append_mem_mul htarget
      (Language.append_mem_mul hdelete hupdate)))

/-- A reference directly in front of a comma, a default that spells an event, and a constraint. -/
theorem ofBody_of_definitions_reference :
    ofBody ("owner INT REFERENCES users,kind NUMERIC(4, 2) default on delete," ++
        " primary KEY not null\n").toList = [⟨"owner", "INT"⟩, ⟨"kind", "NUMERIC(4, 2)"⟩] := by
  have htype : ∀ column ∈ [(⟨"owner", "INT"⟩ : Column), ⟨"kind", "NUMERIC(4, 2)"⟩,
      ⟨"primary", "KEY"⟩], column.typeText.toList ∈ typeToken := by
    rw [List.forall_mem_cons, List.forall_mem_cons, List.forall_mem_singleton]
    exact ⟨Or.inl (Form.mem_word_of_ascii (by decide)),
      Or.inr ⟨"NUMERIC".toList, Form.mem_word_of_ascii (by decide), "4, 2".toList, by decide,
        by decide⟩,
      Or.inl (Form.mem_word_of_ascii (by decide))⟩
  have hreference : [' '] ++ ("REFERENCES".toList ++ ([' '] ++ "users".toList)) ∈
      referencesClause :=
    Language.append_mem_mul (by decide) (Language.append_mem_mul (by decide)
      (Language.append_mem_mul (by decide) (Form.mem_word_of_ascii (by decide))))
  have hdefault : [' '] ++ ("default".toList ++ " on delete".toList) ∈ defaultClause :=
    Language.append_mem_mul (by decide) (Language.append_mem_mul (by decide) (by decide))
  have hnotNull : [' '] ++ ("not".toList ++ ([' '] ++ "null".toList)) ∈ notNullClause :=
    Language.append_mem_mul (by decide) (Language.append_mem_mul (by decide)
      (Language.append_mem_mul (by decide) (by decide)))
  have hblank : [' '] ∈ blanks := by decide
  have howner := append_mem_definition ⟨"owner", "INT"⟩ hblank (Or.inl (Or.inl rfl))
    (Or.inr hreference) (Or.inl rfl) (Or.inl rfl)
  have hkind := append_mem_definition ⟨"kind", "NUMERIC(4, 2)"⟩ hblank (Or.inr hdefault)
    (Or.inl rfl) (Or.inl rfl) (Or.inl rfl)
  have hprimary := append_mem_definition ⟨"primary", "KEY"⟩ hblank (Or.inl (Or.inr hnotNull))
    (Or.inl rfl) (Or.inl rfl) (Or.inl rfl)
  have hbody : _ ∈ definitions [⟨"owner", "INT"⟩, ⟨"kind", "NUMERIC(4, 2)"⟩, ⟨"primary", "KEY"⟩] :=
    Language.append_mem_mul Form.nil_mem_space (Language.append_mem_mul
      (mem_chained_cons.mpr ⟨_, howner, [], Form.nil_mem_space, _,
        mem_chained_cons.mpr ⟨_, hkind, [' '], by decide, _, hprimary, rfl⟩, rfl⟩)
      (show ['\n'] ∈ space by decide))
  exact (ofBody_of_definitions (by decide +kernel) htype hbody).trans (by decide)

end SchemaChange.Column
