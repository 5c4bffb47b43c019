import SchemaChange.Proofs.Diversion

/-!
# The usual clauses

Columns with the clauses that table definitions usually have: `NOT NULL` and a default together, and
actions of two words. These are more than the reader of columns knows. Such a column is not found;
in its place two words of its clauses are read as a column.
-/

namespace SchemaChange.Column

open SchemaChange.Text
open Form (keyword blanks space IsPlain)

/-- What happens to a row when the row that it refers to is deleted or updated. -/
inductive Action where
  | cascade
  | restrict
  | setNull
  | setDefault
  | noAction
  deriving DecidableEq

def Action.words : Action → List String
  | .cascade => ["CASCADE"]
  | .restrict => ["RESTRICT"]
  | .setNull => ["SET", "NULL"]
  | .setDefault => ["SET", "DEFAULT"]
  | .noAction => ["NO", "ACTION"]

/-- A column with its clauses, each of which may be absent. -/
structure Usual where
  column : Column
  notNull : Bool
  default : Option String
  target : Option String
  onDelete : Option Action
  onUpdate : Option Action

/-- Keywords, each of them with blanks in front. -/
def spaced : List String → Language Char
  | [] => 1
  | letters :: more => blanks * (keyword letters * spaced more)

/-- A keyword and a word behind it, or nothing. -/
def wordClause (letters : String) : Option String → Language Char
  | none => 1
  | some value => blanks * (keyword letters * (blanks * {value.toList}))

def actionClause (event : String) : Option Action → Language Char
  | none => 1
  | some action => spaced ("ON" :: event :: action.words)

namespace Usual

/-- The text of the clauses, in their usual order. -/
def clauseTexts (d : Usual) : Language Char :=
  (if d.notNull then spaced ["NOT", "NULL"] else 1) * (wordClause "DEFAULT" d.default *
    (wordClause "REFERENCES" d.target *
      (actionClause "DELETE" d.onDelete * actionClause "UPDATE" d.onUpdate)))

def texts (d : Usual) : Language Char :=
  field d.column * d.clauseTexts

/-- The two words of an event and its action that are read as a column. -/
def strayWords (event : String) : Option Action → Option (String × String)
  | some .setNull => some ("SET", "NULL")
  | some .setDefault => some (event, "SET")
  | some .noAction => some ("NO", "ACTION")
  | _ => none

/-- The two words of the actions that are read as a column. A default reads on up to the comma, so
the action on updating only counts if there is none on deleting. -/
def strayOfActions (onDelete onUpdate : Option Action) : Option (String × String) :=
  if onDelete = some .setDefault then strayWords "DELETE" onDelete
  else strayWords "UPDATE" onUpdate <|> strayWords "DELETE" onDelete

/-- The two words of the clauses that are read as a column in place of the definition. -/
def stray (d : Usual) : Option (String × String) :=
  if d.default.isSome then (if d.notNull then some ("NOT", "NULL") else none)
  else strayOfActions d.onDelete d.onUpdate

end Usual

variable {action : Action} {event letters other : String} {words : List String}
  {gap key rest s text v w : List Char} {Gives : Column → Prop}

/-- The column is made of the two words. -/
def Spells (words : String × String) (column : Column) : Prop :=
  column.name.toList ∈ keyword words.1 ∧ column.typeText.toList ∈ keyword words.2

/-- What a definition gives: its column, or the two words of its clauses that are read instead. -/
def Usual.Yields (d : Usual) (column : Column) : Prop :=
  match d.stray with
  | none => d.column = column
  | some pair => Spells pair column

/-! ## Clauses in front of what the search finds -/

theorem mem_spaced_cons : w ∈ spaced (letters :: words) ↔ ∃ gap ∈ blanks, ∃ key ∈ keyword letters,
    ∃ v ∈ spaced words, w = gap ++ (key ++ v) := by
  constructor
  · intro hw
    obtain ⟨gap, hgap, _, h₁, rfl⟩ := Language.mem_mul.mp hw
    obtain ⟨key, hkey, v, hv, rfl⟩ := Language.mem_mul.mp h₁
    exact ⟨gap, hgap, key, hkey, v, hv, rfl⟩
  · rintro ⟨gap, hgap, key, hkey, v, hv, rfl⟩
    exact Language.append_mem_mul hgap (Language.append_mem_mul hkey hv)

theorem mem_spaced_singleton : w ∈ spaced [letters] ↔ ∃ gap ∈ blanks, ∃ key ∈ keyword letters,
    w = gap ++ key := by
  rw [mem_spaced_cons]
  constructor
  · rintro ⟨gap, hgap, key, hkey, v, rfl, rfl⟩
    exact ⟨gap, hgap, key, hkey, by simp⟩
  · rintro ⟨gap, hgap, key, hkey, rfl⟩
    exact ⟨gap, hgap, key, hkey, [], rfl, by simp⟩

/-- A keyword inside a clause is passed over. -/
theorem Diverts.of_keyword (h : Diverts s Gives rest) (hgap : gap ∈ blanks)
    (hletters : letters ∈ innerWords) (hkey : key ∈ keyword letters) :
    Diverts (gap ++ (key ++ s)) Gives rest :=
  h.of_passes hgap (passes_of_keyword (by simp [hletters]) hkey h.parted h.refuses)
    ((inert_of_keyword hletters hkey).refuses hgap h.parted.stops_word)

theorem Diverts.of_spaced (h : Diverts s Gives rest)
    (hwords : ∀ letters ∈ words, letters ∈ innerWords) (hw : w ∈ spaced words) :
    Diverts (w ++ s) Gives rest := by
  induction words generalizing w with
  | nil =>
    obtain rfl : w = [] := hw
    exact h
  | cons letters words ih =>
    obtain ⟨gap, hgap, key, hkey, v, hv, rfl⟩ := mem_spaced_cons.mp hw
    rw [List.forall_mem_cons] at hwords
    rw [List.append_assoc, List.append_assoc]
    exact (ih hwords.2 hv).of_keyword hgap hwords.1 hkey

theorem Diverts.of_notNull (h : Diverts s Gives rest) (hw : w ∈ spaced ["NOT", "NULL"]) :
    Diverts (w ++ s) Gives rest := by
  obtain ⟨gap, hgap, not, hnot, v, hv, rfl⟩ := mem_spaced_cons.mp hw
  have hnulls := h.of_spaced (by decide) hv
  obtain ⟨gap', hgap', null, hnull, rfl⟩ := mem_spaced_singleton.mp hv
  simp only [List.append_assoc] at hnulls ⊢
  exact hnulls.of_passes hgap
    (passes_of_keyword (by decide) hnot hnulls.parted hnulls.refuses)
    (notNull_refuses hgap hnot hgap' hnull (tail_eq_none_of_clauses h.parted h.refuses))

theorem Diverts.of_target {target : String} (h : Diverts s Gives rest)
    (htarget : Inert target.toList) (hnull : ¬ Leads ["NULL"] s)
    (hw : w ∈ wordClause "REFERENCES" (some target)) :
    Diverts (w ++ s) Gives rest := by
  obtain ⟨gap, hgap, _, h₁, rfl⟩ := Language.mem_mul.mp hw
  obtain ⟨key, hkey, _, h₂, rfl⟩ := Language.mem_mul.mp h₁
  obtain ⟨gap', hgap', _, rfl, rfl⟩ := Language.mem_mul.mp h₂
  simp only [List.append_assoc]
  have htargets := h.of_passes hgap' (htarget.passes h.parted h.refuses (Or.inr hnull))
    (htarget.refuses hgap' h.parted.stops_word)
  exact htargets.of_passes hgap
    (passes_of_keyword (by decide) hkey htargets.parted htargets.refuses)
    (references_refuses hgap hkey hgap' htarget.word h.parted h.refuses)

theorem event_mem_innerWords (h : event = "DELETE" ∨ event = "UPDATE") : event ∈ innerWords := by
  obtain rfl | rfl := h
  all_goals decide

/-- Behind `ON` the search finds what it finds from the event on, if no other event follows. -/
theorem Diverts.of_on {on : List Char} (h : Diverts (w ++ s) Gives rest)
    (hevent : event = "DELETE" ∨ event = "UPDATE") (hgap : gap ∈ blanks) (hon : on ∈ keyword "ON")
    (hw : w ∈ spaced [event, letters]) (hletters : letters ∈ innerWords) (hs : Parted s)
    (hevents : events s = none) : Diverts (gap ++ (on ++ (w ++ s))) Gives rest := by
  obtain ⟨gap', hgap', key, hkey, v, hv, rfl⟩ := mem_spaced_cons.mp hw
  obtain ⟨gap'', hgap'', first, hfirst, rfl⟩ := mem_spaced_singleton.mp hv
  have hword := Form.keyword_subset_word (isPlain_of_innerWords letters hletters) hfirst
  simp only [List.append_assoc] at h ⊢
  exact h.of_passes hgap (passes_of_keyword (by decide) hon h.parted h.refuses)
    (event_refuses hevent hgap hon hgap' hkey hgap'' hword hs hevents)

/-- An action is passed over on the way to what is found behind it. -/
theorem Diverts.of_action (h : Diverts s Gives rest) (hevent : event = "DELETE" ∨ event = "UPDATE")
    (haction : action ≠ .setDefault) (hw : w ∈ actionClause event (some action)) :
    Diverts (w ++ s) Gives rest := by
  obtain ⟨letters, words, hcons, hletters, hwords⟩ : ∃ letters words,
      action.words = letters :: words ∧ letters ∈ innerWords ∧
        ∀ word ∈ words, word ∈ innerWords := by
    cases action with
    | setDefault => exact absurd rfl haction
    | _ => exact ⟨_, _, rfl, by decide, by decide⟩
  rw [actionClause, hcons] at hw
  obtain ⟨gap, hgap, on, hon, _, h₁, rfl⟩ := mem_spaced_cons.mp hw
  obtain ⟨gap', hgap', key, hkey, _, h₂, rfl⟩ := mem_spaced_cons.mp h₁
  obtain ⟨gap'', hgap'', first, hfirst, v, hv, rfl⟩ := mem_spaced_cons.mp h₂
  have hbehind := h.of_spaced hwords hv
  have hspaced : gap' ++ (key ++ (gap'' ++ first)) ∈ spaced [event, letters] :=
    mem_spaced_cons.mpr ⟨gap', hgap', key, hkey, _,
      mem_spaced_singleton.mpr ⟨gap'', hgap'', first, hfirst, rfl⟩, rfl⟩
  have hevents := hbehind.of_spaced (by simp [event_mem_innerWords hevent, hletters]) hspaced
  have hon := hevents.of_on hevent hgap hon hspaced hletters hbehind.parted
    (events_eq_none_of_clauses hbehind.parted hbehind.refuses)
  simpa using hon

/-! ## What the search finds -/

/-- Two keywords inside a clause are read as a column, if what follows them can be. -/
theorem diverts_of_keywords {gap' first second : List Char}
    (hgap : gap ∈ blanks) (hletters : letters ∈ "NOT" :: "REFERENCES" :: "ON" :: innerWords)
    (hfirst : first ∈ keyword letters)
    (hgap' : gap' ∈ blanks) (hother : other ∈ innerWords) (hsecond : second ∈ keyword other)
    (hs : Stops isWord s) (hparen : s.head? ≠ some '(') (hread : clauses s = some rest)
    (hrest : rest <:+ s) (hrefuses : clauses (gap ++ (first ++ (gap' ++ (second ++ s)))) = none) :
    Diverts (gap ++ (first ++ (gap' ++ (second ++ s)))) (Spells (letters, other)) rest := by
  have hinert := inert_of_keyword hother hsecond
  have hparted : Parted (gap' ++ (second ++ s)) := parted_append hgap'
  exact diverts_of_clauses hgap
    (passes_of_keyword hletters hfirst hparted (hinert.refuses hgap' hs)) hgap' hinert.word hs
    hparen hread hrest hrefuses ⟨by simpa using hfirst, by simpa using hsecond⟩

/-- The two words of an action are read as a column, if what follows the action can be. -/
theorem diverts_of_twoWords (hevent : event = "DELETE" ∨ event = "UPDATE")
    (hletters : letters ∈ innerWords) (hother : other ∈ innerWords)
    (hw : w ∈ spaced ["ON", event, letters, other]) (hs : Stops isWord s)
    (hparen : s.head? ≠ some '(') (hread : clauses s = some rest) (hrest : rest <:+ s) :
    Diverts (w ++ s) (Spells (letters, other)) rest := by
  obtain ⟨gap, hgap, on, hon, _, h₁, rfl⟩ := mem_spaced_cons.mp hw
  obtain ⟨gap', hgap', key, hkey, _, h₂, rfl⟩ := mem_spaced_cons.mp h₁
  obtain ⟨gap'', hgap'', first, hfirst, _, h₃, rfl⟩ := mem_spaced_cons.mp h₂
  obtain ⟨gap₃, hgap₃, second, hsecond, rfl⟩ := mem_spaced_singleton.mp h₃
  have hparted : Parted (gap₃ ++ (second ++ s)) := parted_append hgap₃
  have hbehind := (inert_of_keyword hother hsecond).refuses hgap₃ hs
  have hpair : Diverts (gap'' ++ (first ++ (gap₃ ++ (second ++ s)))) (Spells (letters, other))
      rest :=
    diverts_of_keywords hgap'' (by simp [hletters]) hfirst hgap₃ hother hsecond hs hparen hread
      hrest ((inert_of_keyword hletters hfirst).refuses hgap'' hparted.stops_word)
  have hspaced : gap' ++ (key ++ (gap'' ++ first)) ∈ spaced [event, letters] :=
    mem_spaced_cons.mpr ⟨gap', hgap', key, hkey, _,
      mem_spaced_singleton.mpr ⟨gap'', hgap'', first, hfirst, rfl⟩, rfl⟩
  have hkeys := hpair.of_keyword hgap' (event_mem_innerWords hevent) hkey
  have hwhole := Diverts.of_on (by simpa using hkeys) hevent hgap hon hspaced hletters hparted
    (events_eq_none_of_clauses hparted hbehind)
  simpa using hwhole

/-- The text of a default up to the end of its column. -/
structure IsDefault (s rest : List Char) : Prop where
  parted : Parted s
  read : clauses s = some rest
  suffix : rest <:+ s
  tail : clauses.tail s = none

theorem isDefault_append {default : List Char} (hgap : gap ∈ blanks)
    (hdefault : default ∈ keyword "DEFAULT") (htext : ',' ∉ text) (hs : Stops isWord (text ++ s))
    (hrest : ending s = some rest) : IsDefault (gap ++ (default ++ (text ++ s))) rest where
  parted := parted_append hgap
  read := clauses_of_default hgap hdefault htext hrest
  suffix := (suffix_of_ending hrest).trans ⟨gap ++ (default ++ text), by simp⟩
  tail := by
    have hword := Form.keyword_subset_word (by decide) hdefault
    refine (optional_of_none (references_word_eq_none hgap hword hs
      (not_mem_of_keyword (by decide) (by decide) hdefault (by decide)))).trans ?_
    exact events_eq_none_of_word hword hgap.2 hs fun hon =>
      absurd hon (not_mem_of_keyword (by decide) (by decide) hdefault (by decide))

/-- In front of a default, `NOT NULL` is read as a column. -/
theorem diverts_of_notNull (h : IsDefault s rest) (hw : w ∈ spaced ["NOT", "NULL"]) :
    Diverts (w ++ s) (Spells ("NOT", "NULL")) rest := by
  obtain ⟨gap, hgap, not, hnot, v, hv, rfl⟩ := mem_spaced_cons.mp hw
  obtain ⟨gap', hgap', null, hnull, rfl⟩ := mem_spaced_singleton.mp hv
  simp only [List.append_assoc]
  exact diverts_of_keywords hgap (by decide) hnot hgap' (by decide) hnull h.parted.stops_word
    h.parted.head_ne_paren h.read h.suffix (notNull_refuses hgap hnot hgap' hnull h.tail)

/-- In front of a default, the event and `SET` are read as a column. -/
theorem diverts_of_setDefault (h : IsDefault s rest) (hevent : event = "DELETE" ∨ event = "UPDATE")
    (hw : w ∈ spaced ["ON", event, "SET"]) : Diverts (w ++ s) (Spells (event, "SET")) rest := by
  obtain ⟨gap, hgap, on, hon, v, hv, rfl⟩ := mem_spaced_cons.mp hw
  obtain ⟨gap', hgap', key, hkey, _, h₂, rfl⟩ := mem_spaced_cons.mp hv
  obtain ⟨gap'', hgap'', first, hfirst, rfl⟩ := mem_spaced_singleton.mp h₂
  have hset : "SET" ∈ innerWords := by decide
  have hinner := event_mem_innerWords hevent
  have hpair : Diverts (gap' ++ (key ++ (gap'' ++ (first ++ s)))) (Spells (event, "SET")) rest :=
    diverts_of_keywords hgap' (by simp [hinner]) hkey hgap'' hset hfirst h.parted.stops_word
      h.parted.head_ne_paren h.read h.suffix
      ((inert_of_keyword hinner hkey).refuses hgap' (parted_append hgap'').stops_word)
  have hwhole := Diverts.of_on (by simpa using hpair) hevent hgap hon hv hset h.parted
    (eq_none_of_optional h.tail)
  simpa using hwhole

/-! ## The clauses of a column -/

theorem mem_spaced_append {more : List String} : w ∈ spaced (words ++ more) ↔
    ∃ u ∈ spaced words, ∃ v ∈ spaced more, w = u ++ v := by
  induction words generalizing w with
  | nil =>
    constructor
    · exact fun hw => ⟨[], rfl, w, hw, rfl⟩
    · rintro ⟨_, rfl, v, hv, rfl⟩
      exact hv
  | cons letters words ih =>
    simp only [List.cons_append, mem_spaced_cons, ih]
    constructor
    · rintro ⟨gap, hgap, key, hkey, _, ⟨u, hu, v, hv, rfl⟩, rfl⟩
      exact ⟨_, ⟨gap, hgap, key, hkey, u, hu, rfl⟩, v, hv, by simp⟩
    · rintro ⟨_, ⟨gap, hgap, key, hkey, u, hu, rfl⟩, v, hv, rfl⟩
      exact ⟨gap, hgap, key, hkey, _, ⟨u, hu, v, hv, rfl⟩, by simp⟩

theorem wording_of_spaced (hplain : ∀ letters ∈ words, IsPlain letters) (hw : w ∈ spaced words) :
    w ∈ Form.wording := by
  induction words generalizing w with
  | nil =>
    obtain rfl : w = [] := hw
    exact Form.wording_of_space Form.nil_mem_space
  | cons letters words ih =>
    rw [List.forall_mem_cons] at hplain
    obtain ⟨gap, hgap, key, hkey, v, hv, rfl⟩ := mem_spaced_cons.mp hw
    exact Form.wording_append (Form.wording_of_space hgap.2) (Form.wording_append
      (Form.wording_of_word (Form.keyword_subset_word hplain.1 hkey)) (ih hplain.2 hv))

theorem wording_of_wordClause {value : Option String} (hplain : IsPlain letters)
    (hvalue : ∀ word ∈ value, word.toList ∈ Form.word) (hw : w ∈ wordClause letters value) :
    w ∈ Form.wording := by
  cases value with
  | none =>
    obtain rfl : w = [] := hw
    exact Form.wording_of_space Form.nil_mem_space
  | some value =>
    obtain ⟨gap, hgap, _, h₁, rfl⟩ := Language.mem_mul.mp hw
    obtain ⟨key, hkey, _, h₂, rfl⟩ := Language.mem_mul.mp h₁
    obtain ⟨gap', hgap', _, rfl, rfl⟩ := Language.mem_mul.mp h₂
    exact Form.wording_append (Form.wording_of_space hgap.2) (Form.wording_append
      (Form.wording_of_word (Form.keyword_subset_word hplain hkey)) (Form.wording_append
        (Form.wording_of_space hgap'.2) (Form.wording_of_word (hvalue value rfl))))

theorem wording_of_actionClause {action : Option Action} (hplain : IsPlain event)
    (hw : w ∈ actionClause event action) : w ∈ Form.wording := by
  cases action with
  | none =>
    obtain rfl : w = [] := hw
    exact Form.wording_of_space Form.nil_mem_space
  | some action =>
    refine wording_of_spaced ?_ hw
    have hwords : ∀ letters ∈ action.words, IsPlain letters := by
      cases action
      all_goals decide
    simp only [List.forall_mem_cons]
    exact ⟨by decide, hplain, hwords⟩

theorem not_mem_comma (hw : w ∈ Form.wording) : ',' ∉ w :=
  Form.not_mem_of_wording hw (by decide) (by decide)

theorem beginsClause_of_wordClause {value : Option String} (hletters : letters ∈ clauseWords)
    (hw : w ∈ wordClause letters value) : BeginsClause w := by
  cases value with
  | none => exact Or.inl hw
  | some value => exact beginsClause_of_mul hletters hw

theorem beginsClause_of_actionClause {action : Option Action} (hw : w ∈ actionClause event action) :
    BeginsClause w := by
  cases action with
  | none => exact Or.inl hw
  | some action => exact beginsClause_of_mul (show "ON" ∈ clauseWords by decide) hw

/-! ## Actions that are not read -/

variable {pair : String × String} {onDelete onUpdate : Option Action} {t : List Char}

theorem diverts_of_strayWords (hevent : event = "DELETE" ∨ event = "UPDATE")
    (hw : w ∈ actionClause event (some action))
    (hstray : Usual.strayWords event (some action) = some pair) (hbegins : BeginsClause v)
    (hcomma : ',' ∉ v) (hrest : ending rest = some t)
    (hread : action ≠ .setDefault → clauses (v ++ rest) = some t) :
    Diverts (w ++ (v ++ rest)) (Spells pair) t := by
  have hstop := isStop_of_ending hrest
  have hs := hbegins.stops_word hstop
  have hsuffix : t <:+ v ++ rest := (suffix_of_ending hrest).trans (List.suffix_append v rest)
  cases action with
  | cascade => cases hstray
  | restrict => cases hstray
  | setNull =>
    obtain rfl := Option.some.inj hstray
    exact diverts_of_twoWords hevent (by decide) (by decide) hw hs (hbegins.head_ne_paren hstop)
      (hread (by decide)) hsuffix
  | noAction =>
    obtain rfl := Option.some.inj hstray
    exact diverts_of_twoWords hevent (by decide) (by decide) hw hs (hbegins.head_ne_paren hstop)
      (hread (by decide)) hsuffix
  | setDefault =>
    obtain rfl := Option.some.inj hstray
    obtain ⟨u, hu, _, h₁, rfl⟩ :=
      mem_spaced_append.mp (show w ∈ spaced (["ON", event, "SET"] ++ ["DEFAULT"]) from hw)
    obtain ⟨gap, hgap, default, hdefault, rfl⟩ := mem_spaced_singleton.mp h₁
    simp only [List.append_assoc]
    exact diverts_of_setDefault (isDefault_append hgap hdefault hcomma hs hrest) hevent hu

/-- An action that is read is one word. -/
theorem mem_eventClause_of_strayWords (hw : w ∈ actionClause event onDelete)
    (hstray : Usual.strayWords event onDelete = none) : w ∈ 1 + eventClause event := by
  have hword : ∀ letters ∈ innerWords, ∀ w ∈ spaced ["ON", event, letters],
      w ∈ eventClause event := by
    intro letters hletters w hw
    obtain ⟨gap, hgap, on, hon, _, h₁, rfl⟩ := mem_spaced_cons.mp hw
    obtain ⟨gap', hgap', key, hkey, _, h₂, rfl⟩ := mem_spaced_cons.mp h₁
    obtain ⟨gap'', hgap'', first, hfirst, rfl⟩ := mem_spaced_singleton.mp h₂
    exact Language.append_mem_mul hgap (Language.append_mem_mul hon (Language.append_mem_mul hgap'
      (Language.append_mem_mul hkey (Language.append_mem_mul hgap''
        (Form.keyword_subset_word (isPlain_of_innerWords letters hletters) hfirst)))))
  cases onDelete with
  | none => exact Or.inl hw
  | some action =>
    cases action with
    | cascade => exact Or.inr (hword "CASCADE" (by decide) w hw)
    | restrict => exact Or.inr (hword "RESTRICT" (by decide) w hw)
    | setNull => cases hstray
    | setDefault => cases hstray
    | noAction => cases hstray

theorem diverts_of_actions (hdelete : v ∈ actionClause "DELETE" onDelete)
    (hupdate : w ∈ actionClause "UPDATE" onUpdate)
    (hstray : Usual.strayOfActions onDelete onUpdate = some pair) (hrest : ending rest = some t)
    (hover : ∀ tail, rest = ',' :: tail → Refuses tail) :
    Diverts (v ++ (w ++ rest)) (Spells pair) t := by
  have hcomma := not_mem_comma (wording_of_actionClause (by decide) hupdate)
  have hbegins := beginsClause_of_actionClause hupdate
  unfold Usual.strayOfActions at hstray
  split at hstray
  · -- `DEFAULT` takes the action on updating as its text, whatever that is.
    rename_i hdefault
    subst hdefault
    exact diverts_of_strayWords (Or.inl rfl) hdelete hstray hbegins hcomma hrest
      fun hne => absurd rfl hne
  · rename_i hne
    cases hfirst : Usual.strayWords "UPDATE" onUpdate with
    | some found =>
      rw [hfirst] at hstray
      obtain rfl := Option.some.inj hstray
      -- The action on deleting is not read in front of one that is not, and is passed over.
      have hfound : Diverts (w ++ rest) (Spells found) t := by
        cases onUpdate with
        | none => cases hfirst
        | some action =>
          exact diverts_of_strayWords (Or.inr rfl) hupdate hfirst beginsClause_nil (by simp) hrest
            fun _ => clauses_of_stop hrest
      cases onDelete with
      | none =>
        obtain rfl : v = [] := hdelete
        exact hfound
      | some action => exact hfound.of_action (Or.inl rfl) (by rintro rfl; exact hne rfl) hdelete
    | none =>
      rw [hfirst] at hstray
      have hread : clauses (w ++ rest) = some t := by
        refine clauses_of_texts ?_ hrest hover
        exact Language.append_mem_mul (a := []) (Or.inl (Or.inl rfl))
          (Language.append_mem_mul (a := []) (Or.inl rfl) (Language.append_mem_mul (a := [])
            (Or.inl rfl) (mem_eventClause_of_strayWords hupdate hfirst)))
      cases onDelete with
      | none => cases hstray
      | some action =>
        exact diverts_of_strayWords (Or.inl rfl) hdelete hstray hbegins hcomma hrest fun _ => hread

end SchemaChange.Column
