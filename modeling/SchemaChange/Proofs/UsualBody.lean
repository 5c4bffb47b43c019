import SchemaChange.Proofs.UsualColumn

/-!
# Bodies of usual definitions

The body of a table whose columns have the usual clauses gives one column for each definition: the
one defined, or two words of the clauses, where these are more than the reader of columns knows.
Only such words make a difference; nothing else in a definition is read as a column.
-/

namespace SchemaChange.Column

open SchemaChange.Text
open Form (keyword blanks space IsPlain)

variable {d : Usual} {event letters : String} {pair : String × String}
  {onDelete onUpdate : Option Action} {rest t v w : List Char}

/-! ## Usual definitions -/

/-- The name is one that is read, the type is one that is passed over, and no part of a word in the
clauses is read as a clause. -/
structure Usual.IsOrdinary (d : Usual) : Prop where
  name : IsName d.column.name
  unlisted : isConstraint d.column = false
  type : d.column.typeText.toList ∈ usualType
  default : ∀ value ∈ d.default, value.toList ∈ Form.word
  target : ∀ target ∈ d.target, Inert target.toList

theorem Usual.exists_clauses (hw : w ∈ d.clauseTexts) :
    ∃ first ∈ if d.notNull then spaced ["NOT", "NULL"] else 1,
      ∃ second ∈ wordClause "DEFAULT" d.default, ∃ third ∈ wordClause "REFERENCES" d.target,
      ∃ delete ∈ actionClause "DELETE" d.onDelete, ∃ update ∈ actionClause "UPDATE" d.onUpdate,
      w = first ++ (second ++ (third ++ (delete ++ update))) := by
  obtain ⟨first, hfirst, _, h₁, rfl⟩ := Language.mem_mul.mp hw
  obtain ⟨second, hsecond, _, h₂, rfl⟩ := Language.mem_mul.mp h₁
  obtain ⟨third, hthird, _, h₃, rfl⟩ := Language.mem_mul.mp h₂
  obtain ⟨delete, hdelete, update, hupdate, rfl⟩ := Language.mem_mul.mp h₃
  exact ⟨first, hfirst, second, hsecond, third, hthird, delete, hdelete, update, hupdate, rfl⟩

theorem beginsClause_of_usual (hw : w ∈ d.clauseTexts) : BeginsClause w := by
  obtain ⟨first, hfirst, second, hsecond, third, hthird, delete, hdelete, update, hupdate, rfl⟩ :=
    Usual.exists_clauses hw
  have hbegins : BeginsClause first := by
    split at hfirst
    · exact beginsClause_of_mul (show "NOT" ∈ clauseWords by decide) hfirst
    · exact Or.inl hfirst
  exact hbegins.append ((beginsClause_of_wordClause (by decide) hsecond).append
    ((beginsClause_of_wordClause (by decide) hthird).append
      ((beginsClause_of_actionClause hdelete).append (beginsClause_of_actionClause hupdate))))

/-- A default takes all the text up to the comma, the other clauses too. -/
theorem exists_default_text {value : String} (hvalue : value.toList ∈ Form.word)
    (hw : w ∈ wordClause "DEFAULT" (some value)) (hv : v ∈ Form.wording) :
    ∃ gap ∈ blanks, ∃ key ∈ keyword "DEFAULT", ∃ text, w ++ v = gap ++ (key ++ text) ∧
      ',' ∉ text ∧ ∀ s, Stops isWord (text ++ s) := by
  obtain ⟨gap, hgap, _, h₁, rfl⟩ := Language.mem_mul.mp hw
  obtain ⟨key, hkey, _, h₂, rfl⟩ := Language.mem_mul.mp h₁
  obtain ⟨gap', hgap', _, rfl, rfl⟩ := Language.mem_mul.mp h₂
  refine ⟨gap, hgap, key, hkey, gap' ++ (value.toList ++ v), by simp, ?_, fun s => ?_⟩
  · exact not_mem_comma (Form.wording_append (Form.wording_of_space hgap'.2)
      (Form.wording_append (Form.wording_of_word hvalue) hv))
  · rw [List.append_assoc]
    exact Form.stops_word_of_blanks hgap'

theorem wording_of_target {target : Option String} {third delete update : List Char}
    (htarget : ∀ word ∈ target, Inert word.toList) (hthird : third ∈ wordClause "REFERENCES" target)
    (hdelete : delete ∈ actionClause "DELETE" onDelete)
    (hupdate : update ∈ actionClause "UPDATE" onUpdate) :
    third ++ (delete ++ update) ∈ Form.wording :=
  Form.wording_append
    (wording_of_wordClause (by decide) (fun word h => (htarget word h).word) hthird)
    (Form.wording_append (wording_of_actionClause (by decide) hdelete)
      (wording_of_actionClause (by decide) hupdate))

/-- In the clauses of a definition that is not read, two words are read as a column. -/
theorem diverts_of_stray (hd : d.IsOrdinary) (hw : w ∈ d.clauseTexts) (hstray : d.stray = some pair)
    (hrest : ending rest = some t) (hover : ∀ tail, rest = ',' :: tail → Refuses tail) :
    Diverts (w ++ rest) (Spells pair) t := by
  obtain ⟨column, notNull, default, target, onDelete, onUpdate⟩ := d
  obtain ⟨first, hfirst, second, hsecond, third, hthird, delete, hdelete, update, hupdate, rfl⟩ :=
    Usual.exists_clauses hw
  cases default with
  | some value =>
    cases notNull with
    | false => cases hstray
    | true =>
      -- The default is read up to the comma, and so lets the two words in front of it be a column.
      obtain rfl := Option.some.inj hstray
      obtain ⟨gap, hgap, key, hkey, text, heq, hcomma, hs⟩ := exists_default_text
        (hd.default value rfl) hsecond (wording_of_target hd.target hthird hdelete hupdate)
      have hnotNull := diverts_of_notNull (isDefault_append hgap hkey hcomma (hs rest) hrest) hfirst
      rw [heq]
      simpa using hnotNull
  | none =>
    obtain rfl : second = [] := hsecond
    have hactions := diverts_of_actions hdelete hupdate hstray hrest hover
    have htargets : Diverts (third ++ (delete ++ (update ++ rest))) (Spells pair) t := by
      cases target with
      | none =>
        obtain rfl : third = [] := hthird
        exact hactions
      | some target =>
        have hnull : ¬ Leads ["NULL"] (delete ++ update ++ rest) :=
          ((beginsClause_of_actionClause hdelete).append
            (beginsClause_of_actionClause hupdate)).not_leads (isStop_of_ending hrest)
            (by decide) (by decide)
        rw [List.append_assoc] at hnull
        exact hactions.of_target (hd.target target rfl) hnull hthird
    simp only [List.append_assoc, List.nil_append]
    cases notNull with
    | false =>
      obtain rfl : first = [] := hfirst
      exact htargets
    | true => exact htargets.of_notNull hfirst

theorem strayWords_eq_none (h : Usual.strayOfActions onDelete onUpdate = none) :
    Usual.strayWords "DELETE" onDelete = none ∧ Usual.strayWords "UPDATE" onUpdate = none := by
  unfold Usual.strayOfActions at h
  split at h
  · rename_i hdefault
    subst hdefault
    cases h
  · rw [Option.orElse_eq_none] at h
    exact h.symm

/-- Where no words stray, the clauses are among those that are read. -/
theorem mem_clauseTexts_of_stray (hd : d.IsOrdinary) (hw : w ∈ d.clauseTexts)
    (hstray : d.stray = none) : w ∈ clauseTexts := by
  obtain ⟨column, notNull, default, target, onDelete, onUpdate⟩ := d
  obtain ⟨first, hfirst, second, hsecond, third, hthird, delete, hdelete, update, hupdate, rfl⟩ :=
    Usual.exists_clauses hw
  cases default with
  | some value =>
    cases notNull with
    | true => cases hstray
    | false =>
      -- What follows the default counts as a part of it.
      obtain rfl : first = [] := hfirst
      obtain ⟨gap, hgap, key, hkey, text, heq, hcomma, -⟩ := exists_default_text
        (hd.default value rfl) hsecond (wording_of_target hd.target hthird hdelete hupdate)
      have hdefault : gap ++ (key ++ text) ∈ defaultClause :=
        Language.append_mem_mul hgap (Language.append_mem_mul hkey hcomma)
      rw [List.nil_append, heq, ← List.append_nil (gap ++ (key ++ text))]
      exact Language.append_mem_mul (Or.inr hdefault) (Language.append_mem_mul (a := [])
        (Or.inl rfl) (Language.append_mem_mul (a := []) (Or.inl rfl) (Or.inl rfl)))
  | none =>
    obtain rfl : second = [] := hsecond
    obtain ⟨hnoDelete, hnoUpdate⟩ := strayWords_eq_none hstray
    have hoption : first ∈ 1 + notNullClause + defaultClause := by
      cases notNull with
      | false => exact Or.inl (Or.inl hfirst)
      | true =>
        obtain ⟨gap, hgap, not, hnot, v, hv, rfl⟩ := mem_spaced_cons.mp hfirst
        obtain ⟨gap', hgap', null, hnull, rfl⟩ := mem_spaced_singleton.mp hv
        exact Or.inl (Or.inr (Language.append_mem_mul hgap (Language.append_mem_mul hnot
          (Language.append_mem_mul hgap' hnull))))
    have htarget : third ∈ 1 + referencesClause := by
      cases target with
      | none => exact Or.inl hthird
      | some target =>
        obtain ⟨gap, hgap, _, h₁, rfl⟩ := Language.mem_mul.mp hthird
        obtain ⟨key, hkey, _, h₂, rfl⟩ := Language.mem_mul.mp h₁
        obtain ⟨gap', hgap', _, rfl, rfl⟩ := Language.mem_mul.mp h₂
        exact Or.inr (Language.append_mem_mul hgap (Language.append_mem_mul hkey
          (Language.append_mem_mul hgap' (hd.target target rfl).word)))
    rw [List.nil_append]
    exact Language.append_mem_mul hoption (Language.append_mem_mul htarget
      (Language.append_mem_mul (mem_eventClause_of_strayWords hdelete hnoDelete)
        (mem_eventClause_of_strayWords hupdate hnoUpdate)))

theorem defines_usual (hd : d.IsOrdinary) : Defines d.texts d.Yields := by
  have htype := typeToken_of_usualType hd.type
  refine ⟨fun w hw rest s hrest hover => ?_, fun w hw gap hgap rest hrest => ?_⟩
  · obtain ⟨front, hfront, clause, hclause, rfl⟩ := Language.mem_mul.mp hw
    unfold Usual.Yields
    cases hstray : d.stray with
    | none =>
      have hread := mem_clauseTexts_of_stray hd hclause hstray
      exact (defines_definition hd.name htype).found _ (Language.append_mem_mul hfront hread) rest s
        hrest hover
    | some pair =>
      obtain ⟨_, rfl, _, h₁, rfl⟩ := Language.mem_mul.mp hfront
      obtain ⟨gap, hgap, _, rfl, rfl⟩ := Language.mem_mul.mp h₁
      have hnull : ¬ Leads ["NULL"] (clause ++ rest) :=
        (beginsClause_of_usual hclause).not_leads (isStop_of_ending hrest) (by decide) (by decide)
      have hdiverts := diverts_of_stray hd hclause hstray hrest hover
      simpa using hdiverts.found_type hnull hd.name.1 hgap hd.type
  · obtain ⟨front, hfront, clause, hclause, rfl⟩ := Language.mem_mul.mp hw
    rw [List.append_assoc]
    exact refuses_field hd.name htype hgap hfront (beginsClause_of_usual hclause) hrest

/-! ## Columns that are left out -/

theorem mem_keyword_of_eqIgnoringAsciiCase {name : String}
    (h : eqIgnoringAsciiCase name letters = true) : name.toList ∈ keyword letters := by
  rw [eqIgnoringAsciiCase, beq_iff_eq, ← List.forall₂_eq_eq_eq, List.forall₂_map_left_iff,
    List.forall₂_map_right_iff] at h
  exact h.flip.imp fun letter c hc => by simp [standsFor, hc]

theorem isConstraint_eq_false {column : Column} (hplain : IsPlain letters)
    (hname : column.name.toList ∈ keyword letters)
    (hne : ∀ other ∈ constraintWords, Form.lowered letters ≠ Form.lowered other) :
    isConstraint column = false := by
  have hall : ∀ other ∈ constraintWords, IsPlain other := by decide
  rw [isConstraint, List.any_eq_false]
  intro other hother hsame
  have hmem := mem_keyword_of_eqIgnoringAsciiCase hsame
  exact hne other hother (lowered_eq_of_keyword hplain (hall other hother) hname hmem)

/-- The names of the columns that stray words are read as. -/
def strayNames : List String :=
  ["NOT", "DELETE", "UPDATE", "SET", "NO"]

theorem strayWords_fst_mem (hevent : event ∈ strayNames)
    (h : Usual.strayWords event onDelete = some pair) : pair.1 ∈ strayNames := by
  cases onDelete with
  | none => cases h
  | some action =>
    cases action with
    | cascade => cases h
    | restrict => cases h
    | setNull =>
      obtain rfl := Option.some.inj h
      decide
    | setDefault =>
      obtain rfl := Option.some.inj h
      exact hevent
    | noAction =>
      obtain rfl := Option.some.inj h
      decide

theorem stray_fst_mem (h : d.stray = some pair) : pair.1 ∈ strayNames := by
  unfold Usual.stray at h
  split at h
  · split at h
    · obtain rfl := Option.some.inj h
      decide
    · cases h
  · unfold Usual.strayOfActions at h
    split at h
    · exact strayWords_fst_mem (by decide) h
    · obtain h | ⟨-, h⟩ := (Option.orElse_eq_some _ _ _).mp h
      · exact strayWords_fst_mem (by decide) h
      · exact strayWords_fst_mem (by decide) h

/-- A definition gives no column that is left out as a constraint. -/
theorem isConstraint_of_yields {column : Column} (hd : d.IsOrdinary) (h : d.Yields column) :
    isConstraint column = false := by
  unfold Usual.Yields at h
  split at h
  · rw [← h]
    exact hd.unlisted
  · rename_i pair hstray
    have hplain : ∀ letters ∈ strayNames, IsPlain letters := by decide
    have hne : ∀ letters ∈ strayNames, ∀ other ∈ constraintWords,
        Form.lowered letters ≠ Form.lowered other := by decide
    have hmem := stray_fst_mem hstray
    exact isConstraint_eq_false (hplain _ hmem) h.1 (hne _ hmem)

/-! ## Definitions as they are usually written -/

/-- A body of usual definitions, each of them with the comma directly behind. -/
def usualBody (definitions : List Usual) : Language Char :=
  space * (chained (definitions.map Usual.texts) * space)

/-- The words with a space in front of each. -/
def spacedText (words : List String) : List Char :=
  words.flatMap fun letters => ' ' :: letters.toList

/-- The definition with all keywords as they are spelled here, and single spaces. -/
def Usual.plainText (d : Usual) : List Char :=
  d.column.name.toList ++ (' ' :: d.column.typeText.toList) ++
    (spacedText (if d.notNull then ["NOT", "NULL"] else []) ++
      (spacedText (d.default.elim [] fun value => ["DEFAULT", value]) ++
        (spacedText (d.target.elim [] fun target => ["REFERENCES", target]) ++
          (spacedText (d.onDelete.elim [] fun action => "ON" :: "DELETE" :: action.words) ++
            spacedText (d.onUpdate.elim [] fun action => "ON" :: "UPDATE" :: action.words)))))

/-- The definitions with commas between them. -/
def bodyText (definitions : List Usual) : List Char :=
  [','].intercalate (definitions.map Usual.plainText)

theorem spacedText_mem_spaced (words : List String) : spacedText words ∈ spaced words := by
  induction words with
  | nil => exact rfl
  | cons letters words ih =>
    exact mem_spaced_cons.mpr
      ⟨[' '], Form.space_mem_blanks, letters.toList, Form.toList_mem_keyword letters, _, ih, rfl⟩

theorem spacedText_mem_wordClause (letters : String) (value : Option String) :
    spacedText (value.elim [] fun value => [letters, value]) ∈ wordClause letters value := by
  cases value with
  | none => exact rfl
  | some value =>
    have hword : spacedText [value] ∈ blanks * {value.toList} := by
      rw [spacedText, List.flatMap_singleton]
      exact Language.append_mem_mul (a := [' ']) Form.space_mem_blanks rfl
    exact Language.append_mem_mul (a := [' ']) Form.space_mem_blanks
      (Language.append_mem_mul (Form.toList_mem_keyword letters) hword)

theorem spacedText_mem_actionClause (event : String) (action : Option Action) :
    spacedText (action.elim [] fun action => "ON" :: event :: action.words) ∈
      actionClause event action := by
  cases action with
  | none => exact rfl
  | some action => exact spacedText_mem_spaced _

theorem Usual.plainText_mem_texts (d : Usual) : d.plainText ∈ d.texts := by
  have hnotNull : spacedText (if d.notNull then ["NOT", "NULL"] else []) ∈
      if d.notNull then spaced ["NOT", "NULL"] else 1 := by
    split
    · exact spacedText_mem_spaced _
    · exact rfl
  exact Language.append_mem_mul
    (Language.append_mem_mul rfl (Language.append_mem_mul (a := [' ']) Form.space_mem_blanks rfl))
    (Language.append_mem_mul hnotNull (Language.append_mem_mul (spacedText_mem_wordClause _ _)
      (Language.append_mem_mul (spacedText_mem_wordClause _ _)
        (Language.append_mem_mul (spacedText_mem_actionClause _ _)
          (spacedText_mem_actionClause _ _)))))

theorem bodyText_mem_usualBody (definitions : List Usual) :
    bodyText definitions ∈ usualBody definitions := by
  have hchained : bodyText definitions ∈ chained (definitions.map Usual.texts) := by
    unfold bodyText
    induction definitions with
    | nil => exact rfl
    | cons d more ih =>
      cases more with
      | nil => simpa [chained] using d.plainText_mem_texts
      | cons next more =>
        refine mem_chained_cons.mpr
          ⟨d.plainText, d.plainText_mem_texts, [], Form.nil_mem_space, _, ih, ?_⟩
        simp
  rw [← List.append_nil (bodyText definitions), ← List.nil_append (bodyText definitions ++ [])]
  exact Language.append_mem_mul Form.nil_mem_space
    (Language.append_mem_mul hchained Form.nil_mem_space)

/-! ## What a body gives -/

/-- Each definition gives one column: itself, or two words of its clauses where they hold more than
the reader knows. -/
theorem ofBody_yields_of_usual {definitions : List Usual}
    (h : ∀ d ∈ definitions, d.IsOrdinary) (hw : w ∈ usualBody definitions) :
    List.Forall₂ Usual.Yields definitions (ofBody w) := by
  obtain ⟨gap, hgap, _, h₁, rfl⟩ := Language.mem_mul.mp hw
  obtain ⟨v, hv, gap', hgap', rfl⟩ := Language.mem_mul.mp h₁
  have hfound := forall₂_occurrences_chained (fun d hd => defines_usual (h d hd)) hv hgap'
  have hkept : List.Forall₂ (fun column d => isConstraint column = false ∧ d.Yields column)
      (occurrences read (v ++ gap')) definitions :=
    (((List.forall₂_and_left _ _).mpr ⟨h, hfound⟩).imp
      fun d column hd => ⟨isConstraint_of_yields hd.1 hd.2, hd.2⟩).flip
  obtain ⟨hkept, -⟩ := (List.forall₂_and_left _ _).mp hkept
  rw [ofBody, occurrences_space_append hgap, List.filter_eq_self.mpr]
  · exact hfound
  · intro column hcolumn
    simp [hkept column hcolumn]

/-- An action of two words, and a default behind `NOT NULL`. -/
theorem ofBody_yields_of_usual_prices :
    List.Forall₂ Usual.Yields
      [⟨⟨"owner", "INT"⟩, false, none, some "users", some .setNull, none⟩,
        ⟨⟨"price", "NUMERIC(10, 2)"⟩, true, some "0", none, none, none⟩]
      (ofBody ("owner INT REFERENCES users ON DELETE SET NULL," ++
        "price NUMERIC(10, 2) NOT NULL DEFAULT 0").toList) := by
  have hint : "INT".toList ∈ usualType :=
    ⟨_, Form.mem_word_of_ascii (by decide), excludes_of_folded (by decide) (by decide), Or.inl rfl⟩
  have hnumeric : "NUMERIC(10, 2)".toList ∈ usualType :=
    ⟨"NUMERIC".toList, Form.mem_word_of_ascii (by decide),
      excludes_of_folded (by decide) (by decide),
      Or.inr ⟨"10, 2".toList, by decide +kernel, by decide⟩⟩
  have husers : Inert "users".toList :=
    ⟨Form.mem_word_of_ascii (by decide), excludes_of_folded (by decide) (by decide), by decide⟩
  refine ofBody_yields_of_usual ?_ (bodyText_mem_usualBody _)
  have hzero : ∀ value ∈ some "0", value.toList ∈ Form.word := by
    rintro _ ⟨⟩
    exact Form.mem_word_of_ascii (by decide)
  have htarget : ∀ target ∈ some "users", Inert target.toList := by
    rintro _ ⟨⟩
    exact husers
  rw [List.forall_mem_cons, List.forall_mem_singleton]
  exact ⟨⟨by decide +kernel, by decide, hint, by rintro _ ⟨⟩, htarget⟩,
    ⟨by decide +kernel, by decide, hnumeric, hzero, by rintro _ ⟨⟩⟩⟩

/-- Columns are found that are none of those defined. -/
theorem not_ofBody_mem_of_usual :
    ¬ ∀ definitions : List Usual, (∀ d ∈ definitions, d.IsOrdinary) →
      (definitions.map fun d => d.column.name).Nodup → ∀ w ∈ usualBody definitions,
        (∀ column ∈ ofBody w, ∃ d ∈ definitions, d.column = column) ∧ (ofBody w).Nodup := by
  intro h
  have hint : "INTEGER".toList ∈ usualType :=
    ⟨_, Form.mem_word_of_ascii (by decide), excludes_of_folded (by decide) (by decide), Or.inl rfl⟩
  have hzero : ∀ value ∈ some "0", value.toList ∈ Form.word := by
    rintro _ ⟨⟩
    exact Form.mem_word_of_ascii (by decide)
  have hordinary : ∀ d ∈ [(⟨⟨"qty", "INTEGER"⟩, true, some "0", none, none, none⟩ : Usual)],
      d.IsOrdinary := by
    rw [List.forall_mem_singleton]
    exact ⟨by decide +kernel, by decide, hint, hzero, by rintro _ ⟨⟩⟩
  obtain ⟨hall, -⟩ := h _ hordinary (List.nodup_singleton _) _ (bodyText_mem_usualBody _)
  have hfound : ofBody "qty INTEGER NOT NULL DEFAULT 0".toList = [⟨"NOT", "NULL"⟩] := by
    decide +kernel
  obtain ⟨d, hd, heq⟩ := hall ⟨"NOT", "NULL"⟩ (hfound ▸ List.mem_singleton_self _)
  rw [List.mem_singleton.mp hd] at heq
  exact absurd heq (by decide)

end SchemaChange.Column
