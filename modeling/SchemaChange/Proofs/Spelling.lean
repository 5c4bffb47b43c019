import SchemaChange.Proofs.Trimming

/-!
# How a statement is spelled

`Spells statement w` says that `w`, from its first keyword to its semicolon, is the text of a
statement, and what the statement takes from it. A reader finds a statement at the front of a text
exactly if the text begins with a spelling of it.
-/

namespace SchemaChange.Statement

open SchemaChange.Text
open Form (keyword blanks space phrase perhaps guard clause without IsPlain)

/-- A word between two texts that is as long as it can be on both sides. -/
structure Whole (before name after : List Char) : Prop where
  word : name ∈ Form.word
  left : Stops isWord before.reverse
  right : Stops isWord after

/-- The text of a statement. The body of a table ends at the first parenthesis that a semicolon
follows, a list at the first parenthesis, and the clause of a column at the first semicolon. A
column that is added is the one behind `IF NOT EXISTS` wherever the text can be read so. Its type
and the columns of a list are trimmed, values are taken as they stand. -/
inductive Spells : Statement → List Char → Prop where
  | newTable {opening name gap body : List Char}
      (opens : opening ∈ phrase ["CREATE", "TABLE"] * guard)
      (named : Whole opening name (gap ++ '(' :: (body ++ [')', ';'])))
      (spaced : gap ∈ space)
      (ends : ¬ [')', ';'] <:+: body) :
      Spells (.newTable (String.ofList name) (Column.ofBody body))
        (opening ++ (name ++ (gap ++ '(' :: (body ++ [')', ';']))))
  | newColumn {opening table gap adding given name described typeText : List Char}
      (opens : opening ∈ phrase ["ALTER", "TABLE"])
      (tabled : Whole opening table (gap ++ (adding ++ (given ++ (name ++ (described ++ [';']))))))
      (spaced : gap ∈ blanks)
      (adds : adding ∈ phrase ["ADD", "COLUMN"])
      (guarded : given ∈ guard)
      (named : Whole (adding ++ given) name (described ++ [';']))
      (describes : described ∈ clause)
      (prefers : given = [] →
        name ++ described ∉ phrase ["IF", "NOT", "EXISTS"] * (Form.word * clause))
      (trims : Trims described typeText) :
      Spells (.newColumn (String.ofList table) ⟨String.ofList name, String.ofList typeText⟩)
        (opening ++ (table ++ (gap ++ (adding ++ (given ++ (name ++ (described ++ [';'])))))))
  | newIndex {opening name gap on table gap' columns : List Char} {items : List String}
      (opens : opening ∈ phrase ["CREATE"] * (perhaps ["UNIQUE"] * (phrase ["INDEX"] * guard)))
      (named : Whole opening name
        (gap ++ (on ++ (table ++ (gap' ++ '(' :: (columns ++ [')', ';']))))))
      (spaced : gap ∈ blanks)
      (ons : on ∈ phrase ["ON"])
      (tabled : Whole on table (gap' ++ '(' :: (columns ++ [')', ';'])))
      (spaced' : gap' ∈ space)
      (listed : columns ∈ without ')')
      (lists : Lists columns items) :
      Spells (.newIndex (String.ofList name) (String.ofList table) items)
        (opening ++ (name ++ (gap ++ (on ++ (table ++ (gap' ++ '(' :: (columns ++ [')', ';'])))))))
  | newRow {opening table gap columns link values : List Char} {items : List String}
      (opens : opening ∈ phrase ["INSERT", "INTO"])
      (tabled : Whole opening table
        (gap ++ '(' :: (columns ++ ')' :: (link ++ '(' :: (values ++ [')', ';'])))))
      (spaced : gap ∈ space)
      (listed : columns ∈ without ')')
      (links : link ∈ space * (keyword "VALUES" * space))
      (valued : values ∈ without ')')
      (lists : Lists columns items) :
      Spells (.newRow (String.ofList table) items (String.ofList values))
        (opening ++ (table ++
          (gap ++ '(' :: (columns ++ ')' :: (link ++ '(' :: (values ++ [')', ';']))))))

section

variable {opening name table gap gap' columns : List Char}

theorem spells_newTable {body : List Char} (opens : opening ∈ phrase ["CREATE", "TABLE"] * guard)
    (hname : name ∈ Form.word) (spaced : gap ∈ space) (ends : ¬ [')', ';'] <:+: body) :
    Spells (.newTable (String.ofList name) (Column.ofBody body))
      (opening ++ (name ++ (gap ++ '(' :: (body ++ [')', ';'])))) := by
  refine .newTable opens ⟨hname, ?_, ?_⟩ spaced ends
  · obtain ⟨w, hw, given, hgiven, rfl⟩ := Language.mem_mul.mp opens
    exact Form.stops_word_reverse_of_perhaps (Form.stops_word_reverse_of_phrase (r := []) hw) hgiven
  · exact Form.stops_word_of_space spaced (stops_cons.mpr (isWord_of_isPunctuation (by decide)))

theorem spells_newColumn {adding given described : List Char}
    (opens : opening ∈ phrase ["ALTER", "TABLE"]) (htable : table ∈ Form.word)
    (spaced : gap ∈ blanks) (adds : adding ∈ phrase ["ADD", "COLUMN"]) (guarded : given ∈ guard)
    (hname : name ∈ Form.word) (describes : described ∈ clause)
    (prefers : given = [] →
      name ++ described ∉ phrase ["IF", "NOT", "EXISTS"] * (Form.word * clause)) :
    Spells (.newColumn (String.ofList table)
        ⟨String.ofList name, String.ofList (trimChars described)⟩)
      (opening ++ (table ++ (gap ++ (adding ++ (given ++ (name ++ (described ++ [';']))))))) := by
  refine .newColumn opens ⟨htable, ?_, ?_⟩ spaced adds guarded ⟨hname, ?_, ?_⟩ describes prefers
    (trims_trimChars described)
  · exact Form.stops_word_reverse_of_phrase (r := []) opens
  · exact Form.stops_word_of_blanks spaced
  · exact Form.stops_word_reverse_of_perhaps
      (Form.stops_word_reverse_of_phrase (r := []) adds) guarded
  · obtain ⟨b, hb, text, -, rfl⟩ := Language.mem_mul.mp describes
    rw [List.append_assoc]
    exact Form.stops_word_of_blanks hb

theorem spells_newIndex {on : List Char}
    (opens : opening ∈ phrase ["CREATE"] * (perhaps ["UNIQUE"] * (phrase ["INDEX"] * guard)))
    (hname : name ∈ Form.word) (spaced : gap ∈ blanks) (ons : on ∈ phrase ["ON"])
    (htable : table ∈ Form.word) (spaced' : gap' ∈ space) (listed : columns ∈ without ')') :
    Spells (.newIndex (String.ofList name) (String.ofList table) (listItems columns))
      (opening ++ (name ++ (gap ++ (on ++ (table ++
        (gap' ++ '(' :: (columns ++ [')', ';']))))))) := by
  refine .newIndex opens ⟨hname, ?_, ?_⟩ spaced ons ⟨htable, ?_, ?_⟩ spaced' listed
    (lists_listItems columns)
  · obtain ⟨create, -, _, htail, rfl⟩ := Language.mem_mul.mp opens
    obtain ⟨unique, -, _, hrest, rfl⟩ := Language.mem_mul.mp htail
    obtain ⟨index, hindex, given, hgiven, rfl⟩ := Language.mem_mul.mp hrest
    rw [← List.append_assoc, ← List.append_assoc]
    exact Form.stops_word_reverse_of_perhaps (Form.stops_word_reverse_of_phrase hindex) hgiven
  · exact Form.stops_word_of_blanks spaced
  · exact Form.stops_word_reverse_of_phrase (r := []) ons
  · exact Form.stops_word_of_space spaced' (stops_cons.mpr (isWord_of_isPunctuation (by decide)))

theorem spells_newRow {link values : List Char} (opens : opening ∈ phrase ["INSERT", "INTO"])
    (htable : table ∈ Form.word) (spaced : gap ∈ space) (listed : columns ∈ without ')')
    (links : link ∈ space * (keyword "VALUES" * space)) (valued : values ∈ without ')') :
    Spells (.newRow (String.ofList table) (listItems columns) (String.ofList values))
      (opening ++ (table ++
        (gap ++ '(' :: (columns ++ ')' :: (link ++ '(' :: (values ++ [')', ';'])))))) := by
  refine .newRow opens ⟨htable, ?_, ?_⟩ spaced listed links valued (lists_listItems columns)
  · exact Form.stops_word_reverse_of_phrase (r := []) opens
  · exact Form.stops_word_of_space spaced (stops_cons.mpr (isWord_of_isPunctuation (by decide)))

end

/-! ## Readers find spellings -/

section

variable {statement : Statement} {s rest : List Char}

theorem spells_of_newTable? (h : newTable? s = some (statement, rest)) :
    statement.shape = .tableDefinition ∧ ∃ w, Spells statement w ∧ s = w ++ rest := by
  simp only [newTable?, Option.bind_eq_bind, Option.bind_eq_some_iff] at h
  obtain ⟨s₁, hopens, ⟨_, s₂⟩, hname, s₃, hparen, ⟨body, s₄⟩, hbody, hend⟩ := h
  obtain ⟨opening, hopening, rfl⟩ := exists_phrase_of_afterPhrase hopens
  obtain ⟨given, hgiven, hskip⟩ := exists_perhaps_skipPhrase ["IF", "NOT", "EXISTS"] s₁
  obtain ⟨⟨name, hword, rfl, hafter⟩, -⟩ := word_eq_some_iff.mp hname
  obtain ⟨gap, hgap, hs₂⟩ := exists_space_dropWhile s₂
  rw [afterChar_eq_some_iff.mp hparen] at hs₂
  obtain ⟨hends, rfl⟩ := tableBody_eq_some_iff.mp hbody
  obtain ⟨rfl, rfl⟩ := Prod.mk.inj (Option.some.inj hend)
  refine ⟨rfl, _, spells_newTable (Language.append_mem_mul hopening hgiven) hword hgap hends, ?_⟩
  rw [hskip, hafter, hs₂]
  simp

theorem columnClause_eq_some_iff {table : String} :
    columnClause table s = some (statement, rest) ↔
      ∃ name ∈ Form.word, ∃ described ∈ clause,
        s = name ++ (described ++ ';' :: rest) ∧
        statement = .newColumn table
          ⟨String.ofList name, String.ofList (trimChars described)⟩ := by
  simp only [columnClause, Option.bind_eq_bind, Option.bind_eq_some_iff, afterChar_eq_some_iff]
  constructor
  · rintro ⟨⟨_, s'⟩, hread, rest', hsemicolon, h⟩
    obtain ⟨⟨name, hname, rfl, rfl⟩, -⟩ := word_eq_some_iff.mp hread
    have hsplit : s' = s'.takeWhile (· != ';') ++ ';' :: rest' := by
      rw [← hsemicolon, List.takeWhile_append_dropWhile]
    dsimp only at h
    split at h
    · rename_i c d more hclause
      split at h
      · rename_i hc
        obtain ⟨rfl, rfl⟩ := Prod.mk.inj (Option.some.inj h)
        refine ⟨name, hname, c :: d :: more, ?_, ?_, by rw [hclause]⟩
        · refine Form.mem_clause_iff.mpr ⟨c, d, more, rfl, hc, fun hmem => ?_⟩
          simpa using mem_takeWhile (p := (· != ';')) ';' (hclause ▸ List.mem_cons_of_mem c hmem)
        · rw [← hclause, ← hsplit]
      · cases h
    · cases h
  · rintro ⟨name, hname, described, hdescribed, rfl, rfl⟩
    have hall := bne_of_not_mem (Form.not_mem_of_mem_clause hdescribed)
    obtain ⟨c, d, more, rfl, hc, -⟩ := Form.mem_clause_iff.mp hdescribed
    have hstops : Stops isWord ((c :: d :: more) ++ ';' :: rest) :=
      stops_cons.mpr (isWord_of_isBlank hc)
    refine ⟨_, word_eq_some_iff.mpr ⟨⟨name, hname, rfl, rfl⟩, hstops⟩, rest,
      dropWhile_append_of_stops hall (by simp), ?_⟩
    dsimp only
    rw [takeWhile_append_of_stops hall (by simp)]
    simp [hc]

/-- Whether `IF NOT EXISTS` can be read in front of a new column shows in the text up to the
semicolon. -/
theorem guarded_iff (table : String) (rest : List Char) {name described : List Char}
    (hname : name ∈ Form.word) (hdescribed : described ∈ clause) :
    name ++ described ∈ phrase ["IF", "NOT", "EXISTS"] * (Form.word * clause) ↔
      ∃ s', afterPhrase ["IF", "NOT", "EXISTS"] (name ++ (described ++ ';' :: rest)) = some s' ∧
        columnClause table s' ≠ none := by
  have hnot {name described : List Char} (hname : name ∈ Form.word)
      (hdescribed : described ∈ clause) : ';' ∉ name ++ described := by
    rw [List.mem_append]
    rintro (hmem | hmem)
    · exact Form.not_mem_of_wording (Form.wording_of_word hname) (by decide) (by decide) hmem
    · exact Form.not_mem_of_mem_clause hdescribed hmem
  constructor
  · intro h
    obtain ⟨given, hgiven, _, htail, heq⟩ := Language.mem_mul.mp h
    obtain ⟨name', hname', described', hdescribed', rfl⟩ := Language.mem_mul.mp htail
    refine ⟨name' ++ (described' ++ ';' :: rest), ?_, ?_⟩
    · rw [← List.append_assoc, ← heq, List.append_assoc, List.append_assoc]
      exact afterPhrase_append (by decide) hgiven (Form.stops_blank_of_word hname')
    · rw [Ne, Option.eq_none_iff_forall_ne_some]
      intro h
      exact h _ (columnClause_eq_some_iff.mpr ⟨name', hname', described', hdescribed', rfl, rfl⟩)
  · rintro ⟨s', hphrase, hne⟩
    obtain ⟨⟨found, rest'⟩, hfound⟩ := Option.ne_none_iff_exists'.mp hne
    obtain ⟨given, hgiven, heq⟩ := exists_phrase_of_afterPhrase hphrase
    obtain ⟨name', hname', described', hdescribed', rfl, -⟩ := columnClause_eq_some_iff.mp hfound
    have hgiven' : ';' ∉ given ++ (name' ++ described') := by
      rw [List.mem_append]
      rintro (hmem | hmem)
      · exact Form.not_mem_of_wording (Form.wording_of_phrase (by decide) hgiven) (by decide)
          (by decide) hmem
      · exact hnot hname' hdescribed' hmem
    have heq' : (name ++ described) ++ ';' :: rest =
        (given ++ (name' ++ described')) ++ ';' :: rest' := by simpa using heq
    obtain ⟨heq', -⟩ := append_cons_inj (hnot hname hdescribed) hgiven' heq'
    rw [heq']
    exact Language.append_mem_mul hgiven (Language.append_mem_mul hname' hdescribed')

/-- Of the two readings of a new column the one behind `IF NOT EXISTS` comes first. -/
theorem columnClause_or_eq_some_iff {table : String} :
    (columnClause table (skipPhrase ["IF", "NOT", "EXISTS"] s) <|> columnClause table s) =
        some (statement, rest) ↔
      ∃ given ∈ guard, ∃ name ∈ Form.word, ∃ described ∈ clause,
        (given = [] →
          name ++ described ∉ phrase ["IF", "NOT", "EXISTS"] * (Form.word * clause)) ∧
        s = given ++ (name ++ (described ++ ';' :: rest)) ∧
        statement = .newColumn table
          ⟨String.ofList name, String.ofList (trimChars described)⟩ := by
  rw [Option.orElse_eq_orElse, Option.orElse_eq_or, Option.or_eq_some_iff]
  constructor
  · intro h
    cases hphrase : afterPhrase ["IF", "NOT", "EXISTS"] s with
    | none =>
      simp only [skipPhrase, hphrase, Option.getD_none] at h
      obtain ⟨name, hname, described, hdescribed, rfl, rfl⟩ :=
        columnClause_eq_some_iff.mp (h.elim id And.right)
      refine ⟨[], Or.inl rfl, name, hname, described, hdescribed, fun _ hguarded => ?_, rfl, rfl⟩
      obtain ⟨s', hs', -⟩ := (guarded_iff table rest hname hdescribed).mp hguarded
      rw [hphrase] at hs'
      cases hs'
    | some s' =>
      simp only [skipPhrase, hphrase, Option.getD_some] at h
      obtain ⟨given, hgiven, rfl⟩ := exists_phrase_of_afterPhrase hphrase
      obtain h | ⟨hnone, h⟩ := h
      · obtain ⟨name, hname, described, hdescribed, rfl, rfl⟩ := columnClause_eq_some_iff.mp h
        exact ⟨given, Or.inr hgiven, name, hname, described, hdescribed,
          fun hnil => absurd hnil (Form.ne_nil_of_phrase hgiven), rfl, rfl⟩
      · obtain ⟨name, hname, described, hdescribed, heq, rfl⟩ := columnClause_eq_some_iff.mp h
        refine ⟨[], Or.inl rfl, name, hname, described, hdescribed, fun _ hguarded => ?_, heq, rfl⟩
        obtain ⟨s'', hs'', hne⟩ := (guarded_iff table rest hname hdescribed).mp hguarded
        rw [← heq, hphrase] at hs''
        obtain rfl := Option.some.inj hs''
        exact hne hnone
  · rintro ⟨given, hgiven, name, hname, described, hdescribed, hprefers, rfl, rfl⟩
    have hclause : columnClause table (name ++ (described ++ ';' :: rest)) = some (.newColumn table
        ⟨String.ofList name, String.ofList (trimChars described)⟩, rest) :=
      columnClause_eq_some_iff.mpr ⟨name, hname, described, hdescribed, rfl, rfl⟩
    obtain hgiven | hgiven := hgiven
    · obtain rfl : given = [] := hgiven
      rw [List.nil_append]
      cases hphrase : afterPhrase ["IF", "NOT", "EXISTS"] (name ++ (described ++ ';' :: rest)) with
      | none => exact Or.inl (by rw [skipPhrase, hphrase, Option.getD_none, hclause])
      | some s' =>
        refine Or.inr ⟨?_, hclause⟩
        rw [skipPhrase, hphrase, Option.getD_some]
        by_contra hne
        exact hprefers rfl ((guarded_iff table rest hname hdescribed).mpr ⟨s', hphrase, hne⟩)
    · left
      rw [skipPhrase, afterPhrase_append (by decide) hgiven (Form.stops_blank_of_word hname),
        Option.getD_some, hclause]

theorem spells_of_newColumn? (h : newColumn? s = some (statement, rest)) :
    statement.shape = .columnAddition ∧ ∃ w, Spells statement w ∧ s = w ++ rest := by
  simp only [newColumn?, Option.bind_eq_bind, Option.bind_eq_some_iff] at h
  obtain ⟨s₁, hopens, ⟨_, s₂⟩, htables, s₃, hblanks, s₄, hadds, hclause⟩ := h
  obtain ⟨opening, hopening, rfl⟩ := exists_phrase_of_afterPhrase hopens
  obtain ⟨⟨table, htable, rfl, rfl⟩, -⟩ := word_eq_some_iff.mp htables
  obtain ⟨⟨gap, hgap, rfl⟩, -⟩ := afterBlanks_eq_some_iff.mp hblanks
  obtain ⟨adding, hadding, rfl⟩ := exists_phrase_of_afterPhrase hadds
  obtain ⟨given, hgiven, name, hname, described, hdescribed, hprefers, rfl, rfl⟩ :=
    columnClause_or_eq_some_iff.mp hclause
  exact ⟨rfl, _, spells_newColumn hopening htable hgap hadding hgiven hname hdescribed hprefers,
    by simp⟩

theorem spells_of_newIndex? (h : newIndex? s = some (statement, rest)) :
    statement.shape = .indexDefinition ∧ ∃ w, Spells statement w ∧ s = w ++ rest := by
  simp only [newIndex?, Option.bind_eq_bind, Option.bind_eq_some_iff] at h
  obtain ⟨s₁, hopens, s₂, hindexes, ⟨_, s₃⟩, hnames, s₄, hblanks, s₅, hons, ⟨_, s₆⟩, htables, s₇,
    hparen, ⟨columns, s₈⟩, hlist, s₉, hsemicolon, hend⟩ := h
  obtain ⟨create, hcreate, rfl⟩ := exists_phrase_of_afterPhrase hopens
  obtain ⟨unique, hunique, hs₁⟩ := exists_perhaps_skipPhrase ["UNIQUE"] s₁
  obtain ⟨index, hindex, hs₂⟩ := exists_phrase_of_afterPhrase hindexes
  obtain ⟨given, hgiven, hskip⟩ := exists_perhaps_skipPhrase ["IF", "NOT", "EXISTS"] s₂
  obtain ⟨⟨name, hname, rfl, hafter⟩, -⟩ := word_eq_some_iff.mp hnames
  obtain ⟨⟨gap, hgap, rfl⟩, -⟩ := afterBlanks_eq_some_iff.mp hblanks
  obtain ⟨on, hon, rfl⟩ := exists_phrase_of_afterPhrase hons
  obtain ⟨⟨table, htable, rfl, rfl⟩, -⟩ := word_eq_some_iff.mp htables
  obtain ⟨gap', hgap', hs₆⟩ := exists_space_dropWhile s₆
  rw [afterChar_eq_some_iff.mp hparen] at hs₆
  obtain ⟨hcolumns, rfl⟩ := parenthesized_eq_some_iff.mp hlist
  obtain rfl := afterChar_eq_some_iff.mp hsemicolon
  obtain ⟨rfl, rfl⟩ := Prod.mk.inj (Option.some.inj hend)
  refine ⟨rfl, _, spells_newIndex (Language.append_mem_mul hcreate (Language.append_mem_mul hunique
    (Language.append_mem_mul hindex hgiven))) hname hgap hon htable hgap' hcolumns, ?_⟩
  rw [hs₁, hs₂, hskip, hafter, hs₆]
  simp

theorem spells_of_newRow? (h : newRow? s = some (statement, rest)) :
    statement.shape = .rowInsertion ∧ ∃ w, Spells statement w ∧ s = w ++ rest := by
  simp only [newRow?, Option.bind_eq_bind, Option.bind_eq_some_iff] at h
  obtain ⟨s₁, hopens, ⟨_, s₂⟩, htables, s₃, hparen, ⟨columns, s₄⟩, hlist, s₅, hlink, s₆, hparen',
    ⟨values, s₇⟩, hlist', s₈, hsemicolon, hend⟩ := h
  obtain ⟨opening, hopening, rfl⟩ := exists_phrase_of_afterPhrase hopens
  obtain ⟨⟨table, htable, rfl, rfl⟩, -⟩ := word_eq_some_iff.mp htables
  obtain ⟨gap, hgap, hs₂⟩ := exists_space_dropWhile s₂
  rw [afterChar_eq_some_iff.mp hparen] at hs₂
  obtain ⟨hcolumns, rfl⟩ := parenthesized_eq_some_iff.mp hlist
  obtain ⟨before, hbefore, hs₄⟩ := exists_space_dropWhile s₄
  obtain ⟨key, hkey, hs₅⟩ := afterKeyword_eq_some_iff.mp hlink
  obtain ⟨behind, hbehind, hs₅'⟩ := exists_space_dropWhile s₅
  rw [afterChar_eq_some_iff.mp hparen'] at hs₅'
  obtain ⟨hvalues, rfl⟩ := parenthesized_eq_some_iff.mp hlist'
  obtain rfl := afterChar_eq_some_iff.mp hsemicolon
  obtain ⟨rfl, rfl⟩ := Prod.mk.inj (Option.some.inj hend)
  refine ⟨rfl, _, spells_newRow hopening htable hgap hcolumns (Language.append_mem_mul hbefore
    (Language.append_mem_mul hkey hbehind)) hvalues, ?_⟩
  rw [hs₂, hs₄, hs₅, hs₅']
  simp

end

section

variable {opening name table gap gap' given columns rest : List Char}

theorem newTable?_append {body : List Char} (hopens : opening ∈ phrase ["CREATE", "TABLE"])
    (hgiven : given ∈ guard) (hname : name ∈ Form.word) (hgap : gap ∈ space)
    (hends : ¬ [')', ';'] <:+: body) :
    newTable? (opening ++ (given ++ (name ++ (gap ++ '(' :: (body ++ ')' :: ';' :: rest))))) =
      some (.newTable (String.ofList name) (Column.ofBody body), rest) := by
  have hskip (tail : List Char) := skipPhrase_guard hgiven hname hgap
    (Form.stops_word_paren (r := tail) hgap) Form.stops_blank_paren
    (Form.lacks_of_stops (by decide) (stops_cons.mpr (isWord_of_isPunctuation (by decide))))
  simp only [newTable?, Option.bind_eq_bind, Option.bind_some,
    afterPhrase_append (by decide) hopens
      (Form.stops_blank_of_perhaps (by decide) hgiven (Form.stops_blank_of_word hname)),
    hskip, word_append hname (Form.stops_word_paren hgap),
    dropWhile_append_of_stops hgap Form.stops_blank_paren, afterChar_cons, tableBody_append hends]

theorem newColumn?_append {adding described : List Char}
    (hopens : opening ∈ phrase ["ALTER", "TABLE"]) (htable : table ∈ Form.word)
    (hgap : gap ∈ blanks) (hadds : adding ∈ phrase ["ADD", "COLUMN"]) (hgiven : given ∈ guard)
    (hname : name ∈ Form.word) (hdescribes : described ∈ clause)
    (hprefers : given = [] →
      name ++ described ∉ phrase ["IF", "NOT", "EXISTS"] * (Form.word * clause)) :
    newColumn? (opening ++ (table ++ (gap ++ (adding ++ (given ++
        (name ++ (described ++ ';' :: rest))))))) =
      some (.newColumn (String.ofList table)
        ⟨String.ofList name, String.ofList (trimChars described)⟩, rest) := by
  have hclause : (columnClause (String.ofList table) (skipPhrase ["IF", "NOT", "EXISTS"]
        (given ++ (name ++ (described ++ ';' :: rest)))) <|>
      columnClause (String.ofList table) (given ++ (name ++ (described ++ ';' :: rest)))) =
        some (.newColumn (String.ofList table)
          ⟨String.ofList name, String.ofList (trimChars described)⟩, rest) :=
    columnClause_or_eq_some_iff.mpr
      ⟨given, hgiven, name, hname, described, hdescribes, hprefers, rfl, rfl⟩
  simp only [newColumn?, Option.bind_eq_bind, Option.bind_some,
    afterPhrase_append (by decide) hopens (Form.stops_blank_of_word htable),
    word_append htable (Form.stops_word_of_blanks hgap),
    afterBlanks_append hgap (Form.stops_blank_of_phrase (by decide) hadds),
    afterPhrase_append (by decide) hadds
      (Form.stops_blank_of_perhaps (by decide) hgiven (Form.stops_blank_of_word hname)), hclause]

theorem newIndex?_append {unique index on : List Char} (hopens : opening ∈ phrase ["CREATE"])
    (hunique : unique ∈ perhaps ["UNIQUE"]) (hindex : index ∈ phrase ["INDEX"])
    (hgiven : given ∈ guard) (hname : name ∈ Form.word) (hgap : gap ∈ blanks)
    (hon : on ∈ phrase ["ON"]) (htable : table ∈ Form.word) (hgap' : gap' ∈ space)
    (hcolumns : columns ∈ without ')') :
    newIndex? (opening ++ (unique ++ (index ++ (given ++ (name ++ (gap ++ (on ++ (table ++
        (gap' ++ '(' :: (columns ++ ')' :: ';' :: rest)))))))))) =
      some (.newIndex (String.ofList name) (String.ofList table) (listItems columns), rest) := by
  have hstops (tail : List Char) : Stops isBlank (on ++ tail) :=
    Form.stops_blank_of_phrase (by decide) hon
  have hskip (tail : List Char) := skipPhrase_guard hgiven hname hgap.2
    (Form.stops_word_of_blanks (r := on ++ tail) hgap) (hstops tail)
    (Form.lacks_of_phrase (by decide) (by decide) hon (by decide))
  have hunique' (tail : List Char) :
      skipPhrase ["UNIQUE"] (unique ++ (index ++ tail)) = index ++ tail :=
    skipPhrase_append (by decide) hunique (Form.stops_blank_of_phrase (by decide) hindex) fun _ =>
      afterPhrase_eq_none_of_lacks (Form.lacks_of_phrase (by decide) (by decide) hindex (by decide))
  simp only [newIndex?, Option.bind_eq_bind, Option.bind_some,
    afterPhrase_append (by decide) hopens (Form.stops_blank_of_perhaps (by decide) hunique
      (Form.stops_blank_of_phrase (by decide) hindex)), hunique',
    afterPhrase_append (by decide) hindex
      (Form.stops_blank_of_perhaps (by decide) hgiven (Form.stops_blank_of_word hname)),
    hskip, word_append hname (Form.stops_word_of_blanks hgap), afterBlanks_append hgap (hstops _),
    afterPhrase_append (by decide) hon (Form.stops_blank_of_word htable),
    word_append htable (Form.stops_word_paren hgap'),
    dropWhile_append_of_stops hgap' Form.stops_blank_paren, afterChar_cons,
    parenthesized_append hcolumns]

/-- A row up to the parenthesis that opens its values: what follows is left to read. -/
theorem newRow?_eq {link : List Char} (hopens : opening ∈ phrase ["INSERT", "INTO"])
    (htable : table ∈ Form.word) (hgap : gap ∈ space) (hcolumns : columns ∈ without ')')
    (hlink : link ∈ space * (keyword "VALUES" * space)) :
    newRow? (opening ++ (table ++ (gap ++ '(' :: (columns ++ ')' :: (link ++ '(' :: rest))))) =
      (do
        let (values, s) ← parenthesized rest
        let s ← afterChar ';' s
        some (.newRow (String.ofList table) (listItems columns) (String.ofList values), s)) := by
  obtain ⟨before, hbefore, _, htail, rfl⟩ := Language.mem_mul.mp hlink
  obtain ⟨key, hkey, behind, hbehind, rfl⟩ := Language.mem_mul.mp htail
  have hstops {tail : List Char} : Stops isBlank (key ++ tail) :=
    Form.stops_blank_of_word (Form.keyword_subset_word (by decide) hkey)
  have hafter {tail : List Char} : afterKeyword "VALUES".toList (key ++ tail) = some tail :=
    afterKeyword_eq_some_iff.mpr ⟨key, hkey, rfl⟩
  simp only [newRow?, Option.bind_eq_bind, Option.bind_some, List.append_assoc,
    afterPhrase_append (by decide) hopens (Form.stops_blank_of_word htable),
    word_append htable (Form.stops_word_paren hgap),
    dropWhile_append_of_stops hgap Form.stops_blank_paren, afterChar_cons,
    parenthesized_append hcolumns, dropWhile_append_of_stops hbefore hstops, hafter,
    dropWhile_append_of_stops hbehind Form.stops_blank_paren]

theorem newRow?_append {link values : List Char} (hopens : opening ∈ phrase ["INSERT", "INTO"])
    (htable : table ∈ Form.word) (hgap : gap ∈ space) (hcolumns : columns ∈ without ')')
    (hlink : link ∈ space * (keyword "VALUES" * space)) (hvalues : values ∈ without ')') :
    newRow? (opening ++ (table ++ (gap ++ '(' :: (columns ++ ')' ::
        (link ++ '(' :: (values ++ ')' :: ';' :: rest)))))) =
      some (.newRow (String.ofList table) (listItems columns) (String.ofList values), rest) := by
  rw [newRow?_eq hopens htable hgap hcolumns hlink, parenthesized_append hvalues]
  rfl

end

/-- A reader finds a spelling at the front of a text, whatever follows it. -/
theorem read_append {statement : Statement} {w rest : List Char} (h : Spells statement w) :
    read statement.shape (w ++ rest) = some (statement, rest) := by
  cases h with
  | newTable opens named spaced ends =>
    obtain ⟨create, hcreate, given, hgiven, rfl⟩ := Language.mem_mul.mp opens
    simpa [shape, read] using newTable?_append hcreate hgiven named.word spaced ends
  | newColumn opens tabled spaced adds guarded named describes prefers trims =>
    rw [← trims_iff.mp trims]
    simpa [shape, read] using newColumn?_append opens tabled.word spaced adds guarded named.word
      describes prefers
  | newIndex opens named spaced ons tabled spaced' listed lists =>
    rw [← lists_iff.mp lists]
    obtain ⟨create, hcreate, _, htail, rfl⟩ := Language.mem_mul.mp opens
    obtain ⟨unique, hunique, _, htail', rfl⟩ := Language.mem_mul.mp htail
    obtain ⟨index, hindex, given, hgiven, rfl⟩ := Language.mem_mul.mp htail'
    simpa [shape, read] using newIndex?_append hcreate hunique hindex hgiven named.word spaced ons
      tabled.word spaced' listed
  | newRow opens tabled spaced listed links valued lists =>
    rw [← lists_iff.mp lists]
    simpa [shape, read] using newRow?_append opens tabled.word spaced listed links valued

/-- A reader takes a statement from the front of a text exactly if the text begins with a spelling
of a statement of its shape. Nothing behind the semicolon matters. -/
theorem read_eq_some_iff {shape : Shape} {statement : Statement} {s rest : List Char} :
    read shape s = some (statement, rest) ↔
      statement.shape = shape ∧ ∃ w, Spells statement w ∧ s = w ++ rest := by
  constructor
  · intro h
    cases shape with
    | tableDefinition => exact spells_of_newTable? h
    | columnAddition => exact spells_of_newColumn? h
    | indexDefinition => exact spells_of_newIndex? h
    | rowInsertion => exact spells_of_newRow? h
  · rintro ⟨rfl, w, hspells, rfl⟩
    exact read_append hspells

end SchemaChange.Statement
