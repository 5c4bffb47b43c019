import SchemaChange.Proofs.ColumnVariation
import SchemaChange.Proofs.Opening

/-!
# Statements in texts that are alike

Each reader of statements does the same on two texts that are alike, with one exception: a return in
front of a lone line end behind the name of a new column makes the clause long enough to count.
-/

namespace SchemaChange.Statement

open SchemaChange.Text
open Form (blanks phrase guard)

variable {v : Variation} {c d : Char} {s t : List Char}

/-- Statements of one shape that differ in the case of letters and in what is alike. -/
inductive Alike (v : Variation) : Statement → Statement → Prop where
  | newTable {name name' : String} {columns columns' : List Column}
      (named : eqIgnoringAsciiCase name name' = true)
      (listed : List.Forall₂ (Column.Alike v) columns columns') :
      Alike v (.newTable name columns) (.newTable name' columns')
  | newColumn {table table' : String} {column column' : Column}
      (tabled : eqIgnoringAsciiCase table table' = true)
      (described : Column.Alike v column column') :
      Alike v (.newColumn table column) (.newColumn table' column')
  | newIndex {name name' table table' : String} {columns columns' : List String}
      (named : eqIgnoringAsciiCase name name' = true)
      (tabled : eqIgnoringAsciiCase table table' = true)
      (listed : List.Forall₂ (fun a b => Text.Alike v a.toList b.toList) columns columns') :
      Alike v (.newIndex name table columns) (.newIndex name' table' columns')
  | newRow {table table' : String} {columns columns' : List String} {values values' : String}
      (tabled : eqIgnoringAsciiCase table table' = true)
      (listed : List.Forall₂ (fun a b => Text.Alike v a.toList b.toList) columns columns')
      (valued : Text.Alike v values.toList values'.toList) :
      Alike v (.newRow table columns values) (.newRow table' columns' values')

/-! ## Parts -/

theorem parenthesized_alike (h : Text.Alike v s t) :
    Option.Rel (Found v (Text.Alike v) s t) (parenthesized s) (parenthesized t) := by
  have hclass : Uniform (· != ')') := IsMark.uniform_bne (by decide)
  have hinner := h.takeWhile hclass
  have hcut := Cut.dropWhile hclass h
  refine rel_bind (afterChar_alike (by decide) hcut.rest) fun s' t' hclose => ?_
  rw [hinner.isEmpty_eq]
  split
  · exact .none
  · exact .some ⟨hinner, (hcut.trans hclose).rests⟩

theorem tableBody_cons (c : Char) (s : List Char) :
    tableBody (c :: s) =
      if c = ')' ∧ s.head? = some ';' then some ([], s.tail)
      else (tableBody s).map fun (body, rest) => (c :: body, rest) := by
  by_cases h : c = ')' ∧ s.head? = some ';'
  · obtain ⟨rfl, hs⟩ := h
    obtain ⟨s, rfl⟩ := List.head?_eq_some_iff.mp hs
    rfl
  · rw [if_neg h, tableBody]
    intro s' hc hs
    exact h ⟨hc, by rw [hs, List.head?_cons]⟩

theorem tableBody_alike (h : Text.Alike v s t) :
    Option.Rel (Found v (Text.Alike v) s t) (tableBody s) (tableBody t) := by
  induction h with
  | nil => exact .none
  | @char c d s t hlike rest ih =>
    have hends : (c = ')' ∧ s.head? = some ';') ↔ (d = ')' ∧ t.head? = some ';') := by
      rw [IsMark.eq_iff (by decide) hlike, rest.head?_eq_iff (by decide)]
    rw [tableBody_cons, tableBody_cons]
    by_cases hd : d = ')' ∧ t.head? = some ';'
    · rw [if_pos (hends.mpr hd), if_pos hd]
      refine .some ⟨.nil, ?_⟩
      cases rest with
      | nil => cases hd.2
      | char _ rest => exact Rests.cons (Rests.cons (Cut.refl rest).rests)
      | line => cases hd.2
    · rw [if_neg (mt hends.mp hd), if_neg hd]
      exact rel_map ih fun _ _ hfound => ⟨.char hlike hfound.1, hfound.2.cons⟩
  | line hreturns rest ih =>
    rw [tableBody_cons, tableBody_cons, tableBody_cons, if_neg (by simp), if_neg (by simp),
      if_neg (by simp), Option.map_map]
    refine rel_map ih fun _ _ hfound => ⟨.line hreturns hfound.1, ?_⟩
    exact hfound.2.cons.mono (List.suffix_refl _) (List.suffix_cons _ _)

/-- The end of a new column whose clause is nothing but a line end with a return. -/
def lone : List Char := ['\r', '\n', ';']

theorem columnClause_eq {table name : String} {rest s' : List Char} (hname : word s = some (name, s'))
    (hrest : afterChar ';' (s'.dropWhile (· != ';')) = some rest) :
    columnClause table s =
      if 1 < (s'.takeWhile (· != ';')).length ∧ (s'.takeWhile (· != ';')).head?.any isBlank then
        some (.newColumn table ⟨name, String.ofList (trimChars (s'.takeWhile (· != ';')))⟩, rest)
      else none := by
  simp only [columnClause, hname, hrest, Option.bind_eq_bind, Option.bind_some]
  generalize s'.takeWhile (· != ';') = described
  split
  · simp
  · rename_i hshort
    rw [if_neg]
    rintro ⟨hlength, -⟩
    cases described with
    | nil => simp at hlength
    | cons c more =>
      cases more with
      | nil => simp at hlength
      | cons d more => exact hshort c d more rfl

theorem columnClause_alike {table table' : String} (htable : eqIgnoringAsciiCase table table' = true)
    (h : Text.Alike v s t) :
    Option.Rel (Found v (Alike v) s t) (columnClause table s) (columnClause table' t) ∨
      v.returns ∧ ∃ name ∈ Form.word, ∃ rest statement, t = name ++ (lone ++ rest) ∧
        columnClause table' t = some (statement, rest) := by
  obtain ⟨hs, ht⟩ | ⟨⟨name, s₁⟩, ⟨name', t₁⟩, hs, ht, hname, hrests⟩ := rel_cases (word_alike h)
  · refine Or.inl ?_
    simp only [columnClause, hs, ht]
    exact .none
  have hclass : Uniform (· != ';') := IsMark.uniform_bne (by decide)
  have hclause := hrests.alike.takeWhile hclass
  have hcut := Cut.dropWhile hclass hrests.alike
  obtain ⟨hs', ht'⟩ | ⟨s₂, t₂, hs', ht', hrest⟩ :=
    rel_cases (afterChar_alike (x := ';') (by decide) hcut.rest)
  · refine Or.inl ?_
    simp only [columnClause, hs, ht, hs', ht', Option.bind_eq_bind, Option.bind_some]
    exact .none
  rw [columnClause_eq hs hs', columnClause_eq ht ht']
  obtain hlength | ⟨hreturns, hlone⟩ := hclause.one_lt_length_iff
  · refine Or.inl ?_
    have hlong := and_congr hlength (Bool.coe_iff_coe.mpr (hclause.any_head? uniform_isBlank))
    by_cases hclaused : 1 < (t₁.takeWhile (· != ';')).length ∧
        (t₁.takeWhile (· != ';')).head?.any isBlank = true
    · rw [if_pos (hlong.mpr hclaused), if_pos hclaused]
      exact .some ⟨.newColumn htable ⟨hname, by simpa using hclause.trimChars⟩,
        hrests.trans (hcut.trans hrest).rests⟩
    · rw [if_neg (mt hlong.mp hclaused), if_neg hclaused]
      exact .none
  · refine Or.inr ?_
    dsimp only at hlone ht'
    obtain ⟨⟨w, hw, -, ht⟩, -⟩ := word_eq_some_iff.mp ht
    have ht₁ : t₁ = ['\r', '\n'] ++ ';' :: t₂ := by
      rw [← afterChar_eq_some_iff.mp ht', ← hlone, List.takeWhile_append_dropWhile]
    refine ⟨hreturns, w, hw, t₂, _, by rw [ht, ht₁]; rfl, if_pos ?_⟩
    rw [hlone]
    decide +kernel

/-! ## Readers -/

theorem newTable?_alike (h : Text.Alike v s t) :
    Option.Rel (Found v (Alike v) s t) (newTable? s) (newTable? t) := by
  refine rel_bind (afterPhrase_alike (by decide) h) fun s₁ t₁ hopens => ?_
  have hguard := skipPhrase_alike ["IF", "NOT", "EXISTS"] (by decide) hopens.rest
  refine rel_bind (word_alike hguard.rest) fun (name, s₂) (name', t₂) ⟨hname, hword⟩ => ?_
  have hgap := Cut.dropWhile uniform_isBlank hword.alike
  refine rel_bind (afterChar_alike (by decide) hgap.rest) fun s₃ t₃ hparen => ?_
  refine rel_bind (tableBody_alike hparen.rest) fun (body, s₄) (body', t₄) ⟨hbody, hends⟩ => ?_
  refine .some ⟨.newTable hname (Column.ofBody_alike hbody), ?_⟩
  exact (hopens.trans hguard).rests.trans (hword.trans ((hgap.trans hparen).rests.trans hends))

theorem newIndex?_alike (h : Text.Alike v s t) :
    Option.Rel (Found v (Alike v) s t) (newIndex? s) (newIndex? t) := by
  refine rel_bind (afterPhrase_alike (by decide) h) fun s₁ t₁ hopens => ?_
  have hunique := skipPhrase_alike ["UNIQUE"] (by decide) hopens.rest
  refine rel_bind (afterPhrase_alike (by decide) hunique.rest) fun s₂ t₂ hindex => ?_
  have hguard := skipPhrase_alike ["IF", "NOT", "EXISTS"] (by decide) hindex.rest
  refine rel_bind (word_alike hguard.rest) fun (name, s₃) (name', t₃) ⟨hname, hword⟩ => ?_
  refine rel_bind (afterBlanks_alike hword.alike) fun s₄ t₄ hblanks => ?_
  refine rel_bind (afterPhrase_alike (by decide) hblanks.rest) fun s₅ t₅ hon => ?_
  refine rel_bind (word_alike hon.rest) fun (table, s₆) (table', t₆) ⟨htable, hword'⟩ => ?_
  have hgap := Cut.dropWhile uniform_isBlank hword'.alike
  refine rel_bind (afterChar_alike (by decide) hgap.rest) fun s₇ t₇ hparen => ?_
  refine rel_bind (parenthesized_alike hparen.rest) fun (columns, s₈) (columns', t₈)
    ⟨hcolumns, hclose⟩ => ?_
  refine rel_bind (afterChar_alike (by decide) hclose.alike) fun s₉ t₉ hsemicolon => ?_
  refine .some ⟨.newIndex hname htable (listItems_alike hcolumns), ?_⟩
  have hfirst := ((hopens.trans hunique).trans (hindex.trans hguard)).rests
  have hsecond := (hblanks.trans hon).rests
  have hthird := (hgap.trans hparen).rests
  exact hfirst.trans (hword.trans (hsecond.trans (hword'.trans (hthird.trans
    (hclose.trans hsemicolon.rests)))))

theorem newRow?_alike (h : Text.Alike v s t) :
    Option.Rel (Found v (Alike v) s t) (newRow? s) (newRow? t) := by
  refine rel_bind (afterPhrase_alike (by decide) h) fun s₁ t₁ hopens => ?_
  refine rel_bind (word_alike hopens.rest) fun (table, s₂) (table', t₂) ⟨htable, hword⟩ => ?_
  have hgap := Cut.dropWhile uniform_isBlank hword.alike
  refine rel_bind (afterChar_alike (by decide) hgap.rest) fun s₃ t₃ hparen => ?_
  refine rel_bind (parenthesized_alike hparen.rest) fun (columns, s₄) (columns', t₄)
    ⟨hcolumns, hclose⟩ => ?_
  have hgap' := Cut.dropWhile uniform_isBlank hclose.alike
  refine rel_bind (afterKeyword_alike (by decide) hgap'.rest) fun s₅ t₅ hvalues => ?_
  have hgap'' := Cut.dropWhile uniform_isBlank hvalues.rest
  refine rel_bind (afterChar_alike (by decide) hgap''.rest) fun s₆ t₆ hparen' => ?_
  refine rel_bind (parenthesized_alike hparen'.rest) fun (values, s₇) (values', t₇)
    ⟨hvalued, hclose'⟩ => ?_
  refine rel_bind (afterChar_alike (by decide) hclose'.alike) fun s₈ t₈ hsemicolon => ?_
  refine .some ⟨.newRow htable (listItems_alike hcolumns) (by simpa using hvalued), ?_⟩
  have hlink := (hgap'.trans (hvalues.trans (hgap''.trans hparen'))).rests
  exact hopens.rests.trans (hword.trans ((hgap.trans hparen).rests.trans (hclose.trans
    (hlink.trans (hclose'.trans hsemicolon.rests)))))

/-- New columns that have nothing but a line end with a return behind their name. -/
def loneAddition : Language Char :=
  phrase ["ALTER", "TABLE"] * (Form.word * (blanks * (phrase ["ADD", "COLUMN"] *
    (guard * (Form.word * {lone})))))

theorem newColumn?_alike (h : Text.Alike v s t) :
    Option.Rel (Found v (Alike v) s t) (newColumn? s) (newColumn? t) ∨
      v.returns ∧ ∃ w ∈ loneAddition, ∃ rest statement, t = w ++ rest ∧
        newColumn? t = some (statement, rest) := by
  refine rel_bind_or (afterPhrase_alike (by decide) h) fun s₁ t₁ ht₁ hopens => ?_
  refine rel_bind_or (word_alike hopens.rest) fun (table, s₂) (table', t₂) ht₂ ⟨htable, hword⟩ => ?_
  refine rel_bind_or (afterBlanks_alike hword.alike) fun s₃ t₃ ht₃ hblanks => ?_
  refine rel_bind_or (afterPhrase_alike (by decide) hblanks.rest) fun s₄ t₄ ht₄ hadds => ?_
  have hguard := skipPhrase_alike ["IF", "NOT", "EXISTS"] (by decide) hadds.rest
  have hrests := hopens.rests.trans (hword.trans (hblanks.trans hadds).rests)
  -- The text of an exception in front of what follows the name.
  have hlone (statement : Statement) {given name rest : List Char} (hgiven : given ∈ guard)
      (hname : name ∈ Form.word) (heq : t₄ = given ++ (name ++ (lone ++ rest)))
      (hread : (columnClause table' (skipPhrase ["IF", "NOT", "EXISTS"] t₄) <|>
        columnClause table' t₄) = some (statement, rest)) :
      ∃ w ∈ loneAddition, ∃ rest statement, t = w ++ rest ∧
        newColumn? t = some (statement, rest) := by
    obtain ⟨opening, hopening, htext⟩ := exists_phrase_of_afterPhrase ht₁
    obtain ⟨⟨w, hw, -, htext₁⟩, -⟩ := word_eq_some_iff.mp ht₂
    obtain ⟨⟨gap, hgap, htext₂⟩, -⟩ := afterBlanks_eq_some_iff.mp ht₃
    obtain ⟨adding, hadding, htext₃⟩ := exists_phrase_of_afterPhrase ht₄
    refine ⟨opening ++ (w ++ (gap ++ (adding ++ (given ++ (name ++ lone))))), ?_, rest, statement,
      ?_, ?_⟩
    · exact Language.append_mem_mul hopening (Language.append_mem_mul hw (Language.append_mem_mul
        hgap (Language.append_mem_mul hadding (Language.append_mem_mul hgiven
          (Language.append_mem_mul hname rfl)))))
    · rw [htext, htext₁, htext₂, htext₃, heq]
      simp only [List.append_assoc]
    · simp only [newColumn?, Option.bind_eq_bind, ht₁, ht₂, ht₃, ht₄, Option.bind_some, hread]
  obtain hfirst | ⟨hreturns, name, hname, rest, statement, heq, hread⟩ :=
    columnClause_alike htable hguard.rest
  · obtain ⟨hs, ht⟩ | ⟨a, b, hs, ht, hvalue, hleft⟩ := rel_cases hfirst
    · obtain hsecond | ⟨hreturns, name, hname, rest, statement, heq, hread⟩ :=
        columnClause_alike htable hadds.rest
      · rw [hs, ht]
        exact Or.inl (rel_imp hsecond fun _ _ hfound => ⟨hfound.1, hrests.trans hfound.2⟩)
      · refine Or.inr ⟨hreturns, hlone statement (Or.inl rfl) hname heq ?_⟩
        rw [ht, hread]
        rfl
    · rw [hs, ht]
      exact Or.inl (.some ⟨hvalue, hrests.trans (hguard.rests.trans hleft)⟩)
  · obtain ⟨given, hgiven, heq'⟩ := exists_perhaps_skipPhrase ["IF", "NOT", "EXISTS"] t₄
    refine Or.inr ⟨hreturns, hlone statement hgiven hname (heq ▸ heq') ?_⟩
    rw [hread]
    rfl

/-! ## Searches -/

variable {statement : Statement} {rest : List Char}

theorem suffix_of_read (shape : Shape) (h : read shape (c :: s) = some (statement, rest)) :
    rest <:+ s := by
  obtain ⟨-, w, hspells, heq⟩ := read_eq_some_iff.mp h
  obtain ⟨e, w, rfl⟩ := List.exists_cons_of_ne_nil (ne_nil_of_spells hspells)
  exact ⟨w, (List.cons.inj heq).2.symm⟩

theorem read_eq_none_of_not_word (shape : Shape) (hc : isWord c = false) :
    read shape (c :: s) = none :=
  read_eq_none_of_barren (barren_of_not_word hc) (List.cons_ne_nil c []) (List.suffix_refl [c])

theorem read_alike (shape : Shape) (h : Text.Alike v s t) :
    Option.Rel (Found v (Alike v) s t) (read shape s) (read shape t) ∨
      v.returns ∧ shape = .columnAddition ∧ ∃ w ∈ loneAddition, ∃ rest statement,
        t = w ++ rest ∧ read shape t = some (statement, rest) := by
  cases shape with
  | tableDefinition => exact Or.inl (newTable?_alike h)
  | columnAddition => exact (newColumn?_alike h).imp_right fun hlone => ⟨hlone.1, rfl, hlone.2⟩
  | indexDefinition => exact Or.inl (newIndex?_alike h)
  | rowInsertion => exact Or.inl (newRow?_alike h)

theorem ne_nil_of_loneAddition {w : List Char} (h : w ∈ loneAddition) : w ≠ [] := by
  obtain ⟨opening, hopening, _, -, rfl⟩ := Language.mem_mul.mp h
  exact List.append_ne_nil_of_left_ne_nil (Form.ne_nil_of_phrase hopening) _

/-- The statements that are found in two texts correspond, if no new column of the variant has
nothing but a line end with a return behind its name. -/
theorem occurrences_read_alike (shape : Shape) (h : Text.Alike v s t)
    (hnot : v.returns → shape = .columnAddition →
      ∀ found ∈ occurrences (withText (read shape)) t, found.2 ∉ loneAddition) :
    List.Forall₂ (Alike v) (occurrences (read shape) s) (occurrences (read shape) t) := by
  refine occurrences_alike_of_not
    (fun w => v.returns ∧ shape = .columnAddition ∧ w ∈ loneAddition)
    (fun _ _ => read_eq_none_of_not_word shape) (fun c d s t hlike rest => ?_) h
    fun found hmem hlone => hnot hlone.1 hlone.2.1 found hmem hlone.2.2
  obtain hfound | ⟨hreturns, hshape, w, hlone, left, statement, heq, hread⟩ :=
    read_alike shape (.char hlike rest)
  · left
    obtain ⟨hs, ht⟩ | ⟨a, b, hs, ht, hvalue, hrests⟩ := rel_cases hfound
    · rw [hs, ht]
      exact .none
    · rw [hs, ht]
      exact .some ⟨hvalue, hrests.alike, suffix_of_read shape hs, suffix_of_read shape ht⟩
  · exact Or.inr ⟨statement, w, left, hread, heq, ne_nil_of_loneAddition hlone, hreturns, hshape,
      hlone⟩

/-! ## Comments -/

/-- The comments of two texts are alike and so is what stands outside them. -/
theorem dropComments_alike (inComment : Bool) (h : Text.Alike v s t) :
    Text.Alike v (dropComments inComment s) (dropComments inComment t) := by
  induction h generalizing inComment with
  | nil => exact .nil
  | @char c d s t hlike rest ih =>
    have hline : c = '\n' ↔ d = '\n' := eq_iff_of_toLower_eq (by decide) (v.folds hlike)
    have hhyphen : (c == '-') = (d == '-') := by
      rw [Bool.eq_iff_iff, beq_iff_eq, beq_iff_eq, IsMark.eq_iff (by decide) hlike]
    have hnext : (s.head? == some '-') = (t.head? == some '-') := by
      rw [Bool.eq_iff_iff, beq_iff_eq, beq_iff_eq, rest.head?_eq_iff (by decide)]
    rw [dropComments, dropComments, hhyphen, hnext]
    by_cases hd : d = '\n'
    · rw [if_pos (hline.mpr hd), if_pos hd]
      exact .char (v.refl _) (ih false)
    · rw [if_neg (mt hline.mp hd), if_neg hd]
      split
      · exact ih true
      · exact .char hlike (ih false)
  | line hreturns rest ih =>
    cases inComment with
    | true => exact .char (v.refl _) (ih false)
    | false => exact .line hreturns (ih false)

end SchemaChange.Statement
