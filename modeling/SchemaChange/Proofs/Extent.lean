import SchemaChange.Proofs.Fragment
import SchemaChange.Proofs.Search
import SchemaChange.Proofs.Spelling

/-!
# Where statements begin and end

A statement begins wherever a text of its form begins, and its end is forced. So the statements of
one shape are the leftmost texts of that form, one behind the other.
-/

namespace SchemaChange.Statement

open SchemaChange.Text
open Form (keyword blanks space phrase perhaps guard clause without wording)

variable {statement : Statement} {shape : Shape} {s w rest : List Char}

theorem ne_nil_of_spells (h : Spells statement w) : w ≠ [] := by
  cases h <;> simp

/-- The reader of a shape takes exactly the spellings of its statements. -/
theorem recognizes_read (shape : Shape) :
    Recognizes (read shape) fun statement w => statement.shape = shape ∧ Spells statement w where
  read_eq_some_iff := by
    intro s statement rest
    rw [read_eq_some_iff]
    constructor
    · rintro ⟨hshape, w, hspells, rfl⟩
      exact ⟨w, ⟨hshape, hspells⟩, rfl⟩
    · rintro ⟨w, ⟨hshape, hspells⟩, rfl⟩
      exact ⟨hshape, w, hspells, rfl⟩
  ne_nil h := ne_nil_of_spells h.2

/-! ## Beginnings -/

theorem paren_append_mem {l : Language Char} (h : w ∈ l) :
    '(' :: w ∈ ({['(']} : Language Char) * l :=
  Language.append_mem_mul (a := ['(']) rfl h

/-- A spelling is a text of the form of its shape. -/
theorem mem_ofShape_of_spells (h : Spells statement w) : w ∈ Form.ofShape statement.shape := by
  cases h with
  | newTable opens named spaced ends =>
    obtain ⟨create, hcreate, given, hgiven, rfl⟩ := Language.mem_mul.mp opens
    simp only [shape, Form.ofShape, mul_assoc, List.append_assoc]
    refine Language.append_mem_mul hcreate (Language.append_mem_mul hgiven
      (Language.append_mem_mul named.word (Language.append_mem_mul spaced (paren_append_mem ?_))))
    exact Language.append_mem_mul (Set.mem_univ _) rfl
  | newColumn opens tabled spaced adds guarded named describes prefers =>
    simp only [shape, Form.ofShape, mul_assoc]
    refine Language.append_mem_mul opens (Language.append_mem_mul tabled.word
      (Language.append_mem_mul spaced (Language.append_mem_mul adds ?_)))
    exact Language.append_mem_mul guarded (Language.append_mem_mul named.word
      (Language.append_mem_mul describes rfl))
  | newIndex opens named spaced ons tabled spaced' listed =>
    obtain ⟨create, hcreate, _, htail, rfl⟩ := Language.mem_mul.mp opens
    obtain ⟨unique, hunique, _, hrest, rfl⟩ := Language.mem_mul.mp htail
    obtain ⟨index, hindex, given, hgiven, rfl⟩ := Language.mem_mul.mp hrest
    simp only [shape, Form.ofShape, mul_assoc, List.append_assoc]
    refine Language.append_mem_mul hcreate (Language.append_mem_mul hunique
      (Language.append_mem_mul hindex (Language.append_mem_mul hgiven ?_)))
    refine Language.append_mem_mul named.word (Language.append_mem_mul spaced
      (Language.append_mem_mul ons (Language.append_mem_mul tabled.word ?_)))
    exact Language.append_mem_mul spaced' (paren_append_mem (Language.append_mem_mul listed rfl))
  | newRow opens tabled spaced listed links valued =>
    obtain ⟨before, hbefore, _, htail, rfl⟩ := Language.mem_mul.mp links
    obtain ⟨key, hkey, behind, hbehind, rfl⟩ := Language.mem_mul.mp htail
    simp only [shape, Form.ofShape, mul_assoc, List.append_assoc]
    refine Language.append_mem_mul opens (Language.append_mem_mul tabled.word
      (Language.append_mem_mul spaced (paren_append_mem (Language.append_mem_mul listed ?_))))
    refine Language.append_mem_mul (a := [')']) rfl (Language.append_mem_mul hbefore
      (Language.append_mem_mul hkey (Language.append_mem_mul hbehind (paren_append_mem ?_))))
    exact Language.append_mem_mul valued rfl

theorem exists_first_end (body : List Char) :
    ∃ front rest, ¬ [')', ';'] <:+: front ∧ body ++ [')', ';'] = front ++ ')' :: ';' :: rest := by
  obtain ⟨front, rest, heq, hends⟩ := exists_first_infix (by simp)
    (List.suffix_append body [')', ';']).isInfix
  exact ⟨front, rest, fun hin => hends (List.infix_append_of_infix_left hin), heq⟩

/-- Every text of the form of a shape begins with a spelling. It may be a shorter one: a body that
has an end in it stops there. -/
theorem exists_spells_of_mem_ofShape (h : w ∈ Form.ofShape shape) :
    ∃ statement v, statement.shape = shape ∧ Spells statement v ∧ v <+: w := by
  cases shape with
  | tableDefinition =>
    simp only [Form.ofShape, mul_assoc] at h
    obtain ⟨create, hcreate, _, h₁, rfl⟩ := Language.mem_mul.mp h
    obtain ⟨given, hgiven, _, h₂, rfl⟩ := Language.mem_mul.mp h₁
    obtain ⟨name, hname, _, h₃, rfl⟩ := Language.mem_mul.mp h₂
    obtain ⟨gap, hgap, _, h₄, rfl⟩ := Language.mem_mul.mp h₃
    obtain ⟨_, rfl, _, h₅, rfl⟩ := Language.mem_mul.mp h₄
    obtain ⟨body, -, _, rfl, rfl⟩ := Language.mem_mul.mp h₅
    obtain ⟨front, rest, hends, heq⟩ := exists_first_end body
    refine ⟨_, _, rfl, spells_newTable (Language.append_mem_mul hcreate hgiven) hname hgap hends,
      rest, ?_⟩
    simp [heq]
  | columnAddition =>
    simp only [Form.ofShape, mul_assoc] at h
    obtain ⟨alter, halter, _, h₁, rfl⟩ := Language.mem_mul.mp h
    obtain ⟨table, htable, _, h₂, rfl⟩ := Language.mem_mul.mp h₁
    obtain ⟨gap, hgap, _, h₃, rfl⟩ := Language.mem_mul.mp h₂
    obtain ⟨adding, hadding, _, h₄, rfl⟩ := Language.mem_mul.mp h₃
    obtain ⟨given, hgiven, _, h₅, rfl⟩ := Language.mem_mul.mp h₄
    obtain ⟨name, hname, _, h₆, rfl⟩ := Language.mem_mul.mp h₅
    obtain ⟨described, hdescribed, _, rfl, rfl⟩ := Language.mem_mul.mp h₆
    by_cases hguarded : given = [] ∧
        name ++ described ∈ phrase ["IF", "NOT", "EXISTS"] * (Form.word * clause)
    · obtain ⟨rfl, hguarded⟩ := hguarded
      obtain ⟨given, hgiven, _, htail, heq⟩ := Language.mem_mul.mp hguarded
      obtain ⟨name', hname', described', hdescribed', rfl⟩ := Language.mem_mul.mp htail
      refine ⟨_, _, rfl, spells_newColumn halter htable hgap hadding (Or.inr hgiven) hname'
        hdescribed' fun hnil => absurd hnil (Form.ne_nil_of_phrase hgiven), [], ?_⟩
      simpa using congrArg (· ++ [';']) heq
    · exact ⟨_, _, rfl, spells_newColumn halter htable hgap hadding hgiven hname hdescribed
        fun hnil hmem => hguarded ⟨hnil, hmem⟩, List.prefix_refl _⟩
  | indexDefinition =>
    simp only [Form.ofShape, mul_assoc] at h
    obtain ⟨create, hcreate, _, h₁, rfl⟩ := Language.mem_mul.mp h
    obtain ⟨unique, hunique, _, h₂, rfl⟩ := Language.mem_mul.mp h₁
    obtain ⟨index, hindex, _, h₃, rfl⟩ := Language.mem_mul.mp h₂
    obtain ⟨given, hgiven, _, h₄, rfl⟩ := Language.mem_mul.mp h₃
    obtain ⟨name, hname, _, h₅, rfl⟩ := Language.mem_mul.mp h₄
    obtain ⟨gap, hgap, _, h₆, rfl⟩ := Language.mem_mul.mp h₅
    obtain ⟨on, hon, _, h₇, rfl⟩ := Language.mem_mul.mp h₆
    obtain ⟨table, htable, _, h₈, rfl⟩ := Language.mem_mul.mp h₇
    obtain ⟨gap', hgap', _, h₉, rfl⟩ := Language.mem_mul.mp h₈
    obtain ⟨_, rfl, _, h₁₀, rfl⟩ := Language.mem_mul.mp h₉
    obtain ⟨columns, hcolumns, _, rfl, rfl⟩ := Language.mem_mul.mp h₁₀
    have hopening := Language.append_mem_mul hcreate (Language.append_mem_mul hunique
      (Language.append_mem_mul hindex hgiven))
    refine ⟨_, _, rfl, spells_newIndex hopening hname hgap hon htable hgap' hcolumns, [], ?_⟩
    simp
  | rowInsertion =>
    simp only [Form.ofShape, mul_assoc] at h
    obtain ⟨insert, hinsert, _, h₁, rfl⟩ := Language.mem_mul.mp h
    obtain ⟨table, htable, _, h₂, rfl⟩ := Language.mem_mul.mp h₁
    obtain ⟨gap, hgap, _, h₃, rfl⟩ := Language.mem_mul.mp h₂
    obtain ⟨_, rfl, _, h₄, rfl⟩ := Language.mem_mul.mp h₃
    obtain ⟨columns, hcolumns, _, h₅, rfl⟩ := Language.mem_mul.mp h₄
    obtain ⟨_, rfl, _, h₆, rfl⟩ := Language.mem_mul.mp h₅
    obtain ⟨before, hbefore, _, h₇, rfl⟩ := Language.mem_mul.mp h₆
    obtain ⟨key, hkey, _, h₈, rfl⟩ := Language.mem_mul.mp h₇
    obtain ⟨behind, hbehind, _, h₉, rfl⟩ := Language.mem_mul.mp h₈
    obtain ⟨_, rfl, _, h₁₀, rfl⟩ := Language.mem_mul.mp h₉
    obtain ⟨values, hvalues, _, rfl, rfl⟩ := Language.mem_mul.mp h₁₀
    refine ⟨_, _, rfl, spells_newRow hinsert htable hgap hcolumns (Language.append_mem_mul hbefore
      (Language.append_mem_mul hkey hbehind)) hvalues, [], ?_⟩
    simp

/-- A reader finds a statement exactly where a text of its form begins. -/
theorem read_ne_none_iff : read shape s ≠ none ↔ ∃ w ∈ Form.ofShape shape, w <+: s := by
  constructor
  · intro h
    obtain ⟨⟨statement, rest⟩, hread⟩ := Option.ne_none_iff_exists'.mp h
    obtain ⟨rfl, w, hspells, rfl⟩ := read_eq_some_iff.mp hread
    exact ⟨w, mem_ofShape_of_spells hspells, List.prefix_append w rest⟩
  · rintro ⟨w, hw, hstart⟩
    obtain ⟨statement, v, hshape, hspells, hv⟩ := exists_spells_of_mem_ofShape hw
    obtain ⟨rest, rfl⟩ := hv.trans hstart
    rw [read_eq_some_iff.mpr ⟨hshape, v, hspells, rfl⟩]
    exact Option.some_ne_none _

/-! ## Ends -/

/-- Where the text of a statement ends. A new column goes up to the first semicolon. Behind the
first opening parenthesis, a table goes up to the first `);` and an index up to the first closing
parenthesis. A row goes up to the second closing parenthesis, and `VALUES` follows the first. -/
def Ends : Shape → List Char → Prop
  | .tableDefinition, w => ∃ head ∈ wording, ∃ body, ¬ [')', ';'] <:+: body ∧
      w = head ++ '(' :: (body ++ [')', ';'])
  | .columnAddition, w => ∃ front, ';' ∉ front ∧ w = front ++ [';']
  | .indexDefinition, w => ∃ head ∈ wording, ∃ columns, ')' ∉ columns ∧
      w = head ++ '(' :: (columns ++ [')', ';'])
  | .rowInsertion, w => ∃ head ∈ wording, ∃ columns, ')' ∉ columns ∧
      ∃ link ∈ space * (keyword "VALUES" * space), ∃ values, ')' ∉ values ∧
        w = head ++ '(' :: (columns ++ ')' :: (link ++ '(' :: (values ++ [')', ';'])))

theorem ends_of_spells (h : Spells statement w) : Ends statement.shape w := by
  cases h with
  | newTable opens named spaced ends =>
    obtain ⟨create, hcreate, given, hgiven, rfl⟩ := Language.mem_mul.mp opens
    refine ⟨_, ?_, _, ends, by rw [← List.append_assoc, ← List.append_assoc]⟩
    exact Form.wording_append (Form.wording_append (Form.wording_append
      (Form.wording_of_phrase (by decide) hcreate) (Form.wording_of_perhaps (by decide) hgiven))
      (Form.wording_of_word named.word)) (Form.wording_of_space spaced)
  | @newColumn opening table gap adding given name described _ opens tabled spaced adds guarded
      named describes prefers =>
    refine ⟨opening ++ (table ++ (gap ++ (adding ++ (given ++ (name ++ described))))), ?_, by simp⟩
    have hhead : opening ++ (table ++ (gap ++ (adding ++ (given ++ name)))) ∈ wording :=
      Form.wording_append (Form.wording_of_phrase (by decide) opens) <|
      Form.wording_append (Form.wording_of_word tabled.word) <|
      Form.wording_append (Form.wording_of_space spaced.2) <|
      Form.wording_append (Form.wording_of_phrase (by decide) adds) <|
      Form.wording_append (Form.wording_of_perhaps (by decide) guarded) <|
      Form.wording_of_word named.word
    have hmem := Form.not_mem_of_wording (c := ';') hhead (by decide) (by decide)
    have hdescribed := Form.not_mem_of_mem_clause describes
    simp only [List.mem_append, not_or] at hmem ⊢
    tauto
  | @newIndex opening name gap on table gap' columns _ opens named spaced ons tabled spaced'
      listed =>
    refine ⟨opening ++ (name ++ (gap ++ (on ++ (table ++ gap')))), ?_, columns, listed.2, by simp⟩
    obtain ⟨create, hcreate, _, htail, rfl⟩ := Language.mem_mul.mp opens
    obtain ⟨unique, hunique, _, hrest, rfl⟩ := Language.mem_mul.mp htail
    obtain ⟨index, hindex, given, hgiven, rfl⟩ := Language.mem_mul.mp hrest
    simp only [List.append_assoc]
    exact Form.wording_append (Form.wording_of_phrase (by decide) hcreate) <|
      Form.wording_append (Form.wording_of_perhaps (by decide) hunique) <|
      Form.wording_append (Form.wording_of_phrase (by decide) hindex) <|
      Form.wording_append (Form.wording_of_perhaps (by decide) hgiven) <|
      Form.wording_append (Form.wording_of_word named.word) <|
      Form.wording_append (Form.wording_of_space spaced.2) <|
      Form.wording_append (Form.wording_of_phrase (by decide) ons) <|
      Form.wording_append (Form.wording_of_word tabled.word) (Form.wording_of_space spaced')
  | newRow opens tabled spaced listed links valued =>
    refine ⟨_, ?_, _, listed.2, _, links, _, valued.2,
      by rw [← List.append_assoc, ← List.append_assoc]⟩
    exact Form.wording_append (Form.wording_append (Form.wording_of_phrase (by decide) opens)
      (Form.wording_of_word tabled.word)) (Form.wording_of_space spaced)

/-- The statements of a shape are the leftmost texts of its form, without overlap: between them and
behind them no such text begins. Each ends where it has to, and its parts are those that its
spelling tells. There is one way to find them. -/
theorem ofShape_eq_leftmost (shape : Shape) (text : String) :
    ∃ spans : List (Span Statement), ofShape shape text = spans.map Span.value ∧
      ∀ others, others = spans ↔
        Leftmost (fun s => ∃ w ∈ Form.ofShape shape, w <+: s)
          (fun statement w => statement.shape = shape ∧ Spells statement w ∧ Ends shape w)
          text.toList 0 others := by
  have hrecognizes := recognizes_read shape
  obtain ⟨spans, hspans⟩ := hrecognizes.exists_leftmost text.toList 0
  refine ⟨spans, (hrecognizes.map_value_of_leftmost hspans).symm, ?_⟩
  intro others
  constructor
  · rintro rfl
    refine hspans.imp (fun s => read_ne_none_iff) ?_
    rintro statement w ⟨rfl, hspells⟩
    exact ⟨rfl, hspells, ends_of_spells hspells⟩
  · intro hothers
    refine hrecognizes.leftmost_unique (hothers.imp (fun s => read_ne_none_iff.symm) ?_) hspans
    rintro statement w ⟨hshape, hspells, -⟩
    exact ⟨hshape, hspells⟩

end SchemaChange.Statement
