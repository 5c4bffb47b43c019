import SchemaChange.Proofs.Extent

/-!
# How statements open

The first two keywords of a statement tell its shape. A place where they cannot be read is one where
no statement begins, whatever stands behind it.
-/

namespace SchemaChange

namespace Shape

/-- The keyword with which the statements of a shape begin. -/
def opener : Shape → String
  | .tableDefinition => "CREATE"
  | .columnAddition => "ALTER"
  | .indexDefinition => "CREATE"
  | .rowInsertion => "INSERT"

/-- The keywords of which one stands second. -/
def seconds : Shape → List String
  | .tableDefinition => ["TABLE"]
  | .columnAddition => ["TABLE"]
  | .indexDefinition => ["UNIQUE", "INDEX"]
  | .rowInsertion => ["INTO"]

theorem mem_all (shape : Shape) : shape ∈ all := by
  cases shape <;> decide

theorem isPlain_opener (shape : Shape) : Form.IsPlain shape.opener := by
  cases shape <;> decide

theorem isPlain_of_mem_seconds {shape : Shape} {letters : String} (h : letters ∈ shape.seconds) :
    Form.IsPlain letters := by
  revert letters
  cases shape <;> decide

end Shape

namespace Statement

open SchemaChange.Text
open Form (keyword blanks phrase)

variable {statement other : Statement} {shape : Shape} {u v w rest : List Char}

theorem exists_keywords_of_phrase {first second : String} {more : List String}
    (h : w ∈ phrase (first :: second :: more)) :
    ∃ key ∈ keyword first, ∃ gap ∈ blanks, ∃ key' ∈ keyword second, ∃ tail,
      w = key ++ (gap ++ (key' ++ tail)) := by
  obtain ⟨key, hkey, _, hmore, rfl⟩ := Language.mem_mul.mp h
  obtain ⟨gap, hgap, _, hrest, rfl⟩ := Language.mem_mul.mp hmore
  obtain ⟨key', hkey', tail, -, rfl⟩ := Language.mem_mul.mp hrest
  exact ⟨key, hkey, gap, hgap, key', hkey', tail, rfl⟩

/-- A statement begins with two of its keywords and blanks between them. -/
theorem exists_keywords_of_spells (h : Spells statement w) :
    ∃ key ∈ keyword statement.shape.opener, ∃ gap ∈ blanks, ∃ second ∈ statement.shape.seconds,
      ∃ key' ∈ keyword second, ∃ tail, w = key ++ (gap ++ (key' ++ tail)) := by
  cases h with
  | newTable opens =>
    obtain ⟨create, hcreate, given, -, rfl⟩ := Language.mem_mul.mp opens
    obtain ⟨key, hkey, gap, hgap, key', hkey', tail, rfl⟩ := exists_keywords_of_phrase hcreate
    exact ⟨key, hkey, gap, hgap, "TABLE", by simp [Statement.shape, Shape.seconds], key', hkey', _,
      by simp only [List.append_assoc]; rfl⟩
  | newColumn opens =>
    obtain ⟨key, hkey, gap, hgap, key', hkey', tail, rfl⟩ := exists_keywords_of_phrase opens
    exact ⟨key, hkey, gap, hgap, "TABLE", by simp [Statement.shape, Shape.seconds], key', hkey', _,
      by simp only [List.append_assoc]; rfl⟩
  | newIndex opens =>
    obtain ⟨_, hcreate, _, htail, rfl⟩ := Language.mem_mul.mp opens
    obtain ⟨key, hkey, _, hmore, rfl⟩ := Language.mem_mul.mp hcreate
    obtain ⟨gap, hgap, _, rfl, rfl⟩ := Language.mem_mul.mp hmore
    obtain ⟨unique, hunique, _, hrest, rfl⟩ := Language.mem_mul.mp htail
    obtain ⟨_, hindex, given, -, rfl⟩ := Language.mem_mul.mp hrest
    obtain hunique | hunique := hunique
    · obtain rfl : unique = [] := hunique
      obtain ⟨key', hkey', tail, -, rfl⟩ := Language.mem_mul.mp hindex
      exact ⟨key, hkey, gap, hgap, "INDEX", by simp [Statement.shape, Shape.seconds], key', hkey',
        _, by simp only [List.append_assoc, List.nil_append]; rfl⟩
    · obtain ⟨key', hkey', tail, -, rfl⟩ := Language.mem_mul.mp hunique
      exact ⟨key, hkey, gap, hgap, "UNIQUE", by simp [Statement.shape, Shape.seconds], key', hkey',
        _, by simp only [List.append_assoc, List.nil_append]; rfl⟩
  | newRow opens =>
    obtain ⟨key, hkey, gap, hgap, key', hkey', tail, rfl⟩ := exists_keywords_of_phrase opens
    exact ⟨key, hkey, gap, hgap, "INTO", by simp [Statement.shape, Shape.seconds], key', hkey', _,
      by simp only [List.append_assoc]; rfl⟩

theorem exists_word_of_spells (h : Spells statement w) :
    ∃ c tail, w = c :: tail ∧ isWord c = true := by
  obtain ⟨key, hkey, gap, -, _, -, key', -, tail, rfl⟩ := exists_keywords_of_spells h
  obtain ⟨hne, hword⟩ := Form.keyword_subset_word (Shape.isPlain_opener _) hkey
  obtain ⟨c, key, rfl⟩ := List.exists_cons_of_ne_nil hne
  exact ⟨c, _, rfl, hword c (by simp)⟩

/-- The keywords of two shapes differ in the first letter of one of them. -/
theorem shape_eq_of_keywords (a b : Shape)
    (hopener : (Form.lowered a.opener).head? = (Form.lowered b.opener).head?) :
    ∀ s ∈ a.seconds, ∀ t ∈ b.seconds,
      (Form.lowered s).head? = (Form.lowered t).head? → a = b := by
  revert hopener
  cases a <;> cases b <;> decide

/-- Two statements at the front of one text have the same shape. -/
theorem shape_eq_of_spells {w' rest' : List Char} (h : Spells statement w) (h' : Spells other w')
    (heq : w ++ rest = w' ++ rest') : statement.shape = other.shape := by
  obtain ⟨key, hkey, gap, hgap, s, hs, second, hsecond, tail, rfl⟩ := exists_keywords_of_spells h
  obtain ⟨key', hkey', gap', hgap', t, ht, second', hsecond', tail', rfl⟩ :=
    exists_keywords_of_spells h'
  have hplain := Shape.isPlain_opener statement.shape
  have hplain' := Shape.isPlain_opener other.shape
  simp only [List.append_assoc] at heq
  have hopener := Form.head_eq_of_keyword hplain hplain' hkey hkey' heq
  obtain ⟨-, heq⟩ := append_inj_of_stops (Form.keyword_subset_word hplain hkey).2
    (Form.stops_word_of_blanks hgap) (Form.keyword_subset_word hplain' hkey').2
    (Form.stops_word_of_blanks hgap') heq
  have hs' := Shape.isPlain_of_mem_seconds hs
  have ht' := Shape.isPlain_of_mem_seconds ht
  obtain ⟨-, heq⟩ := append_inj_of_stops hgap.2
    (Form.stops_blank_of_word (Form.keyword_subset_word hs' hsecond)) hgap'.2
    (Form.stops_blank_of_word (Form.keyword_subset_word ht' hsecond')) heq
  exact shape_eq_of_keywords _ _ hopener s hs t ht
    (Form.head_eq_of_keyword hs' ht' hsecond hsecond' heq)

/-! ## Places where no statement begins -/

/-- No statement begins inside `u` when `rest` follows it. -/
def Barren (u rest : List Char) : Prop :=
  ∀ statement w v, Spells statement w → v ≠ [] → v <:+ u → ¬ w <+: v ++ rest

theorem barren_nil : Barren [] rest := by
  intro statement w v _ hne hv
  exact absurd (List.suffix_nil.mp hv) hne

theorem barren_append (hu : Barren u (v ++ rest)) (hv : Barren v rest) : Barren (u ++ v) rest := by
  intro statement w x hspells hne hx
  obtain hx | ⟨y, hy, hyu, rfl⟩ := suffix_append_cases hx
  · exact hv statement w x hspells hne hx
  · rw [List.append_assoc]
    exact hu statement w y hspells hy hyu

theorem barren_of_not_word {c : Char} (hc : isWord c = false) : Barren [c] rest := by
  intro statement w v hspells hne hv hw
  obtain ⟨d, tail, rfl, hd⟩ := exists_word_of_spells hspells
  obtain rfl | hv := List.suffix_cons_iff.mp hv
  · obtain ⟨rfl, -⟩ := List.cons_prefix_cons.mp hw
    rw [hc] at hd
    cases hd
  · exact hne (List.suffix_nil.mp hv)

theorem barren_cons {c : Char} (hc : isWord c = false) (hu : Barren u rest) :
    Barren (c :: u) rest :=
  barren_append (u := [c]) (barren_of_not_word hc) hu

/-- A word that no other word follows is not the beginning of a statement. -/
theorem barren_of_word {gap : List Char} (hu : ∀ c ∈ u, isWord c = true) (hgap : gap ∈ Form.space)
    (hword : Stops isWord rest) (hblank : Stops isBlank rest) : Barren u (gap ++ rest) := by
  rintro statement w v hspells hne hv ⟨left, heq⟩
  obtain ⟨key, hkey, gap', hgap', second, hsecond, key', hkey', tail, rfl⟩ :=
    exists_keywords_of_spells hspells
  have hkey := Form.keyword_subset_word (Shape.isPlain_opener _) hkey
  have hkey' := Form.keyword_subset_word (Shape.isPlain_of_mem_seconds hsecond) hkey'
  simp only [List.append_assoc] at heq
  obtain ⟨-, heq⟩ := append_inj_of_stops hkey.2 (Form.stops_word_of_blanks hgap')
    (fun c hc => hu c (hv.mem hc)) (Form.stops_word_of_space hgap hword) heq
  obtain ⟨-, rfl⟩ := append_inj_of_stops hgap'.2 (Form.stops_blank_of_word hkey') hgap hblank heq
  obtain ⟨c, key', rfl⟩ := List.exists_cons_of_ne_nil hkey'.1
  rw [List.cons_append, stops_cons, hkey'.2 c (by simp)] at hword
  cases hword

theorem read_eq_none_of_barren (h : Barren u rest) (hne : v ≠ []) (hv : v <:+ u) :
    read shape (v ++ rest) = none := by
  rw [Option.eq_none_iff_forall_ne_some]
  rintro ⟨statement, left⟩ hread
  obtain ⟨-, w, hspells, heq⟩ := read_eq_some_iff.mp hread
  exact h statement w v hspells hne hv ⟨left, heq.symm⟩

/-- A search passes over a text in which no statement begins. -/
theorem occurrences_append_of_barren (h : Barren u rest) :
    occurrences (read shape) (u ++ rest) = occurrences (read shape) rest :=
  occurrences_append_of_none fun _ hne hv => read_eq_none_of_barren h hne hv

/-- A keyword with another first letter begins no statement of the shape. -/
theorem read_eq_none_of_keyword {letters : String} {key : List Char} (hplain : Form.IsPlain letters)
    (hkey : key ∈ keyword letters)
    (hne : (Form.lowered shape.opener).head? ≠ (Form.lowered letters).head?) :
    read shape (key ++ rest) = none := by
  rw [Option.eq_none_iff_forall_ne_some]
  rintro ⟨statement, left⟩ hread
  obtain ⟨rfl, w, hspells, heq⟩ := read_eq_some_iff.mp hread
  obtain ⟨key', hkey', gap, -, _, -, _, -, tail, rfl⟩ := exists_keywords_of_spells hspells
  rw [List.append_assoc] at heq
  exact hne (Form.head_eq_of_keyword (Shape.isPlain_opener _) hplain hkey' hkey heq.symm)

end Statement

end SchemaChange
