import Mathlib.Computability.Language
import SchemaChange.Proofs.CharClass
import SchemaChange.Statement.Reader

/-!
# Forms of statements

The texts of a shape of statement as a formal language, said without any reader. The parts follow
each other as they are written; what a reader takes for a part is no matter here.
-/

namespace SchemaChange.Form

open SchemaChange.Text

/-- A keyword in any letter case. -/
def keyword (letters : String) : Language Char :=
  {w | List.Forall₂ (fun letter c => standsFor letter c = true) letters.toList w}

/-- At least one blank. -/
def blanks : Language Char :=
  {w | w ≠ [] ∧ ∀ c ∈ w, isBlank c = true}

/-- Any number of blanks. -/
def space : Language Char :=
  {w | ∀ c ∈ w, isBlank c = true}

def word : Language Char :=
  {w | w ≠ [] ∧ ∀ c ∈ w, isWord c = true}

/-- At least one character, and never the given one. -/
def without (c : Char) : Language Char :=
  {w | w ≠ [] ∧ c ∉ w}

instance (letters : String) (w : List Char) : Decidable (w ∈ keyword letters) :=
  inferInstanceAs (Decidable (List.Forall₂ _ _ _))

instance (w : List Char) : Decidable (w ∈ blanks) :=
  inferInstanceAs (Decidable (_ ∧ _))

instance (w : List Char) : Decidable (w ∈ space) :=
  inferInstanceAs (Decidable (∀ c ∈ w, _))

instance (w : List Char) : Decidable (w ∈ word) :=
  inferInstanceAs (Decidable (_ ∧ _))

/-- Keywords, each of them followed by blanks. -/
def phrase : List String → Language Char
  | [] => 1
  | letters :: more => keyword letters * (blanks * phrase more)

/-- A phrase that may be left out. -/
def perhaps (keywords : List String) : Language Char :=
  1 + phrase keywords

/-- `IF NOT EXISTS`, or nothing. -/
def guard : Language Char :=
  perhaps ["IF", "NOT", "EXISTS"]

/-- What follows the name of a new column, up to its semicolon. -/
def clause : Language Char :=
  blanks * without ';'

/-- The texts of a shape of statement. -/
def ofShape : Shape → Language Char
  | .tableDefinition =>
    phrase ["CREATE", "TABLE"] * guard * word * space * {['(']} * ⊤ * {[')', ';']}
  | .columnAddition =>
    phrase ["ALTER", "TABLE"] * word * blanks * phrase ["ADD", "COLUMN"] * guard * word * clause *
      {[';']}
  | .indexDefinition =>
    phrase ["CREATE"] * perhaps ["UNIQUE"] * phrase ["INDEX"] * guard * word * blanks *
      phrase ["ON"] * word * space * {['(']} * without ')' * {[')', ';']}
  | .rowInsertion =>
    phrase ["INSERT", "INTO"] * word * space * {['(']} * without ')' * {[')']} * space *
      keyword "VALUES" * space * {['(']} * without ')' * {[')', ';']}

/-- A keyword that can be told from what follows it: ASCII letters, and at least one. -/
def IsPlain (letters : String) : Prop :=
  letters.toList ≠ [] ∧ ∀ c ∈ letters.toList, c.toLower.isAlpha = true

instance (letters : String) : Decidable (IsPlain letters) :=
  inferInstanceAs (Decidable (_ ∧ _))

section

variable {w r : List Char} {letters : String} {keywords : List String}

theorem mem_word_of_ascii
    (h : w ≠ [] ∧ ∀ c ∈ w, c.toNat < 128 ∧ (c.isAlphanum || c == '_') = true) : w ∈ word := by
  refine ⟨h.1, fun c hc => ?_⟩
  obtain ⟨hascii, hword⟩ := h.2 c hc
  rw [isWord_of_ascii hascii]
  exact hword

theorem isWord_of_forall₂ {letters : List Char}
    (h : List.Forall₂ (fun letter c => standsFor letter c = true) letters w)
    (halpha : ∀ letter ∈ letters, letter.toLower.isAlpha = true) : ∀ c ∈ w, isWord c = true := by
  induction h with
  | nil => simp
  | cons hstands _ ih =>
    simp only [List.forall_mem_cons] at halpha ⊢
    exact ⟨isWord_of_standsFor halpha.1 hstands, ih halpha.2⟩

theorem keyword_subset_word (h : IsPlain letters) (hw : w ∈ keyword letters) : w ∈ word := by
  refine ⟨?_, isWord_of_forall₂ hw h.2⟩
  rintro rfl
  exact h.1 (List.forall₂_nil_right_iff.mp hw)

/-- A clause is at least two characters long and begins with a blank. -/
theorem mem_clause_iff :
    w ∈ clause ↔ ∃ c d more, w = c :: d :: more ∧ isBlank c = true ∧ ';' ∉ d :: more := by
  constructor
  · intro hw
    obtain ⟨gap, ⟨hgap, hblank⟩, text, ⟨htext, hnot⟩, rfl⟩ := Language.mem_mul.mp hw
    obtain ⟨c, gap, rfl⟩ := List.exists_cons_of_ne_nil hgap
    obtain ⟨d, more, hmore⟩ :=
      List.exists_cons_of_ne_nil (List.append_ne_nil_of_right_ne_nil gap htext)
    refine ⟨c, d, more, by rw [List.cons_append, hmore], hblank c (by simp), ?_⟩
    rw [← hmore, List.mem_append]
    rintro (hmem | hmem)
    · exact absurd (hblank ';' (by simp [hmem])) (by decide)
    · exact hnot hmem
  · rintro ⟨c, d, more, rfl, hc, hnot⟩
    exact Language.append_mem_mul (a := [c]) ⟨by simp, by simpa using hc⟩ ⟨by simp, hnot⟩

theorem not_mem_of_mem_clause (hw : w ∈ clause) : ';' ∉ w := by
  obtain ⟨c, d, more, rfl, hc, hnot⟩ := mem_clause_iff.mp hw
  rw [List.mem_cons]
  rintro (rfl | hmem)
  · exact absurd hc (by decide)
  · exact hnot hmem

/-- The letters of a keyword in lower case. -/
def lowered (letters : String) : List Char :=
  letters.toList.map Char.toLower

theorem map_foldLetter_of_keyword (h : IsPlain letters) (hw : w ∈ keyword letters) :
    w.map foldLetter = lowered letters := by
  obtain ⟨-, halpha⟩ := h
  change List.Forall₂ (fun letter c => standsFor letter c = true) letters.toList w at hw
  unfold lowered
  generalize letters.toList = l at hw halpha
  induction hw with
  | nil => rfl
  | cons hstands _ ih =>
    rw [List.forall_mem_cons] at halpha
    rw [List.map_cons, List.map_cons, foldLetter_eq_of_standsFor halpha.1 hstands, ih halpha.2]

/-- Only for the letters `s` and `k` do other characters stand than the letter itself. -/
theorem map_toLower_of_keyword (h : ∀ c ∈ lowered letters, c ≠ 's' ∧ c ≠ 'k')
    (hw : w ∈ keyword letters) : w.map Char.toLower = lowered letters := by
  change List.Forall₂ (fun letter c => standsFor letter c = true) letters.toList w at hw
  unfold lowered at h ⊢
  generalize letters.toList = l at hw h
  induction hw with
  | nil => rfl
  | cons hstands _ ih =>
    rw [List.map_cons, List.forall_mem_cons] at h
    obtain ⟨⟨hs, hk⟩, h⟩ := h
    simp only [standsFor, Bool.or_eq_true, beq_iff_eq, Bool.and_eq_true, hs, hk, false_and,
      or_false] at hstands
    rw [List.map_cons, List.map_cons, hstands, ih h]

/-- Two keywords with different first letters do not begin the same text. -/
theorem head_eq_of_keyword {letters' : String} {w' r' : List Char} (h : IsPlain letters)
    (h' : IsPlain letters') (hw : w ∈ keyword letters) (hw' : w' ∈ keyword letters')
    (heq : w ++ r = w' ++ r') : (lowered letters).head? = (lowered letters').head? := by
  rw [← map_foldLetter_of_keyword h hw, ← map_foldLetter_of_keyword h' hw']
  obtain ⟨c, w, rfl⟩ := List.exists_cons_of_ne_nil (keyword_subset_word h hw).1
  obtain ⟨d, w', rfl⟩ := List.exists_cons_of_ne_nil (keyword_subset_word h' hw').1
  obtain ⟨rfl, -⟩ := List.cons.inj heq
  rfl

/-- The text does not begin with the keyword. -/
def Lacks (letters : String) (s : List Char) : Prop :=
  ∀ key ∈ keyword letters, ∀ tail, s ≠ key ++ tail

theorem lacks_of_stops (h : IsPlain letters) (hr : Stops isWord r) : Lacks letters r := by
  intro key hkey tail heq
  obtain ⟨hne, hall⟩ := keyword_subset_word h hkey
  obtain ⟨d, key, rfl⟩ := List.exists_cons_of_ne_nil hne
  have hd : isWord d = false := hr d (by simp [heq])
  rw [hall d (by simp)] at hd
  cases hd

/-- Where one keyword stands no other begins, unless they have the first letter in common. -/
theorem lacks_of_keyword {other : String} (h : IsPlain letters) (hother : IsPlain other)
    (hw : w ∈ keyword other)
    (hne : (lowered letters).head? ≠ (lowered other).head?) :
    Lacks letters (w ++ r) := fun _ hkey _ heq =>
  absurd (head_eq_of_keyword hother h hw hkey heq).symm hne

theorem lacks_of_phrase {other : String} (h : IsPlain letters) (hother : IsPlain other)
    (hw : w ∈ phrase (other :: keywords))
    (hne : (lowered letters).head? ≠ (lowered other).head?) :
    Lacks letters (w ++ r) := by
  obtain ⟨key, hkey, tail, -, rfl⟩ := Language.mem_mul.mp hw
  rw [List.append_assoc]
  exact lacks_of_keyword h hother hkey hne

theorem nil_mem_space : [] ∈ space := by
  intro c hc
  cases hc

theorem stops_blank_paren : Stops isBlank ('(' :: r) :=
  stops_cons.mpr (by decide)

theorem stops_blank_of_word (hw : w ∈ word) : Stops isBlank (w ++ r) := by
  obtain ⟨hne, hall⟩ := hw
  cases w with
  | nil => exact absurd rfl hne
  | cons c w => simpa using isBlank_of_isWord (hall c (by simp))

theorem stops_word_of_blanks (hw : w ∈ blanks) : Stops isWord (w ++ r) := by
  obtain ⟨hne, hall⟩ := hw
  cases w with
  | nil => exact absurd rfl hne
  | cons c w => simpa using isWord_of_isBlank (hall c (by simp))

theorem stops_word_of_space (hw : w ∈ space) (hr : Stops isWord r) : Stops isWord (w ++ r) := by
  by_cases hne : w = []
  · simpa [hne] using hr
  · exact stops_word_of_blanks ⟨hne, hw⟩

theorem stops_word_paren (hw : w ∈ space) : Stops isWord (w ++ '(' :: r) :=
  stops_word_of_space hw (stops_cons.mpr (isWord_of_isPunctuation (by decide)))

/-- Words and blanks in any order: all that a statement holds outside its lists and clauses. -/
def wording : Language Char :=
  {w | ∀ c ∈ w, isWord c = true ∨ isBlank c = true}

theorem not_mem_of_wording {c : Char} (hw : w ∈ wording) (hc : IsPunctuation c)
    (hblank : isBlank c = false) : c ∉ w := by
  intro hmem
  obtain hword | hspace := hw c hmem
  · exact not_isWord hc hword
  · rw [hblank] at hspace
    cases hspace

theorem wording_append (hw : w ∈ wording) (hr : r ∈ wording) : w ++ r ∈ wording :=
  List.forall_mem_append.mpr ⟨hw, hr⟩

theorem wording_of_word (hw : w ∈ word) : w ∈ wording :=
  fun c hc => Or.inl (hw.2 c hc)

theorem wording_of_space (hw : w ∈ space) : w ∈ wording :=
  fun c hc => Or.inr (hw c hc)

theorem wording_of_phrase (hplain : ∀ letters ∈ keywords, IsPlain letters)
    (hw : w ∈ phrase keywords) : w ∈ wording := by
  induction keywords generalizing w with
  | nil =>
    obtain rfl : w = [] := hw
    exact wording_of_space nil_mem_space
  | cons letters more ih =>
    obtain ⟨key, hkey, _, htail, rfl⟩ := Language.mem_mul.mp hw
    obtain ⟨gap, hgap, last, hlast, rfl⟩ := Language.mem_mul.mp htail
    rw [List.forall_mem_cons] at hplain
    exact wording_append (wording_of_word (keyword_subset_word hplain.1 hkey))
      (wording_append (wording_of_space hgap.2) (ih hplain.2 hlast))

theorem wording_of_perhaps (hplain : ∀ letters ∈ keywords, IsPlain letters)
    (hw : w ∈ perhaps keywords) : w ∈ wording := by
  obtain hw | hw := hw
  · obtain rfl : w = [] := hw
    exact wording_of_space nil_mem_space
  · exact wording_of_phrase hplain hw

/-- A phrase begins with its first keyword. -/
theorem stops_blank_of_phrase (hplain : IsPlain letters) (hw : w ∈ phrase (letters :: keywords)) :
    Stops isBlank (w ++ r) := by
  obtain ⟨key, hkey, rest, -, rfl⟩ := Language.mem_mul.mp hw
  rw [List.append_assoc]
  exact stops_blank_of_word (keyword_subset_word hplain hkey)

theorem stops_blank_of_perhaps (hplain : IsPlain letters) (hw : w ∈ perhaps (letters :: keywords))
    (hr : Stops isBlank r) : Stops isBlank (w ++ r) := by
  obtain hw | hw := hw
  · obtain rfl : w = [] := hw
    exact hr
  · exact stops_blank_of_phrase hplain hw

/-- A phrase ends with blanks. -/
theorem exists_blanks_of_phrase (hw : w ∈ phrase (letters :: keywords)) :
    ∃ front, ∃ gap ∈ blanks, w = front ++ gap := by
  induction keywords generalizing letters w with
  | nil =>
    obtain ⟨key, -, rest, hrest, rfl⟩ := Language.mem_mul.mp hw
    obtain ⟨gap, hgap, last, hlast, rfl⟩ := Language.mem_mul.mp hrest
    obtain rfl : last = [] := hlast
    exact ⟨key, gap, hgap, by simp⟩
  | cons next more ih =>
    obtain ⟨key, -, rest, hrest, rfl⟩ := Language.mem_mul.mp hw
    obtain ⟨gap, -, last, hlast, rfl⟩ := Language.mem_mul.mp hrest
    obtain ⟨front, final, hfinal, rfl⟩ := ih hlast
    exact ⟨key ++ (gap ++ front), final, hfinal, by simp⟩

theorem ne_nil_of_phrase (hw : w ∈ phrase (letters :: keywords)) : w ≠ [] := by
  obtain ⟨front, gap, ⟨hgap, -⟩, rfl⟩ := exists_blanks_of_phrase hw
  simp [hgap]

theorem stops_word_reverse_of_blanks (hw : w ∈ blanks) : Stops isWord (r ++ w).reverse := by
  rw [List.reverse_append]
  exact stops_word_of_blanks ⟨by simpa using hw.1, by simpa using hw.2⟩

theorem stops_word_reverse_of_phrase (hw : w ∈ phrase (letters :: keywords)) :
    Stops isWord (r ++ w).reverse := by
  obtain ⟨front, gap, hgap, rfl⟩ := exists_blanks_of_phrase hw
  rw [← List.append_assoc]
  exact stops_word_reverse_of_blanks hgap

theorem stops_word_reverse_of_perhaps (hr : Stops isWord r.reverse)
    (hw : w ∈ perhaps (letters :: keywords)) : Stops isWord (r ++ w).reverse := by
  obtain hw | hw := hw
  · obtain rfl : w = [] := hw
    simpa using hr
  · exact stops_word_reverse_of_phrase hw

end

/-! ## Usual texts -/

theorem space_mem_blanks : [' '] ∈ blanks := by decide

theorem toList_mem_keyword (letters : String) : letters.toList ∈ keyword letters := by
  apply List.forall₂_same.mpr
  intro letter _
  simp [standsFor]

/-- A phrase with its keywords as they are spelled here, and a space behind each. -/
def phraseText (keywords : List String) : List Char :=
  keywords.flatMap fun letters => letters.toList ++ [' ']

theorem phraseText_mem_phrase (keywords : List String) : phraseText keywords ∈ phrase keywords := by
  induction keywords with
  | nil => exact rfl
  | cons letters more ih =>
    rw [phraseText, List.flatMap_cons, List.append_assoc]
    exact Language.append_mem_mul (toList_mem_keyword letters)
      (Language.append_mem_mul space_mem_blanks ih)

end SchemaChange.Form
