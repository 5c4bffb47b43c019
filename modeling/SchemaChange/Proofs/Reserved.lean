import SchemaChange.Proofs.Comments
import SchemaChange.Proofs.Opening

/-!
# Texts without reserved words

A text that holds neither the hyphens of a comment nor a keyword with which statements begin is
passed over by every search. Whether a text is such a one shows between its delimiters.
-/

namespace SchemaChange.Form

open SchemaChange.Text

/-- The hyphens of a comment, and the keywords with which statements begin. -/
def reserved : Language Char :=
  {x | x = Statement.hyphens ∨ ∃ shape : Shape, x ∈ keyword shape.opener}

/-- The text holds no reserved word, not even inside another word. -/
def Clean (s : List Char) : Prop :=
  ∀ x ∈ reserved, ¬ x <:+: s

/-- A character of no reserved word. -/
def IsDelimiter (c : Char) : Prop :=
  isWord c = false ∧ c ≠ '-'

instance (c : Char) : Decidable (IsDelimiter c) :=
  inferInstanceAs (Decidable (_ ∧ _))

section

variable {c : Char} {u v w x gap : List Char} {letters : String} {keywords : List String}

theorem isDelimiter_of_isPunctuation (h : IsPunctuation c) (hne : c ≠ '-') : IsDelimiter c :=
  ⟨isWord_of_isPunctuation h, hne⟩

theorem isDelimiter_paren : IsDelimiter '(' :=
  isDelimiter_of_isPunctuation (by decide) (by decide)

theorem isDelimiter_of_isBlank (h : isBlank c = true) : IsDelimiter c := by
  refine ⟨isWord_of_isBlank h, ?_⟩
  rintro rfl
  exact absurd h (by decide)

theorem ne_nil_of_reserved (hx : x ∈ reserved) : x ≠ [] := by
  obtain rfl | ⟨shape, hx⟩ := hx
  · decide
  · exact (keyword_subset_word shape.isPlain_opener hx).1

theorem not_mem_of_reserved (hx : x ∈ reserved) (hc : IsDelimiter c) : c ∉ x := by
  intro hmem
  obtain rfl | ⟨shape, hx⟩ := hx
  · obtain rfl : c = '-' := by simpa [Statement.hyphens] using hmem
    exact hc.2 rfl
  · have := (keyword_subset_word shape.isPlain_opener hx).2 c hmem
    rw [hc.1] at this
    cases this

theorem clean_nil : Clean [] := fun _ hx hin =>
  ne_nil_of_reserved hx (List.eq_nil_of_infix_nil hin)

theorem Clean.of_infix (hv : Clean v) (h : u <:+: v) : Clean u := fun x hx hin =>
  hv x hx (hin.trans h)

/-- A delimiter parts a text into two that can be looked at one by one. -/
theorem clean_append_cons (hc : IsDelimiter c) (hu : Clean u) (hv : Clean v) :
    Clean (u ++ c :: v) := by
  intro x hx hin
  obtain hin | hin := (infix_append_cons_iff (not_mem_of_reserved hx hc)).mp hin
  · exact hu x hx hin
  · exact hv x hx hin

theorem clean_cons (hc : IsDelimiter c) (hv : Clean v) : Clean (c :: v) :=
  clean_append_cons (u := []) hc clean_nil hv

theorem clean_space_append (hgap : gap ∈ space) (hv : Clean v) : Clean (gap ++ v) := by
  induction gap with
  | nil => exact hv
  | cons c gap ih =>
    obtain ⟨hc, hgap⟩ := List.forall_mem_cons.mp hgap
    exact clean_cons (isDelimiter_of_isBlank hc) (ih hgap)

theorem clean_append_closing (hu : Clean u) : Clean (u ++ [')', ';']) :=
  clean_append_cons (isDelimiter_of_isPunctuation (by decide) (by decide)) hu
    (clean_cons (isDelimiter_of_isPunctuation (by decide) (by decide)) clean_nil)

theorem clean_append_blanks (hgap : gap ∈ blanks) (hu : Clean u) (hv : Clean v) :
    Clean (u ++ (gap ++ v)) := by
  obtain ⟨hne, hall⟩ := hgap
  obtain ⟨c, gap, rfl⟩ := List.exists_cons_of_ne_nil hne
  rw [List.forall_mem_cons] at hall
  exact clean_append_cons (isDelimiter_of_isBlank hall.1) hu (clean_space_append hall.2 hv)

theorem clean_append_space (hgap : gap ∈ space) (hc : IsDelimiter c) (hu : Clean u)
    (hv : Clean v) : Clean (u ++ (gap ++ c :: v)) := by
  by_cases hne : gap = []
  · rw [hne]
    exact clean_append_cons hc hu hv
  · exact clean_append_blanks ⟨hne, hgap⟩ hu (clean_cons hc hv)

/-! ## Keywords -/

/-- A keyword that holds none of those with which statements begin. -/
def IsHarmless (letters : String) : Prop :=
  IsPlain letters ∧ ∀ shape ∈ Shape.all, ¬ lowered shape.opener <:+: lowered letters

instance (letters : String) : Decidable (IsHarmless letters) :=
  inferInstanceAs (Decidable (_ ∧ _))

/-- A text is clean if its folded letters hold none of the keywords. -/
theorem clean_of_fold (hhyphens : ¬ Statement.hyphens <:+: w)
    (hfold : ∀ shape : Shape, ¬ lowered shape.opener <:+: w.map foldLetter) : Clean w := by
  intro x hx hin
  obtain rfl | ⟨shape, hx⟩ := hx
  · exact hhyphens hin
  · apply hfold shape
    rw [← map_foldLetter_of_keyword shape.isPlain_opener hx]
    exact hin.map foldLetter

theorem not_hyphens_infix_of_word (hw : ∀ c ∈ w, isWord c = true) :
    ¬ Statement.hyphens <:+: w := by
  intro hin
  have := hw '-' (hin.mem (by simp [Statement.hyphens]))
  exact not_isWord (by decide) this

theorem clean_keyword (h : IsHarmless letters) (hw : w ∈ keyword letters) : Clean w := by
  refine clean_of_fold (not_hyphens_infix_of_word (keyword_subset_word h.1 hw).2) ?_
  intro shape
  rw [map_foldLetter_of_keyword h.1 hw]
  exact h.2 shape shape.mem_all

theorem clean_phrase_append (h : ∀ letters ∈ keywords, IsHarmless letters)
    (hw : w ∈ phrase keywords) (hv : Clean v) : Clean (w ++ v) := by
  induction keywords generalizing w with
  | nil =>
    obtain rfl : w = [] := hw
    exact hv
  | cons letters more ih =>
    obtain ⟨key, hkey, _, htail, rfl⟩ := Language.mem_mul.mp hw
    obtain ⟨gap, hgap, last, hlast, rfl⟩ := Language.mem_mul.mp htail
    rw [List.forall_mem_cons] at h
    rw [List.append_assoc, List.append_assoc]
    exact clean_append_blanks hgap (clean_keyword h.1 hkey) (ih h.2 hlast)

theorem clean_perhaps_append (h : ∀ letters ∈ keywords, IsHarmless letters)
    (hw : w ∈ perhaps keywords) (hv : Clean v) : Clean (w ++ v) := by
  obtain hw | hw := hw
  · obtain rfl : w = [] := hw
    exact hv
  · exact clean_phrase_append h hw hv

/-- In the keyword that begins a statement no other one begins behind its first letter. -/
theorem clean_tail_of_opener {shape : Shape} (hw : w ∈ keyword shape.opener) : Clean w.tail := by
  have hword := (keyword_subset_word shape.isPlain_opener hw).2
  apply clean_of_fold
  · apply not_hyphens_infix_of_word
    intro c hc
    exact hword c (List.mem_of_mem_tail hc)
  intro other
  rw [List.map_tail, map_foldLetter_of_keyword shape.isPlain_opener hw]
  cases other <;> cases shape <;> decide

theorem clean_tail_append_of_phrase (shape : Shape)
    (hkeywords : ∀ letters ∈ keywords, IsHarmless letters)
    (hw : w ∈ phrase (shape.opener :: keywords)) (hv : Clean v) : Clean (w ++ v).tail := by
  obtain ⟨key, hkey, _, htail, rfl⟩ := Language.mem_mul.mp hw
  obtain ⟨gap, hgap, last, hlast, rfl⟩ := Language.mem_mul.mp htail
  rw [List.append_assoc, List.append_assoc,
    List.tail_append_of_ne_nil (keyword_subset_word shape.isPlain_opener hkey).1]
  exact clean_append_blanks hgap (clean_tail_of_opener hkey)
    (clean_phrase_append hkeywords hlast hv)

end

end SchemaChange.Form

namespace SchemaChange.Statement

open SchemaChange.Text
open Form (keyword blanks Clean)

variable {statement : Statement} {shape : Shape} {u v w rest tail : List Char}

/-- The keyword of one statement does not go over into that of another one. -/
theorem not_prefix_opener (a b : Shape) :
    ∀ n < (Form.lowered a.opener).length, 0 < n →
      ¬ (Form.lowered a.opener).drop n <+: Form.lowered b.opener := by
  cases a <;> cases b <;> decide

/-- In a clean text no statement begins, if what follows ends its last word or is a statement. -/
theorem barren_of_clean (hu : Clean u)
    (hrest : Stops isWord rest ∨ ∃ statement w tail, Spells statement w ∧ rest = w ++ tail) :
    Barren u rest := by
  intro statement w v hspells hne hv hw
  obtain ⟨key, hkey, gap, hgap, _, _, _, _, _, rfl⟩ := exists_keywords_of_spells hspells
  have hplain := Shape.isPlain_opener statement.shape
  have hword := (Form.keyword_subset_word hplain hkey).2
  have hkey' : key <+: v ++ rest := (List.prefix_append key _).trans hw
  obtain hkey' | ⟨beyond, hbeyond⟩ :=
    List.prefix_or_prefix_of_prefix hkey' (List.prefix_append v rest)
  · exact hu key (Or.inr ⟨_, hkey⟩) (hkey'.isInfix.trans hv.isInfix)
  · cases beyond with
    | nil =>
      rw [List.append_nil] at hbeyond
      exact hu key (Or.inr ⟨_, hkey⟩) (hbeyond ▸ hv.isInfix)
    | cons d beyond =>
      -- A part of the keyword would have to begin what follows.
      have hrest' : d :: beyond <+: rest := by
        rw [← hbeyond, List.prefix_append_right_inj] at hkey'
        exact hkey'
      obtain hstops | ⟨other, w', tail, hspells', rfl⟩ := hrest
      · obtain ⟨tail, rfl⟩ := hrest'
        have := hword d (by simp [← hbeyond])
        rw [stops_cons.mp hstops] at this
        cases this
      · obtain ⟨next, hnext, gap', ⟨hgap', hblank⟩, _, _, _, _, _, rfl⟩ :=
          exists_keywords_of_spells hspells'
        obtain ⟨b, gap', rfl⟩ := List.exists_cons_of_ne_nil hgap'
        have hb : b ∉ d :: beyond := by
          intro hmem
          have := hword b (by rw [← hbeyond, List.mem_append]; exact Or.inr hmem)
          rw [isWord_of_isBlank (hblank b (by simp))] at this
          cases this
        have hnext' : d :: beyond <+: next := by
          simp only [List.append_assoc, List.cons_append] at hrest'
          exact prefix_of_prefix_append_cons hb hrest'
        have hlowered : Form.lowered statement.shape.opener =
            v.map foldLetter ++ (d :: beyond).map foldLetter := by
          rw [← Form.map_foldLetter_of_keyword hplain hkey, ← hbeyond, List.map_append]
        refine not_prefix_opener statement.shape other.shape v.length ?_ ?_ ?_
        · rw [hlowered, List.length_append, List.length_map, List.length_map, List.length_cons]
          omega
        · exact List.length_pos_iff.mpr hne
        · rw [hlowered, List.drop_left' (by simp),
            ← Form.map_foldLetter_of_keyword (Shape.isPlain_opener _) hnext]
          exact hnext'.map foldLetter

end SchemaChange.Statement
