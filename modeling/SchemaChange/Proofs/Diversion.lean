import Mathlib.Data.List.Chain
import SchemaChange.Proofs.Definition

/-!
# Columns that are found inside a definition

Where the clauses behind a type are not read, the search for columns goes on inside the definition,
from one word to the next, until two words of it are read as a name and a type. Here is what makes
the search pass over a word, and what of the clauses is not read.
-/

namespace SchemaChange.Column

open SchemaChange.Text
open Form (keyword blanks space IsPlain)

variable {behind gap gap' key name rest s t u v w : List Char} {letters other : String}
  {column : Column} {p : Char → Bool} {next : Tail (List Char)}

/-- The text begins with blanks. -/
def Parted (s : List Char) : Prop :=
  ∃ gap ∈ blanks, ∃ t, s = gap ++ t

theorem parted_append (hgap : gap ∈ blanks) : Parted (gap ++ s) :=
  ⟨gap, hgap, s, rfl⟩

theorem Parted.stops (hp : ∀ c, isBlank c = true → p c = false) (h : Parted s) : Stops p s := by
  obtain ⟨gap, hgap, t, rfl⟩ := h
  exact stops_of_blanks hp hgap

theorem Parted.stops_word (h : Parted s) : Stops isWord s :=
  h.stops fun _ => isWord_of_isBlank

/-! ## Keywords inside words -/

/-- The keyword stands nowhere in the text. -/
def Excludes (letters : String) (w : List Char) : Prop :=
  ∀ key ∈ keyword letters, ¬ key <:+: w

theorem excludes_of_folded (hplain : IsPlain letters)
    (h : ¬ Form.lowered letters <:+: w.map foldLetter) : Excludes letters w := by
  intro key hkey hin
  have hmap := hin.map foldLetter
  rw [Form.map_foldLetter_of_keyword hplain hkey] at hmap
  exact h hmap

theorem excludes_of_keyword (hplain : IsPlain letters) (hother : IsPlain other)
    (hw : w ∈ keyword letters) (h : ¬ Form.lowered other <:+: Form.lowered letters) :
    Excludes other w := by
  apply excludes_of_folded hother
  rwa [Form.map_foldLetter_of_keyword hplain hw]

theorem excludes_tail_of_keyword (hplain : IsPlain letters) (hother : IsPlain other)
    (hw : w ∈ keyword letters) (h : ¬ Form.lowered other <:+: (Form.lowered letters).tail) :
    Excludes other w.tail := by
  apply excludes_of_folded hother
  rwa [List.map_tail, Form.map_foldLetter_of_keyword hplain hw]

theorem lacks_of_excludes (hplain : IsPlain letters) (hs : Stops isWord s)
    (h : Excludes letters v) : Form.Lacks letters (v ++ s) := by
  intro key hkey t heq
  obtain ⟨left, rfl, -⟩ :=
    exists_append_of_stops (Form.keyword_subset_word hplain hkey).2 hs heq
  exact h key hkey (List.prefix_append ..).isInfix

/-! ## Clauses that are not read -/

theorem notNull_eq_none (h : ∀ key ∈ keyword "NOT", ∀ t, s = key ++ t → ¬ Leads ["NULL"] t) :
    notNull next s = none := by
  rw [Option.eq_none_iff_forall_ne_some]
  intro a hsome
  simp only [notNull, Option.bind_eq_bind, Option.bind_eq_some_iff] at hsome
  obtain ⟨t, hafter, hnull⟩ := hsome
  obtain ⟨key, hkey, rfl⟩ := afterKeyword_eq_some_iff.mp hafter
  obtain ⟨gap, hgap, null, hkey', tail, rfl, -⟩ := blanksThen_eq_some hnull
  exact h key hkey _ rfl ⟨gap, hgap, null, hkey', tail, rfl, trivial⟩

theorem defaultValue_eq_none (h : Form.Lacks "DEFAULT" s) : defaultValue next s = none := by
  simp only [defaultValue, afterKeyword_of_lacks h, Option.bind_eq_bind, Option.bind_none]

theorem option_word_eq_none (hw : w ∈ Form.word) (hnot : notNull clauses.tail (w ++ s) = none)
    (hdefault : Form.Lacks "DEFAULT" (w ++ s)) : option (w ++ s) = none := by
  rw [option, hnot, defaultValue_eq_none hdefault, tail_word_append hw]
  rfl

theorem clauses_word_append (hw : w ∈ Form.word) : clauses (w ++ s) = option (w ++ s) := by
  obtain ⟨c, w, rfl⟩ := List.exists_cons_of_ne_nil hw.1
  have hc := isBlank_of_isWord (hw.2 c (by simp))
  rw [clauses, List.cons_append, longest, if_neg (by simp [hc])]
  rfl

/-- Clauses behind blanks are not read if none is, with the blanks or without. -/
theorem clauses_blanks_eq_none (hgap : gap ∈ blanks) (hs : Stops isBlank s)
    (hoption : option s = none) (htail : clauses.tail (gap ++ s) = none) :
    clauses (gap ++ s) = none := by
  refine longest_eq_none fun u v heq hu => ?_
  change option v = none
  obtain ⟨left, hleft, rfl⟩ := exists_append_of_stops hu hs heq
  obtain rfl | hne := eq_or_ne left []
  · exact hoption
  · -- With blanks left, only clauses that begin with blanks are; one blank is as good as many.
    have hblanks : left ∈ blanks := ⟨hne, fun c hc => hgap.2 c (by simp [hleft, hc])⟩
    rw [option_blanks_append hblanks, tail_blanks_append hblanks hgap hs, htail]

theorem tail_eq_none_of_clauses (hs : Parted s) (h : clauses s = none) : clauses.tail s = none := by
  obtain ⟨gap, hgap, t, rfl⟩ := hs
  obtain ⟨b, gap, rfl⟩ := List.exists_cons_of_ne_nil hgap.1
  have hb := hgap.2 b (by simp)
  rw [clauses, List.cons_append, longest, if_pos hb] at h
  have hoption : option (b :: (gap ++ t)) = none := by
    cases hlong : longest isBlank _ (gap ++ t) with
    | none => rw [hlong] at h; exact h
    | some a => rw [hlong] at h; cases h
  rwa [← List.cons_append, option_blanks_append hgap] at hoption

theorem eq_none_of_optional {clause : Tail (List Char) → Tail (List Char)}
    (h : optional clause next s = none) : next s = none := by
  rw [Option.eq_none_iff_forall_ne_some]
  intro a hsome
  cases hclause : clause next s with
  | none => rw [optional_of_none hclause, hsome] at h; cases h
  | some b => rw [optional_of_some hclause] at h; cases h

theorem events_eq_none_of_clauses (hs : Parted s) (h : clauses s = none) : events s = none :=
  eq_none_of_optional (tail_eq_none_of_clauses hs h)

/-! ## Words that are passed over -/

/-- Behind the word nothing is read as clauses, and nothing behind a part of it either. -/
structure Passes (w s : List Char) : Prop where
  word : w ∈ Form.word
  parted : Parted s
  refuses : clauses s = none
  suffix : ∀ u v, w = u ++ v → u ≠ [] → v ≠ [] → clauses (v ++ s) = none

theorem longest1_eq_none {α : Type} {next : Tail α}
    (h : ∀ u v, s = u ++ v → u ≠ [] → (∀ c ∈ u, p c = true) → next v = none) :
    longest1 p next s = none := by
  cases s with
  | nil => rfl
  | cons c s =>
    rw [longest1]
    split
    · rename_i hc
      refine longest_eq_none fun u v heq hu => h (c :: u) v (by rw [heq, List.cons_append])
        (by simp) (List.forall_mem_cons.mpr ⟨hc, hu⟩)
    · rfl

theorem afterParameters_eq_none (h : s.head? ≠ some '(') : afterParameters s = none := by
  unfold afterParameters
  split
  · exact absurd rfl h
  · rfl

theorem Parted.head_ne_paren (h : Parted s) : s.head? ≠ some '(' := by
  obtain ⟨gap, hgap, t, rfl⟩ := h
  obtain ⟨b, gap, rfl⟩ := List.exists_cons_of_ne_nil hgap.1
  rw [List.cons_append, List.head?_cons, ne_eq, Option.some.injEq]
  rintro rfl
  exact absurd (hgap.2 '(' (by simp)) (by decide)

/-- Nothing is read as a name if no clauses are read behind what would be its type. -/
theorem read_eq_none_of_clauses (hname : name ∈ Form.word) (hgap : gap ∈ blanks)
    (hw : w ∈ Form.word) (hs : Stops isWord s) (hrefuses : clauses s = none)
    (hparameters : ∀ t, afterParameters s = some t → clauses t = none)
    (hsuffix : ∀ u v, w = u ++ v → u ≠ [] → v ≠ [] → clauses (v ++ s) = none) :
    read (name ++ (gap ++ (w ++ s))) = none := by
  have htype : typeThen (fun t => (clauses t).map fun rest => (t, rest)) (w ++ s) = none := by
    refine longest1_eq_none fun u v heq hne hu => ?_
    -- The type may end with the word or in its midst, but it cannot go over its end.
    have hv : (∀ t, afterParameters v = some t → clauses t = none) ∧ clauses v = none := by
      obtain ⟨left, rfl, rfl⟩ := exists_append_of_stops hu hs heq
      obtain rfl | hleft := eq_or_ne left []
      · exact ⟨hparameters, hrefuses⟩
      · refine ⟨fun t ht => ?_, hsuffix u left rfl hne hleft⟩
        have hword : left ∈ Form.word := ⟨hleft, fun c hc => hw.2 c (by simp [hc])⟩
        have hparen : isWord '(' = false := isWord_of_isPunctuation (by decide)
        rw [afterParameters_eq_none (head_ne_of_word hparen hword)] at ht
        cases ht
    cases hafter : afterParameters v with
    | none => simp [hv.2]
    | some t => simp [hv.1 t hafter, hv.2]
  simp only [read, Option.bind_eq_bind, word_append hname (Form.stops_word_of_blanks hgap),
    Option.bind_some, afterBlanks_append hgap (Form.stops_blank_of_word hw), htype,
    Option.bind_none]

/-- No word in front of one that is passed over is read as a name. -/
theorem Passes.read_eq_none (h : Passes w s) (hname : name ∈ Form.word) (hgap : gap ∈ blanks) :
    read (name ++ (gap ++ (w ++ s))) = none := by
  refine read_eq_none_of_clauses hname hgap h.word h.parted.stops_word h.refuses ?_ h.suffix
  intro t ht
  rw [afterParameters_eq_none h.parted.head_ne_paren] at ht
  cases ht

/-! ## Words that stand in no clause -/

/-- A word with which no clause begins, and in which `DEFAULT` does not stand either. -/
structure Inert (w : List Char) : Prop where
  word : w ∈ Form.word
  excludes : Excludes "DEFAULT" w
  not_mem : ∀ letters ∈ ["NOT", "REFERENCES", "ON"], w ∉ keyword letters

theorem lowered_eq_of_keyword (hplain : IsPlain letters) (hother : IsPlain other)
    (hw : w ∈ keyword letters) (hw' : w ∈ keyword other) :
    Form.lowered letters = Form.lowered other := by
  rw [← Form.map_foldLetter_of_keyword hplain hw, Form.map_foldLetter_of_keyword hother hw']

/-- The keywords that stand inside a clause. -/
def innerWords : List String :=
  ["NULL", "DELETE", "UPDATE", "CASCADE", "RESTRICT", "SET", "NO", "ACTION"]

theorem isPlain_of_innerWords : ∀ letters ∈ innerWords, IsPlain letters := by decide

theorem inert_of_keyword (h : letters ∈ innerWords) (hw : w ∈ keyword letters) : Inert w := by
  have hplain := isPlain_of_innerWords letters h
  have hdefault : ∀ letters ∈ innerWords,
      ¬ Form.lowered "DEFAULT" <:+: Form.lowered letters := by decide
  have hne : ∀ letters ∈ innerWords, ∀ other ∈ ["NOT", "REFERENCES", "ON"],
      Form.lowered letters ≠ Form.lowered other := by decide
  have hothers : ∀ other ∈ ["NOT", "REFERENCES", "ON"], IsPlain other := by decide
  exact ⟨Form.keyword_subset_word hplain hw,
    excludes_of_keyword hplain (by decide) hw (hdefault letters h), fun other hother hw' =>
      hne letters h other hother (lowered_eq_of_keyword hplain (hothers other hother) hw hw')⟩

/-- A keyword in front of a gap is the whole word there. -/
theorem eq_of_keyword_parted (hplain : IsPlain letters) (hkey : key ∈ keyword letters)
    (hw : w ∈ Form.word) (hs : Stops isWord s) (ht : Parted t) (h : w ++ s = key ++ t) :
    w = key ∧ s = t := by
  have hword := Form.keyword_subset_word hplain hkey
  exact append_inj_of_stops hw.2 hs hword.2 ht.stops_word h

theorem notNull_word_eq_none (hw : w ∈ Form.word) (hs : Stops isWord s)
    (h : w ∈ keyword "NOT" → ¬ Leads ["NULL"] s) : notNull next (w ++ s) = none := by
  refine notNull_eq_none fun key hkey t heq hleads => ?_
  have ht : Parted t := by
    obtain ⟨gap, hgap, null, -, tail, rfl, -⟩ := hleads
    exact parted_append hgap
  obtain ⟨rfl, rfl⟩ := eq_of_keyword_parted (by decide) hkey hw hs ht heq
  exact h hkey hleads

theorem references_word_eq_none (hgap : gap ∈ blanks) (hw : w ∈ Form.word) (hs : Stops isWord s)
    (h : w ∉ keyword "REFERENCES") : references next (gap ++ (w ++ s)) = none := by
  rw [Option.eq_none_iff_forall_ne_some]
  intro a hsome
  obtain ⟨gap', hgap', key, hkey, tail, heq, htarget⟩ := blanksThen_eq_some hsome
  obtain ⟨-, heq⟩ := append_inj_of_stops hgap.2 (Form.stops_blank_of_word hw) hgap'.2
    (Form.stops_blank_of_word (Form.keyword_subset_word (by decide) hkey)) heq
  have ht : Parted tail := by
    simp only [Option.bind_eq_bind, Option.bind_eq_some_iff] at htarget
    obtain ⟨t, hafter, -⟩ := htarget
    obtain ⟨⟨gap, hgap, rfl⟩, -⟩ := afterBlanks_eq_some_iff.mp hafter
    exact parted_append hgap
  obtain ⟨rfl, -⟩ := eq_of_keyword_parted (by decide) hkey hw hs ht heq
  exact h hkey

theorem Inert.lacks (h : Inert w) (hs : Stops isWord s) : Form.Lacks "DEFAULT" (w ++ s) :=
  lacks_of_excludes (by decide) hs h.excludes

theorem Inert.refuses (h : Inert w) (hgap : gap ∈ blanks) (hs : Stops isWord s) :
    clauses (gap ++ (w ++ s)) = none := by
  refine clauses_blanks_eq_none hgap (Form.stops_blank_of_word h.word) ?_ ?_
  · exact option_word_eq_none h.word
      (notNull_word_eq_none h.word hs fun hnot => absurd hnot (h.not_mem _ (by simp))) (h.lacks hs)
  · refine (optional_of_none (references_word_eq_none hgap h.word hs (h.not_mem _ (by simp)))).trans
      (events_eq_none_of_word h.word hgap.2 hs fun hon => absurd hon (h.not_mem _ (by simp)))

/-- Behind a part of a word nothing is read, if neither `NOT` nor `DEFAULT` begins in its midst. -/
theorem suffix_refuses (hw : w ∈ Form.word) (hs : Stops isWord s) (hdefault : Excludes "DEFAULT" w)
    (hnot : Excludes "NOT" w.tail ∨ ¬ Leads ["NULL"] s) (heq : w = u ++ v) (hu : u ≠ [])
    (hv : v ≠ []) : clauses (v ++ s) = none := by
  have hin : v <:+: w := heq ▸ (List.suffix_append u v).isInfix
  have hword : v ∈ Form.word := ⟨hv, fun c hc => hw.2 c (hin.mem hc)⟩
  have hlacks : Form.Lacks "DEFAULT" (v ++ s) :=
    lacks_of_excludes (by decide) hs fun key hkey h => hdefault key hkey (h.trans hin)
  have hnone : notNull clauses.tail (v ++ s) = none := by
    refine notNull_word_eq_none hword hs fun hkey => ?_
    refine hnot.resolve_left fun hexcludes => hexcludes v hkey ?_
    obtain ⟨c, u, rfl⟩ := List.exists_cons_of_ne_nil hu
    rw [heq]
    exact (List.suffix_append u v).isInfix
  rw [clauses_word_append hword, option_word_eq_none hword hnone hlacks]

theorem Inert.passes (h : Inert w) (hs : Parted s) (hrefuses : clauses s = none)
    (hnot : Excludes "NOT" w.tail ∨ ¬ Leads ["NULL"] s) : Passes w s where
  word := h.word
  parted := hs
  refuses := hrefuses
  suffix _ _ := suffix_refuses h.word hs.stops_word h.excludes hnot

/-- A keyword of the clauses is passed over, wherever nothing is read behind it. -/
theorem passes_of_keyword (h : letters ∈ "NOT" :: "REFERENCES" :: "ON" :: innerWords)
    (hw : w ∈ keyword letters) (hs : Parted s) (hrefuses : clauses s = none) : Passes w s := by
  have hplain : ∀ letters ∈ "NOT" :: "REFERENCES" :: "ON" :: innerWords, IsPlain letters := by
    decide
  have hdefault : ∀ letters ∈ "NOT" :: "REFERENCES" :: "ON" :: innerWords,
      ¬ Form.lowered "DEFAULT" <:+: Form.lowered letters := by decide
  have hnot : ∀ letters ∈ "NOT" :: "REFERENCES" :: "ON" :: innerWords,
      ¬ Form.lowered "NOT" <:+: (Form.lowered letters).tail := by decide
  have hword := Form.keyword_subset_word (hplain letters h) hw
  exact ⟨hword, hs, hrefuses, fun _ _ => suffix_refuses hword hs.stops_word
    (excludes_of_keyword (hplain letters h) (by decide) hw (hdefault letters h))
    (Or.inl (excludes_tail_of_keyword (hplain letters h) (by decide) hw (hnot letters h)))⟩

/-! ## Clauses with nothing readable behind them -/

theorem not_mem_of_keyword (hplain : IsPlain letters) (hother : IsPlain other)
    (hw : w ∈ keyword letters) (hne : Form.lowered letters ≠ Form.lowered other) :
    w ∉ keyword other :=
  fun hw' => hne (lowered_eq_of_keyword hplain hother hw hw')

theorem notNull_refuses {not null : List Char} (hgap : gap ∈ blanks) (hnot : not ∈ keyword "NOT")
    (hgap' : gap' ∈ blanks) (hnull : null ∈ keyword "NULL") (htail : clauses.tail s = none) :
    clauses (gap ++ (not ++ (gap' ++ (null ++ s)))) = none := by
  have hword : not ∈ Form.word := Form.keyword_subset_word (by decide) hnot
  have hparted : Parted (gap' ++ (null ++ s)) := parted_append hgap'
  have hread : notNull clauses.tail (not ++ (gap' ++ (null ++ s))) = none := by
    simp only [notNull, Option.bind_eq_bind, afterKeyword_eq_some_iff.mpr ⟨not, hnot, rfl⟩,
      Option.bind_some, blanksThen_append (show IsPlain "NULL" by decide) hgap' hnull, htail]
  refine clauses_blanks_eq_none hgap (Form.stops_blank_of_word hword) ?_ ?_
  · exact option_word_eq_none hword hread
      (Form.lacks_of_keyword (by decide) (by decide) hnot (by decide))
  · refine (optional_of_none (references_word_eq_none hgap hword hparted.stops_word
      (not_mem_of_keyword (by decide) (by decide) hnot (by decide)))).trans ?_
    exact events_eq_none_of_word hword hgap.2 hparted.stops_word fun hon =>
      absurd hon (not_mem_of_keyword (by decide) (by decide) hnot (by decide))

theorem references_refuses {target : List Char} (hgap : gap ∈ blanks)
    (hkey : key ∈ keyword "REFERENCES") (hgap' : gap' ∈ blanks) (htarget : target ∈ Form.word)
    (hs : Parted s) (hrefuses : clauses s = none) :
    clauses (gap ++ (key ++ (gap' ++ (target ++ s)))) = none := by
  have hword : key ∈ Form.word := Form.keyword_subset_word (by decide) hkey
  have hparted : Parted (gap' ++ (target ++ s)) := parted_append hgap'
  have hevents := events_eq_none_of_clauses hs hrefuses
  have htake : longest1 (fun c => !isBlank c && c != ')') events (target ++ s) = none := by
    refine longest1_eq_none fun u v heq hne hu => ?_
    have hstops : Stops (fun c => !isBlank c && c != ')') s := hs.stops fun c hc => by simp [hc]
    obtain ⟨left, rfl, rfl⟩ := exists_append_of_stops hu hstops heq
    obtain rfl | hleft := eq_or_ne left []
    · exact hevents
    · exact events_word_append ⟨hleft, fun c hc => htarget.2 c (by simp [hc])⟩
  have hread : references events (gap ++ (key ++ (gap' ++ (target ++ s)))) = none := by
    rw [references, blanksThen_append (by decide) hgap hkey,
      afterBlanks_append hgap' (Form.stops_blank_of_word htarget)]
    exact htake
  have hnot : key ∉ keyword "NOT" := not_mem_of_keyword (by decide) (by decide) hkey (by decide)
  refine clauses_blanks_eq_none hgap (Form.stops_blank_of_word hword) ?_ ?_
  · exact option_word_eq_none hword
      (notNull_word_eq_none hword hparted.stops_word fun h => absurd h hnot)
      (Form.lacks_of_keyword (by decide) (by decide) hkey (by decide))
  · refine (optional_of_none hread).trans ?_
    exact events_eq_none_of_word hword hgap.2 hparted.stops_word fun hon =>
      absurd hon (not_mem_of_keyword (by decide) (by decide) hkey (by decide))

/-- What stands between the keyword `ON` and what follows the first word of an action. -/
theorem onEvent_eq_none_of_next {event : String} {gap'' on first : List Char}
    (hplain : IsPlain event) (hgap : gap ∈ blanks) (hon : on ∈ keyword "ON") (hgap' : gap' ∈ blanks)
    (hkey : key ∈ keyword event) (hgap'' : gap'' ∈ blanks) (hfirst : first ∈ Form.word)
    (hs : Parted s) (hnext : next s = none) (hword : ∀ v ∈ Form.word, next (v ++ s) = none) :
    onEvent event next (gap ++ (on ++ (gap' ++ (key ++ (gap'' ++ (first ++ s)))))) = none := by
  rw [onEvent, blanksThen_append (by decide) hgap hon, blanksThen_append hplain hgap' hkey,
    afterBlanks_append hgap'' (Form.stops_blank_of_word hfirst)]
  refine longest1_eq_none fun u v heq hne hu => ?_
  obtain ⟨left, rfl, rfl⟩ := exists_append_of_stops hu hs.stops_word heq
  obtain rfl | hleft := eq_or_ne left []
  · exact hnext
  · exact hword left ⟨hleft, fun c hc => hfirst.2 c (by simp [hc])⟩

theorem event_refuses {event : String} {gap'' on first : List Char}
    (hevent : event = "DELETE" ∨ event = "UPDATE") (hgap : gap ∈ blanks) (hon : on ∈ keyword "ON")
    (hgap' : gap' ∈ blanks) (hkey : key ∈ keyword event) (hgap'' : gap'' ∈ blanks)
    (hfirst : first ∈ Form.word) (hs : Parted s) (hevents : events s = none) :
    clauses (gap ++ (on ++ (gap' ++ (key ++ (gap'' ++ (first ++ s)))))) = none := by
  have hword : on ∈ Form.word := Form.keyword_subset_word (by decide) hon
  have hparted : Parted (gap' ++ (key ++ (gap'' ++ (first ++ s)))) := parted_append hgap'
  have hleads : Leads ["ON", event] (gap ++ (on ++ (gap' ++ (key ++ (gap'' ++ (first ++ s)))))) :=
    ⟨gap, hgap, on, hon, _, rfl, gap', hgap', key, hkey, _, rfl, trivial⟩
  have hending : ending (gap ++ (on ++ (gap' ++ (key ++ (gap'' ++ (first ++ s)))))) = none := by
    rw [Option.eq_none_iff_forall_ne_some]
    exact fun a hsome => not_isStop_of_word hword hgap.2 (isStop_of_ending hsome)
  have hread : events (gap ++ (on ++ (gap' ++ (key ++ (gap'' ++ (first ++ s)))))) = none := by
    obtain rfl | rfl := hevent
    · refine (optional_of_none (onEvent_eq_none_of_next (by decide) hgap hon hgap' hkey hgap''
        hfirst hs (eq_none_of_optional hevents) fun v hv =>
          eq_none_of_optional (events_word_append hv))).trans ?_
      have hclash : ¬ Leads ["ON", "UPDATE"] _ :=
        not_leads_of_clash hleads (by decide) (by decide)
      exact (optional_of_none (onEvent_eq_none hclash)).trans hending
    · have hclash : ¬ Leads ["ON", "DELETE"] _ :=
        not_leads_of_clash hleads (by decide) (by decide)
      refine (optional_of_none (onEvent_eq_none hclash)).trans ?_
      refine (optional_of_none (onEvent_eq_none_of_next (by decide) hgap hon hgap' hkey hgap''
        hfirst hs (eq_none_of_optional (eq_none_of_optional hevents)) fun v hv =>
          eq_none_of_optional (eq_none_of_optional (events_word_append hv)))).trans hending
  refine clauses_blanks_eq_none hgap (Form.stops_blank_of_word hword) ?_ ?_
  · exact option_word_eq_none hword (notNull_word_eq_none hword hparted.stops_word fun h =>
      absurd h (not_mem_of_keyword (by decide) (by decide) hon (by decide)))
      (Form.lacks_of_keyword (by decide) (by decide) hon (by decide))
  · exact (optional_of_none (references_word_eq_none hgap hword hparted.stops_word
      (not_mem_of_keyword (by decide) (by decide) hon (by decide)))).trans hread

/-! ## Where the search goes -/

/-- In the text behind a word the search finds one column, and goes on with the rest. -/
structure Diverts (s : List Char) (Gives : Column → Prop) (rest : List Char) : Prop where
  parted : Parted s
  refuses : clauses s = none
  read_eq_none : ∀ name ∈ Form.word, read (name ++ s) = none
  found : ∃ column, Gives column ∧ occurrences read s = column :: occurrences read rest

variable {Gives : Column → Prop}

theorem occurrences_word_append (hw : ∀ c ∈ w, isWord c = true)
    (h : ∀ name ∈ Form.word, read (name ++ s) = none) :
    occurrences read (w ++ s) = occurrences read s := by
  apply occurrences_append_of_none
  intro v hne hv
  exact h v ⟨hne, fun c hc => hw c (hv.isInfix.mem hc)⟩

/-- The search passes over a word in front of it. -/
theorem Diverts.of_passes (h : Diverts s Gives rest) (hgap : gap ∈ blanks) (hw : Passes w s)
    (hrefuses : clauses (gap ++ (w ++ s)) = none) : Diverts (gap ++ (w ++ s)) Gives rest where
  parted := parted_append hgap
  refuses := hrefuses
  read_eq_none _ hname := hw.read_eq_none hname hgap
  found := by
    obtain ⟨column, hcolumn, heq⟩ := h.found
    refine ⟨column, hcolumn, ?_⟩
    rw [occurrences_space_append hgap.2, occurrences_word_append hw.word.2 h.read_eq_none, heq]

/-- Two words that are read as a name and a type. -/
theorem diverts_of_clauses {word : List Char} (hgap : gap ∈ blanks)
    (hw : Passes w (gap' ++ (word ++ s))) (hgap' : gap' ∈ blanks) (hword : word ∈ Form.word)
    (hs : Stops isWord s) (hparen : s.head? ≠ some '(') (hread : clauses s = some rest)
    (hrest : rest <:+ s) (hrefuses : clauses (gap ++ (w ++ (gap' ++ (word ++ s)))) = none)
    (hgives : Gives ⟨String.ofList w, String.ofList word⟩) :
    Diverts (gap ++ (w ++ (gap' ++ (word ++ s)))) Gives rest where
  parted := parted_append hgap
  refuses := hrefuses
  read_eq_none _ hname := hw.read_eq_none hname hgap
  found := by
    refine ⟨_, hgives, ?_⟩
    have hcolumn := read_of_clauses hw.word hgap' (Or.inl hword) hs hparen hread
    obtain ⟨c, w, rfl⟩ := List.exists_cons_of_ne_nil hw.word.1
    rw [occurrences_space_append hgap.2]
    exact occurrences_of_some hcolumn (hrest.trans ⟨w ++ (gap' ++ word), by simp⟩)

/-! ## Types that are passed over -/

/-- No blank comes right behind a word. -/
def Gapless (s : List Char) : Prop :=
  s.IsChain fun c d => isWord c = true → isBlank d = false

instance (s : List Char) : Decidable (Gapless s) :=
  inferInstanceAs (Decidable (s.IsChain _))

/-- Parameters of a type in which no name is followed by a type of its own. -/
def IsParameters (parameters : List Char) : Prop :=
  ')' ∉ parameters ∧ Gapless parameters

instance (s : List Char) : Decidable (IsParameters s) :=
  inferInstanceAs (Decidable (_ ∧ _))

/-- What is read as a column begins with a word and a blank behind it. -/
theorem exists_word_of_read {found : Column × List Char} (h : read s = some found) :
    ∃ name ∈ Form.word, ∃ b t, isBlank b = true ∧ s = name ++ b :: t := by
  simp only [read, Option.bind_eq_bind, Option.bind_eq_some_iff] at h
  obtain ⟨⟨_, t⟩, hword, _, hafter, -⟩ := h
  obtain ⟨⟨name, hname, -, rfl⟩, -⟩ := word_eq_some_iff.mp hword
  obtain ⟨⟨gap, hgap, rfl⟩, -⟩ := afterBlanks_eq_some_iff.mp hafter
  obtain ⟨b, gap, rfl⟩ := List.exists_cons_of_ne_nil hgap.1
  exact ⟨name, hname, b, _, hgap.2 b (by simp), rfl⟩

/-- No name is read where no blank follows a word, up to a character that is neither. -/
theorem read_eq_none_of_gapless {c : Char} (h : Gapless w) (hword : isWord c = false)
    (hblank : isBlank c = false) : read (w ++ c :: s) = none := by
  rw [Option.eq_none_iff_forall_ne_some]
  intro found hsome
  obtain ⟨name, hname, b, t, hb, heq⟩ := exists_word_of_read hsome
  obtain ⟨extra, rfl, hextra⟩ | ⟨left, rfl, hleft⟩ := List.append_eq_append_iff.mp heq
  · cases extra with
    | nil =>
      obtain ⟨rfl, -⟩ := List.cons.inj hextra
      rw [hblank] at hb
      cases hb
    | cons d extra =>
      obtain ⟨rfl, -⟩ := List.cons.inj hextra
      rw [hname.2 c (by simp)] at hword
      cases hword
  · cases left with
    | nil =>
      obtain ⟨rfl, -⟩ := List.cons.inj hleft
      rw [hblank] at hb
      cases hb
    | cons d left =>
      obtain ⟨rfl, -⟩ := List.cons.inj hleft
      obtain ⟨front, last, rfl⟩ := (List.eq_nil_or_concat name).resolve_left hname.1
      have hlast := hname.2 last (by simp)
      have hgap := (List.isChain_append.mp h).2.2 last (by simp) b (by simp) hlast
      rw [hgap] at hb
      cases hb

/-- A type that is passed over: a word, and parameters in parentheses if it has any. -/
def usualType : Language Char :=
  {w | ∃ head ∈ Form.word, Excludes "DEFAULT" head ∧
    (w = head ∨ ∃ parameters, IsParameters parameters ∧ w = head ++ '(' :: (parameters ++ [')']))}

theorem typeToken_of_usualType (h : w ∈ usualType) : w ∈ typeToken := by
  obtain ⟨head, hhead, -, rfl | ⟨parameters, hparameters, rfl⟩⟩ := h
  · exact Or.inl hhead
  · exact Or.inr ⟨head, hhead, parameters, hparameters.1, rfl⟩

theorem clauses_paren : clauses ('(' :: s) = none := by
  have hblank : Stops isBlank ('(' :: s) := Form.stops_blank_paren
  have hword : Stops isWord ('(' :: s) := stops_cons.mpr (isWord_of_isPunctuation (by decide))
  rw [clauses, longest, if_neg (by decide)]
  refine (option_of_lacks (Form.lacks_of_stops (by decide) hword)
    (Form.lacks_of_stops (by decide) hword)).trans ?_
  refine (optional_of_none (references_eq_none (not_leads_of_stops hblank))).trans ?_
  exact events_eq_none_of_stops (by simp) hblank (by simp)

/-- In the parameters of a type nothing is read. -/
theorem occurrences_parameters_append {parameters : List Char} (h : IsParameters parameters) :
    occurrences read ('(' :: (parameters ++ ')' :: s)) = occurrences read s := by
  have hgapless : Gapless ('(' :: parameters) :=
    List.isChain_cons.mpr ⟨fun _ _ hparen => absurd hparen (not_isWord (by decide)), h.2⟩
  have hread {v : List Char} (hv : Gapless v) : read (v ++ ')' :: s) = none :=
    read_eq_none_of_gapless hv (isWord_of_isPunctuation (by decide)) (by decide)
  rw [← List.cons_append, occurrences_append_of_none, occurrences_of_none (hread .nil)]
  exact fun v _ hv => hread (hgapless.suffix hv)

/-- A definition whose clauses are not read gives what is found in its clauses. -/
theorem Diverts.found_type {type : List Char} (h : Diverts s Gives rest)
    (hnull : ¬ Leads ["NULL"] s) (hname : name ∈ Form.word) (hgap : gap ∈ blanks)
    (htype : type ∈ usualType) : ∃ column, Gives column ∧
      occurrences read (name ++ (gap ++ (type ++ s))) = column :: occurrences read rest := by
  obtain ⟨column, hcolumn, heq⟩ := h.found
  refine ⟨column, hcolumn, ?_⟩
  obtain ⟨head, hhead, hexcludes, rfl | ⟨parameters, hparameters, rfl⟩⟩ := htype
  · have hpasses : Passes type s := ⟨hhead, h.parted, h.refuses, fun _ _ =>
      suffix_refuses hhead h.parted.stops_word hexcludes (Or.inr hnull)⟩
    rw [occurrences_word_append hname.2 fun v hv => hpasses.read_eq_none hv hgap,
      occurrences_space_append hgap.2, occurrences_word_append hhead.2 h.read_eq_none, heq]
  · have hparen : Stops isWord ('(' :: (parameters ++ ')' :: s)) :=
      stops_cons.mpr (isWord_of_isPunctuation (by decide))
    have hread : ∀ v ∈ Form.word,
        read (v ++ (gap ++ (head ++ '(' :: (parameters ++ ')' :: s)))) = none := by
      intro v hv
      refine read_eq_none_of_clauses hv hgap hhead hparen clauses_paren ?_ fun _ _ =>
        suffix_refuses hhead hparen hexcludes (Or.inr (not_leads_of_stops Form.stops_blank_paren))
      intro t ht
      rw [afterParameters_append hparameters.1, Option.some.injEq] at ht
      exact ht ▸ h.refuses
    have hreadHead : ∀ v ∈ Form.word, read (v ++ '(' :: (parameters ++ ')' :: s)) = none := by
      intro v hv
      simp [read, word_append hv hparen, afterBlanks, show isBlank '(' = false by decide]
    simp only [List.append_assoc, List.cons_append, List.nil_append]
    rw [occurrences_word_append hname.2 hread, occurrences_space_append hgap.2,
      occurrences_word_append hhead.2 hreadHead, occurrences_parameters_append hparameters, heq]

end SchemaChange.Column
