import SchemaChange.Proofs.Field

/-!
# Columns with clauses

A column definition may go on behind its type: `NOT NULL` or a default, references, and actions on
deleting and updating. Each definition is read up to its own comma. The target of a reference is the
one part that could go over it, since it takes anything but blanks; it is given back because no
event follows, unless the next column is called `ON`.
-/

namespace SchemaChange.Column

open SchemaChange.Text
open Form (keyword blanks space IsPlain)

variable {a gap gap' key name r rest s tail text type u v w : List Char} {letters other : String}
  {keywords : List String} {column : Column} {columns : List Column} {p : Char → Bool}
  {next : Tail (List Char)}

/-! ## Keywords with blanks in front of them -/

/-- The text begins with some keywords, each of them with blanks in front of it. -/
def Leads : List String → List Char → Prop
  | [], _ => True
  | letters :: more, s =>
    ∃ gap ∈ blanks, ∃ key ∈ keyword letters, ∃ tail, s = gap ++ (key ++ tail) ∧ Leads more tail

/-- Of two keywords at the front of one text, the shorter one begins the longer one. -/
theorem prefix_of_keywords {key' tail' : List Char} (hplain : IsPlain letters)
    (hother : IsPlain other) (hkey : key ∈ keyword letters) (hkey' : key' ∈ keyword other)
    (heq : key ++ tail = key' ++ tail') :
    Form.lowered letters <+: Form.lowered other ∨ Form.lowered other <+: Form.lowered letters := by
  rw [← Form.map_foldLetter_of_keyword hplain hkey, ← Form.map_foldLetter_of_keyword hother hkey']
  have hprefix := List.prefix_or_prefix_of_prefix (heq ▸ List.prefix_append key tail)
    (List.prefix_append key' tail')
  exact hprefix.imp (fun h => h.map foldLetter) (fun h => h.map foldLetter)

theorem not_leads_of_stops (h : Stops isBlank s) : ¬ Leads (letters :: keywords) s := by
  rintro ⟨gap, ⟨hne, hgap⟩, key, -, tail, rfl, -⟩
  obtain ⟨b, gap, rfl⟩ := List.exists_cons_of_ne_nil hne
  have hb := hgap b (by simp)
  rw [List.cons_append, stops_cons, hb] at h
  cases h

theorem stops_of_blanks (hp : ∀ c, isBlank c = true → p c = false) (hgap : gap ∈ blanks) :
    Stops p (gap ++ s) := by
  obtain ⟨b, gap, rfl⟩ := List.exists_cons_of_ne_nil hgap.1
  exact stops_cons.mpr (hp b (hgap.2 b (by simp)))

/-- A text that leads with a keyword begins with a blank. -/
theorem stops_of_leads (hp : ∀ c, isBlank c = true → p c = false)
    (h : Leads (letters :: keywords) s) : Stops p s := by
  obtain ⟨gap, hgap, key, -, tail, rfl, -⟩ := h
  exact stops_of_blanks hp hgap

theorem not_leads_of_space (hplain : IsPlain letters) (h : s ∈ space) :
    ¬ Leads (letters :: keywords) s := by
  rintro ⟨gap, -, key, hkey, tail, rfl, -⟩
  obtain ⟨hne, hword⟩ := Form.keyword_subset_word hplain hkey
  obtain ⟨c, key, rfl⟩ := List.exists_cons_of_ne_nil hne
  have hc := isBlank_of_isWord (hword c (by simp))
  rw [h c (by simp)] at hc
  cases hc

/-- Two lists of keywords that no text can lead with both: where they differ first, neither keyword
begins the other. -/
def Clash : List String → List String → Prop
  | letters :: more, other :: others =>
    if letters = other then Clash more others
    else ¬ (Form.lowered letters <+: Form.lowered other ∨
      Form.lowered other <+: Form.lowered letters)
  | _, _ => False

instance decidableClash : ∀ keywords others, Decidable (Clash keywords others)
  | letters :: more, other :: others =>
    have := decidableClash more others
    inferInstanceAs (Decidable (if letters = other then Clash more others else _))
  | [], _ => isFalse (by simp [Clash])
  | _ :: _, [] => isFalse (by simp [Clash])

theorem not_leads_of_clash {others : List String} (h : Leads keywords s)
    (hclash : Clash keywords others) (hplain : ∀ letters ∈ keywords ++ others, IsPlain letters) :
    ¬ Leads others s := by
  induction keywords generalizing others s with
  | nil => exact absurd hclash (by simp [Clash])
  | cons letters more ih =>
    cases others with
    | nil => exact absurd hclash (by simp [Clash])
    | cons other others =>
      have hletters : IsPlain letters := hplain letters (by simp)
      have hother : IsPlain other := hplain other (by simp)
      rintro ⟨gap', hgap', key', hkey', tail', heq, hmore'⟩
      obtain ⟨gap, hgap, key, hkey, tail, rfl, hmore⟩ := h
      have hstops {letters : String} (hplain : IsPlain letters) {key tail : List Char}
          (hkey : key ∈ keyword letters) : Stops isBlank (key ++ tail) :=
        Form.stops_blank_of_word (Form.keyword_subset_word hplain hkey)
      obtain ⟨-, heq⟩ := append_inj_of_stops hgap.2 (hstops hletters hkey) hgap'.2
        (hstops hother hkey') heq
      rw [Clash] at hclash
      split at hclash
      · rename_i hsame
        subst hsame
        have hlength : key.length = key'.length := by
          rw [← List.Forall₂.length_eq hkey, ← List.Forall₂.length_eq hkey']
        obtain ⟨-, rfl⟩ := List.append_inj heq hlength
        refine ih hmore hclash (fun letters hmem => hplain letters ?_) hmore'
        rw [List.mem_append] at hmem
        simp only [List.cons_append, List.mem_cons, List.mem_append]
        exact Or.inr (hmem.imp_right Or.inr)
      · exact hclash (prefix_of_keywords hletters hother hkey hkey' heq)

theorem blanksThen_eq_some (h : blanksThen letters next s = some a) :
    ∃ gap ∈ blanks, ∃ key ∈ keyword letters, ∃ tail, s = gap ++ (key ++ tail) ∧
      next tail = some a := by
  simp only [blanksThen, Option.bind_eq_bind, Option.bind_eq_some_iff] at h
  obtain ⟨_, hblanks, tail, hafter, hnext⟩ := h
  obtain ⟨⟨gap, hgap, rfl⟩, -⟩ := afterBlanks_eq_some_iff.mp hblanks
  obtain ⟨key, hkey, rfl⟩ := afterKeyword_eq_some_iff.mp hafter
  exact ⟨gap, hgap, key, hkey, tail, rfl, hnext⟩

theorem blanksThen_append (hplain : IsPlain letters) (hgap : gap ∈ blanks)
    (hkey : key ∈ keyword letters) : blanksThen letters next (gap ++ (key ++ s)) = next s := by
  have hstops := Form.stops_blank_of_word (r := s) (Form.keyword_subset_word hplain hkey)
  simp only [blanksThen, Option.bind_eq_bind, afterBlanks_append hgap hstops, Option.bind_some,
    afterKeyword_eq_some_iff.mpr ⟨key, hkey, rfl⟩]

theorem leads_of_onEvent (h : onEvent letters next s = some a) : Leads ["ON", letters] s := by
  obtain ⟨gap, hgap, on, hon, _, rfl, hevent⟩ := blanksThen_eq_some h
  obtain ⟨gap', hgap', key, hkey, tail, rfl, -⟩ := blanksThen_eq_some hevent
  exact ⟨gap, hgap, on, hon, _, rfl, gap', hgap', key, hkey, tail, rfl, trivial⟩

theorem leads_of_references (h : references next s = some a) : Leads ["REFERENCES"] s := by
  obtain ⟨gap, hgap, key, hkey, tail, rfl, -⟩ := blanksThen_eq_some h
  exact ⟨gap, hgap, key, hkey, tail, rfl, trivial⟩

theorem onEvent_eq_none (h : ¬ Leads ["ON", letters] s) : onEvent letters next s = none := by
  rw [Option.eq_none_iff_forall_ne_some]
  exact fun _ hsome => h (leads_of_onEvent hsome)

theorem references_eq_none (h : ¬ Leads ["REFERENCES"] s) : references next s = none := by
  rw [Option.eq_none_iff_forall_ne_some]
  exact fun _ hsome => h (leads_of_references hsome)

/-! ## What may follow a type -/

/-- `NOT NULL`. -/
def notNullClause : Language Char :=
  blanks * (keyword "NOT" * (blanks * keyword "NULL"))

def withoutComma : Language Char :=
  {w | ',' ∉ w}

instance (w : List Char) : Decidable (w ∈ withoutComma) :=
  inferInstanceAs (Decidable (',' ∉ w))

/-- `DEFAULT` and any text without a comma. -/
def defaultClause : Language Char :=
  blanks * (keyword "DEFAULT" * withoutComma)

/-- `REFERENCES` and the word for a table. -/
def referencesClause : Language Char :=
  blanks * (keyword "REFERENCES" * (blanks * Form.word))

/-- `ON`, an event, and a word for the action. -/
def eventClause (event : String) : Language Char :=
  blanks * (keyword "ON" * (blanks * (keyword event * (blanks * Form.word))))

def updateTexts : Language Char :=
  1 + eventClause "UPDATE"

def eventTexts : Language Char :=
  (1 + eventClause "DELETE") * updateTexts

def tailTexts : Language Char :=
  (1 + referencesClause) * eventTexts

/-- All that may follow the type of a column: first `NOT NULL` or a default, but not both. -/
def clauseTexts : Language Char :=
  (1 + notNullClause + defaultClause) * tailTexts

/-- What follows a column: a comma, or nothing but blanks up to the end. -/
def IsStop (rest : List Char) : Prop :=
  rest ∈ space ∨ ∃ tail, rest = ',' :: tail

theorem isBlank_comma : isBlank ',' = false := by decide

theorem not_leads_of_isStop (hplain : IsPlain letters) (h : IsStop rest) :
    ¬ Leads (letters :: keywords) rest := by
  obtain h | ⟨tail, rfl⟩ := h
  · exact not_leads_of_space hplain h
  · exact not_leads_of_stops (stops_cons.mpr isBlank_comma)

theorem stops_word_of_isStop (h : IsStop rest) : Stops isWord rest := by
  obtain h | ⟨tail, rfl⟩ := h
  · simpa using Form.stops_word_of_space h stops_nil
  · exact stops_cons.mpr (isWord_of_isPunctuation (by decide))

theorem ending_of_space (h : rest ∈ space) : ending rest = some [] := by
  unfold ending
  split
  · exact absurd (h ',' (by simp)) (by decide)
  · rw [if_pos (List.all_eq_true.mpr h)]

theorem isStop_of_ending (h : ending rest = some a) : IsStop rest := by
  unfold ending at h
  split at h
  · exact Or.inr ⟨_, rfl⟩
  · split at h
    · rename_i hall
      exact Or.inl (List.all_eq_true.mp hall)
    · cases h

/-! ## Reading the clauses -/

theorem optional_of_some {clause : Tail (List Char) → Tail (List Char)}
    (h : clause next s = some a) : optional clause next s = some a := by
  rw [optional, h]
  rfl

theorem optional_of_none {clause : Tail (List Char) → Tail (List Char)}
    (h : clause next s = none) : optional clause next s = next s := by
  rw [optional, h]
  rfl

/-- The reader of the two events and of the end. -/
def events : Tail (List Char) :=
  optional (onEvent "DELETE") (optional (onEvent "UPDATE") ending)

theorem onEvent_append {event : String} (hplain : IsPlain event) (hw : w ∈ eventClause event)
    (hrest : Stops isWord rest) (hnext : next rest = some a) :
    onEvent event next (w ++ rest) = some a := by
  obtain ⟨gap, hgap, _, h₁, rfl⟩ := Language.mem_mul.mp hw
  obtain ⟨on, hon, _, h₂, rfl⟩ := Language.mem_mul.mp h₁
  obtain ⟨gap', hgap', _, h₃, rfl⟩ := Language.mem_mul.mp h₂
  obtain ⟨key, hkey, _, h₄, rfl⟩ := Language.mem_mul.mp h₃
  obtain ⟨gap'', hgap'', action, haction, rfl⟩ := Language.mem_mul.mp h₄
  simp only [List.append_assoc]
  rw [onEvent, blanksThen_append (by decide) hgap hon, blanksThen_append hplain hgap' hkey,
    afterBlanks_append hgap'' (Form.stops_blank_of_word haction)]
  exact longest1_append haction.1 haction.2 hrest hnext

theorem stops_word_of_eventClause {event : String} (hw : w ∈ eventClause event) :
    Stops isWord (w ++ rest) := by
  obtain ⟨gap, hgap, _, -, rfl⟩ := Language.mem_mul.mp hw
  rw [List.append_assoc]
  exact Form.stops_word_of_blanks hgap

theorem leads_of_eventClause {event : String} (hw : w ∈ eventClause event) :
    Leads ["ON", event] (w ++ rest) := by
  obtain ⟨gap, hgap, _, h₁, rfl⟩ := Language.mem_mul.mp hw
  obtain ⟨on, hon, _, h₂, rfl⟩ := Language.mem_mul.mp h₁
  obtain ⟨gap', hgap', _, h₃, rfl⟩ := Language.mem_mul.mp h₂
  obtain ⟨key, hkey, tail, -, rfl⟩ := Language.mem_mul.mp h₃
  exact ⟨gap, hgap, on, hon, gap' ++ (key ++ tail) ++ rest, by simp, gap', hgap', key, hkey,
    tail ++ rest, by simp, trivial⟩

theorem update_append (hw : w ∈ updateTexts) (hrest : ending rest = some a) :
    optional (onEvent "UPDATE") ending (w ++ rest) = some a := by
  have hstop := isStop_of_ending hrest
  obtain hw | hw := hw
  · obtain rfl : w = [] := hw
    rw [List.nil_append,
      optional_of_none (onEvent_eq_none (not_leads_of_isStop (by decide) hstop)), hrest]
  · exact optional_of_some (onEvent_append (by decide) hw (stops_word_of_isStop hstop) hrest)

theorem stops_word_of_updateTexts (hw : w ∈ updateTexts) (hrest : Stops isWord rest) :
    Stops isWord (w ++ rest) := by
  obtain hw | hw := hw
  · obtain rfl : w = [] := hw
    exact hrest
  · exact stops_word_of_eventClause hw

theorem leads_on_of_eventClause {event : String} (hw : w ∈ eventClause event) :
    Leads ["ON"] (w ++ rest) := by
  have hleads : Leads ["ON", event] (w ++ rest) := leads_of_eventClause hw
  obtain ⟨gap, hgap, on, hon, tail, heq, -⟩ := hleads
  exact ⟨gap, hgap, on, hon, tail, heq, trivial⟩

theorem nil_or_leads_of_eventTexts (rest : List Char) (hw : w ∈ eventTexts) :
    w = [] ∨ Leads ["ON"] (w ++ rest) := by
  obtain ⟨delete, hdelete, update, hupdate, rfl⟩ := Language.mem_mul.mp hw
  rw [List.append_assoc]
  obtain hdelete | hdelete := hdelete
  · obtain rfl : delete = [] := hdelete
    rw [List.nil_append, List.nil_append]
    exact Or.imp id leads_on_of_eventClause hupdate
  · exact Or.inr (leads_on_of_eventClause hdelete)

theorem events_append (hw : w ∈ eventTexts) (hrest : ending rest = some a) :
    events (w ++ rest) = some a := by
  have hstop := isStop_of_ending hrest
  obtain ⟨delete, hdelete, update, hupdate, rfl⟩ := Language.mem_mul.mp hw
  rw [List.append_assoc]
  obtain hdelete | hdelete := hdelete
  · obtain rfl : delete = [] := hdelete
    have hnot : ¬ Leads ["ON", "DELETE"] (update ++ rest) := by
      obtain hupdate | hupdate := hupdate
      · obtain rfl : update = [] := hupdate
        exact not_leads_of_isStop (by decide) hstop
      · exact not_leads_of_clash (leads_of_eventClause hupdate) (by decide) (by decide)
    rw [List.nil_append, events, optional_of_none (onEvent_eq_none hnot)]
    exact update_append hupdate hrest
  · exact optional_of_some (onEvent_append (by decide) hdelete
      (stops_word_of_updateTexts hupdate (stops_word_of_isStop hstop))
      (update_append hupdate hrest))

theorem optional_eq_some {clause : Tail (List Char) → Tail (List Char)}
    (h : optional clause next s = some a) : clause next s = some a ∨ next s = some a := by
  unfold optional at h
  cases hclause : clause next s with
  | none => exact Or.inr (by simpa [hclause] using h)
  | some b => exact Or.inl (by simpa [hclause] using h)

theorem events_cases (h : events s = some a) :
    IsStop s ∨ Leads ["ON", "DELETE"] s ∨ Leads ["ON", "UPDATE"] s := by
  obtain h | h := optional_eq_some h
  · exact Or.inr (Or.inl (leads_of_onEvent h))
  · obtain h | h := optional_eq_some h
    · exact Or.inr (Or.inr (leads_of_onEvent h))
    · exact Or.inl (isStop_of_ending h)

theorem events_eq_none_of_stops (hne : s ≠ []) (hs : Stops isBlank s)
    (hcomma : s.head? ≠ some ',') : events s = none := by
  rw [Option.eq_none_iff_forall_ne_some]
  intro a hsome
  obtain (hspace | ⟨tail, rfl⟩) | hleads | hleads := events_cases hsome
  · obtain ⟨c, s, rfl⟩ := List.exists_cons_of_ne_nil hne
    rw [stops_cons, hspace c (by simp)] at hs
    cases hs
  · exact hcomma rfl
  · exact not_leads_of_stops hs hleads
  · exact not_leads_of_stops hs hleads

theorem head_ne_of_word {c : Char} (hc : isWord c = false) (hw : w ∈ Form.word) :
    (w ++ s).head? ≠ some c := by
  obtain ⟨d, w, rfl⟩ := List.exists_cons_of_ne_nil hw.1
  rw [List.cons_append, List.head?_cons, ne_eq, Option.some.injEq]
  rintro rfl
  rw [hw.2 d (by simp)] at hc
  cases hc

theorem events_word_append (hw : w ∈ Form.word) : events (w ++ s) = none :=
  events_eq_none_of_stops (by simp [hw.1]) (Form.stops_blank_of_word hw)
    (head_ne_of_word (isWord_of_isPunctuation (by decide)) hw)

/-- No clause and no end of a column begins with a word. -/
theorem tail_word_append (hw : w ∈ Form.word) : clauses.tail (w ++ s) = none :=
  (optional_of_none (references_eq_none (not_leads_of_stops (Form.stops_blank_of_word hw)))).trans
    (events_word_append hw)

/-! ## The target of a reference -/

theorem longest_eq_none {α : Type} {next : Tail α}
    (h : ∀ u v, s = u ++ v → (∀ c ∈ u, p c = true) → next v = none) :
    longest p next s = none := by
  induction s with
  | nil => exact h [] [] rfl (by simp)
  | cons c s ih =>
    have hhere := h [] (c :: s) rfl (by simp)
    rw [longest]
    split
    · rename_i hc
      have hlater : longest p next s = none := by
        refine ih fun u v heq hu => h (c :: u) v (by rw [heq, List.cons_append]) ?_
        exact List.forall_mem_cons.mpr ⟨hc, hu⟩
      rw [hlater, hhere]
      rfl
    · exact hhere

/-- A part gives back what it took over its end, if nothing fits behind that. -/
theorem longest_append_of_none (hw : ∀ c ∈ w, p c = true)
    (hover : ∀ c u v, rest = c :: (u ++ v) → (∀ d ∈ c :: u, p d = true) → next v = none)
    (hnext : next rest = some a) : longest p next (w ++ rest) = some a := by
  induction w with
  | nil =>
    cases rest with
    | nil => exact hnext
    | cons c rest =>
      rw [List.nil_append, longest]
      split
      · rename_i hc
        have hnone : longest p next rest = none :=
          longest_eq_none fun u v heq hu =>
            hover c u v (by rw [heq]) (List.forall_mem_cons.mpr ⟨hc, hu⟩)
        rw [hnone, hnext]
        rfl
      · exact hnext
  | cons c w ih =>
    obtain ⟨hc, hw⟩ := List.forall_mem_cons.mp hw
    rw [List.cons_append, longest, if_pos hc, ih hw]
    rfl

/-- Behind characters that are no blanks, no event and no end of a column comes. -/
def Refuses (s : List Char) : Prop :=
  ∀ u v, s = u ++ v → (∀ c ∈ u, isBlank c = false) → events v = none

theorem references_append (hw : w ∈ referencesClause) (hevents : v ∈ eventTexts)
    (hrest : ending rest = some a) (hover : ∀ tail, rest = ',' :: tail → Refuses tail) :
    references events (w ++ (v ++ rest)) = some a := by
  obtain ⟨gap, hgap, _, h₁, rfl⟩ := Language.mem_mul.mp hw
  obtain ⟨key, hkey, _, h₂, rfl⟩ := Language.mem_mul.mp h₁
  obtain ⟨gap', hgap', target, htarget, rfl⟩ := Language.mem_mul.mp h₂
  have hclass : ∀ c ∈ target, (!isBlank c && c != ')') = true := by
    intro c hc
    have hword := htarget.2 c hc
    rw [isBlank_of_isWord hword, Bool.not_false, Bool.true_and, bne_iff_ne]
    rintro rfl
    exact not_isWord (by decide) hword
  have hbehind : ∀ c u t, v ++ rest = c :: (u ++ t) →
      (∀ d ∈ c :: u, (!isBlank d && d != ')') = true) → events t = none := by
    intro c u t heq hu
    have hblank : ∀ d ∈ c :: u, isBlank d = false := by
      intro d hd
      have := hu d hd
      simp only [Bool.and_eq_true, Bool.not_eq_true'] at this
      exact this.1
    rw [List.forall_mem_cons] at hblank
    -- The target goes on only at a comma: events and the blanks at the end begin with a blank.
    obtain rfl | hleads := nil_or_leads_of_eventTexts rest hevents
    · rw [List.nil_append] at heq
      obtain hspace | ⟨tail, rfl⟩ := isStop_of_ending hrest
      · rw [hspace c (by simp [heq])] at hblank
        exact absurd hblank.1 (by simp)
      · obtain ⟨rfl, rfl⟩ := List.cons.inj heq
        exact hover _ rfl u t rfl hblank.2
    · rw [heq] at hleads
      exact absurd hleads (not_leads_of_stops (stops_cons.mpr hblank.1))
  have htake : longest1 (fun c => !isBlank c && c != ')') events (target ++ (v ++ rest)) =
      some a := by
    obtain ⟨c, target, rfl⟩ := List.exists_cons_of_ne_nil htarget.1
    rw [List.forall_mem_cons] at hclass
    rw [List.cons_append, longest1, if_pos hclass.1]
    exact longest_append_of_none hclass.2 hbehind (events_append hevents hrest)
  simp only [List.append_assoc]
  rw [references, blanksThen_append (by decide) hgap hkey,
    afterBlanks_append hgap' (Form.stops_blank_of_word htarget)]
  exact htake

theorem leads_of_referencesClause (hw : w ∈ referencesClause) :
    Leads ["REFERENCES"] (w ++ rest) := by
  obtain ⟨gap, hgap, _, h₁, rfl⟩ := Language.mem_mul.mp hw
  obtain ⟨key, hkey, tail, -, rfl⟩ := Language.mem_mul.mp h₁
  exact ⟨gap, hgap, key, hkey, tail ++ rest, by simp, trivial⟩

theorem tail_append (hw : w ∈ tailTexts) (hrest : ending rest = some a)
    (hover : ∀ tail, rest = ',' :: tail → Refuses tail) : clauses.tail (w ++ rest) = some a := by
  obtain ⟨target, htarget, v, hevents, rfl⟩ := Language.mem_mul.mp hw
  rw [List.append_assoc]
  obtain htarget | htarget := htarget
  · obtain rfl : target = [] := htarget
    have hnot : ¬ Leads ["REFERENCES"] (v ++ rest) := by
      obtain rfl | hleads := nil_or_leads_of_eventTexts rest hevents
      · exact not_leads_of_isStop (by decide) (isStop_of_ending hrest)
      · exact not_leads_of_clash hleads (by decide) (by decide)
    rw [List.nil_append]
    exact (optional_of_none (references_eq_none hnot)).trans (events_append hevents hrest)
  · exact optional_of_some (references_append htarget hevents hrest hover)

theorem nil_or_leads_of_tailTexts (rest : List Char) (hw : w ∈ tailTexts) :
    w = [] ∨ Leads ["REFERENCES"] (w ++ rest) ∨ Leads ["ON"] (w ++ rest) := by
  obtain ⟨target, htarget, v, hevents, rfl⟩ := Language.mem_mul.mp hw
  rw [List.append_assoc]
  obtain htarget | htarget := htarget
  · obtain rfl : target = [] := htarget
    rw [List.nil_append, List.nil_append]
    exact (nil_or_leads_of_eventTexts rest hevents).imp id Or.inr
  · exact Or.inr (Or.inl (leads_of_referencesClause htarget))

/-! ## All clauses -/

/-- The reader of what stands behind a type and the blanks there. -/
def option : Tail (List Char) := fun s =>
  (notNull clauses.tail s <|> defaultValue clauses.tail s) <|> clauses.tail s

theorem afterKeyword_of_lacks (h : Form.Lacks letters s) :
    afterKeyword letters.toList s = none := by
  rw [Option.eq_none_iff_forall_ne_some]
  intro rest hsome
  obtain ⟨key, hkey, heq⟩ := afterKeyword_eq_some_iff.mp hsome
  exact h key hkey rest heq

theorem option_of_lacks (hnot : Form.Lacks "NOT" s) (hdefault : Form.Lacks "DEFAULT" s) :
    option s = clauses.tail s := by
  simp only [option, notNull, defaultValue, afterKeyword_of_lacks hnot,
    afterKeyword_of_lacks hdefault]
  rfl

/-- How many blanks stand in front does not matter, if there is one. -/
theorem tail_blanks_append (hgap : gap ∈ blanks) (hgap' : gap' ∈ blanks) (hs : Stops isBlank s) :
    clauses.tail (gap ++ s) = clauses.tail (gap' ++ s) := by
  have hafter : afterBlanks (gap ++ s) = afterBlanks (gap' ++ s) := by
    rw [afterBlanks_append hgap hs, afterBlanks_append hgap' hs]
  have hending {gap : List Char} (hgap : gap ∈ blanks) :
      ending (gap ++ s) = if s.all isBlank then some [] else none := by
    obtain ⟨b, gap, rfl⟩ := List.exists_cons_of_ne_nil hgap.1
    have hne : b ≠ ',' := by
      rintro rfl
      exact absurd (hgap.2 ',' (by simp)) (by decide)
    rw [List.cons_append, ending_cons hne, ← List.cons_append, List.all_append,
      List.all_eq_true.mpr hgap.2, Bool.true_and]
  simp only [clauses.tail, optional, references, onEvent, blanksThen, hafter, hending hgap,
    hending hgap']

/-- Blanks are given back to a part that has to begin with one. -/
theorem longest_give_back (hgap : gap ∈ blanks) (hs : Stops isBlank s) (hnone : next s = none)
    (hnext : ∀ gap ∈ blanks, next (gap ++ s) = some a) :
    longest isBlank next (gap ++ s) = some a := by
  obtain ⟨hne, hall⟩ := hgap
  have hlast : longest isBlank next s = none := by
    cases s with
    | nil => exact hnone
    | cons c s => rw [longest, stops_cons.mp hs]; exact hnone
  induction gap with
  | nil => exact absurd rfl hne
  | cons b gap ih =>
    obtain ⟨hb, hgap⟩ := List.forall_mem_cons.mp hall
    rw [List.cons_append, longest, if_pos hb]
    by_cases hnil : gap = []
    · rw [hnil, List.nil_append, hlast]
      exact hnext [b] ⟨by simp, by simpa using hb⟩
    · rw [ih hnil hgap]
      rfl

theorem option_word_append (hw : w ∈ Form.word) (hnot : Form.Lacks "NOT" (w ++ s))
    (hdefault : Form.Lacks "DEFAULT" (w ++ s)) : option (w ++ s) = none := by
  rw [option_of_lacks hnot hdefault, tail_word_append hw]

theorem option_blanks_append (hgap : gap ∈ blanks) : option (gap ++ s) = clauses.tail (gap ++ s) :=
  option_of_lacks (Form.lacks_of_stops (by decide) (Form.stops_word_of_blanks hgap))
    (Form.lacks_of_stops (by decide) (Form.stops_word_of_blanks hgap))

theorem clauses_of_leads (hplain : IsPlain letters)
    (hnot : (Form.lowered "NOT").head? ≠ (Form.lowered letters).head?)
    (hdefault : (Form.lowered "DEFAULT").head? ≠ (Form.lowered letters).head?)
    (hleads : Leads [letters] s) (h : clauses.tail s = some a) : clauses s = some a := by
  obtain ⟨gap, hgap, key, hkey, tail, rfl, -⟩ := hleads
  have hstops : Stops isBlank (key ++ tail) :=
    Form.stops_blank_of_word (Form.keyword_subset_word hplain hkey)
  have hoption : option (key ++ tail) = none :=
    option_word_append (Form.keyword_subset_word hplain hkey)
      (Form.lacks_of_keyword (by decide) hplain hkey hnot)
      (Form.lacks_of_keyword (by decide) hplain hkey hdefault)
  refine longest_give_back hgap hstops hoption ?_
  intro gap' hgap'
  change option _ = _
  rw [option_blanks_append hgap', tail_blanks_append hgap' hgap hstops, h]

theorem clauses_of_stop (hrest : ending rest = some a) : clauses rest = some a := by
  obtain hspace | ⟨tail, rfl⟩ := isStop_of_ending hrest
  · have hnil := clauses_append hspace (Or.inl (rfl : ([] : List Char) = []))
    rw [List.append_nil] at hnil
    rw [hnil, ← hrest, ending_of_space hspace]
    rfl
  · exact (clauses_append Form.nil_mem_space (Or.inr ⟨tail, rfl⟩)).trans hrest

/-- A default goes up to the comma, whatever it holds. -/
theorem clauses_of_default {default : List Char} (hgap : gap ∈ blanks)
    (hdefault : default ∈ keyword "DEFAULT") (htext : ',' ∉ text) (hrest : ending rest = some a) :
    clauses (gap ++ (default ++ (text ++ rest))) = some a := by
  refine longest_append hgap.2
    (Form.stops_blank_of_word (Form.keyword_subset_word (by decide) hdefault)) ?_
  have hnot : afterKeyword "NOT".toList (default ++ (text ++ rest)) = none :=
    afterKeyword_of_lacks (Form.lacks_of_keyword (by decide) (by decide) hdefault (by decide))
  have htake : longest (· != ',') clauses.tail (text ++ rest) = some a := by
    obtain hspace | ⟨tail, rfl⟩ := isStop_of_ending hrest
    · have hall : ∀ c ∈ text ++ rest, (c != ',') = true := by
        refine bne_of_not_mem ?_
        rw [List.mem_append, not_or]
        exact ⟨htext, fun hmem => absurd (hspace ',' hmem) (by decide)⟩
      have hnil : clauses.tail [] = some a := by
        rw [tail_of_isEnd (Or.inl rfl), ← hrest, ending_of_space hspace]
        rfl
      simpa using longest_append hall stops_nil hnil
    · refine longest_append (bne_of_not_mem htext) (by simp) ?_
      rw [tail_of_isEnd (Or.inr ⟨tail, rfl⟩), ← hrest]
      rfl
  have hread : defaultValue clauses.tail (default ++ (text ++ rest)) = some a := by
    simp only [defaultValue, Option.bind_eq_bind, Option.bind_some, htake,
      afterKeyword_eq_some_iff.mpr ⟨default, hdefault, rfl⟩]
  simp only [notNull, hnot, hread]
  rfl

theorem wording_of_mul {A B : Language Char} (hA : ∀ w ∈ A, w ∈ Form.wording)
    (hB : ∀ w ∈ B, w ∈ Form.wording) : ∀ w ∈ A * B, w ∈ Form.wording := by
  intro w hw
  obtain ⟨u, hu, v, hv, rfl⟩ := Language.mem_mul.mp hw
  exact Form.wording_append (hA u hu) (hB v hv)

theorem wording_of_optional {A : Language Char} (hA : ∀ w ∈ A, w ∈ Form.wording) :
    ∀ w ∈ 1 + A, w ∈ Form.wording := by
  rintro w (hw | hw)
  · obtain rfl : w = [] := hw
    exact Form.wording_of_space Form.nil_mem_space
  · exact hA w hw

theorem wording_of_tailTexts : ∀ w ∈ tailTexts, w ∈ Form.wording := by
  have hblanks : ∀ w ∈ blanks, w ∈ Form.wording := fun _ hw => Form.wording_of_space hw.2
  have hword : ∀ w ∈ Form.word, w ∈ Form.wording := fun _ => Form.wording_of_word
  have hkeyword {letters : String} (hplain : IsPlain letters) :
      ∀ w ∈ keyword letters, w ∈ Form.wording :=
    fun _ hw => Form.wording_of_word (Form.keyword_subset_word hplain hw)
  have hevent {event : String} (hplain : IsPlain event) :
      ∀ w ∈ eventClause event, w ∈ Form.wording :=
    wording_of_mul hblanks (wording_of_mul (hkeyword (by decide)) (wording_of_mul hblanks
      (wording_of_mul (hkeyword hplain) (wording_of_mul hblanks hword))))
  have hreferences : ∀ w ∈ referencesClause, w ∈ Form.wording :=
    wording_of_mul hblanks (wording_of_mul (hkeyword (by decide)) (wording_of_mul hblanks hword))
  exact wording_of_mul (wording_of_optional hreferences)
    (wording_of_mul (wording_of_optional (hevent (by decide)))
      (wording_of_optional (hevent (by decide))))

theorem clauses_of_texts (hw : w ∈ clauseTexts) (hrest : ending rest = some a)
    (hover : ∀ tail, rest = ',' :: tail → Refuses tail) : clauses (w ++ rest) = some a := by
  obtain ⟨head, hhead, t, ht, rfl⟩ := Language.mem_mul.mp hw
  rw [List.append_assoc]
  have htail := tail_append ht hrest hover
  obtain (hhead | hhead) | hhead := hhead
  · obtain rfl : head = [] := hhead
    rw [List.nil_append]
    obtain rfl | hleads | hleads := nil_or_leads_of_tailTexts rest ht
    · exact clauses_of_stop hrest
    · exact clauses_of_leads (by decide) (by decide) (by decide) hleads htail
    · exact clauses_of_leads (by decide) (by decide) (by decide) hleads htail
  · obtain ⟨gap, hgap, _, h₁, rfl⟩ := Language.mem_mul.mp hhead
    obtain ⟨not, hnot, _, h₂, rfl⟩ := Language.mem_mul.mp h₁
    obtain ⟨gap', hgap', null, hnull, rfl⟩ := Language.mem_mul.mp h₂
    simp only [List.append_assoc]
    refine longest_append hgap.2
      (Form.stops_blank_of_word (Form.keyword_subset_word (by decide) hnot)) ?_
    have hread : notNull clauses.tail (not ++ (gap' ++ (null ++ (t ++ rest)))) = some a := by
      simp only [notNull, Option.bind_eq_bind, afterKeyword_eq_some_iff.mpr ⟨not, hnot, rfl⟩,
        Option.bind_some, blanksThen_append (show IsPlain "NULL" by decide) hgap' hnull, htail]
    rw [hread]
    rfl
  · obtain ⟨gap, hgap, _, h₁, rfl⟩ := Language.mem_mul.mp hhead
    obtain ⟨default, hdefault, text, htext, rfl⟩ := Language.mem_mul.mp h₁
    have hcomma : ',' ∉ text ++ t := by
      rw [List.mem_append, not_or]
      exact ⟨htext, Form.not_mem_of_wording (wording_of_tailTexts t ht) (by decide)
        (by decide)⟩
    simpa using clauses_of_default hgap hdefault hcomma hrest

/-! ## What cannot follow a reference -/

theorem not_isStop_of_word (hw : w ∈ Form.word) (hgap : gap ∈ space) :
    ¬ IsStop (gap ++ (w ++ s)) := by
  obtain ⟨c, w, rfl⟩ := List.exists_cons_of_ne_nil hw.1
  have hc : isWord c = true := hw.2 c (by simp)
  rintro (hspace | ⟨tail, heq⟩)
  · have hblank := hspace c (by simp)
    rw [isBlank_of_isWord hc] at hblank
    cases hblank
  · cases gap with
    | nil =>
      obtain ⟨rfl, -⟩ := List.cons.inj heq
      exact not_isWord (by decide) hc
    | cons b gap =>
      obtain ⟨rfl, -⟩ := List.cons.inj heq
      exact absurd (hgap ',' (by simp)) (by decide)

/-- No event of a column begins with a word other than `ON`, or with one that no event follows. -/
theorem events_eq_none_of_word (hw : w ∈ Form.word) (hgap : gap ∈ space) (hs : Stops isWord s)
    (h : w ∈ keyword "ON" → ¬ Leads ["DELETE"] s ∧ ¬ Leads ["UPDATE"] s) :
    events (gap ++ (w ++ s)) = none := by
  rw [Option.eq_none_iff_forall_ne_some]
  intro a hsome
  have hnot {event : String} (hleads : Leads ["ON", event] (gap ++ (w ++ s))) :
      w ∈ keyword "ON" ∧ Leads [event] s := by
    obtain ⟨gap', hgap', on, hon, tail, heq, hmore⟩ := hleads
    have hon' := Form.keyword_subset_word (by decide) hon
    obtain ⟨-, heq⟩ := append_inj_of_stops hgap (Form.stops_blank_of_word hw) hgap'.2
      (Form.stops_blank_of_word hon') heq
    have htail := stops_of_leads (fun _ => isWord_of_isBlank) hmore
    obtain ⟨rfl, rfl⟩ := append_inj_of_stops hw.2 hs hon'.2 htail heq
    exact ⟨hon, hmore⟩
  obtain hstop | hleads | hleads := events_cases hsome
  · exact not_isStop_of_word hw hgap hstop
  · obtain ⟨hon, hevent⟩ := hnot hleads
    exact (h hon).1 hevent
  · obtain ⟨hon, hevent⟩ := hnot hleads
    exact (h hon).2 hevent

/-- The words with which a clause begins. -/
def clauseWords : List String :=
  ["NOT", "DEFAULT", "REFERENCES", "ON"]

/-- Nothing, or a text that begins with the first word of a clause. -/
def BeginsClause (w : List Char) : Prop :=
  w = [] ∨ ∃ letters ∈ clauseWords, ∀ s, Leads [letters] (w ++ s)

theorem beginsClause_nil : BeginsClause [] :=
  Or.inl rfl

theorem beginsClause_of_keyword (hletters : letters ∈ clauseWords) (hgap : gap ∈ blanks)
    (hkey : key ∈ keyword letters) : BeginsClause (gap ++ (key ++ v)) :=
  Or.inr ⟨letters, hletters, fun s => ⟨gap, hgap, key, hkey, v ++ s, by simp, trivial⟩⟩

theorem BeginsClause.append (hv : BeginsClause v) (hw : BeginsClause w) :
    BeginsClause (v ++ w) := by
  obtain rfl | ⟨letters, hletters, hleads⟩ := hv
  · exact hw
  · exact Or.inr ⟨letters, hletters, fun s => by simpa using hleads (w ++ s)⟩

theorem beginsClause_of_mul {A : Language Char} (hletters : letters ∈ clauseWords)
    (hw : w ∈ blanks * (keyword letters * A)) : BeginsClause w := by
  obtain ⟨gap, hgap, _, h₁, rfl⟩ := Language.mem_mul.mp hw
  obtain ⟨key, hkey, v, -, rfl⟩ := Language.mem_mul.mp h₁
  exact beginsClause_of_keyword hletters hgap hkey

theorem beginsClause_of_optional {A : Language Char} (hletters : letters ∈ clauseWords)
    (hw : w ∈ 1 + blanks * (keyword letters * A)) : BeginsClause w := by
  obtain hw | hw := hw
  · exact Or.inl hw
  · exact beginsClause_of_mul hletters hw

theorem beginsClause_of_texts (hw : w ∈ clauseTexts) : BeginsClause w := by
  obtain ⟨head, hhead, _, h₁, rfl⟩ := Language.mem_mul.mp hw
  obtain ⟨target, htarget, _, h₂, rfl⟩ := Language.mem_mul.mp h₁
  obtain ⟨delete, hdelete, update, hupdate, rfl⟩ := Language.mem_mul.mp h₂
  have hbegins : BeginsClause head := by
    obtain (hhead | hhead) | hhead := hhead
    · exact Or.inl hhead
    · exact beginsClause_of_mul (show "NOT" ∈ clauseWords by decide) hhead
    · exact beginsClause_of_mul (show "DEFAULT" ∈ clauseWords by decide) hhead
  exact hbegins.append ((beginsClause_of_optional (by decide) htarget).append
    ((beginsClause_of_optional (by decide) hdelete).append
      (beginsClause_of_optional (by decide) hupdate)))

theorem BeginsClause.not_leads (h : BeginsClause w) (hrest : IsStop rest) (hplain : IsPlain letters)
    (hclash : ∀ other ∈ clauseWords, Clash [other] [letters]) : ¬ Leads [letters] (w ++ rest) := by
  obtain rfl | ⟨other, hother, hleads⟩ := h
  · exact not_leads_of_isStop hplain hrest
  · have hall : ∀ other ∈ clauseWords, IsPlain other := by decide
    exact not_leads_of_clash (hleads rest) (hclash other hother)
      (by simp [hplain, hall other hother])

/-- The type ends where the clauses begin. -/
theorem BeginsClause.stops (h : BeginsClause w) (hrest : IsStop rest)
    (hp : ∀ c, isBlank c = true → p c = false) (hcomma : p ',' = false) : Stops p (w ++ rest) := by
  obtain rfl | ⟨letters, -, hleads⟩ := h
  · obtain hspace | ⟨tail, rfl⟩ := hrest
    · intro c hc
      exact hp c (hspace c (List.mem_of_mem_head? hc))
    · exact stops_cons.mpr hcomma
  · exact stops_of_leads hp (hleads rest)

theorem BeginsClause.stops_word (h : BeginsClause w) (hrest : IsStop rest) :
    Stops isWord (w ++ rest) :=
  h.stops hrest (fun _ => isWord_of_isBlank) (isWord_of_isPunctuation (by decide))

theorem BeginsClause.head_ne_paren (h : BeginsClause w) (hrest : IsStop rest) :
    (w ++ rest).head? ≠ some '(' := by
  intro hhead
  have hstops : Stops (· == '(') (w ++ rest) := by
    refine h.stops hrest (fun c hc => ?_) (by decide)
    rw [beq_eq_false_iff_ne]
    rintro rfl
    exact absurd hc (by decide)
  simpa using hstops '(' hhead

end SchemaChange.Column
