import SchemaChange.Text.Reader

/-!
# Where a search finds its values

A search runs a reader along a text. For a reader that is known by the texts it takes, this module
says at which places the search finds a value, what it finds in two texts after each other, and
which texts it passes over.
-/

namespace SchemaChange.Text

/-- A value with the place where it was found: from `start` up to and without `stop`. -/
structure Span (α : Type) where
  start : Nat
  stop : Nat
  value : α
  deriving Repr

variable {α : Type}

/-- Spans from `first` on, one behind the other. Each starts at the first place where a text that
counts as a beginning begins, and covers a text that gives its value; none begins behind them. -/
inductive Leftmost (begins : List Char → Prop) (takes : α → List Char → Prop) (text : List Char) :
    Nat → List (Span α) → Prop where
  | done {first : Nat} (passes : ∀ p, first ≤ p → ¬ begins (text.drop p)) :
      Leftmost begins takes text first []
  | next {first : Nat} {span : Span α} {more : List (Span α)}
      (follows : first ≤ span.start)
      (passes : ∀ p, first ≤ p → p < span.start → ¬ begins (text.drop p))
      (starts : begins (text.drop span.start))
      (advances : span.start < span.stop)
      (within : span.stop ≤ text.length)
      (covers : takes span.value (text.extract span.start span.stop))
      (others : Leftmost begins takes text span.stop more) :
      Leftmost begins takes text first (span :: more)

/-- A place where nothing begins may be left out of a search. -/
theorem Leftmost.of_succ {begins : List Char → Prop} {takes : α → List Char → Prop}
    {text : List Char} {first : Nat} {spans : List (Span α)}
    (h : Leftmost begins takes text (first + 1) spans) (hfirst : ¬ begins (text.drop first)) :
    Leftmost begins takes text first spans := by
  have hpasses {p : Nat} (hle : first ≤ p) (h : first + 1 ≤ p → ¬ begins (text.drop p)) :
      ¬ begins (text.drop p) := by
    obtain rfl | hlt := Nat.eq_or_lt_of_le hle
    · exact hfirst
    · exact h hlt
  cases h with
  | done passes => exact .done fun p hp => hpasses hp (passes p)
  | next follows passes starts advances within covers others =>
    exact .next (by omega) (fun p hp hlt => hpasses hp fun hle => passes p hle hlt) starts advances
      within covers others

theorem Leftmost.imp {begins begins' : List Char → Prop} {takes takes' : α → List Char → Prop}
    {text : List Char} {first : Nat} {spans : List (Span α)}
    (h : Leftmost begins takes text first spans) (hbegins : ∀ s, begins s ↔ begins' s)
    (htakes : ∀ a w, takes a w → takes' a w) : Leftmost begins' takes' text first spans := by
  induction h with
  | done passes => exact .done fun p hp => mt (hbegins _).mpr (passes p hp)
  | next follows passes starts advances within covers _ ih =>
    exact .next follows (fun p hp hlt => mt (hbegins _).mpr (passes p hp hlt))
      ((hbegins _).mp starts) advances within (htakes _ _ covers) ih

theorem Leftmost.takes_of_mem {begins : List Char → Prop} {takes : α → List Char → Prop}
    {text : List Char} {first : Nat} {spans : List (Span α)} {span : Span α}
    (h : Leftmost begins takes text first spans) (hmem : span ∈ spans) :
    takes span.value (text.extract span.start span.stop) := by
  induction h with
  | done => cases hmem
  | next _ _ _ _ _ covers _ ih =>
    cases hmem with
    | head => exact covers
    | tail _ hmem => exact ih hmem

/-- Places where the reader finds nothing are passed over. -/
theorem occurrences_drop_eq {read : Reader α} {text : List Char} {first stop : Nat}
    (hle : first ≤ stop)
    (hnone : ∀ p, first ≤ p → p < stop → read (text.drop p) = none) :
    occurrences read (text.drop first) = occurrences read (text.drop stop) := by
  induction hle with
  | refl => rfl
  | @step stop hle ih =>
    have hle : first ≤ stop := hle
    rw [ih fun p hfirst hp => hnone p hfirst (by omega)]
    have hstop := hnone stop hle (by omega)
    by_cases hlength : stop < text.length
    · rw [List.drop_eq_getElem_cons hlength] at hstop ⊢
      exact occurrences_of_none hstop
    · rw [List.drop_eq_nil_of_le (by omega), List.drop_eq_nil_of_le (by omega)]

/-- A text at no place of which the reader finds a value is passed over. -/
theorem occurrences_append_of_none {read : Reader α} {passed rest : List Char}
    (h : ∀ v, v ≠ [] → v <:+ passed → read (v ++ rest) = none) :
    occurrences read (passed ++ rest) = occurrences read rest := by
  induction passed with
  | nil => rfl
  | cons c passed ih =>
    have hnone : read (c :: (passed ++ rest)) = none :=
      h (c :: passed) (by simp) (List.suffix_refl _)
    rw [List.cons_append, occurrences_of_none hnone]
    exact ih fun v hne hv => h v hne (hv.trans (List.suffix_cons c passed))

theorem exists_read_of_mem_from {read : Reader α} {text : List Char} {a : α} {skip : Nat}
    (h : a ∈ occurrencesFrom read skip text) :
    ∃ v rest, v <:+ text ∧ read v = some (a, rest) := by
  induction text generalizing skip with
  | nil => simp [occurrencesFrom] at h
  | cons c text ih =>
    have hlater {skip : Nat} (h : a ∈ occurrencesFrom read skip text) :
        ∃ v rest, v <:+ c :: text ∧ read v = some (a, rest) := by
      obtain ⟨v, rest, hv, hread⟩ := ih h
      exact ⟨v, rest, hv.trans (List.suffix_cons c text), hread⟩
    cases skip with
    | succ skip => exact hlater h
    | zero =>
      simp only [occurrencesFrom] at h
      split at h
      · exact hlater h
      · rename_i b rest hread
        obtain rfl | h := List.mem_cons.mp h
        · exact ⟨c :: text, rest, List.suffix_refl _, hread⟩
        · exact hlater h

/-- What is found in a text is read at one of its places. -/
theorem exists_read_of_mem {read : Reader α} {text : List Char} {a : α}
    (h : a ∈ occurrences read text) : ∃ v rest, v <:+ text ∧ read v = some (a, rest) :=
  exists_read_of_mem_from h

/-- A reader finds exactly the values of the texts that a relation names, and no empty text. -/
structure Recognizes (read : Reader α) (takes : α → List Char → Prop) : Prop where
  read_eq_some_iff : ∀ {s a rest}, read s = some (a, rest) ↔ ∃ w, takes a w ∧ s = w ++ rest
  ne_nil : ∀ {a w}, takes a w → w ≠ []

namespace Recognizes

variable {read : Reader α} {takes : α → List Char → Prop} {text : List Char}

theorem read_nil (h : Recognizes read takes) : read [] = none := by
  cases hread : read [] with
  | none => rfl
  | some found =>
    obtain ⟨w, htakes, heq⟩ := h.read_eq_some_iff.mp hread
    exact absurd (List.append_eq_nil_iff.mp heq.symm).1 (h.ne_nil htakes)

theorem occurrences_append_of_takes (h : Recognizes read takes) {a : α} {w rest : List Char}
    (htakes : takes a w) : occurrences read (w ++ rest) = a :: occurrences read rest := by
  obtain ⟨c, w, rfl⟩ := List.exists_cons_of_ne_nil (h.ne_nil htakes)
  exact occurrences_of_some (h.read_eq_some_iff.mpr ⟨_, htakes, rfl⟩) (List.suffix_append w rest)

/-- What a reader does at the front of a text, and at the front of a longer one: it finds nothing in
either, or a text that ends in the first, or one that goes on behind it. -/
theorem read_append_cases (h : Recognizes read takes) (front rest : List Char) :
    (read front = none ∧ read (front ++ rest) = none) ∨
      (∃ a w left, takes a w ∧ front = w ++ left) ∨
      ∃ a tail later, takes a (front ++ tail) ∧ tail ≠ [] ∧ rest = tail ++ later := by
  cases hread : read (front ++ rest) with
  | none =>
    refine Or.inl ⟨?_, rfl⟩
    rw [Option.eq_none_iff_forall_ne_some]
    rintro ⟨a, left⟩ hsome
    obtain ⟨w, htakes, rfl⟩ := h.read_eq_some_iff.mp hsome
    rw [h.read_eq_some_iff.mpr ⟨w, htakes, List.append_assoc w left rest⟩] at hread
    cases hread
  | some found =>
    obtain ⟨w, htakes, heq⟩ := h.read_eq_some_iff.mp hread
    obtain ⟨tail, rfl, hlater⟩ | ⟨left, hleft, -⟩ := List.append_eq_append_iff.mp heq
    · by_cases htail : tail = []
      · exact Or.inr (Or.inl ⟨found.1, front ++ tail, [], htakes, by simp [htail]⟩)
      · exact Or.inr (Or.inr ⟨found.1, tail, found.2, htakes, htail, hlater⟩)
    · exact Or.inr (Or.inl ⟨found.1, w, left, htakes, hleft⟩)

/-- What is found in two texts after each other, if no text that begins in the first one and is
taken goes on in the second. -/
theorem occurrences_append (h : Recognizes read takes) {front rest : List Char}
    (hfront : ∀ a w v, takes a w → v ≠ [] → v <:+ front → w <+: v ++ rest → w <+: v) :
    occurrences read (front ++ rest) = occurrences read front ++ occurrences read rest := by
  induction hn : front.length using Nat.strongRecOn generalizing front with
  | ind n ih =>
    cases front with
    | nil => rfl
    | cons c front =>
      have hlater {v : List Char} (hv : v <:+ c :: front) (hlength : v.length < n) :
          occurrences read (v ++ rest) = occurrences read v ++ occurrences read rest :=
        ih v.length hlength (fun a w u htakes hne hu => hfront a w u htakes hne (hu.trans hv)) rfl
      obtain ⟨hfirst, hboth⟩ | ⟨a, w, left, htakes, heq⟩ | ⟨a, tail, later, htakes, htail, rfl⟩ :=
        h.read_append_cases (c :: front) rest
      · rw [List.cons_append] at hboth ⊢
        rw [occurrences_of_none hboth, occurrences_of_none hfirst]
        exact hlater (List.suffix_cons c front) (by simp [← hn])
      · have hw : 0 < w.length := List.length_pos_iff.mpr (h.ne_nil htakes)
        have hlength : left.length < n := by
          rw [← hn, heq, List.length_append]
          omega
        rw [heq, List.append_assoc, h.occurrences_append_of_takes htakes,
          h.occurrences_append_of_takes htakes, List.cons_append, hlater ⟨w, heq.symm⟩ hlength]
      · have hshort := hfront a _ (c :: front) htakes (by simp) (List.suffix_refl _)
          (by simp [← List.append_assoc])
        have hlength := hshort.length_le
        have hpos := List.length_pos_iff.mpr htail
        rw [List.length_append] at hlength
        omega

/-- The search finds the values of leftmost spans. -/
theorem map_value_of_leftmost (h : Recognizes read takes) {first : Nat} {spans : List (Span α)}
    (hspans : Leftmost (fun s => read s ≠ none) takes text first spans) :
    spans.map Span.value = occurrences read (text.drop first) := by
  induction hspans with
  | @done first passes =>
    rw [occurrences_drop_eq (Nat.le_max_left first text.length) fun p hp _ =>
      Classical.not_not.mp (passes p hp), List.drop_eq_nil_of_le (Nat.le_max_right _ _)]
    rfl
  | @next first span more follows passes _ advances within covers _ ih =>
    rw [occurrences_drop_eq follows fun p hfirst hp => Classical.not_not.mp (passes p hfirst hp)]
    have hsplit : text.drop span.start =
        text.extract span.start span.stop ++ text.drop span.stop := by
      have := (List.take_append_drop (span.stop - span.start) (text.drop span.start)).symm
      rwa [List.drop_drop, Nat.add_sub_cancel' (Nat.le_of_lt advances),
        ← List.extract_eq_take_drop] at this
    rw [hsplit, h.occurrences_append_of_takes covers, ← ih, List.map_cons]

/-- There are such spans in every text. -/
theorem exists_leftmost (h : Recognizes read takes) (text : List Char) (first : Nat) :
    ∃ spans, Leftmost (fun s => read s ≠ none) takes text first spans := by
  induction hn : text.length - first using Nat.strongRecOn generalizing first with
  | ind n ih =>
    by_cases hlength : first < text.length
    · cases hread : read (text.drop first) with
      | none =>
        obtain ⟨spans, hspans⟩ := ih (text.length - (first + 1)) (by omega) (first + 1) rfl
        exact ⟨spans, hspans.of_succ (by simpa using hread)⟩
      | some found =>
        obtain ⟨w, htakes, heq⟩ := h.read_eq_some_iff.mp hread
        have hw : 0 < w.length := List.length_pos_iff.mpr (h.ne_nil htakes)
        have hle : first + w.length ≤ text.length := by
          have := congrArg List.length heq
          rw [List.length_drop, List.length_append] at this
          omega
        obtain ⟨spans, hspans⟩ :=
          ih (text.length - (first + w.length)) (by omega) (first + w.length) rfl
        refine ⟨⟨first, first + w.length, found.1⟩ :: spans, .next (Nat.le_refl _) ?_ ?_ ?_ hle ?_
          hspans⟩
        · intro p hfirst hp
          exact absurd hp (Nat.not_lt.mpr hfirst)
        · simp [hread]
        · exact Nat.lt_add_of_pos_right hw
        · simpa [List.extract_eq_take_drop, heq] using htakes
    · refine ⟨[], .done ?_⟩
      intro p hp
      rw [List.drop_eq_nil_of_le (by omega), h.read_nil]
      simp

/-- What is found in a text is taken from a part of it. -/
theorem exists_takes_of_mem (h : Recognizes read takes) {a : α}
    (hmem : a ∈ occurrences read text) : ∃ w, takes a w ∧ w <:+: text := by
  obtain ⟨spans, hspans⟩ := h.exists_leftmost text 0
  have hvalues := h.map_value_of_leftmost hspans
  rw [List.drop_zero] at hvalues
  obtain ⟨span, hspan, rfl⟩ := List.mem_map.mp (hvalues ▸ hmem)
  refine ⟨_, hspans.takes_of_mem hspan, ?_⟩
  rw [List.extract_eq_take_drop]
  exact (List.take_prefix _ _).isInfix.trans (List.drop_suffix _ _).isInfix

theorem occurrences_eq_nil (h : Recognizes read takes)
    (hfree : ∀ a w, takes a w → ¬ w <:+: text) : occurrences read text = [] := by
  rw [List.eq_nil_iff_forall_not_mem]
  intro a hmem
  obtain ⟨w, htakes, hw⟩ := h.exists_takes_of_mem hmem
  exact hfree a w htakes hw

/-- At most one value is found where each text that is taken goes up to the end. -/
theorem length_occurrences_le_one (h : Recognizes read takes)
    (hends : ∀ a w, takes a w → ¬ w <:+: text.dropLast) : (occurrences read text).length ≤ 1 := by
  induction text with
  | nil => simp
  | cons c text ih =>
    obtain ⟨hnone, -⟩ | ⟨a, w, left, htakes, heq⟩ | ⟨a, tail, later, -, hne, heq⟩ :=
      h.read_append_cases (c :: text) []
    · rw [occurrences_of_none hnone]
      refine ih fun a w htakes hw => hends a w htakes ?_
      have htext : text ≠ [] := by
        rintro rfl
        exact h.ne_nil htakes (List.eq_nil_of_infix_nil hw)
      rw [List.dropLast_cons_of_ne_nil htext]
      exact List.infix_cons hw
    · by_cases hleft : left = []
      · rw [heq, h.occurrences_append_of_takes htakes, hleft]
        simp
      · exfalso
        apply hends a w htakes
        rw [heq, List.dropLast_append_of_ne_nil hleft]
        exact (List.prefix_append w _).isInfix
    · exact absurd (List.append_eq_nil_iff.mp heq.symm).1 hne

/-- What is found in a text is found first in every longer text, if no text that is taken holds
another one before its end. -/
theorem occurrences_prefix_append (h : Recognizes read takes)
    (hinner : ∀ a b v w, takes a v → takes b w → ¬ v <:+: w.dropLast) (front rest : List Char) :
    occurrences read front <+: occurrences read (front ++ rest) := by
  induction hn : front.length using Nat.strongRecOn generalizing front with
  | ind n ih =>
    cases front with
    | nil => exact List.nil_prefix
    | cons c front =>
      obtain ⟨hfirst, hboth⟩ | ⟨a, w, left, htakes, heq⟩ | ⟨a, tail, later, htakes, hne, rfl⟩ :=
        h.read_append_cases (c :: front) rest
      · rw [List.cons_append] at hboth ⊢
        rw [occurrences_of_none hfirst, occurrences_of_none hboth]
        exact ih front.length (by simp [← hn]) front rfl
      · have hw : 0 < w.length := List.length_pos_iff.mpr (h.ne_nil htakes)
        have hlength : left.length < n := by
          rw [← hn, heq, List.length_append]
          omega
        rw [heq, List.append_assoc, h.occurrences_append_of_takes htakes,
          h.occurrences_append_of_takes htakes, List.cons_prefix_cons]
        exact ⟨rfl, ih left.length hlength left rfl⟩
      · -- Whatever is found in the front lies inside the text that goes on behind it.
        have hnil : occurrences read (c :: front) = [] := by
          refine h.occurrences_eq_nil fun b v hb hv => hinner b a v _ hb htakes ?_
          rw [List.dropLast_append_of_ne_nil hne]
          exact List.infix_append_of_infix_left hv
        rw [hnil]
        exact List.nil_prefix

/-- What is found behind a text that holds nothing to find: the same as without it, or first a text
that begins in it, at the first place where one does. -/
theorem occurrences_append_of_free (h : Recognizes read takes) {front : List Char}
    (rest : List Char) (hfree : ∀ a w, takes a w → ¬ w <:+: front) :
    ((∀ a v w, takes a (v ++ w) → v ≠ [] → v <:+ front → ¬ w <+: rest) ∧
        occurrences read (front ++ rest) = occurrences read rest) ∨
      ∃ a v tail later, takes a (v ++ tail) ∧ v ≠ [] ∧ v <:+ front ∧ rest = tail ++ later ∧
        (∀ b u w, takes b (u ++ w) → u <:+ front → v.length < u.length → ¬ w <+: rest) ∧
        occurrences read (front ++ rest) = a :: occurrences read later := by
  induction front with
  | nil => exact Or.inl ⟨fun _ v _ _ hne hv => absurd (List.suffix_nil.mp hv) hne, rfl⟩
  | cons c front ih =>
    obtain ⟨-, hboth⟩ | ⟨a, w, left, htakes, heq⟩ | ⟨a, tail, later, htakes, -, rfl⟩ :=
      h.read_append_cases (c :: front) rest
    · have hhere {a : α} {w : List Char} (htakes : takes a (c :: front ++ w)) : ¬ w <+: rest := by
        rintro ⟨later, rfl⟩
        have hread := h.read_eq_some_iff.mpr ⟨_, htakes, (List.append_assoc _ w later).symm⟩
        rw [hboth] at hread
        cases hread
      rw [List.cons_append] at hboth ⊢
      rw [occurrences_of_none hboth]
      obtain ⟨hnone, hsame⟩ | ⟨a, v, tail, later, htakes, hne, hv, hrest, hfirst, hfound⟩ :=
        ih fun a w htakes hw => hfree a w htakes (List.infix_cons hw)
      · refine Or.inl ⟨fun a v w htakes hne hv => ?_, hsame⟩
        obtain rfl | hv := List.suffix_cons_iff.mp hv
        · exact hhere htakes
        · exact hnone a v w htakes hne hv
      · refine Or.inr ⟨a, v, tail, later, htakes, hne, hv.trans (List.suffix_cons c front), hrest,
          fun b u w htakes hu hlonger => ?_, hfound⟩
        obtain rfl | hu := List.suffix_cons_iff.mp hu
        · exact hhere htakes
        · exact hfirst b u w htakes hu hlonger
    · exact absurd (heq ▸ (List.prefix_append w left).isInfix) (hfree a w htakes)
    · refine Or.inr ⟨a, c :: front, tail, later, htakes, by simp, List.suffix_refl _, rfl, ?_, ?_⟩
      · intro b u w _ hu hlonger
        exact absurd hu.length_le (Nat.not_le.mpr hlonger)
      · rw [← List.append_assoc, h.occurrences_append_of_takes htakes]

theorem takes_unique (h : Recognizes read takes) {a b : α} {v w s : List Char} (ha : takes a v)
    (hb : takes b w) (hv : v <+: s) (hw : w <+: s) : a = b ∧ v = w := by
  obtain ⟨rest, rfl⟩ := hv
  obtain ⟨rest', heq⟩ := hw
  have hread : read (v ++ rest) = some (a, rest) := h.read_eq_some_iff.mpr ⟨v, ha, rfl⟩
  rw [h.read_eq_some_iff.mpr ⟨w, hb, heq.symm⟩, Option.some.injEq, Prod.mk.injEq] at hread
  obtain ⟨rfl, rfl⟩ := hread
  exact ⟨rfl, (List.append_cancel_right heq).symm⟩

/-- There is one way to lay leftmost spans over a text. -/
theorem leftmost_unique (h : Recognizes read takes) {first : Nat} {spans others : List (Span α)}
    (hspans : Leftmost (fun s => read s ≠ none) takes text first spans)
    (hothers : Leftmost (fun s => read s ≠ none) takes text first others) : spans = others := by
  induction hspans generalizing others with
  | done passes =>
    cases hothers with
    | done => rfl
    | next follows _ starts => exact absurd starts (passes _ follows)
  | @next first span more follows passes starts advances within covers _ ih =>
    cases hothers with
    | done passes' => exact absurd starts (passes' _ follows)
    | @next _ span' more' follows' passes' starts' advances' within' covers' others' =>
      have hstart : span.start = span'.start := by
        obtain hlt | heq | hgt := Nat.lt_trichotomy span.start span'.start
        · exact absurd starts (passes' _ follows hlt)
        · exact heq
        · exact absurd starts' (passes _ follows' hgt)
      have hread (stop : Nat) : text.extract span.start stop <+: text.drop span.start :=
        List.extract_eq_take_drop .. ▸ List.take_prefix _ _
      rw [← hstart] at covers' advances'
      obtain ⟨hvalue, htext⟩ := h.takes_unique covers covers' (hread _) (hread _)
      have hstop : span.stop = span'.stop := by
        have := congrArg List.length htext
        simp only [List.extract_eq_take_drop, List.length_take, List.length_drop] at this
        omega
      have hspan : span = span' := by
        cases span
        cases span'
        simp_all
      subst hspan
      rw [ih others']

end Recognizes

end SchemaChange.Text
