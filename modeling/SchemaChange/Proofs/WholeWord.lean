import SchemaChange.Proofs.ColumnVariation
import SchemaChange.Proofs.Diversion
import SchemaChange.Proofs.Search

/-!
# Columns by whole words

A column might be read from the midst of a word. But then it can be read from the front of the word,
to which the search comes first, and the search goes on behind commas only. So the name of a column
is always a whole word of the body.
-/

namespace SchemaChange.Column

open SchemaChange.Text
open Form (blanks)

variable {α : Type} {a : α} {c : Char} {p : Char → Bool} {before rest s t w : List Char}
  {column : Column}

/-! ## What the parts of a column take -/

section

variable {next : Tail α}

theorem longest_eq_some (h : longest p next s = some a) :
    ∃ w t, s = w ++ t ∧ (∀ c ∈ w, p c = true) ∧ next t = some a := by
  induction s with
  | nil => exact ⟨[], [], rfl, by simp, h⟩
  | cons c s ih =>
    have hhere (hnext : next (c :: s) = some a) :
        ∃ w t, c :: s = w ++ t ∧ (∀ c ∈ w, p c = true) ∧ next t = some a :=
      ⟨[], c :: s, rfl, by simp, hnext⟩
    rw [longest] at h
    split at h
    · rename_i hc
      obtain hlong | ⟨-, hnext⟩ := (Option.orElse_eq_some _ _ _).mp h
      · obtain ⟨w, t, rfl, hw, hnext⟩ := ih hlong
        exact ⟨c :: w, t, rfl, List.forall_mem_cons.mpr ⟨hc, hw⟩, hnext⟩
      · exact hhere hnext
    · exact hhere h

theorem longest1_eq_some (h : longest1 p next s = some a) :
    ∃ w t, s = w ++ t ∧ w ≠ [] ∧ (∀ c ∈ w, p c = true) ∧ next t = some a := by
  cases s with
  | nil => cases h
  | cons c s =>
    rw [longest1] at h
    split at h
    · rename_i hc
      obtain ⟨w, t, rfl, hw, hnext⟩ := longest_eq_some h
      exact ⟨c :: w, t, rfl, by simp, List.forall_mem_cons.mpr ⟨hc, hw⟩, hnext⟩
    · cases h

theorem afterParameters_eq_some (h : afterParameters s = some t) :
    ∃ parameters, ')' ∉ parameters ∧ s = '(' :: (parameters ++ ')' :: t) := by
  rw [afterParameters_eq, Option.bind_eq_some_iff] at h
  obtain ⟨inner, hopen, hclose⟩ := h
  rw [afterChar_eq_some_iff] at hopen hclose
  refine ⟨inner.takeWhile (· != ')'), ?_, ?_⟩
  · intro hmem
    simpa using mem_takeWhile _ hmem
  · rw [hopen, ← hclose, List.takeWhile_append_dropWhile]

/-- A type is taken as it stands, with its parameters or without. -/
theorem typeThen_eq_some (h : typeThen next s = some a) :
    ∃ type ∈ typeToken, ∃ t, s = type ++ t ∧ next t = some a := by
  obtain ⟨head, t, rfl, hne, hhead, hrest⟩ := longest1_eq_some h
  obtain hlonger | ⟨-, hnext⟩ := (Option.orElse_eq_some _ _ _).mp hrest
  · obtain ⟨u, hafter, hnext⟩ := Option.bind_eq_some_iff.mp hlonger
    obtain ⟨parameters, hparameters, rfl⟩ := afterParameters_eq_some hafter
    refine ⟨head ++ '(' :: (parameters ++ [')']), ?_, u, by simp, hnext⟩
    exact Or.inr ⟨head, ⟨hne, hhead⟩, parameters, hparameters, rfl⟩
  · exact ⟨head, Or.inl ⟨hne, hhead⟩, t, rfl, hnext⟩

end

/-! ## Where the clauses end -/

section

variable {part next other : Tail (List Char)}

/-- What the part leaves is left by the next one, further on in the text. -/
def HandsOn (part next : Tail (List Char)) : Prop :=
  ∀ s rest, part s = some rest → ∃ t, t <:+ s ∧ next t = some rest

theorem handsOn_refl (next : Tail (List Char)) : HandsOn next next :=
  fun s _ h => ⟨s, List.suffix_refl s, h⟩

theorem HandsOn.trans (h : HandsOn part next) (h' : HandsOn next other) : HandsOn part other := by
  intro s rest hpart
  obtain ⟨t, ht, hnext⟩ := h s rest hpart
  obtain ⟨u, hu, hother⟩ := h' t rest hnext
  exact ⟨u, hu.trans ht, hother⟩

theorem handsOn_orElse (h : HandsOn part other) (h' : HandsOn next other) :
    HandsOn (fun s => part s <|> next s) other := by
  intro s rest hsome
  obtain hpart | ⟨-, hnext⟩ := (Option.orElse_eq_some _ _ _).mp hsome
  · exact h s rest hpart
  · exact h' s rest hnext

theorem handsOn_longest (p : Char → Bool) (next : Tail (List Char)) :
    HandsOn (longest p next) next := by
  intro s rest h
  obtain ⟨w, t, rfl, -, hnext⟩ := longest_eq_some h
  exact ⟨t, List.suffix_append w t, hnext⟩

theorem handsOn_longest1 (p : Char → Bool) (next : Tail (List Char)) :
    HandsOn (longest1 p next) next := by
  intro s rest h
  obtain ⟨w, t, rfl, -, -, hnext⟩ := longest1_eq_some h
  exact ⟨t, List.suffix_append w t, hnext⟩

theorem handsOn_afterBlanks (next : Tail (List Char)) :
    HandsOn (fun s => (afterBlanks s).bind next) next := by
  intro s rest h
  obtain ⟨t, hafter, hnext⟩ := Option.bind_eq_some_iff.mp h
  obtain ⟨⟨gap, -, rfl⟩, -⟩ := afterBlanks_eq_some_iff.mp hafter
  exact ⟨t, List.suffix_append gap t, hnext⟩

theorem handsOn_afterKeyword (letters : String) (next : Tail (List Char)) :
    HandsOn (fun s => (afterKeyword letters.toList s).bind next) next := by
  intro s rest h
  obtain ⟨t, hafter, hnext⟩ := Option.bind_eq_some_iff.mp h
  obtain ⟨key, -, rfl⟩ := afterKeyword_eq_some_iff.mp hafter
  exact ⟨t, List.suffix_append key t, hnext⟩

theorem handsOn_blanksThen (letters : String) (next : Tail (List Char)) :
    HandsOn (blanksThen letters next) next :=
  (handsOn_afterBlanks _).trans (handsOn_afterKeyword letters next)

theorem handsOn_optional {clause : Tail (List Char) → Tail (List Char)}
    (h : HandsOn (clause next) next) : HandsOn (optional clause next) next :=
  handsOn_orElse h (handsOn_refl next)

theorem handsOn_notNull (next : Tail (List Char)) : HandsOn (notNull next) next :=
  (handsOn_afterKeyword "NOT" _).trans (handsOn_blanksThen "NULL" next)

theorem handsOn_defaultValue (next : Tail (List Char)) : HandsOn (defaultValue next) next :=
  (handsOn_afterKeyword "DEFAULT" _).trans (handsOn_longest _ next)

theorem handsOn_references (next : Tail (List Char)) : HandsOn (references next) next :=
  (handsOn_blanksThen "REFERENCES" _).trans
    ((handsOn_afterBlanks _).trans (handsOn_longest1 _ next))

theorem handsOn_onEvent (event : String) (next : Tail (List Char)) :
    HandsOn (onEvent event next) next :=
  (handsOn_blanksThen "ON" _).trans ((handsOn_blanksThen event _).trans
    ((handsOn_afterBlanks _).trans (handsOn_longest1 isWord next)))

theorem handsOn_tail : HandsOn clauses.tail ending :=
  (handsOn_optional (handsOn_references _)).trans
    ((handsOn_optional (handsOn_onEvent "DELETE" _)).trans
      (handsOn_optional (handsOn_onEvent "UPDATE" _)))

theorem handsOn_option : HandsOn option clauses.tail :=
  handsOn_orElse (handsOn_orElse (handsOn_notNull _) (handsOn_defaultValue _)) (handsOn_refl _)

theorem handsOn_clauses : HandsOn clauses ending :=
  (handsOn_longest isBlank option).trans (handsOn_option.trans handsOn_tail)

end

/-- The clauses go up to a comma or to the end of the text. -/
theorem ends_of_clauses (h : clauses s = some rest) :
    ∃ tail, s = tail ++ rest ∧ (rest = [] ∨ ∃ front, tail = front ++ [',']) := by
  obtain ⟨t, ⟨front, rfl⟩, hending⟩ := handsOn_clauses s rest h
  obtain hspace | ⟨tail, rfl⟩ := isStop_of_ending hending
  · rw [ending_of_space hspace] at hending
    obtain rfl := Option.some.inj hending
    exact ⟨front ++ t, by simp, Or.inl rfl⟩
  · obtain rfl : tail = rest := Option.some.inj hending
    exact ⟨front ++ [','], by simp, Or.inr ⟨front, rfl⟩⟩

/-! ## Reading one column -/

/-- The text of a column in front of the rest: a name, blanks, a type as it stands, and a tail that
goes up to a comma or to the end. -/
inductive Covers : Column → List Char → List Char → Prop where
  | column {name gap type tail rest : List Char} (named : name ∈ Form.word) (spaced : gap ∈ blanks)
      (typed : type ∈ typeToken) (ends : rest = [] ∨ ∃ front, tail = front ++ [',']) :
      Covers ⟨String.ofList name, String.ofList type⟩ (name ++ (gap ++ (type ++ tail))) rest

theorem Covers.ne_nil (h : Covers column w rest) : w ≠ [] := by
  cases h with
  | column named => simp [named.1]

theorem exists_covers_of_read (h : read s = some (column, rest)) :
    ∃ w, s = w ++ rest ∧ Covers column w rest := by
  simp only [read, Option.bind_eq_bind, Option.bind_eq_some_iff] at h
  obtain ⟨⟨_, t⟩, hword, u, hafter, ⟨behind, left⟩, htype, hcolumn⟩ := h
  obtain ⟨⟨name, hname, rfl, rfl⟩, -⟩ := word_eq_some_iff.mp hword
  obtain ⟨⟨gap, hgap, rfl⟩, -⟩ := afterBlanks_eq_some_iff.mp hafter
  obtain ⟨type, htoken, v, rfl, hbehind⟩ := typeThen_eq_some htype
  obtain ⟨_, hclauses, hsame⟩ := Option.map_eq_some_iff.mp hbehind
  obtain ⟨rfl, rfl⟩ := Prod.mk.inj hsame
  obtain ⟨tail, rfl, hends⟩ := ends_of_clauses hclauses
  obtain ⟨rfl, rfl⟩ := Prod.mk.inj (Option.some.inj hcolumn)
  refine ⟨name ++ (gap ++ (type ++ tail)), by simp, ?_⟩
  simpa using Covers.column hname hgap htoken hends

theorem read_nil : read [] = none := rfl

/-- What can be read from the midst of a word can be read from a character before. -/
theorem read_word_cons (hc : isWord c = true) (h : read s ≠ none) : read (c :: s) ≠ none := by
  obtain ⟨found, hsome⟩ := Option.ne_none_iff_exists'.mp h
  simp only [read, Option.bind_eq_bind, Option.bind_eq_some_iff] at hsome
  obtain ⟨⟨_, t⟩, hword, u, hafter, ⟨behind, left⟩, htype, -⟩ := hsome
  obtain ⟨⟨name, hname, -, rfl⟩, hstops⟩ := word_eq_some_iff.mp hword
  have hlonger : c :: name ∈ Form.word :=
    ⟨by simp, List.forall_mem_cons.mpr ⟨hc, hname.2⟩⟩
  have hword := word_append hlonger hstops
  rw [List.cons_append] at hword
  simp [read, hword, hafter, htype]

/-! ## Searching a body -/

/-- What is read here begins with a whole word: the text before does not end in a part of it. -/
def Fresh (before s : List Char) : Prop :=
  read s ≠ none → Stops isWord before.reverse

theorem fresh_nil (s : List Char) : Fresh [] s :=
  fun _ => stops_nil

/-- Where nothing is read, the search moves on by a character. -/
theorem Fresh.of_none (h : read (c :: s) = none) : Fresh (before ++ [c]) s := by
  intro hread
  rw [List.reverse_append, List.reverse_singleton, List.singleton_append, stops_cons]
  by_cases hc : isWord c = true
  · exact absurd h (read_word_cons hc hread)
  · simpa using hc

/-- Where a column is read, the search goes on behind a comma, or there is nothing left. -/
theorem fresh_of_covers (h : Covers column w rest) : Fresh (before ++ w) rest := by
  cases h with
  | @column name gap type tail _ named spaced typed ends =>
    intro hread
    obtain rfl | ⟨front, rfl⟩ := ends
    · exact absurd read_nil hread
    · have hcomma : before ++ (name ++ (gap ++ (type ++ (front ++ [','])))) =
          before ++ (name ++ (gap ++ (type ++ front))) ++ [','] := by
        simp
      rw [hcomma, List.reverse_append, List.reverse_singleton, List.singleton_append, stops_cons]
      exact isWord_of_isPunctuation (by decide)

/-- A column that lies in a body, from the front of a whole word on. -/
inductive Lies (body : List Char) : Span Column → Prop where
  | found {before w rest : List Char} {column : Column} (splits : body = before ++ (w ++ rest))
      (whole : Stops isWord before.reverse) (covers : Covers column w rest) :
      Lies body ⟨before.length, (before ++ w).length, column⟩

theorem Lies.bounds {body : List Char} {span : Span Column} (h : Lies body span) :
    span.start < span.stop ∧ span.stop ≤ body.length := by
  cases h with
  | found splits whole covers =>
    have hpos := List.length_pos_iff.mpr covers.ne_nil
    rw [splits]
    simp only [List.length_append]
    omega

/-- A name stands at a place of a text and is a word there of which no more can be taken. -/
structure IsWholeWord (text : List Char) (start : Nat) (name : String) : Prop where
  word : name.toList ∈ Form.word
  spelled : text.extract start (start + name.length) = name.toList
  front : Stops isWord (text.take start).reverse
  back : Stops isWord (text.drop (start + name.length))

theorem Lies.isWholeWord {body : List Char} {span : Span Column} (h : Lies body span) :
    IsWholeWord body span.start span.value.name := by
  cases h with
  | @found before _ rest _ splits whole covers =>
    cases covers with
    | @column name gap type tail _ named spaced typed ends =>
      have hsplit : body = before ++ (name ++ (gap ++ (type ++ (tail ++ rest)))) := by
        simpa using splits
      have hback : body.drop (before.length + name.length) = gap ++ (type ++ (tail ++ rest)) := by
        rw [hsplit, ← List.append_assoc, ← List.length_append, List.drop_left]
      refine ⟨?_, ?_, ?_, ?_⟩
      · rw [String.toList_ofList]
        exact named
      · simp [hsplit, List.extract_eq_take_drop]
      · rw [hsplit, List.take_left]
        exact whole
      · rw [String.length_ofList, hback]
        exact Form.stops_word_of_blanks spaced

/-- The columns of a text lie one behind the other. -/
theorem exists_spans (hfresh : Fresh before s) :
    ∃ spans : List (Span Column), occurrences read s = spans.map Span.value ∧
      spans.Pairwise (fun a b => a.stop ≤ b.start) ∧
      ∀ span ∈ spans, before.length ≤ span.start ∧ Lies (before ++ s) span := by
  induction hn : s.length using Nat.strongRecOn generalizing before s with
  | ind n ih =>
    cases s with
    | nil => exact ⟨[], rfl, .nil, by simp⟩
    | cons c s =>
      cases hread : read (c :: s) with
      | none =>
        have hlength : s.length < n := by
          rw [← hn, List.length_cons]
          omega
        obtain ⟨spans, hvalues, hapart, hlies⟩ := ih s.length hlength (Fresh.of_none hread) rfl
        refine ⟨spans, by rw [occurrences_of_none hread, hvalues], hapart, ?_⟩
        intro span hspan
        obtain ⟨hstart, hlie⟩ := hlies span hspan
        rw [List.length_append] at hstart
        rw [List.append_assoc] at hlie
        exact ⟨by omega, hlie⟩
      | some found =>
        obtain ⟨column, rest⟩ := found
        obtain ⟨w, heq, hcovers⟩ := exists_covers_of_read hread
        have hpos := List.length_pos_iff.mpr hcovers.ne_nil
        have hlength : rest.length < n := by
          rw [← hn, heq, List.length_append]
          omega
        have hlater : Fresh (before ++ w) rest := fresh_of_covers hcovers
        obtain ⟨spans, hvalues, hapart, hlies⟩ := ih rest.length hlength hlater rfl
        have hrest : rest <:+ s := by
          obtain ⟨d, w, rfl⟩ := List.exists_cons_of_ne_nil hcovers.ne_nil
          obtain ⟨-, rfl⟩ := List.cons.inj heq
          exact List.suffix_append w rest
        have hwhole : Stops isWord before.reverse := hfresh (by simp [hread])
        have hlie : Lies (before ++ (c :: s)) ⟨before.length, (before ++ w).length, column⟩ :=
          .found (by rw [heq]) hwhole hcovers
        refine ⟨⟨before.length, (before ++ w).length, column⟩ :: spans, ?_, ?_, ?_⟩
        · rw [occurrences_of_some hread hrest, hvalues, List.map_cons]
        · refine List.pairwise_cons.mpr ⟨?_, hapart⟩
          intro span hspan
          exact (hlies span hspan).1
        · rw [List.forall_mem_cons]
          refine ⟨⟨Nat.le_refl _, hlie⟩, ?_⟩
          intro span hspan
          obtain ⟨hstart, hlie⟩ := hlies span hspan
          rw [List.length_append] at hstart
          rw [List.append_assoc, ← heq] at hlie
          exact ⟨by omega, hlie⟩

/-- The columns of a body come from spans of it, one behind the other. Each span begins with the name
of the column, which is a whole word of the body and none that begins a constraint. Behind it stand
blanks, the type as it was written, and what follows up to a comma or to the end of the body. -/
theorem ofBody_from_whole_words (body : List Char) :
    ∃ spans : List (Span Column), ofBody body = spans.map Span.value ∧
      spans.Pairwise (fun a b => a.stop ≤ b.start) ∧
      ∀ span ∈ spans, span.start < span.stop ∧ span.stop ≤ body.length ∧ Lies body span ∧
        IsWholeWord body span.start span.value.name ∧
        ¬ NamesConstraint span.value.name := by
  obtain ⟨spans, hvalues, hapart, hlies⟩ := exists_spans (fresh_nil body)
  refine ⟨spans.filter fun span => !isConstraint span.value, ?_, hapart.filter _, ?_⟩
  · rw [ofBody, hvalues, List.filter_map]
    rfl
  · intro span hspan
    obtain ⟨hmem, hplain⟩ := List.mem_filter.mp hspan
    obtain ⟨-, hlie⟩ := hlies span hmem
    obtain ⟨hadvances, hwithin⟩ := hlie.bounds
    have hnone : ¬ NamesConstraint span.value.name := by
      rw [← isConstraint_iff]
      simpa using hplain
    exact ⟨hadvances, hwithin, hlie, hlie.isWholeWord, hnone⟩

/-- Where no column is read from a word on, none is read from its midst either. -/
example : ofBody "id (2), full_name TEXT, PRIMARY KEY".toList = [⟨"full_name", "TEXT"⟩] := by
  decide +kernel

end SchemaChange.Column
