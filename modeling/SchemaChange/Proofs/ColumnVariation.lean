import SchemaChange.Proofs.Variation

/-!
# Columns in texts that are alike

The reader of a column gives text back where what follows does not fit. In two texts that are alike
it gives back alike, so the columns of a table definition and of a variant of it correspond.
-/

namespace SchemaChange.Column

open SchemaChange.Text

variable {v : Variation} {p : Char → Bool} {c d : Char} {s t : List Char}

/-- Columns of the same name, up to the case of letters, and with types that are alike. -/
structure Alike (v : Variation) (a b : Column) : Prop where
  name : eqIgnoringAsciiCase a.name b.name = true
  typeText : Text.Alike v a.typeText.toList b.typeText.toList

/-- Finds something in both of two texts that are alike, or in neither, and leaves rests that are
alike. -/
def Leaves (v : Variation) (next : Tail (List Char)) : Prop :=
  ∀ s t, Text.Alike v s t → Option.Rel (Rests v s t) (next s) (next t)

section

variable {next other : Tail (List Char)}

theorem leaves_orElse (h : Leaves v next) (h' : Leaves v other) :
    Leaves v fun s => next s <|> other s := fun s t hst =>
  rel_orElse (h s t hst) (h' s t hst)

theorem leaves_bind {first : List Char → Option (List Char)}
    (hfirst : ∀ {s t}, Text.Alike v s t → Option.Rel (Cut v s t) (first s) (first t))
    (h : Leaves v next) : Leaves v fun s => (first s).bind next := fun _ _ hst =>
  rel_bind (hfirst hst) fun s' t' hcut => rel_imp (h s' t' hcut.rest) fun _ _ => hcut.rests.trans

theorem leaves_longest (hp : Uniform p) (h : Leaves v next) : Leaves v (longest p next) := by
  intro s t hst
  induction hst with
  | nil => exact h _ _ .nil
  | char hlike rest ih =>
    have hhere := h _ _ (.char hlike rest)
    rw [longest, longest, hp.like hlike]
    split
    · exact rel_orElse (rel_imp ih fun _ _ => Rests.cons) hhere
    · exact hhere
  | @line s t hreturns rest ih =>
    have hhere := h _ _ (.line hreturns rest)
    simp only [longest, hp.lines]
    split
    · -- In the variant the next part may also begin behind the return.
      have hbehind := h _ _ (.char (v.refl '\n') rest)
      refine rel_orElse_again (rel_imp ih fun _ _ hrests => ?_) (rel_imp hbehind fun _ _ hrests => ?_)
        hhere
      · exact hrests.cons.mono (List.suffix_refl _) (List.suffix_cons _ _)
      · exact hrests.mono (List.suffix_refl _) (List.suffix_cons _ _)
    · exact hhere

/-- A class that has to be met must not go over line ends: behind a return, a line end is still to
come that could meet it. -/
theorem leaves_longest1 (hp : Uniform p) (hline : p '\n' = false) (h : Leaves v next) :
    Leaves v (longest1 p next) := by
  intro s t hst
  cases hst with
  | nil => exact .none
  | char hlike rest =>
    rw [longest1, longest1, hp.like hlike]
    split
    · exact rel_imp (leaves_longest hp h _ _ rest) fun _ _ => Rests.cons
    · exact .none
  | line =>
    rw [longest1, longest1, hp.lines, hline]
    exact .none

theorem leaves_blanksThen {keyword : String} (hplain : Form.IsPlain keyword) (h : Leaves v next) :
    Leaves v (blanksThen keyword next) :=
  leaves_bind afterBlanks_alike (leaves_bind (afterKeyword_alike hplain) h)

theorem leaves_optional {clause : Tail (List Char) → Tail (List Char)}
    (hclause : Leaves v (clause next)) (h : Leaves v next) : Leaves v (optional clause next) :=
  leaves_orElse hclause h

theorem leaves_notNull (h : Leaves v next) : Leaves v (notNull next) :=
  leaves_bind (afterKeyword_alike (by decide)) (leaves_blanksThen (by decide) h)

theorem leaves_defaultValue (h : Leaves v next) : Leaves v (defaultValue next) :=
  leaves_bind (afterKeyword_alike (by decide))
    (leaves_longest (IsMark.uniform_bne (by decide)) h)

theorem leaves_references (h : Leaves v next) : Leaves v (references next) := by
  have hclass : Uniform fun c => !isBlank c && c != ')' :=
    uniform_isBlank.not.and (IsMark.uniform_bne (by decide))
  exact leaves_blanksThen (by decide)
    (leaves_bind afterBlanks_alike (leaves_longest1 hclass (by decide +kernel) h))

theorem leaves_onEvent {event : String} (hplain : Form.IsPlain event) (h : Leaves v next) :
    Leaves v (onEvent event next) :=
  leaves_blanksThen (by decide) (leaves_blanksThen hplain
    (leaves_bind afterBlanks_alike
      (leaves_longest1 uniform_isWord (isWord_of_isPunctuation (by decide)) h)))

theorem leaves_ending : Leaves v ending := by
  intro s t hst
  have hall := hst.all uniform_isBlank
  have hnil (s t : List Char) : Rests v s t [] [] := ⟨.nil, List.nil_suffix, List.nil_suffix⟩
  cases hst with
  | nil => exact .some (hnil _ _)
  | @char c d s t hlike rest =>
    by_cases hc : c = ','
    · obtain rfl : d = ',' := (IsMark.eq_iff (by decide) hlike).mp hc
      rw [hc]
      exact .some (Rests.cons ⟨rest, List.suffix_refl _, List.suffix_refl _⟩)
    · have hd : d ≠ ',' := mt (IsMark.eq_iff (by decide) hlike).mpr hc
      rw [ending_cons hc, ending_cons hd, hall]
      split
      · exact .some (hnil _ _)
      · exact .none
  | line =>
    rw [ending_cons (by decide), ending_cons (by decide), hall]
    split
    · exact .some (hnil _ _)
    · exact .none

theorem leaves_tail : Leaves v clauses.tail := by
  have hupdate : Leaves v (optional (onEvent "UPDATE") ending) :=
    leaves_optional (leaves_onEvent (by decide) leaves_ending) leaves_ending
  have hdelete : Leaves v (optional (onEvent "DELETE") (optional (onEvent "UPDATE") ending)) :=
    leaves_optional (leaves_onEvent (by decide) hupdate) hupdate
  exact leaves_optional (leaves_references hdelete) hdelete

theorem leaves_clauses : Leaves v clauses :=
  leaves_longest uniform_isBlank (leaves_orElse
    (leaves_orElse (leaves_notNull leaves_tail) (leaves_defaultValue leaves_tail)) leaves_tail)

end

section

variable {α β : Type} {q : α → α → Prop} {next : Tail α}

theorem longest_cut (hp : Uniform p) (hline : p '\n' = false) (h : Text.Alike v s t)
    (hnext : ∀ s' t', Cut v s t s' t' → Option.Rel q (next s') (next t')) :
    Option.Rel q (longest p next s) (longest p next t) := by
  induction h with
  | nil => exact hnext _ _ (.refl .nil)
  | char hlike rest ih =>
    have hhere := hnext _ _ (.refl (.char hlike rest))
    rw [longest, longest, hp.like hlike]
    split
    · exact rel_orElse (ih fun s' t' hcut => hnext s' t' (.char hlike hcut)) hhere
    · exact hhere
  | line hreturns rest =>
    rw [longest, longest, hp.lines, hline]
    exact hnext _ _ (.refl (.line hreturns rest))

theorem longest1_cut (hp : Uniform p) (hline : p '\n' = false) (h : Text.Alike v s t)
    (hnext : ∀ s' t', Cut v s t s' t' → Option.Rel q (next s') (next t')) :
    Option.Rel q (longest1 p next s) (longest1 p next t) := by
  cases h with
  | nil => exact .none
  | char hlike rest =>
    rw [longest1, longest1, hp.like hlike]
    split
    · exact longest_cut hp hline rest fun s' t' hcut => hnext s' t' (.char hlike hcut)
    · exact .none
  | line =>
    rw [longest1, longest1, hp.lines, hline]
    exact .none

theorem afterParameters_eq (s : List Char) :
    afterParameters s =
      (afterChar '(' s).bind fun s => afterChar ')' (s.dropWhile (· != ')')) := by
  unfold afterParameters
  split
  · rename_i s
    have hstops := stops_dropWhile (· != ')') s
    rw [afterChar_cons, Option.bind_some]
    cases hdrop : s.dropWhile (· != ')') with
    | nil => rfl
    | cons c rest =>
      rw [hdrop, stops_cons, bne_eq_false_iff_eq] at hstops
      rw [hstops, afterChar_cons]
  · rename_i hne
    cases s with
    | nil => rfl
    | cons c s =>
      have hc : c ≠ '(' := by
        rintro rfl
        exact hne s rfl
      rw [afterChar, if_neg hc, Option.bind_none]

theorem afterParameters_alike (h : Text.Alike v s t) :
    Option.Rel (Cut v s t) (afterParameters s) (afterParameters t) := by
  rw [afterParameters_eq, afterParameters_eq]
  refine rel_bind (afterChar_alike (by decide) h) fun s₁ t₁ hopen => ?_
  have hclass : Uniform (· != ')') := IsMark.uniform_bne (by decide)
  have hinner := Cut.dropWhile hclass hopen.rest
  refine rel_imp (afterChar_alike (by decide) hinner.rest) fun s₂ t₂ hclose => ?_
  exact hopen.trans (hinner.trans hclose)

/-- A type ends at corresponding places of two texts. -/
theorem typeThen_alike (h : Text.Alike v s t)
    (hnext : ∀ s' t', Cut v s t s' t' → Option.Rel q (next s') (next t')) :
    Option.Rel q (typeThen next s) (typeThen next t) := by
  refine longest1_cut uniform_isWord (isWord_of_isPunctuation (by decide)) h fun s' t' hword => ?_
  refine rel_orElse (rel_bind (afterParameters_alike hword.rest) fun s'' t'' hcut => ?_)
    (hnext s' t' hword)
  exact hnext s'' t'' (hword.trans hcut)

end

/-- Two texts that are alike and begin with a column begin with columns that are alike. -/
theorem read_alike (hlike : v.like c d) (h : Text.Alike v s t) :
    Option.Rel (Found v (Alike v) s t) (read (c :: s)) (read (d :: t)) := by
  refine rel_bind (word_cons_alike hlike h) fun (name, s₁) (name', t₁) ⟨hname, hword⟩ => ?_
  refine rel_bind (afterBlanks_alike hword.alike) fun s₂ t₂ hgap => ?_
  have htype : Option.Rel (fun x y => Cut v s₂ t₂ x.1 y.1 ∧ Rests v s₂ t₂ x.2 y.2)
      (typeThen (fun t => (clauses t).map fun rest => (t, rest)) s₂)
      (typeThen (fun t => (clauses t).map fun rest => (t, rest)) t₂) := by
    refine typeThen_alike hgap.rest fun s' t' hcut => ?_
    exact rel_map (leaves_clauses s' t' hcut.rest) fun _ _ hrests =>
      ⟨hcut, hcut.rests.trans hrests⟩
  refine rel_bind htype fun (s₃, rest) (t₃, rest') ⟨hcut, hrests⟩ => .some ⟨⟨hname, ?_⟩, ?_⟩
  · obtain ⟨a, b, rfl, rfl, htext, -⟩ := hcut
    simpa using htext
  · exact hword.trans (hgap.rests.trans hrests)

theorem isConstraint_alike {a b : Column} (h : Alike v a b) : isConstraint a = isConstraint b := by
  have hname : a.name.toList.map Char.toLower = b.name.toList.map Char.toLower := by
    simpa [eqIgnoringAsciiCase] using h.name
  have hsame : eqIgnoringAsciiCase a.name = eqIgnoringAsciiCase b.name := by
    funext word
    rw [eqIgnoringAsciiCase, eqIgnoringAsciiCase, hname]
  rw [isConstraint, isConstraint, hsame]

theorem read_eq_none_of_not_word (hc : isWord c = false) : read (c :: s) = none := by
  simp [read, word, hc]

/-- The columns in the bodies of two table definitions that are alike. -/
theorem ofBody_alike (h : Text.Alike v s t) : List.Forall₂ (Alike v) (ofBody s) (ofBody t) := by
  refine List.rel_filter (fun a b hab => ?_)
    (occurrences_alike (fun _ _ => read_eq_none_of_not_word) (fun _ _ _ _ => read_alike) h)
  simp only [isConstraint_alike hab]

end SchemaChange.Column
