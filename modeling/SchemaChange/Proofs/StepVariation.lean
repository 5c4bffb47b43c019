import SchemaChange.Proofs.Boundary
import SchemaChange.Proofs.StatementVariation

/-!
# Steps of texts that are alike

What a statement stands for does not depend on the case of its letters or on its line ends: names go
into lower case, types are told by an upper-case identifier, and values are counted.
-/

namespace SchemaChange

open SchemaChange.Text

variable {v : Variation} {c d : Char} {s t : List Char}

/-! ## Names and types -/

namespace Text

theorem upperChar_like (h : v.like c d) : upperChar c = upperChar d := by
  have hletter {c : Char} (hc : c.isAlpha = true) : upperChar c = upperChar c.toLower :=
    of_isAlpha (p := fun c => upperChar c = upperChar c.toLower) (by decide +kernel) hc
  obtain rfl | ⟨hc, hd⟩ := eq_or_isAlpha_of_toLower_eq (v.folds h)
  · rfl
  · rw [hletter hc, hletter hd, v.folds h]

/-- The identifier at the front of a text does not go on over a line end. -/
theorem takeWhile_isIdentifier_alike (h : Alike v s t) :
    (s.flatMap upperChar).takeWhile isIdentifier = (t.flatMap upperChar).takeWhile isIdentifier := by
  induction h with
  | nil => rfl
  | char hlike _ ih =>
    rw [List.flatMap_cons, List.flatMap_cons, List.takeWhile_append, List.takeWhile_append,
      upperChar_like hlike, ih]
  | line =>
    have hline : upperChar '\n' = ['\n'] ∧ upperChar '\r' = ['\r'] := by decide +kernel
    have hstops : isIdentifier '\n' = false ∧ isIdentifier '\r' = false := by decide +kernel
    simp [List.flatMap_cons, hline, hstops]

theorem lowerChar_of_toLower_eq (h : c.toLower = d.toLower) :
    lowerChar c = lowerChar d ∧ isCased c = isCased d ∧ isCaseIgnorable c = isCaseIgnorable d := by
  have hletter {c : Char} (hc : c.isAlpha = true) :
      lowerChar c = [c.toLower] ∧ isCased c = true ∧ isCaseIgnorable c = false :=
    of_isAlpha
      (p := fun c => lowerChar c = [c.toLower] ∧ isCased c = true ∧ isCaseIgnorable c = false)
      (by decide +kernel) hc
  obtain rfl | ⟨hc, hd⟩ := eq_or_isAlpha_of_toLower_eq h
  · exact ⟨rfl, rfl, rfl⟩
  · obtain ⟨himage, hcased, hignorable⟩ := hletter hc
    obtain ⟨himage', hcased', hignorable'⟩ := hletter hd
    rw [himage, himage', hcased, hcased', hignorable, hignorable', h]
    exact ⟨rfl, rfl, rfl⟩

theorem beginsCased_of_map_toLower_eq (h : s.map Char.toLower = t.map Char.toLower) :
    beginsCased s = beginsCased t := by
  induction s generalizing t with
  | nil => rw [List.map_eq_nil_iff.mp h.symm]
  | cons c s ih =>
    obtain ⟨d, t, rfl⟩ := List.exists_cons_of_ne_nil (l := t) (by rintro rfl; cases h)
    obtain ⟨hc, h⟩ := List.cons.inj h
    obtain ⟨-, hcased, hignorable⟩ := lowerChar_of_toLower_eq hc
    rw [beginsCased, beginsCased, hcased, hignorable, ih h]

theorem lowerFrom_of_map_toLower_eq (afterCased : Bool)
    (h : s.map Char.toLower = t.map Char.toLower) :
    lowerFrom afterCased s = lowerFrom afterCased t := by
  induction s generalizing t afterCased with
  | nil => rw [List.map_eq_nil_iff.mp h.symm]
  | cons c s ih =>
    obtain ⟨d, t, rfl⟩ := List.exists_cons_of_ne_nil (l := t) (by rintro rfl; cases h)
    obtain ⟨hc, h⟩ := List.cons.inj h
    obtain ⟨himage, hcased, hignorable⟩ := lowerChar_of_toLower_eq hc
    have hsigma : c = 'Σ' ↔ d = 'Σ' := eq_iff_of_toLower_eq (by decide) hc
    simp only [lowerFrom, himage, hcased, hignorable, ih _ h, hsigma,
      beginsCased_of_map_toLower_eq h]

theorem lower_of_eqIgnoringAsciiCase {a b : String} (h : eqIgnoringAsciiCase a b = true) :
    lower a = lower b := by
  rw [lower, lower, lowerFrom_of_map_toLower_eq false (beq_iff_eq.mp h)]

end Text

theorem FieldSpec.ofTypeText_alike {a b : String} (h : Text.Alike v a.toList b.toList) :
    ofTypeText a = ofTypeText b := by
  have htrim := h.trimChars
  simp only [ofTypeText, typeKeyword, upper, trim, String.toList_ofList,
    takeWhile_isIdentifier_alike htrim]

/-! ## Values -/

namespace ValueList

variable {parts parts' : List (List Char)}

theorem extend_alike (hlike : v.like c d) (h : List.Forall₂ (Text.Alike v) parts parts') :
    List.Forall₂ (Text.Alike v) (rawTokens.extend c parts) (rawTokens.extend d parts') := by
  cases h with
  | nil => exact .cons (.char hlike .nil) .nil
  | cons hfirst hmore => exact .cons (.char hlike hfirst) hmore

theorem extend_line_alike (hreturns : v.returns) (h : List.Forall₂ (Text.Alike v) parts parts') :
    List.Forall₂ (Text.Alike v) (rawTokens.extend '\n' parts)
      (rawTokens.extend '\r' (rawTokens.extend '\n' parts')) := by
  cases h with
  | nil => exact .cons (.line hreturns .nil) .nil
  | cons hfirst hmore => exact .cons (.line hreturns hfirst) hmore

/-- A line end is part of a token wherever it stands, and so is the return in front of it. -/
theorem rawTokens_newline (quoted escaped : Bool) (s : List Char) :
    rawTokens quoted escaped ('\n' :: s) = rawTokens.extend '\n' (rawTokens quoted false s) ∧
      rawTokens quoted escaped ('\r' :: s) = rawTokens.extend '\r' (rawTokens quoted false s) := by
  cases quoted <;> cases escaped <;> exact ⟨rfl, rfl⟩

theorem rawTokens_alike (quoted escaped : Bool) (h : Text.Alike v s t) :
    List.Forall₂ (Text.Alike v) (rawTokens quoted escaped s) (rawTokens quoted escaped t) := by
  induction h generalizing quoted escaped with
  | nil => exact .cons .nil .nil
  | @char c d s t hlike _ ih =>
    have hsame (x : Char) (hx : x.isAlpha = false) : c = x ↔ d = x :=
      eq_iff_of_toLower_eq hx (v.folds hlike)
    simp only [rawTokens, hsame '\\' (by decide), hsame '\'' (by decide), hsame ',' (by decide)]
    split
    · exact extend_alike hlike (ih quoted false)
    · split
      · exact ih quoted true
      · split
        · exact ih (!quoted) false
        · split
          · exact .cons .nil (ih quoted false)
          · exact extend_alike hlike (ih quoted false)
  | line hreturns _ ih =>
    rw [(rawTokens_newline _ _ _).1, (rawTokens_newline _ _ _).2, (rawTokens_newline _ _ _).1]
    exact extend_line_alike hreturns (ih quoted false)

theorem getLast?_alike (h : List.Forall₂ (Text.Alike v) parts parts') :
    parts.getLast? = some [] ↔ parts'.getLast? = some [] := by
  induction h with
  | nil => rfl
  | cons hfirst hmore ih =>
    cases hmore with
    | nil => simpa using hfirst.eq_nil_iff
    | cons => simpa only [List.getLast?_cons_cons] using ih

/-- Value lists that are alike have equally many values. -/
theorem length_parse_alike {a b : String} (h : Text.Alike v a.toList b.toList) :
    (parse a).length = (parse b).length := by
  have htokens : List.Forall₂ (Text.Alike v)
      ((rawTokens false false (trimChars a.toList)).map trimChars)
      ((rawTokens false false (trimChars b.toList)).map trimChars) := by
    rw [List.forall₂_map_left_iff, List.forall₂_map_right_iff]
    exact (rawTokens_alike false false h.trimChars).imp fun _ _ => Alike.trimChars
  simp only [parse, tokens, List.length_map, dropEmptyEnd, getLast?_alike htokens]
  split
  · rw [List.length_dropLast, List.length_dropLast, htokens.length_eq]
  · exact htokens.length_eq

end ValueList

/-! ## Steps -/

/-- Effects of one kind on one field or index, with types and columns that are alike. -/
inductive Effect.Alike (v : Variation) : Effect → Effect → Prop where
  | addField {name typeText typeText' : String} {spec : FieldSpec}
      (typed : Text.Alike v typeText.toList typeText'.toList) :
      Alike v (.addField name typeText spec) (.addField name typeText' spec)
  | addIndex {name : String} {columns columns' : List String}
      (listed : List.Forall₂ (fun a b => Text.Alike v a.toList b.toList) columns columns') :
      Alike v (.addIndex name columns) (.addIndex name columns')
  | addRow {row row' : Row} : Alike v (.addRow row) (.addRow row')

/-- Steps that differ in what is alike and in nothing else, apart from the values of a row. -/
structure Step.Alike (v : Variation) (a b : Step) : Prop where
  table : a.table = b.table
  file : a.file = b.file
  origin : a.origin = b.origin
  effect : a.effect.Alike v b.effect

namespace Step

theorem ofColumn_alike (file : String) {table table' : String} (origin : Shape)
    {column column' : Column} (htable : eqIgnoringAsciiCase table table' = true)
    (hcolumn : column.Alike v column') :
    (ofColumn file table origin column).Alike v (ofColumn file table' origin column') where
  table := lower_of_eqIgnoringAsciiCase htable
  file := rfl
  origin := rfl
  effect := by
    have htype : Text.Alike v (trim column.typeText).toList (trim column'.typeText).toList := by
      simpa [trim] using hcolumn.typeText.trimChars
    simp only [ofColumn, lower_of_eqIgnoringAsciiCase hcolumn.name,
      FieldSpec.ofTypeText_alike htype]
    exact .addField htype

theorem ofStatement_alike (file : String) {a b : Statement} (h : a.Alike v b) :
    List.Forall₂ (Alike v) (ofStatement file a) (ofStatement file b) := by
  cases h with
  | newTable named listed =>
    simp only [ofStatement, List.forall₂_map_left_iff, List.forall₂_map_right_iff]
    exact listed.imp fun _ _ => ofColumn_alike file _ named
  | newColumn tabled described => exact .cons (ofColumn_alike file _ tabled described) .nil
  | newIndex named tabled listed =>
    simp only [ofStatement, lower_of_eqIgnoringAsciiCase named]
    exact .cons ⟨lower_of_eqIgnoringAsciiCase tabled, rfl, rfl, .addIndex listed⟩ .nil
  | newRow tabled listed valued =>
    simp only [ofStatement, ValueList.length_parse_alike valued, listed.length_eq]
    split
    · exact .cons ⟨lower_of_eqIgnoringAsciiCase tabled, rfl, rfl, .addRow⟩ .nil
    · exact .nil

end Step

namespace Migration

variable {text variant : String}

/-- The steps of one shape, if no new column has nothing but a line end with a return behind its
name. -/
theorem filter_steps_alike (file : String) (shape : Shape)
    (h : Text.Alike v text.toList variant.toList)
    (hnot : v.returns → shape = .columnAddition →
      ∀ found ∈ occurrences (withText (Statement.read shape))
        (Statement.withoutComments variant).toList, found.2 ∉ Statement.loneAddition) :
    List.Forall₂ (Step.Alike v) ((steps ⟨file, text⟩).filter fun step => step.origin = shape)
      ((steps ⟨file, variant⟩).filter fun step => step.origin = shape) := by
  have hcommentless : Text.Alike v (Statement.withoutComments text).toList
      (Statement.withoutComments variant).toList := by
    simpa [Statement.withoutComments] using Statement.dropComments_alike false h
  rw [filter_steps, filter_steps]
  exact List.rel_flatMap (Statement.occurrences_read_alike shape hcommentless hnot)
    fun _ _ => Step.ofStatement_alike file

/-- Two texts that are alike give steps that are alike, one by one. -/
theorem steps_alike (file : String) (h : Text.Alike v text.toList variant.toList)
    (hnot : v.returns → ∀ found ∈ occurrences (withText Statement.newColumn?)
      (Statement.withoutComments variant).toList, found.2 ∉ Statement.loneAddition) :
    List.Forall₂ (Step.Alike v) (steps ⟨file, text⟩) (steps ⟨file, variant⟩) := by
  rw [← grouped_steps, ← grouped_steps ⟨file, variant⟩]
  refine List.rel_flatMap (List.forall₂_same.mpr fun _ _ => rfl) fun shape _ heq => ?_
  subst heq
  exact filter_steps_alike file shape h fun hreturns hshape => by
    subst hshape
    exact hnot hreturns

end Migration

end SchemaChange
