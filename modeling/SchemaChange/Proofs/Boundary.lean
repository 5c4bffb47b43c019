import SchemaChange.Migration
import SchemaChange.Proofs.Comments
import SchemaChange.Proofs.Opening

/-!
# Migrations after each other

No statement goes on behind a `);`, whatever stands before it. So two texts can be joined behind a
line that ends with `);`, and what is found in each of them is found again.
-/

namespace SchemaChange

open SchemaChange.Text

namespace Statement

variable {statement : Statement} {shape : Shape} {w front rest : List Char}

/-- The two characters that end a list or a body. -/
def closing : List Char := [')', ';']

/-- Behind the parenthesis that ends a list there is no `);` without another semicolon. -/
theorem not_closing_infix_append {list link : List Char} (hlist : ')' ∉ list) (hlink : ';' ∉ link) :
    ¬ closing <:+: list ++ ')' :: link := by
  intro hin
  apply hlink
  obtain ⟨before, behind, heq⟩ := infix_of_infix_append hlist hin
  cases before with
  | nil =>
    obtain rfl := (List.cons.inj heq).2
    simp
  | cons c before =>
    obtain rfl := (List.cons.inj heq).2
    simp

theorem wording_of_link {link : List Char}
    (h : link ∈ Form.space * (Form.keyword "VALUES" * Form.space)) : link ∈ Form.wording := by
  obtain ⟨before, hbefore, _, htail, rfl⟩ := Language.mem_mul.mp h
  obtain ⟨key, hkey, behind, hbehind, rfl⟩ := Language.mem_mul.mp htail
  apply Form.wording_append (Form.wording_of_space hbefore)
  apply Form.wording_append _ (Form.wording_of_space hbehind)
  exact Form.wording_of_word (Form.keyword_subset_word (by decide) hkey)

/-- No statement goes on behind a `);`. -/
theorem not_closing_infix_dropLast (h : Spells statement w) : ¬ closing <:+: w.dropLast := by
  have hparen : '(' ∉ closing := by decide
  have hwording {head : List Char} (hhead : head ∈ Form.wording) : ¬ closing <:+: head := fun hin =>
    Form.not_mem_of_wording hhead (by decide) (by decide) (hin.mem (by simp [closing]) : ')' ∈ head)
  have hends := ends_of_spells h
  cases hshape : statement.shape with
  | tableDefinition =>
    rw [hshape] at hends
    obtain ⟨head, hhead, body, hbody, rfl⟩ := hends
    have hsplit : head ++ '(' :: (body ++ [')', ';']) =
        (head ++ '(' :: (body ++ [')'])) ++ [';'] := by simp
    rw [hsplit, List.dropLast_concat, infix_append_cons_iff hparen, not_or]
    refine ⟨hwording hhead, ?_⟩
    intro hin
    obtain ⟨tail, htail⟩ | hin := List.infix_concat_iff.mp hin
    · have := congrArg List.getLast? htail
      simp [closing] at this
    · exact hbody hin
  | columnAddition =>
    rw [hshape] at hends
    obtain ⟨front, hfront, rfl⟩ := hends
    rw [List.dropLast_concat]
    exact fun hin => hfront (hin.mem (by simp [closing]))
  | indexDefinition =>
    rw [hshape] at hends
    obtain ⟨head, hhead, columns, hcolumns, rfl⟩ := hends
    have hsplit : head ++ '(' :: (columns ++ [')', ';']) =
        (head ++ '(' :: (columns ++ [')'])) ++ [';'] := by simp
    rw [hsplit, List.dropLast_concat, infix_append_cons_iff hparen, not_or]
    exact ⟨hwording hhead, not_closing_infix_append hcolumns (by simp)⟩
  | rowInsertion =>
    rw [hshape] at hends
    obtain ⟨head, hhead, columns, hcolumns, link, hlink, values, hvalues, rfl⟩ := hends
    have hsplit : head ++ '(' :: (columns ++ ')' :: (link ++ '(' :: (values ++ [')', ';']))) =
        (head ++ '(' :: (columns ++ ')' :: link ++ '(' :: (values ++ [')']))) ++ [';'] := by simp
    rw [hsplit, List.dropLast_concat, infix_append_cons_iff hparen, infix_append_cons_iff hparen,
      not_or, not_or]
    -- The semicolon would have to stand in what links the two lists.
    have hopen : ';' ∉ link :=
      Form.not_mem_of_wording (wording_of_link hlink) (by decide) (by decide)
    exact ⟨hwording hhead, not_closing_infix_append hcolumns hopen,
      not_closing_infix_append hvalues (by simp)⟩

/-- A statement that begins in a text does not go on behind it, if the text ends with characters that
the statement does not hold before its own end and that are no part of a word. -/
theorem prefix_of_ending {v ending : List Char} (h : Spells statement w)
    (hending : ¬ ending <:+: w.dropLast) (hnot : ∀ c ∈ ending, IsPunctuation c) (hne : v ≠ [])
    (hv : v <:+ front ++ ending) (hw : w <+: v ++ rest) : w <+: v := by
  obtain hw | ⟨tail, rfl⟩ := List.prefix_or_prefix_of_prefix hw (List.prefix_append v rest)
  · exact hw
  · by_cases htail : tail = []
    · simp [htail]
    · exfalso
      obtain hv | hv := List.suffix_or_suffix_of_suffix hv (List.suffix_append front ending)
      · obtain ⟨c, more, heq, hc⟩ := exists_word_of_spells h
        obtain ⟨d, v, rfl⟩ := List.exists_cons_of_ne_nil hne
        obtain ⟨rfl, -⟩ := List.cons.inj heq
        exact not_isWord (hnot d (hv.isInfix.mem (by simp))) hc
      · apply hending
        rw [List.dropLast_append_of_ne_nil htail]
        exact List.infix_append_of_infix_left hv.isInfix

/-- A statement that begins in a text with `);` at its end does not go on behind it. -/
theorem prefix_of_spells {v : List Char} (h : Spells statement w) (hne : v ≠ [])
    (hv : v <:+ front ++ closing) (hw : w <+: v ++ rest) : w <+: v :=
  prefix_of_ending h (not_closing_infix_dropLast h) (by decide) hne hv hw

/-- What is found in a text that ends with `);` and in what follows it. -/
theorem occurrences_append_closing (shape : Shape) (front rest : List Char) :
    occurrences (read shape) (front ++ closing ++ rest) =
      occurrences (read shape) (front ++ closing) ++ occurrences (read shape) rest := by
  apply (recognizes_read shape).occurrences_append
  intro statement w v htakes hne hv hw
  exact prefix_of_spells htakes.2 hne hv hw

theorem occurrences_newline (shape : Shape) (rest : List Char) :
    occurrences (read shape) ('\n' :: rest) = occurrences (read shape) rest := by
  apply occurrences_of_none
  rw [Option.eq_none_iff_forall_ne_some]
  rintro ⟨statement, left⟩ hread
  obtain ⟨-, w, hspells, heq⟩ := read_eq_some_iff.mp hread
  obtain ⟨c, more, rfl, hc⟩ := exists_word_of_spells hspells
  obtain ⟨rfl, -⟩ := List.cons.inj heq
  exact not_isWord (by decide) hc

theorem shape_of_mem_ofShape {text : String} (h : statement ∈ ofShape shape text) :
    statement.shape = shape := by
  obtain ⟨w, ⟨hshape, -⟩, -⟩ := (recognizes_read shape).exists_takes_of_mem h
  exact hshape

/-- The statements of one shape in two texts, where the first one ends with a line without a comment
that ends with `);`. -/
theorem ofShape_append {front : String} (shape : Shape) (back : String)
    (h : ¬ hyphens <:+: lastLine front.toList) :
    ofShape shape (withoutComments (front ++ ");\n" ++ back)) =
      ofShape shape (withoutComments (front ++ ");\n")) ++
        ofShape shape (withoutComments back) := by
  have hclosing : dropComments false closing = closing := rfl
  have hfront : dropComments false (front.toList ++ closing) =
      dropComments false front.toList ++ closing := by
    rw [dropComments_append_line h (by decide), hclosing]
  have hfound (tail : List Char) :
      occurrences (read shape) (dropComments false (front.toList ++ (closing ++ '\n' :: tail))) =
        occurrences (read shape) (dropComments false front.toList ++ closing) ++
          occurrences (read shape) (dropComments false tail) := by
    rw [← List.append_assoc, dropComments_append_newline, hfront, occurrences_append_closing,
      occurrences_newline]
  have hnil : occurrences (read shape) (dropComments false []) = [] := by
    rw [dropComments, occurrences_nil]
  have hends : ");\n".toList = closing ++ ['\n'] := rfl
  simp only [ofShape, withoutComments, String.toList_append, String.toList_ofList, hends,
    List.append_assoc, List.cons_append, List.nil_append, hfound, hnil, List.append_nil]

end Statement

namespace Shape

/-- Values that are listed shape by shape fall apart again into those of each shape. -/
theorem filter_flatMap_all {α : Type} {values : Shape → List α} {label : α → Shape}
    (h : ∀ shape, ∀ a ∈ values shape, label a = shape) (shape : Shape) :
    (all.flatMap values).filter (fun a => decide (label a = shape)) = values shape := by
  have hfilter (other : Shape) : (values other).filter (fun a => decide (label a = shape)) =
      if other = shape then values shape else [] := by
    split
    · rename_i heq
      subst heq
      exact List.filter_eq_self.mpr fun a ha => by simpa using h other a ha
    · rename_i hne
      exact List.filter_eq_nil_iff.mpr fun a ha => by simpa [h other a ha] using hne
  rw [List.filter_flatMap]
  simp only [hfilter]
  cases shape <;> simp [all]

end Shape

theorem Step.origin_of_mem {file : String} {statement : Statement} {step : Step}
    (h : step ∈ Step.ofStatement file statement) : step.origin = statement.shape := by
  cases statement with
  | newTable name columns =>
    obtain ⟨column, -, rfl⟩ := List.mem_map.mp h
    rfl
  | newColumn table column =>
    obtain rfl := List.mem_singleton.mp h
    rfl
  | newIndex name table columns =>
    obtain rfl := List.mem_singleton.mp h
    rfl
  | newRow table columns values =>
    simp only [Step.ofStatement] at h
    split at h
    · obtain rfl := List.mem_singleton.mp h
      rfl
    · cases h

namespace Migration

/-- Steps in groups by the shape of their statements. In a group they keep their order. -/
def grouped (steps : List Step) : List Step :=
  Shape.all.flatMap fun shape => steps.filter fun step => step.origin = shape

/-- The steps of one shape come from the statements of that shape. -/
theorem filter_steps (migration : Migration) (shape : Shape) :
    migration.steps.filter (fun step => step.origin = shape) =
      (Statement.ofShape shape (Statement.withoutComments migration.text)).flatMap
        (Step.ofStatement migration.name) := by
  rw [steps, Statement.ofText, List.flatMap_assoc]
  apply Shape.filter_flatMap_all
  intro shape step hstep
  obtain ⟨statement, hstatement, hstep⟩ := List.mem_flatMap.mp hstep
  rw [Step.origin_of_mem hstep, Statement.shape_of_mem_ofShape hstatement]

theorem grouped_steps (migration : Migration) : grouped migration.steps = migration.steps := by
  simp only [grouped, filter_steps]
  rw [steps, Statement.ofText, List.flatMap_assoc]

/-- Steps from statements of one shape are one group. -/
theorem grouped_of_origin {steps : List Step} {shape : Shape}
    (h : ∀ step ∈ steps, step.origin = shape) : grouped steps = steps := by
  have hself : steps.filter (fun step => decide (step.origin = shape)) = steps :=
    List.filter_eq_self.mpr fun step hstep => by simpa using h step hstep
  have hother (other : Shape) (hne : other ≠ shape) :
      steps.filter (fun step => decide (step.origin = other)) = [] :=
    List.filter_eq_nil_iff.mpr fun step hstep => by simpa [h step hstep] using hne.symm
  cases shape <;> simp [grouped, Shape.all, hself, hother]

/-- Two texts that are joined at the end of a statement give the statements and the steps of both,
shape by shape, and no others. Nothing is asked of the texts but that the last line of the first one
holds no comment: they may be cut off or unbalanced. -/
theorem steps_append_closing (file front back : String)
    (hline : ¬ Statement.hyphens <:+: Statement.lastLine front.toList) :
    (∀ shape : Shape,
      (Statement.ofText (front ++ ");\n" ++ back)).filter (fun s => s.shape = shape) =
        (Statement.ofText (front ++ ");\n")).filter (fun s => s.shape = shape) ++
          (Statement.ofText back).filter (fun s => s.shape = shape)) ∧
    steps ⟨file, front ++ ");\n" ++ back⟩ =
      grouped (steps ⟨file, front ++ ");\n"⟩ ++ steps ⟨file, back⟩) := by
  have hjoin (shape : Shape) := Statement.ofShape_append shape back hline
  constructor
  · intro shape
    have hfilter (text : String) : (Statement.ofText text).filter (fun s => s.shape = shape) =
        Statement.ofShape shape (Statement.withoutComments text) :=
      Shape.filter_flatMap_all (fun _ _ => Statement.shape_of_mem_ofShape) shape
    rw [hfilter, hfilter, hfilter, hjoin]
  · rw [← grouped_steps]
    simp only [grouped, List.filter_append, filter_steps, hjoin, List.flatMap_append]

/-- The end of a statement inside a quoted text counts as well. -/
theorem steps_append_closing_quoted :
    ¬ Statement.hyphens <:+: Statement.lastLine "INSERT INTO t (x) VALUES ('a".toList ∧
    steps ⟨"f.sql", "INSERT INTO t (x) VALUES ('a" ++ ");\n" ++ "b');"⟩ =
      grouped (steps ⟨"f.sql", "INSERT INTO t (x) VALUES ('a" ++ ");\n"⟩ ++
        steps ⟨"f.sql", "b');"⟩) :=
  ⟨by decide, (steps_append_closing "f.sql" _ _ (by decide)).2⟩

end Migration

end SchemaChange
