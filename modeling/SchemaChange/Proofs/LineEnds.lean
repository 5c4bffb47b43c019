import SchemaChange.Proofs.Growth
import SchemaChange.Proofs.Listing
import SchemaChange.Proofs.StepVariation

/-!
# The ends of lines

Lines may end with a return and a line feed instead of a line feed alone. The steps stay the same,
unless a new column has nothing but a line end behind its name: the clause of a column has to be two
characters long, and only with the return it is.
-/

namespace SchemaChange

open SchemaChange.Text
open Form (blanks phrase guard clause)

namespace Text

/-- Texts that differ at most in returns before line ends. -/
def Variation.lineEnds : Variation where
  like c d := c = d
  returns := True
  refl _ := rfl
  folds h := congrArg Char.toLower h

/-- The text with a return in front of each line end. -/
def withReturns (s : String) : String :=
  String.ofList (s.toList.flatMap fun c => if c = '\n' then ['\r', '\n'] else [c])

theorem alike_withReturns (s : String) : Alike .lineEnds s.toList (withReturns s).toList := by
  rw [withReturns, String.toList_ofList]
  induction s.toList with
  | nil => exact .nil
  | cons c s ih =>
    rw [List.flatMap_cons]
    split
    · rename_i hc
      rw [hc]
      exact .line trivial ih
    · exact .char rfl ih

theorem sublist_of_alike {s t : List Char} (h : Alike .lineEnds s t) : s.Sublist t := by
  induction h with
  | nil => exact List.Sublist.refl []
  | char hlike _ ih => exact (show _ = _ from hlike) ▸ ih.cons_cons _
  | line _ _ ih => exact (ih.cons_cons '\n').cons '\r'

theorem exists_of_alike_cons {c : Char} {s t : List Char} (h : Alike .lineEnds s (c :: t))
    (hc : c ≠ '\r') : ∃ s', s = c :: s' ∧ Alike .lineEnds s' t := by
  cases h with
  | char hlike rest => exact ⟨_, congrArg (· :: _) hlike, rest⟩
  | line => exact absurd rfl hc

theorem exists_of_alike_return {s t : List Char} (h : Alike .lineEnds s ('\r' :: '\n' :: t))
    (hs : '\r' ∉ s) : ∃ s', s = '\n' :: s' ∧ Alike .lineEnds s' t := by
  cases h with
  | char hlike =>
    obtain rfl : _ = '\r' := hlike
    exact absurd List.mem_cons_self hs
  | line _ rest => exact ⟨_, rfl, rest⟩

end Text

namespace Statement

variable {statement : Statement} {s t w rest : List Char}

/-! ## New columns without a clause -/

/-- A new column of which no type is given. -/
def isUntyped : Statement → Bool
  | .newColumn _ column => (trim column.typeText).isEmpty
  | _ => false

theorem isUntyped_alike {v : Variation} {a b : Statement} (h : Alike v a b) :
    isUntyped a = isUntyped b := by
  cases h with
  | newColumn tabled described =>
    have htype := described.typeText.trimChars.eq_nil_iff
    rw [isUntyped, isUntyped, Bool.eq_iff_iff]
    simpa [trim] using htype
  | _ => rfl

theorem exists_of_loneAddition (h : w ∈ loneAddition) :
    ∃ opening ∈ phrase ["ALTER", "TABLE"], ∃ table ∈ Form.word, ∃ gap ∈ blanks,
      ∃ adding ∈ phrase ["ADD", "COLUMN"], ∃ given ∈ guard, ∃ name ∈ Form.word,
        w = opening ++ (table ++ (gap ++ (adding ++ (given ++ (name ++ lone))))) := by
  obtain ⟨opening, hopening, _, hw₁, rfl⟩ := Language.mem_mul.mp h
  obtain ⟨table, htable, _, hw₂, rfl⟩ := Language.mem_mul.mp hw₁
  obtain ⟨gap, hgap, _, hw₃, rfl⟩ := Language.mem_mul.mp hw₂
  obtain ⟨adding, hadding, _, hw₄, rfl⟩ := Language.mem_mul.mp hw₃
  obtain ⟨given, hgiven, _, hw₅, rfl⟩ := Language.mem_mul.mp hw₄
  obtain ⟨name, hname, _, rfl, rfl⟩ := Language.mem_mul.mp hw₅
  exact ⟨opening, hopening, table, htable, gap, hgap, adding, hadding, given, hgiven, name, hname,
    rfl⟩

theorem suffix_of_loneAddition (h : w ∈ loneAddition) : lone <:+ w := by
  obtain ⟨opening, -, table, -, gap, -, adding, -, given, -, name, -, rfl⟩ :=
    exists_of_loneAddition h
  exact ⟨opening ++ (table ++ (gap ++ (adding ++ (given ++ name)))), by
    simp only [List.append_assoc]⟩

/-- A single word and a line end are not `IF NOT EXISTS`. -/
theorem not_guarded_lone {name : List Char} (hname : name ∈ Form.word) :
    name ++ ['\r', '\n'] ∉ phrase ["IF", "NOT", "EXISTS"] * (Form.word * clause) := by
  intro h
  obtain ⟨given, hgiven, tail, -, heq⟩ := Language.mem_mul.mp h
  obtain ⟨key, hkey, gap, hgap, key', hkey', tail', rfl⟩ := exists_keywords_of_phrase hgiven
  simp only [List.append_assoc] at heq
  obtain ⟨-, hrest⟩ := append_inj_of_stops (Form.keyword_subset_word (by decide) hkey).2
    (Form.stops_word_of_blanks hgap) hname.2
    (stops_cons.mpr (isWord_of_isPunctuation (by decide))) heq
  obtain ⟨hne, hword⟩ := Form.keyword_subset_word (by decide) hkey'
  obtain ⟨c, key', rfl⟩ := List.exists_cons_of_ne_nil hne
  have hc : c ∈ ['\r', '\n'] := by simp [← hrest]
  have hnone : ∀ c ∈ ['\r', '\n'], IsPunctuation c := by decide
  exact not_isWord (hnone c hc) (hword c (by simp))

/-- With a return in front of it, a lone line end counts as an empty type. -/
theorem newColumn?_lone (hw : w ∈ loneAddition) (rest : List Char) :
    ∃ statement, newColumn? (w ++ rest) = some (statement, rest) ∧ isUntyped statement = true := by
  obtain ⟨opening, hopening, table, htable, gap, hgap, adding, hadding, given, hgiven, name, hname,
    rfl⟩ := exists_of_loneAddition hw
  have hclause : ['\r', '\n'] ∈ clause :=
    Form.mem_clause_iff.mpr ⟨'\r', '\n', [], rfl, by decide +kernel, by decide⟩
  have hread : newColumn? (opening ++ (table ++ (gap ++ (adding ++ (given ++ (name ++
      (['\r', '\n'] ++ ';' :: rest))))))) = some (.newColumn (String.ofList table)
        ⟨String.ofList name, String.ofList (trimChars ['\r', '\n'])⟩, rest) :=
    newColumn?_append hopening htable hgap hadding hgiven hname hclause
      fun _ => not_guarded_lone hname
  refine ⟨_, by simpa [lone] using hread, ?_⟩
  change (trim (String.ofList (trimChars ['\r', '\n']))).isEmpty = true
  decide +kernel

/-- The text of such a column in a text without returns. -/
theorem exists_of_alike_lone (h : Text.Alike .lineEnds s (w ++ rest)) (hs : '\r' ∉ s)
    (hw : w ∈ loneAddition) :
    ∃ front c s', s = front ++ [c, '\n', ';'] ++ s' ∧ ';' ∉ front ∧ isWord c = true ∧
      Text.Alike .lineEnds s' rest := by
  obtain ⟨opening, hopening, table, htable, gap, hgap, adding, hadding, given, hgiven, name, hname,
    rfl⟩ := exists_of_loneAddition hw
  have hhead : opening ++ (table ++ (gap ++ (adding ++ given))) ∈ Form.wording :=
    Form.wording_append (Form.wording_of_phrase (by decide) hopening)
      (Form.wording_append (Form.wording_of_word htable)
        (Form.wording_append (Form.wording_of_space hgap.2)
          (Form.wording_append (Form.wording_of_phrase (by decide) hadding)
            (Form.wording_of_perhaps (by decide) hgiven))))
  have hsplit : opening ++ (table ++ (gap ++ (adding ++ (given ++ (name ++ lone))))) ++ rest =
      opening ++ (table ++ (gap ++ (adding ++ given))) ++ (name ++ (lone ++ rest)) := by
    simp only [List.append_assoc]
  rw [hsplit] at h
  generalize opening ++ (table ++ (gap ++ (adding ++ given))) = head at hhead h
  have hnewline {tail : List Char} : (name ++ tail).head? ≠ some '\n' := by
    intro hfirst
    obtain ⟨e, more, rfl⟩ := List.exists_cons_of_ne_nil hname.1
    obtain rfl : e = '\n' := Option.some.inj hfirst
    exact not_isWord (by decide) (hname.2 '\n' (by simp))
  obtain ⟨front, s₁, rfl, hfront, h₁⟩ := h.exists_append hnewline
  obtain ⟨letters, s₂, rfl, hletters, h₂⟩ := h₁.exists_append (by simp [lone])
  obtain ⟨s₃, rfl, h₃⟩ := exists_of_alike_return h₂ (by simp_all)
  obtain ⟨s', rfl, h₄⟩ := exists_of_alike_cons h₃ (by decide)
  obtain ⟨start, c, rfl⟩ :=
    (List.eq_nil_or_concat letters).resolve_left (mt hletters.eq_nil_iff.mp hname.1)
  rw [List.concat_eq_append] at hletters
  have hword : ∀ d ∈ start ++ [c], isWord d = true := fun d hd =>
    hname.2 d ((sublist_of_alike hletters).subset hd)
  have hwording : front ++ start ∈ Form.wording := Form.wording_append
    (fun c hc => hhead c ((sublist_of_alike hfront).subset hc))
    (fun c hc => Or.inl (hword c (by simp [hc])))
  exact ⟨front ++ start, c, s', by simp,
    Form.not_mem_of_wording hwording (by decide) (by decide), hword c (by simp), h₄⟩

/-- A new column that ends behind a lone line end has a type: its clause would be blank, and yet so
long that it reaches into the name. -/
theorem not_isUntyped_of_infix {front w : List Char} {c : Char} {statement : Statement}
    (hshape : statement.shape = .columnAddition) (hspells : Spells statement w)
    (hw : w <:+: front ++ [c, '\n'] ++ [';']) (hopen : ';' ∉ front ++ [c, '\n'])
    (hc : isWord c = true) : ¬ isUntyped statement = true := by
  intro huntyped
  cases hspells with
  | @newColumn opening table gap adding given name described _ _ _ _ _ _ _ describes _ trims =>
    have hsplit : opening ++ (table ++ (gap ++ (adding ++ (given ++ (name ++
        (described ++ [';'])))))) =
        opening ++ (table ++ (gap ++ (adding ++ (given ++ name)))) ++ described ++ [';'] := by
      simp only [List.append_assoc]
    rw [hsplit, List.infix_concat_iff] at hw
    have hsuffix := hw.resolve_right fun hin => hopen (hin.mem (by simp))
    have hdescribed : described <:+ front ++ [c, '\n'] :=
      (List.suffix_append _ described).trans (List.suffix_append_self_iff.mp hsuffix)
    have hlong : 2 ≤ described.length := by
      obtain ⟨d, e, more, rfl, -⟩ := Form.mem_clause_iff.mp describes
      simp
    have hends : [c, '\n'] <:+ described :=
      List.suffix_of_suffix_length_le (List.suffix_append front _) hdescribed hlong
    have htrimmed : trimChars described ≠ [] :=
      trimChars_ne_nil_iff.mpr ⟨c, hends.mem (by simp), isBlank_of_isWord hc⟩
    rw [trims_iff.mp trims] at htrimmed
    have htwice := trimChars_of_trimmed trims.trimmed
    exact htrimmed (by simpa [isUntyped, trim, htwice] using huntyped)
  | newTable => cases hshape
  | newIndex => cases hshape
  | newRow => cases hshape

/-- No column without a type is found where a lone line end stands behind a name. -/
theorem countP_isUntyped_lone {front : List Char} {c : Char} (hfront : ';' ∉ front)
    (hc : isWord c = true) (rest : List Char) :
    (occurrences newColumn? (front ++ [c, '\n', ';'] ++ rest)).countP isUntyped =
      (occurrences newColumn? rest).countP isUntyped := by
  have happend := occurrences_append_terminator .columnAddition (front ++ [c, '\n']) rest
  have htext : front ++ [c, '\n'] ++ Shape.columnAddition.terminator =
      front ++ [c, '\n'] ++ [';'] := rfl
  have hopen : ';' ∉ front ++ [c, '\n'] := by
    have hne : c ≠ ';' := by
      rintro rfl
      exact not_isWord (by decide) hc
    simp [hfront, hne.symm]
  have hnone : (occurrences newColumn? (front ++ [c, '\n'] ++ [';'])).countP isUntyped = 0 := by
    rw [List.countP_eq_zero]
    intro statement hmem
    obtain ⟨w, ⟨hshape, hspells⟩, hw⟩ :=
      (recognizes_read .columnAddition).exists_takes_of_mem hmem
    exact not_isUntyped_of_infix hshape hspells hw hopen hc
  rw [htext] at happend
  have hsplit : front ++ [c, '\n', ';'] ++ rest = front ++ [c, '\n'] ++ [';'] ++ rest := by simp
  rw [hsplit]
  refine (congrArg (List.countP isUntyped) happend).trans ?_
  rw [List.countP_append]
  exact (congrArg (· + _) hnone).trans (Nat.zero_add _)

/-- What two searches for new columns do at one place of a text and of its variant: they find nothing,
or the same, or the variant has a lone line end where the text has no column without a type. -/
theorem newColumn?_cases {c : Char} (h : Text.Alike .lineEnds s t) (hs : '\r' ∉ c :: s) :
    (newColumn? (c :: s) = none ∧ newColumn? (c :: t) = none) ∨
    (∃ a b s' t', newColumn? (c :: s) = some (a, s') ∧ newColumn? (c :: t) = some (b, t') ∧
      Alike .lineEnds a b ∧ Text.Alike .lineEnds s' t' ∧
      (c :: t).take ((c :: t).length - t'.length) ∉ loneAddition) ∨
    ∃ b s' t', newColumn? (c :: t) = some (b, t') ∧ isUntyped b = true ∧
      (c :: t).take ((c :: t).length - t'.length) ∈ loneAddition ∧
      s' <:+ s ∧ Text.Alike .lineEnds s' t' ∧
      (occurrences newColumn? (c :: s)).countP isUntyped =
        (occurrences newColumn? s').countP isUntyped := by
  have hwhole : Text.Alike .lineEnds (c :: s) (c :: t) := .char rfl h
  by_cases hlone : ∃ b t', newColumn? (c :: t) = some (b, t') ∧
      (c :: t).take ((c :: t).length - t'.length) ∈ loneAddition
  · obtain ⟨b, t', hread, hlone⟩ := hlone
    have hleft : t' <:+ t := suffix_of_read .columnAddition hread
    have htext := List.suffix_iff_eq_append.mp (hleft.trans (List.suffix_cons c t))
    obtain ⟨lonely, hlonely, huntyped⟩ := newColumn?_lone hlone t'
    rw [htext, hread] at hlonely
    obtain ⟨rfl, -⟩ := Prod.mk.inj (Option.some.inj hlonely)
    rw [← htext] at hwhole
    obtain ⟨front, e, s', heq, hfront, he, halike⟩ := exists_of_alike_lone hwhole hs hlone
    refine Or.inr (Or.inr ⟨b, s', t', hread, huntyped, hlone, ?_, halike, ?_⟩)
    · cases front with
      | nil => exact ⟨['\n', ';'], (List.cons.inj heq).2.symm⟩
      | cons d front => exact ⟨front ++ [e, '\n', ';'], (List.cons.inj heq).2.symm⟩
    · rw [heq, countP_isUntyped_lone hfront he]
  · obtain hfound | ⟨-, w, hw, t', b, htext, hread⟩ := newColumn?_alike hwhole
    · obtain hnone | ⟨⟨a, s'⟩, ⟨b, t'⟩, hs', ht', hvalue, hrests⟩ := rel_cases hfound
      · exact Or.inl hnone
      · exact Or.inr (Or.inl ⟨a, b, s', t', hs', ht', hvalue, hrests.alike,
          fun hmem => hlone ⟨b, t', ht', hmem⟩⟩)
    · refine absurd ⟨b, t', hread, ?_⟩ hlone
      rwa [htext, List.take_left' (by rw [List.length_append, Nat.add_sub_cancel])]

open Classical in
/-- The new columns without a type in a text and in its variant: the variant has one more for each
lone line end. -/
theorem countP_isUntyped_alike (h : Text.Alike .lineEnds s t) (hs : '\r' ∉ s) :
    (occurrences newColumn? t).countP isUntyped =
      (occurrences newColumn? s).countP isUntyped +
        (occurrences (withText newColumn?) t).countP fun found => found.2 ∈ loneAddition := by
  have hskip {c : Char} (hc : isWord c = false) (u : List Char) : newColumn? (c :: u) = none :=
    read_eq_none_of_not_word .columnAddition hc
  have hsuffix {c : Char} {u rest : List Char} {statement : Statement}
      (hread : newColumn? (c :: u) = some (statement, rest)) : rest <:+ u :=
    suffix_of_read .columnAddition hread
  induction hn : s.length using Nat.strongRecOn generalizing s t with
  | ind n ih =>
    cases h with
    | nil => rfl
    | @line s t hreturns rest =>
      have hline : isWord '\n' = false ∧ isWord '\r' = false :=
        ⟨isWord_of_isPunctuation (by decide), isWord_of_isPunctuation (by decide)⟩
      rw [occurrences_withText_of_none (hskip hline.2 _),
        occurrences_withText_of_none (hskip hline.1 _), occurrences_of_none (hskip hline.1 _),
        occurrences_of_none (hskip hline.2 _), occurrences_of_none (hskip hline.1 _)]
      exact ih s.length (by simp [← hn]) rest (by simp_all) rfl
    | @char c d s t hlike rest =>
      obtain rfl : c = d := hlike
      rw [List.length_cons] at hn
      have hlater {s' t' : List Char} (hs' : s' <:+ s) (halike : Text.Alike .lineEnds s' t') :=
        ih s'.length (by have := hs'.length_le; omega) halike
          (fun hmem => hs (List.mem_cons_of_mem c (hs'.mem hmem))) rfl
      obtain ⟨hnone, hnone'⟩ | ⟨a, b, s', t', hread, hread', hvalue, halike, hlone⟩ |
        ⟨b, s', t', hread, huntyped, hlone, hshorter, halike, hcount⟩ := newColumn?_cases rest hs
      · rw [occurrences_withText_of_none hnone', occurrences_of_none hnone',
          occurrences_of_none hnone]
        exact hlater (List.suffix_refl s) rest
      · rw [occurrences_withText_of_some hread' (hsuffix hread'),
          occurrences_of_some hread' (hsuffix hread'), occurrences_of_some hread (hsuffix hread),
          List.countP_cons, List.countP_cons, List.countP_cons_of_neg (by simpa using hlone),
          isUntyped_alike hvalue, hlater (hsuffix hread) halike]
        exact Nat.add_right_comm _ _ _
      · rw [occurrences_withText_of_some hread (hsuffix hread),
          occurrences_of_some hread (hsuffix hread), List.countP_cons_of_pos huntyped,
          List.countP_cons_of_pos (by simpa using hlone), hcount, hlater hshorter halike]
        exact Nat.add_assoc _ _ _

end Statement

/-! ## Steps without a type -/

/-- A step that adds a field of which no type is given. -/
def Step.isUntyped (step : Step) : Bool :=
  match step.effect with
  | .addField _ typeText _ => typeText.isEmpty
  | _ => false

theorem Step.isUntyped_alike {v : Variation} {a b : Step} (h : a.Alike v b) :
    a.isUntyped = b.isUntyped := by
  have heffect := h.effect
  unfold isUntyped
  generalize a.effect = x at heffect
  generalize b.effect = y at heffect
  cases heffect with
  | addField typed =>
    have hnil := typed.eq_nil_iff
    rw [String.toList_eq_nil_iff, String.toList_eq_nil_iff] at hnil
    rw [Bool.eq_iff_iff, String.isEmpty_iff, String.isEmpty_iff, hnil]
  | addIndex => rfl
  | addRow => rfl

theorem countP_eq_of_forall₂ {α : Type} {r : α → α → Prop} {p : α → Bool} {xs ys : List α}
    (h : List.Forall₂ r xs ys) (hp : ∀ a b, r a b → p a = p b) : xs.countP p = ys.countP p := by
  induction h with
  | nil => rfl
  | cons hab _ ih => rw [List.countP_cons, List.countP_cons, hp _ _ hab, ih]

theorem countP_isUntyped_ofStatement (file : String) {statements : List Statement}
    (h : ∀ statement ∈ statements, statement.shape = .columnAddition) :
    (statements.flatMap (Step.ofStatement file)).countP Step.isUntyped =
      statements.countP Statement.isUntyped := by
  induction statements with
  | nil => rfl
  | cons statement more ih =>
    rw [List.forall_mem_cons] at h
    rw [List.flatMap_cons, List.countP_append, List.countP_cons, ih h.2, Nat.add_comm]
    cases statement with
    | newColumn table column => simp [Step.ofStatement, Step.ofColumn, Step.isUntyped,
        Statement.isUntyped, List.countP_cons]
    | newTable => cases h.1
    | newIndex => cases h.1
    | newRow => cases h.1

namespace Migration

/-- With returns in front of its line ends a text without returns gives the same steps. Only a new
column with nothing but a line end behind its name makes a difference, and only to the new columns;
wherever there is one it does. -/
theorem steps_withReturns (file : String) {text : String} (h : '\r' ∉ text.toList) :
    Text.Alike .lineEnds (Statement.withoutComments text).toList
      (Statement.withoutComments (withReturns text)).toList ∧
    (∀ shape, shape ≠ .columnAddition →
      List.Forall₂ (Step.Alike .lineEnds)
        ((steps ⟨file, text⟩).filter fun step => step.origin = shape)
        ((steps ⟨file, withReturns text⟩).filter fun step => step.origin = shape)) ∧
    (List.Forall₂ (Step.Alike .lineEnds) (steps ⟨file, text⟩) (steps ⟨file, withReturns text⟩) ↔
      ∀ found ∈ occurrences (withText Statement.newColumn?)
        (Statement.withoutComments (withReturns text)).toList,
          found.2 ∉ Statement.loneAddition) := by
  have halike : Text.Alike .lineEnds (Statement.withoutComments text).toList
      (Statement.withoutComments (withReturns text)).toList := by
    simpa [Statement.withoutComments] using
      Statement.dropComments_alike false (alike_withReturns text)
  refine ⟨halike, fun shape hshape => ?_, fun hsteps => ?_, fun hnot => ?_⟩
  · exact filter_steps_alike file shape (alike_withReturns text) fun _ heq => absurd heq hshape
  · have hreturn : '\r' ∉ (Statement.withoutComments text).toList := by
      rw [Statement.withoutComments, String.toList_ofList]
      exact fun hmem => h ((Statement.dropComments_sublist false _).subset hmem)
    have hfiltered := List.rel_filter (R := Step.Alike .lineEnds)
      (p := fun step => decide (step.origin = .columnAddition))
      (q := fun step => decide (step.origin = .columnAddition))
      (fun a b hab => by simp only [hab.origin]) hsteps
    have hcount := countP_eq_of_forall₂ hfiltered fun _ _ => Step.isUntyped_alike
    rw [filter_steps, filter_steps,
      countP_isUntyped_ofStatement file fun _ => Statement.shape_of_mem_ofShape,
      countP_isUntyped_ofStatement file fun _ => Statement.shape_of_mem_ofShape] at hcount
    have hsum := Statement.countP_isUntyped_alike halike hreturn
    have hnone := Nat.add_eq_left.mp (hsum.symm.trans hcount.symm)
    exact fun found hmem => by simpa using List.countP_eq_zero.mp hnone found hmem
  · exact steps_alike file (alike_withReturns text) fun _ => hnot

/-- Line ends in a comment, in a clause and in a value. -/
theorem steps_withReturns_lines :
    '\r' ∉ "ALTER TABLE t ADD COLUMN x --\nTEXT;\nINSERT INTO t (x)\nVALUES ('a\nb');".toList ∧
      List.Forall₂ (Step.Alike .lineEnds)
        (steps ⟨"f.sql", "ALTER TABLE t ADD COLUMN x --\nTEXT;\nINSERT INTO t (x)\nVALUES ('a\nb');"⟩)
        (steps ⟨"f.sql", withReturns
          "ALTER TABLE t ADD COLUMN x --\nTEXT;\nINSERT INTO t (x)\nVALUES ('a\nb');"⟩) := by
  have hends : ∀ found ∈ occurrences (withText Statement.newColumn?)
      (Statement.withoutComments (withReturns
        "ALTER TABLE t ADD COLUMN x --\nTEXT;\nINSERT INTO t (x)\nVALUES ('a\nb');")).toList,
      ¬ Statement.lone <:+ found.2 := by decide +kernel
  exact ⟨by decide, (steps_withReturns "f.sql" (by decide)).2.2.mpr fun found hmem hlone =>
    hends found hmem (Statement.suffix_of_loneAddition hlone)⟩

/-- A column without a type appears where the line end behind its name gets a return. -/
theorem not_steps_withReturns :
    ¬ ∀ file text, '\r' ∉ text.toList →
      List.Forall₂ (Step.Alike .lineEnds) (steps ⟨file, text⟩)
        (steps ⟨file, withReturns text⟩) := by
  intro h
  have hlength := (h "f.sql" "ALTER TABLE t ADD COLUMN x\n;" (by decide)).length_eq
  revert hlength
  decide +kernel

end Migration

end SchemaChange
