import SchemaChange.Proofs.QuotedComments
import SchemaChange.Proofs.SingleRow

/-!
# All of a row or nothing

The searches do not see the quotes of a value: a parenthesis closes the list and two hyphens begin a
comment wherever they stand. So a row may be lost, or lose the comments in its values. Otherwise it
comes back as it was written, unless its list ends early.
-/

namespace SchemaChange.SingleRow

open SchemaChange.Text
open Form (without)
open Statement (hyphens closing dropComments lastLine withoutComments)
open ValueList (escape escaped quoted lead trail rawTokens trimmedTokens)

variable {row : SingleRow} {file value : String} {front back : List String}
  {pre post : List Char}

/-- The text does what it is meant to do, or nothing. -/
def AllOrNothing (row : SingleRow) (file : String) : Prop :=
  Migration.steps ⟨file, row.text⟩ = [] ∨
    Migration.steps ⟨file, row.text⟩ = [row.step file row.values]

/-- A value as it comes back: without its comments, and trimmed. -/
def kept (value : String) : String :=
  trim (withoutComments value)

/-- A value that does not close the list, and no comment of which goes on behind it. -/
def IsContained (value : String) : Prop :=
  ')' ∉ (withoutComments value).toList ∧ ¬ hyphens <:+: lastLine value.toList

instance (value : String) : Decidable (IsContained value) :=
  inferInstanceAs (Decidable (_ ∧ _))

/-- The list is closed inside its last value, behind something that is not blank. -/
def EndsEarly (row : SingleRow) : Prop :=
  ∃ front value pre post, row.values = front ++ [value] ∧ (∀ v ∈ front, IsContained v) ∧
    (withoutComments value).toList = pre ++ ')' :: ';' :: post ∧ ')' ∉ pre ∧
    ∃ c ∈ pre, isBlank c = false

/-! ## What is left of the values -/

/-- What stands behind a value, from the quote that closes it on. -/
def behind (back : List String) : List Char :=
  '\'' :: (trail back ++ closing)

theorem behind_cons (value : String) (more : List String) :
    behind (value :: more) =
      '\'' :: ',' :: ' ' :: '\'' :: (escaped value.toList ++ behind more) := by
  simp [behind, ValueList.trail_cons, quoted]

/-- A comment passes over the quotes and the comma between two values. -/
theorem dropComments_true_behind (value : String) (more : List String) :
    dropComments true (behind (value :: more)) =
      dropComments true (escaped value.toList ++ behind more) := by
  rw [behind_cons]
  simp [dropComments]

/-- The list up to a place inside a value. -/
def upTo (front : List String) (pre : List Char) : List Char :=
  lead front ++ '\'' :: escaped pre

theorem remainder_eq (hvalues : row.values = front ++ value :: back)
    (hfront : ∀ v ∈ front, IsContained v) :
    row.remainder = lead (front.map withoutComments) ++
      '\'' :: dropComments false (escaped value.toList ++ behind back) := by
  have hsplit : quoted value.toList ++ trail back ++ closing =
      '\'' :: (escaped value.toList ++ behind back) := by
    simp [quoted, behind]
  have hline : ∀ v ∈ front, ¬ hyphens <:+: lastLine v.toList := fun v hv => (hfront v hv).2
  rw [remainder, valueList_eq hvalues, List.append_assoc, hsplit,
    ValueList.dropComments_lead_append hline]
  simp [dropComments]

theorem exists_dropComments_behind (inComment : Bool) (v : List Char) (back : List String) :
    ∃ goesOn, dropComments inComment (escaped v ++ behind back) =
      escaped (dropComments inComment v) ++ dropComments goesOn (behind back) := by
  rw [← ValueList.dropComments_escaped]
  exact Statement.exists_dropComments_append inComment (by simp [behind])

theorem not_mem_lead (h : ∀ v ∈ front, IsContained v) :
    ')' ∉ lead (front.map withoutComments) := by
  intro hmem
  obtain ⟨_, hitem, hmem⟩ := List.mem_flatMap.mp hmem
  obtain ⟨value, hvalue, rfl⟩ := List.mem_map.mp hitem
  rw [List.mem_append, ValueList.mem_quoted_iff (by decide) (by decide)] at hmem
  exact hmem.elim (h value hvalue).1 (by decide)

theorem not_mem_upTo (h : ∀ v ∈ front, IsContained v) (hpre : ')' ∉ pre) :
    ')' ∉ upTo (front.map withoutComments) pre := by
  rw [upTo, List.mem_append, List.mem_cons, ValueList.mem_escaped_iff (by decide) (by decide)]
  rintro (hmem | hmem | hmem)
  · exact not_mem_lead h hmem
  · cases hmem
  · exact hpre hmem

theorem map_trim_withoutComments (front : List String) :
    (front.map withoutComments).map trim = front.map kept := by
  rw [List.map_map]
  rfl

/-- A list that is closed inside a value has the values up to there. -/
theorem tokens_upTo (front : List String) (pre : List Char) :
    ValueList.tokens (String.ofList (upTo (front.map withoutComments) pre)) =
      front.map kept ++ if trimChars pre = [] then [] else [String.ofList (trimChars pre)] := by
  rw [upTo, ValueList.tokens_lead_append _ (ValueList.trimmedTokens_unclosed pre),
    map_trim_withoutComments]

/-! ## Contained values -/

/-- A comment does not take the end of a value that it does not go beyond. -/
theorem trimChars_withoutComments_ne_nil (hne : value ≠ "")
    (htrim : trimChars value.toList = value.toList) (hline : ¬ hyphens <:+: lastLine value.toList) :
    trimChars (withoutComments value).toList ≠ [] := by
  have hne' : value.toList ≠ [] := fun hnil => hne (String.toList_eq_nil_iff.mp hnil)
  obtain ⟨body, c, hvalue⟩ : ∃ body c, value.toList = body ++ [c] :=
    ⟨_, _, (List.dropLast_append_getLast hne').symm⟩
  have hblank : isBlank c = false :=
    isBlank_of_getLast?_trimChars (s := value.toList) (by rw [htrim, hvalue]; simp)
  rw [withoutComments, String.toList_ofList]
  obtain hlast | ⟨lines, hlast⟩ := Statement.lastLine_eq value.toList
  · rw [← hlast] at hline
    rw [Statement.dropComments_of_plain hline, htrim]
    exact hne'
  · have hc : ('\n' :: lastLine value.toList).getLast? = some c := by
      have := congrArg List.getLast? (hlast.symm.trans hvalue)
      simpa [List.getLast?_append] using this
    refine trimChars_ne_nil_iff.mpr ⟨c, ?_, hblank⟩
    rw [hlast, Statement.dropComments_append_newline, Statement.dropComments_of_plain hline]
    exact List.mem_append_right _ (List.mem_of_getLast? hc)

/-- Contained values come back without their comments. -/
theorem own_of_contained (h : ∀ v ∈ row.values, IsContained v) :
    row.own file = [row.step file (row.values.map kept)] := by
  obtain ⟨front, value, hvalues⟩ : ∃ front value, row.values = front ++ [value] :=
    ⟨_, _, (List.dropLast_append_getLast row.values_ne_nil).symm⟩
  have hvalue : value ∈ row.values := by simp [hvalues]
  have hfront : ∀ v ∈ front, IsContained v := fun v hv => h v (by simp [hvalues, hv])
  have hclosed : row.remainder = lead (front.map withoutComments) ++
      quoted (withoutComments value).toList ++ closing ++ [] := by
    have hline := mt ValueList.hyphens_infix_lastLine_escaped.mp (h value hvalue).2
    have hbehind : dropComments false (behind []) = behind [] := by decide
    rw [remainder_eq hvalues hfront, Statement.dropComments_append_line hline (by simp [behind]),
      ValueList.dropComments_escaped, hbehind, withoutComments, String.toList_ofList]
    simp [quoted, behind, trail]
  refine own_of_tokens ⟨by simp [quoted], ?_⟩ hclosed ?_ ?_
  · rw [List.mem_append, ValueList.mem_quoted_iff (by decide) (by decide), not_or]
    exact ⟨not_mem_lead hfront, (h value hvalue).1⟩
  · have hne : value ≠ "" := by
      rintro rfl
      exact row.ended (by simp [hvalues])
    have hkept := trimChars_withoutComments_ne_nil hne (row.trimmed value hvalue) (h value hvalue).2
    rw [ValueList.tokens_lead_append _ (ValueList.trimmedTokens_quoted _), if_neg hkept,
      map_trim_withoutComments, hvalues, List.map_append]
    rfl
  · rw [List.length_map]
    exact row.paired

/-! ## Values that are not contained -/

/-- Leaving out comments does not make more tokens out of a value than it is. -/
theorem length_rawTokens_behind (inComment : Bool) (v : List Char) (back : List String) :
    (rawTokens true false (dropComments inComment (escaped v ++ behind back))).length ≤
      back.length + 1 := by
  induction back generalizing inComment v with
  | nil =>
    obtain ⟨goesOn, heq⟩ := exists_dropComments_behind inComment v []
    rw [heq, ValueList.length_rawTokens_escaped_append]
    cases goesOn <;> decide
  | cons value more ih =>
    obtain ⟨goesOn, heq⟩ := exists_dropComments_behind inComment v (value :: more)
    rw [heq, ValueList.length_rawTokens_escaped_append, List.length_cons]
    have hmore := ih goesOn value.toList
    cases goesOn
    · have hstart : rawTokens true false (dropComments false (behind (value :: more))) =
          [] :: rawTokens.extend ' ' (rawTokens true false
            (dropComments false (escaped value.toList ++ behind more))) := by
        rw [behind_cons]
        simp [dropComments, rawTokens]
      rw [hstart, List.length_cons, ValueList.length_extend_rawTokens]
      exact Nat.succ_le_succ hmore
    · rw [dropComments_true_behind]
      exact Nat.le_succ_of_le hmore

/-- Each value in front gives a token. -/
theorem length_trimmedTokens_upTo (front : List String) (pre s : List Char) :
    (trimmedTokens (upTo front pre ++ s)).length =
      front.length + (rawTokens true false s).length := by
  rw [upTo, List.append_assoc, ValueList.trimmedTokens_lead_append, List.length_append,
    List.length_map, List.cons_append, trimmedTokens, ValueList.rawTokens_quote, List.length_map,
    ValueList.length_rawTokens_escaped_append]

/-- Where a comment goes on behind its value, the list has too few values. -/
theorem own_of_comment (hvalues : row.values = front ++ value :: back)
    (hfront : ∀ v ∈ front, IsContained v) (hparen : ')' ∉ (withoutComments value).toList)
    (hcomment : hyphens <:+: lastLine value.toList) : row.own file = [] := by
  have hremainder : row.remainder =
      upTo (front.map withoutComments) (withoutComments value).toList ++
        dropComments true (behind back) := by
    have hline := ValueList.hyphens_infix_lastLine_escaped.mpr hcomment
    rw [remainder_eq hvalues hfront, Statement.dropComments_append_comment hline,
      ValueList.dropComments_escaped, upTo, withoutComments, String.toList_ofList]
    simp
  apply own_eq_nil
  intro u rest _ hclosed hlength
  cases back with
  | nil =>
    have hend : dropComments true (behind []) = [] := by decide
    rw [hremainder, hend, List.append_nil] at hclosed
    exact not_mem_upTo hfront hparen (by simp [hclosed, closing])
  | cons next more =>
    have hall : (trimmedTokens row.remainder).length ≤ front.length + (more.length + 1) := by
      rw [hremainder, length_trimmedTokens_upTo, List.length_map, dropComments_true_behind]
      exact Nat.add_le_add_left (length_rawTokens_behind true next.toList more) _
    have hsome : (trimmedTokens u).length ≤ (trimmedTokens row.remainder).length := by
      rw [hclosed, List.append_assoc, trimmedTokens, trimmedTokens, List.length_map,
        List.length_map]
      exact ValueList.length_rawTokens_le_append u _
    have htokens := ValueList.length_tokens_le u
    rw [← row.paired, hvalues, List.length_append, List.length_cons, List.length_cons] at hlength
    omega

theorem exists_remainder_of_parenthesis (hvalues : row.values = front ++ value :: back)
    (hfront : ∀ v ∈ front, IsContained v)
    (hvalue : (withoutComments value).toList = pre ++ ')' :: post) :
    ∃ goesOn, row.remainder = upTo (front.map withoutComments) pre ++
      ')' :: (escaped post ++ dropComments goesOn (behind back)) := by
  obtain ⟨goesOn, heq⟩ := exists_dropComments_behind false value.toList back
  rw [withoutComments, String.toList_ofList] at hvalue
  refine ⟨goesOn, ?_⟩
  rw [remainder_eq hvalues hfront, heq, hvalue, ValueList.escaped_append, ValueList.escaped_cons,
    upTo]
  simp [escape]

/-- No semicolon follows directly on a value. -/
theorem exists_cons_of_semicolon {goesOn : Bool} {rest : List Char}
    (h : escaped post ++ dropComments goesOn (behind back) = ';' :: rest) :
    ∃ more, post = ';' :: more := by
  cases post with
  | nil =>
    exfalso
    have hhead := congrArg List.head? h
    cases goesOn
    · simp [behind, dropComments, escaped] at hhead
    · exact Statement.head?_dropComments_true (by decide) hhead
  | cons d post =>
    rw [ValueList.escaped_cons, escape] at h
    split at h
    · have := (List.cons.inj h).1
      exact absurd this (by decide)
    · exact ⟨post, by rw [(List.cons.inj h).1]⟩

/-- Where the list is closed inside a value it has too few values, if it does not end early. -/
theorem own_of_parenthesis (hearly : ¬ row.EndsEarly)
    (hvalues : row.values = front ++ value :: back) (hfront : ∀ v ∈ front, IsContained v)
    (hvalue : (withoutComments value).toList = pre ++ ')' :: post) (hpre : ')' ∉ pre) :
    row.own file = [] := by
  apply own_eq_nil
  intro u rest hu hclosed hlength
  apply hearly
  obtain ⟨goesOn, hremainder⟩ := exists_remainder_of_parenthesis hvalues hfront hvalue
  have hsplit : u ++ closing ++ rest = u ++ ')' :: ';' :: rest := by simp [closing]
  rw [hremainder, hsplit] at hclosed
  obtain ⟨rfl, hrest⟩ := append_cons_inj (not_mem_upTo hfront hpre) hu.2 hclosed
  obtain ⟨post, rfl⟩ := exists_cons_of_semicolon hrest
  rw [tokens_upTo, ← row.paired, hvalues, List.length_append, List.length_append, List.length_map,
    List.length_cons] at hlength
  have hfilled : trimChars pre ≠ [] := by
    intro hnil
    rw [if_pos hnil, List.length_nil] at hlength
    omega
  have hback : back = [] := by
    rw [if_neg hfilled, List.length_singleton] at hlength
    exact List.length_eq_zero_iff.mp (by omega)
  exact ⟨front, value, pre, post, by rw [hvalues, hback], hfront, hvalue, hpre,
    trimChars_ne_nil_iff.mp hfilled⟩

/-- Nothing comes of a row with a value that is not contained, but if its list ends early. -/
theorem own_of_not_contained (hearly : ¬ row.EndsEarly) (h : ¬ ∀ v ∈ row.values, IsContained v) :
    row.own file = [] := by
  cases hfind : row.values.find? fun v => decide (¬ IsContained v) with
  | none =>
    exfalso
    apply h
    intro v hv
    simpa using List.find?_eq_none.mp hfind v hv
  | some value =>
    obtain ⟨hnot, front, back, hvalues, hfront⟩ := List.find?_eq_some_iff_append.mp hfind
    replace hnot : ¬ IsContained value := of_decide_eq_true hnot
    replace hfront : ∀ v ∈ front, IsContained v := fun v hv => by simpa using hfront v hv
    by_cases hparen : ')' ∈ (withoutComments value).toList
    · obtain ⟨pre, post, hvalue, hpre⟩ := List.eq_append_cons_of_mem hparen
      exact own_of_parenthesis hearly hvalues hfront hvalue hpre
    · have hcomment : hyphens <:+: lastLine value.toList := by
        by_contra hline
        exact hnot ⟨hparen, hline⟩
      exact own_of_comment hvalues hfront hparen hcomment

/-! ## All or nothing -/

/-- Values without comments are kept as they are. -/
theorem map_kept (hplain : ∀ v ∈ row.values, ¬ hyphens <:+: v.toList) :
    row.values.map kept = row.values := by
  have hid : row.values.map kept = row.values.map id := by
    apply List.map_congr_left
    intro v hv
    rw [kept, trim, withoutComments, Statement.dropComments_of_plain (hplain v hv),
      String.toList_ofList, row.trimmed v hv, String.ofList_toList]
    rfl
  rw [hid, List.map_id]

/-- If its list does not end early, a row comes back without the comments in its values, or nothing
comes of it: the rest comes of its values by themselves. It comes back exactly if all its values are
contained. So if nothing comes of its values by themselves and no value holds a comment, the row
comes back as it was written, or nothing does. -/
theorem allOrNothing (row : SingleRow) (file : String) (hearly : ¬ row.EndsEarly) :
    (∃ own, Migration.steps ⟨file, row.text⟩ =
        Migration.grouped (own ++ Migration.steps ⟨file, row.valuesText⟩) ∧
      (own = [] ∨ own = [row.step file (row.values.map kept)]) ∧
      (own ≠ [] ↔ ∀ v ∈ row.values, IsContained v)) ∧
    (Migration.steps ⟨file, row.valuesText⟩ = [] →
      (∀ v ∈ row.values, ¬ hyphens <:+: v.toList) → row.AllOrNothing file) := by
  by_cases h : ∀ v ∈ row.values, IsContained v
  · have hown : row.own file = [row.step file (row.values.map kept)] := own_of_contained h
    refine ⟨⟨row.own file, steps_eq row file, Or.inr hown, fun _ => h, fun _ => by simp [hown]⟩, ?_⟩
    intro hidle hplain
    right
    rw [steps_eq_own hidle, hown, map_kept hplain]
  · have hown : row.own file = [] := own_of_not_contained hearly h
    refine ⟨⟨row.own file, steps_eq row file, Or.inl hown, fun hne => absurd hown hne,
      fun hall => absurd hall h⟩, ?_⟩
    intro hidle _
    left
    rw [steps_eq_own hidle, hown]

/-- A row of one value. -/
def cell (value : String) (trimmed : trimChars value.toList = value.toList) (ended : value ≠ "") :
    SingleRow where
  table := "t"
  columns := ["x"]
  values := [value]
  tabled := Form.mem_word_of_ascii (by decide)
  filled := by decide
  listed := List.forall_mem_singleton.mpr (Form.mem_word_of_ascii (by decide))
  distinct := by decide
  paired := rfl
  trimmed := List.forall_mem_singleton.mpr trimmed
  ended := by simpa using ended

def quotedCell : SingleRow :=
  cell "it's--so\n, a\\b" (by decide) (by decide)

/-- Quotes, commas and backslashes do no harm, and a comment is left out. -/
theorem allOrNothing_quoted :
    Migration.steps ⟨"f.sql", quotedCell.text⟩ =
      [quotedCell.step "f.sql" ["it's\n, a\\b"]] := by
  have hcontained : ∀ v ∈ ["it's--so\n, a\\b"], IsContained v := by decide
  have hidle : Migration.steps ⟨"f.sql", quotedCell.valuesText⟩ = [] := by decide +kernel
  have hearly : ¬ quotedCell.EndsEarly := by
    rintro ⟨front, value, pre, post, hvalues, -, hvalue, -, -⟩
    have hmem : value ∈ ["it's--so\n, a\\b"] := by
      have hvalues' : ["it's--so\n, a\\b"] = front ++ [value] := hvalues
      simp [hvalues']
    exact (hcontained value hmem).1 (by simp [hvalue])
  obtain ⟨own, hsteps, hor, hiff⟩ := (allOrNothing quotedCell "f.sql" hearly).1
  have hown := hor.resolve_left (hiff.mpr hcontained)
  have horigin : ∀ step ∈ own, step.origin = .rowInsertion := by
    rw [hown]
    exact List.forall_mem_singleton.mpr rfl
  have hkept : ["it's--so\n, a\\b"].map kept = ["it's\n, a\\b"] := by decide
  rw [hsteps, hidle, List.append_nil, Migration.grouped_of_origin horigin, hown]
  exact congrArg (fun values => [step "f.sql" _ values]) hkept

theorem not_allOrNothing_of_display
    (h : (Migration.steps ⟨file, row.text⟩).map Step.display ∉
      [[], [(row.step file row.values).display]]) : ¬ row.AllOrNothing file := by
  intro hor
  apply h
  obtain hsteps | hsteps := hor
  · simp [hsteps]
  · simp [hsteps]

/-- A comment in a value is lost, a statement in a value is found, and a list can end early. -/
theorem not_allOrNothing :
    ¬ (cell "a--\nb" (by decide) (by decide)).AllOrNothing "f.sql" ∧
    ¬ (cell "ALTER TABLE a ADD COLUMN b INT;" (by decide) (by decide)).AllOrNothing "f.sql" ∧
    ¬ (cell "a);b" (by decide) (by decide)).AllOrNothing "f.sql" := by
  refine ⟨?_, ?_, ?_⟩
  · exact not_allOrNothing_of_display (by decide +kernel)
  · exact not_allOrNothing_of_display (by decide +kernel)
  · exact not_allOrNothing_of_display (by decide +kernel)

end SchemaChange.SingleRow
