import SchemaChange.Proofs.Listing
import SchemaChange.ValueList

/-!
# Quoted values

A value in single quotes, with a backslash before each of its backslashes and quotes, is read back
as it was, whatever it holds. So a list of such values gives back its values.
-/

namespace SchemaChange.ValueList

open SchemaChange.Text
open Form (space separated listing)

variable {gap rest token s u v w x : List Char} {more : List (List Char)}
  {tokens tokens' : List (List Char)} {values : List String} {quoting escaping : Bool}

def escape (c : Char) : List Char :=
  if c = '\\' ∨ c = '\'' then ['\\', c] else [c]

/-- A value as it is written between quotes. -/
def escaped (value : List Char) : List Char :=
  value.flatMap escape

def quoted (value : List Char) : List Char :=
  '\'' :: (escaped value ++ ['\''])

theorem escaped_append (u v : List Char) : escaped (u ++ v) = escaped u ++ escaped v :=
  List.flatMap_append

theorem escaped_cons (c : Char) (v : List Char) : escaped (c :: v) = escape c ++ escaped v :=
  List.flatMap_cons

theorem escape_of_ne {c : Char} (hbackslash : c ≠ '\\') (hquote : c ≠ '\'') : escape c = [c] := by
  simp [escape, hbackslash, hquote]

/-! ## Fragments of a quoted value -/

theorem not_mem_of_escape {c : Char} (hbackslash : '\\' ∉ x) (hquote : '\'' ∉ x)
    (hc : c = '\\' ∨ c = '\'') : c ∉ x := by
  obtain rfl | rfl := hc
  · exact hbackslash
  · exact hquote

theorem prefix_escaped_iff (hbackslash : '\\' ∉ x) (hquote : '\'' ∉ x) :
    x <+: escaped v ↔ x <+: v := by
  induction v generalizing x with
  | nil => rfl
  | cons c v ih =>
    cases x with
    | nil => simp
    | cons d x =>
      rw [escaped_cons]
      by_cases hc : c = '\\' ∨ c = '\''
      · have hd : c ∉ d :: x := not_mem_of_escape hbackslash hquote hc
        rw [List.mem_cons, not_or] at hbackslash hd
        rw [escape, if_pos hc, List.cons_append, List.cons_prefix_cons, List.cons_prefix_cons]
        simp [Ne.symm hbackslash.1, Ne.symm hd.1]
      · rw [not_or] at hc
        rw [List.mem_cons, not_or] at hbackslash hquote
        rw [escape_of_ne hc.1 hc.2, List.singleton_append, List.cons_prefix_cons,
          List.cons_prefix_cons, ih hbackslash.2 hquote.2]

/-- Escaping neither makes nor breaks a fragment in which nothing is escaped. -/
theorem infix_escaped_iff (hne : x ≠ []) (hbackslash : '\\' ∉ x) (hquote : '\'' ∉ x) :
    x <:+: escaped v ↔ x <:+: v := by
  induction v with
  | nil => rfl
  | cons c v ih =>
    by_cases hc : c = '\\' ∨ c = '\''
    · have hmem : c ∉ x := not_mem_of_escape hbackslash hquote hc
      rw [escaped_cons, escape, if_pos hc, List.cons_append, List.cons_append, List.nil_append,
        infix_cons_iff_of_not_mem hne hbackslash, infix_cons_iff_of_not_mem hne hmem,
        infix_cons_iff_of_not_mem hne hmem, ih]
    · have hstart := prefix_escaped_iff (v := c :: v) hbackslash hquote
      rw [not_or] at hc
      rw [escaped_cons, escape_of_ne hc.1 hc.2, List.singleton_append] at hstart ⊢
      rw [List.infix_cons_iff, List.infix_cons_iff, hstart, ih]

theorem mem_escaped_iff {c : Char} (hbackslash : c ≠ '\\') (hquote : c ≠ '\'') :
    c ∈ escaped v ↔ c ∈ v := by
  rw [← List.singleton_infix_iff c, ← List.singleton_infix_iff c]
  exact infix_escaped_iff (by simp) (by simpa using hbackslash.symm) (by simpa using hquote.symm)

theorem mem_quoted_iff {c : Char} (hbackslash : c ≠ '\\') (hquote : c ≠ '\'') :
    c ∈ quoted v ↔ c ∈ v := by
  rw [quoted, List.mem_cons, List.mem_append, List.mem_singleton, or_iff_right hquote,
    or_iff_left hquote, mem_escaped_iff hbackslash hquote]

/-! ## Tokens of a text -/

/-- Puts a text in front of the first token. -/
def prepend (u : List Char) (tokens : List (List Char)) : List (List Char) :=
  u.foldr rawTokens.extend tokens

theorem prepend_cons : prepend u (token :: more) = (u ++ token) :: more := by
  induction u with
  | nil => rfl
  | cons c u ih =>
    change rawTokens.extend c (prepend u (token :: more)) = _
    rw [ih]
    rfl

theorem rawTokens_escape (c : Char) (rest : List Char) :
    rawTokens true false (escape c ++ rest) = rawTokens.extend c (rawTokens true false rest) := by
  unfold escape
  by_cases hc : c = '\\' ∨ c = '\''
  · simp [if_pos hc, rawTokens]
  · rw [if_neg hc]
    rw [not_or] at hc
    simp [rawTokens, hc.1, hc.2]

theorem rawTokens_escaped (value rest : List Char) :
    rawTokens true false (escaped value ++ rest) = prepend value (rawTokens true false rest) := by
  induction value with
  | nil => rfl
  | cons c value ih =>
    rw [escaped_cons, List.append_assoc, rawTokens_escape, ih]
    rfl

theorem rawTokens_quote (rest : List Char) :
    rawTokens false false ('\'' :: rest) = rawTokens true false rest := by
  simp [rawTokens]

/-- A text that stands for a value: in a list, the value is put in front of the next token and
nothing else happens. -/
def Conveys (w value : List Char) : Prop :=
  ∀ rest, rawTokens false false (w ++ rest) = prepend value (rawTokens false false rest)

/-- Nothing in a quoted value begins another token. -/
theorem conveys_quoted (value : List Char) : Conveys (quoted value) value := by
  intro rest
  have hclose : rawTokens true false ('\'' :: rest) = rawTokens false false rest := by
    simp [rawTokens]
  rw [quoted, List.cons_append, rawTokens_quote, List.append_assoc, rawTokens_escaped,
    List.singleton_append, hclose]

theorem ne_of_isBlank {b : Char} (hb : isBlank b = true) (d : Char) (hd : isBlank d = false) :
    b ≠ d := by
  rintro rfl
  rw [hd] at hb
  cases hb

theorem rawTokens_space (hgap : gap ∈ space) :
    rawTokens false false (gap ++ rest) = prepend gap (rawTokens false false rest) := by
  induction gap with
  | nil => rfl
  | cons b gap ih =>
    obtain ⟨hb, hgap⟩ := List.forall_mem_cons.mp hgap
    have hstep : rawTokens false false (b :: (gap ++ rest)) =
        rawTokens.extend b (rawTokens false false (gap ++ rest)) := by
      simp [rawTokens, ne_of_isBlank hb '\\' (by decide), ne_of_isBlank hb '\'' (by decide),
        ne_of_isBlank hb ',' (by decide)]
    exact hstep.trans (congrArg (rawTokens.extend b) (ih hgap))

theorem rawTokens_of_space (hgap : gap ∈ space) : rawTokens quoting escaping gap = [gap] := by
  induction gap generalizing escaping with
  | nil => rfl
  | cons b gap ih =>
    obtain ⟨hb, hgap⟩ := List.forall_mem_cons.mp hgap
    simp [rawTokens, ne_of_isBlank hb '\\' (by decide), ne_of_isBlank hb '\'' (by decide),
      ne_of_isBlank hb ',' (by decide), ih hgap, rawTokens.extend]

theorem rawTokens_comma :
    rawTokens false false (',' :: rest) = [] :: rawTokens false false rest := by
  simp [rawTokens]

/-! ## Trimmed tokens -/

/-- The tokens of a text, each trimmed. -/
def trimmedTokens (s : List Char) : List (List Char) :=
  (rawTokens false false s).map trimChars

theorem extend_ne_nil {c : Char} : rawTokens.extend c tokens ≠ [] := by
  cases tokens <;> simp [rawTokens.extend]

theorem rawTokens_ne_nil : rawTokens quoting escaping s ≠ [] := by
  fun_induction rawTokens quoting escaping s with
  | case1 | case5 => simp
  | case2 | case6 => exact extend_ne_nil
  | case3 _ _ _ _ ih => exact ih
  | case4 _ _ _ _ _ ih => exact ih

theorem length_extend_rawTokens {c : Char} :
    (rawTokens.extend c (rawTokens quoting escaping s)).length =
      (rawTokens quoting escaping s).length := by
  have hne : rawTokens quoting escaping s ≠ [] := rawTokens_ne_nil
  obtain ⟨token, more, hraw⟩ := List.exists_cons_of_ne_nil hne
  rw [hraw]
  rfl

theorem length_rawTokens_escaped_append :
    (rawTokens true false (escaped v ++ s)).length = (rawTokens true false s).length := by
  have hne : rawTokens true false s ≠ [] := rawTokens_ne_nil
  obtain ⟨token, more, hraw⟩ := List.exists_cons_of_ne_nil hne
  rw [rawTokens_escaped, hraw, prepend_cons, List.length_cons, List.length_cons]

/-- What is put behind a text does not take tokens away. -/
theorem length_rawTokens_le_append (u v : List Char) :
    (rawTokens quoting escaping u).length ≤ (rawTokens quoting escaping (u ++ v)).length := by
  induction u generalizing quoting escaping with
  | nil => exact List.length_pos_iff.mpr rawTokens_ne_nil
  | cons c u ih =>
    rw [List.cons_append, rawTokens, rawTokens]
    split_ifs
    · rw [length_extend_rawTokens, length_extend_rawTokens]
      exact ih
    · exact ih
    · exact ih
    · exact Nat.succ_le_succ ih
    · rw [length_extend_rawTokens, length_extend_rawTokens]
      exact ih

theorem trimmedTokens_space_append (hgap : gap ∈ space) :
    trimmedTokens (gap ++ s) = trimmedTokens s := by
  obtain ⟨token, more, hraw⟩ := List.exists_cons_of_ne_nil (rawTokens_ne_nil (s := s))
  have htrim := trimChars_space_append (v := token) hgap Form.nil_mem_space
  rw [List.append_nil] at htrim
  rw [trimmedTokens, trimmedTokens, rawTokens_space hgap, hraw, prepend_cons, List.map_cons,
    List.map_cons, htrim]

/-- The second token is the first one with blanks behind it. -/
def Padded (token token' : List Char) : Prop :=
  ∃ gap ∈ space, token' = token ++ gap

theorem padded_extend (c : Char) (h : List.Forall₂ Padded tokens tokens') :
    List.Forall₂ Padded (rawTokens.extend c tokens) (rawTokens.extend c tokens') := by
  cases h with
  | nil => exact .cons ⟨[], Form.nil_mem_space, by simp⟩ .nil
  | cons hpadded hmore =>
    obtain ⟨gap, hgap, rfl⟩ := hpadded
    exact .cons ⟨gap, hgap, rfl⟩ hmore

/-- Blanks at the end of a text become a part of its last token. -/
theorem padded_rawTokens (hgap : gap ∈ space) :
    List.Forall₂ Padded (rawTokens quoting escaping s) (rawTokens quoting escaping (s ++ gap)) := by
  induction s generalizing quoting escaping with
  | nil =>
    rw [List.nil_append, rawTokens_of_space hgap]
    exact .cons ⟨gap, hgap, rfl⟩ .nil
  | cons c s ih =>
    rw [List.cons_append, rawTokens, rawTokens]
    split_ifs
    · exact padded_extend c ih
    · exact ih
    · exact ih
    · exact .cons ⟨[], Form.nil_mem_space, by simp⟩ ih
    · exact padded_extend c ih

theorem map_trimChars_of_padded (h : List.Forall₂ Padded tokens tokens') :
    tokens'.map trimChars = tokens.map trimChars := by
  induction h with
  | nil => rfl
  | cons hpadded _ ih =>
    obtain ⟨gap, hgap, rfl⟩ := hpadded
    rw [List.map_cons, List.map_cons, ih, trimChars_append_space hgap]

theorem trimmedTokens_append_space (hgap : gap ∈ space) :
    trimmedTokens (s ++ gap) = trimmedTokens s :=
  map_trimChars_of_padded (padded_rawTokens hgap)

/-- The tokens of a list do not depend on the blanks at its ends. -/
theorem tokens_ofList (s : List Char) :
    ValueList.tokens (String.ofList s) = (dropEmptyEnd (trimmedTokens s)).map String.ofList := by
  obtain ⟨before, behind, heq, hbefore, hbehind⟩ := exists_eq_append_trimChars s
  rw [List.all_eq_true] at hbefore hbehind
  have htrim : trimmedTokens (trimChars s) = trimmedTokens s := by
    conv_rhs => rw [heq, List.append_assoc]
    rw [trimmedTokens_space_append hbefore, trimmedTokens_append_space hbehind]
  rw [ValueList.tokens, String.toList_ofList, ← trimmedTokens, htrim]

/-! ## Values of a list -/

theorem trimmedTokens_of_conveys (hw : Conveys w v) : trimmedTokens w = [trimChars v] := by
  rw [← List.append_nil w, trimmedTokens, hw, rawTokens, prepend_cons, List.append_nil,
    List.map_singleton]

theorem trimmedTokens_quoted (v : List Char) : trimmedTokens (quoted v) = [trimChars v] :=
  trimmedTokens_of_conveys (conveys_quoted v)

/-- A quote that is not closed takes the rest of the text into its token. -/
theorem trimmedTokens_unclosed (v : List Char) :
    trimmedTokens ('\'' :: escaped v) = [trimChars v] := by
  rw [trimmedTokens, rawTokens_quote, ← List.append_nil (escaped v), rawTokens_escaped, rawTokens,
    prepend_cons, List.append_nil, List.map_singleton]

/-- A value and its comma give the value, and the tokens of what follows. -/
theorem trimmedTokens_conveys_comma (hw : Conveys w v) (hgap : gap ∈ space) :
    trimmedTokens (w ++ (gap ++ ',' :: s)) = trimChars v :: trimmedTokens s := by
  rw [trimmedTokens, hw, rawTokens_space hgap, rawTokens_comma, prepend_cons, prepend_cons,
    List.append_nil, List.map_cons, trimChars_append_space hgap, trimmedTokens]

section

variable {written : String → Language Char}
  (hwritten : ∀ value ∈ values, ∀ w ∈ written value, Conveys w value.toList)

include hwritten

theorem trimmedTokens_of_separated (hne : values ≠ []) (hw : w ∈ separated (values.map written)) :
    trimmedTokens w = values.map fun value => trimChars value.toList := by
  induction values generalizing w with
  | nil => exact absurd rfl hne
  | cons value others ih =>
    rw [List.forall_mem_cons] at hwritten
    cases others with
    | nil => exact trimmedTokens_of_conveys (hwritten.1 w hw)
    | cons next others =>
      obtain ⟨v, hv, before, hbefore, behind, hbehind, w', hw', rfl⟩ :=
        Form.mem_separated_cons.mp hw
      rw [trimmedTokens_conveys_comma (hwritten.1 v hv) hbefore, trimmedTokens_space_append hbehind,
        ih hwritten.2 (by simp) hw']
      rfl

/-- A list of texts that stand for values gives back the values. -/
theorem tokens_of_listing (htrim : ∀ value ∈ values, trimChars value.toList = value.toList)
    (hlast : values.getLast? ≠ some "") (hw : w ∈ listing (values.map written)) :
    ValueList.tokens (String.ofList w) = values := by
  obtain ⟨gap, hgap, v, hv, gap', hgap', rfl⟩ := Form.mem_listing.mp hw
  rw [tokens_ofList, trimmedTokens_space_append hgap, trimmedTokens_append_space hgap']
  by_cases hne : values = []
  · subst hne
    obtain rfl : v = [] := hv
    rfl
  · have hmap : (values.map fun value => trimChars value.toList) = values.map String.toList :=
      List.map_congr_left htrim
    have hend : (values.map String.toList).getLast? ≠ some [] := by
      rw [List.getLast?_map]
      intro h
      obtain ⟨value, hvalue, hnil⟩ := Option.map_eq_some_iff.mp h
      exact hlast (by rw [hvalue, String.toList_eq_nil_iff.mp hnil])
    rw [trimmedTokens_of_separated hwritten hne hv, hmap, dropEmptyEnd, if_neg hend, List.map_map]
    simp

end

/-- The values with which a list begins, each with the comma behind it. -/
def lead (values : List String) : List Char :=
  values.flatMap fun value => quoted value.toList ++ [',', ' ']

theorem lead_cons (value : String) (s : List Char) :
    lead (value :: values) ++ s = quoted value.toList ++ ',' :: ([' '] ++ (lead values ++ s)) := by
  simp [lead]

/-- The values with which a list ends, each with the comma in front of it. -/
def trail (values : List String) : List Char :=
  values.flatMap fun value => [',', ' '] ++ quoted value.toList

theorem trail_cons (value : String) :
    trail (value :: values) = ',' :: ([' '] ++ (quoted value.toList ++ trail values)) := by
  simp [trail]

/-- What follows some values gives the tokens that follow theirs. -/
theorem trimmedTokens_lead_append (values : List String) (s : List Char) :
    trimmedTokens (lead values ++ s) =
      values.map (fun value => trimChars value.toList) ++ trimmedTokens s := by
  induction values with
  | nil => rfl
  | cons value more ih =>
    have hcomma := trimmedTokens_conveys_comma (s := [' '] ++ (lead more ++ s))
      (conveys_quoted value.toList) Form.nil_mem_space
    have hspace : [' '] ∈ space := by decide
    rw [List.nil_append] at hcomma
    rw [lead_cons, hcomma, trimmedTokens_space_append hspace, ih, List.map_cons, List.cons_append]

theorem dropEmptyEnd_concat (tokens : List (List Char)) (token : List Char) :
    dropEmptyEnd (tokens ++ [token]) = tokens ++ if token = [] then [] else [token] := by
  unfold dropEmptyEnd
  by_cases h : token = []
  · simp [h]
  · simp [h]

theorem length_tokens_le (u : List Char) :
    (ValueList.tokens (String.ofList u)).length ≤ (trimmedTokens u).length := by
  rw [tokens_ofList, List.length_map, dropEmptyEnd]
  split
  · rw [List.length_dropLast]
    omega
  · exact Nat.le_refl _

/-- Some values and a last one give their tokens, the last one if it is not empty. -/
theorem tokens_lead_append (values : List String) (hs : trimmedTokens s = [v]) :
    ValueList.tokens (String.ofList (lead values ++ s)) =
      values.map trim ++ if v = [] then [] else [String.ofList v] := by
  rw [tokens_ofList, trimmedTokens_lead_append, hs, dropEmptyEnd_concat, List.map_append,
    List.map_map]
  split
  · rfl
  · rfl

end SchemaChange.ValueList
