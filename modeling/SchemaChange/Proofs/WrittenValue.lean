import SchemaChange.Proofs.Quoted
import SchemaChange.Proofs.Token

/-!
# Values with and without quotes

A value of a list may stand in quotes, with its backslashes and quotes escaped, or without them, and
then its commas are escaped as well. In any mixture of the two a list gives back its values,
whatever they hold.
-/

namespace SchemaChange.ValueList

open SchemaChange.Text
open Form (listing)

variable {value w : List Char} {values : List String} {numbers : List Int}

/-- A character outside quotes. -/
def bareEscape (c : Char) : List Char :=
  if c = '\\' ∨ c = '\'' ∨ c = ',' then ['\\', c] else [c]

/-- A value as it is written without quotes. -/
def bare (value : List Char) : List Char :=
  value.flatMap bareEscape

/-- The two ways to write a value. -/
def written (value : String) : Language Char :=
  {w | w = quoted value.toList ∨ w = bare value.toList}

theorem rawTokens_bareEscape (c : Char) (rest : List Char) :
    rawTokens false false (bareEscape c ++ rest) =
      rawTokens.extend c (rawTokens false false rest) := by
  unfold bareEscape
  by_cases hc : c = '\\' ∨ c = '\'' ∨ c = ','
  · simp [if_pos hc, rawTokens]
  · rw [if_neg hc]
    rw [not_or, not_or] at hc
    simp [rawTokens, hc.1, hc.2.1, hc.2.2]

/-- Without quotes too, nothing in a value begins another token. -/
theorem conveys_bare (value : List Char) : Conveys (bare value) value := by
  intro rest
  induction value with
  | nil => rfl
  | cons c value ih =>
    rw [bare, List.flatMap_cons, List.append_assoc, rawTokens_bareEscape, ← bare, ih]
    rfl

theorem conveys_of_written {value : String} (hw : w ∈ written value) : Conveys w value.toList := by
  obtain rfl | rfl := hw
  · exact conveys_quoted value.toList
  · exact conveys_bare value.toList

/-! ## Integers -/

/-- An integer as a token. -/
def decimal (n : Int) : String :=
  String.ofList (Json.intText n)

theorem not_mark_of_mem_intText {n : Int} {c : Char} (h : c ∈ Json.intText n) :
    isBlank c = false ∧ bareEscape c = [c] := by
  obtain rfl | hdigit := Datum.mem_intText h
  · decide
  · have hne (d : Char) (hd : d.isDigit = false) : c ≠ d := by
      rintro rfl
      rw [hd] at hdigit
      cases hdigit
    refine ⟨?_, ?_⟩
    · exact isBlank_of_isDigit hdigit
    · simp [bareEscape, hne '\\' (by decide), hne '\'' (by decide), hne ',' (by decide)]

/-- An integer is written as it is. -/
theorem conveys_intText (n : Int) : Conveys (Json.intText n) (Json.intText n) := by
  have hbare : bare (Json.intText n) = Json.intText n := by
    rw [bare, List.flatMap_congr fun c hc => (not_mark_of_mem_intText hc).2,
      List.flatMap_singleton']
  have hconveys := conveys_bare (Json.intText n)
  rwa [hbare] at hconveys

theorem trimChars_intText (n : Int) : trimChars (Json.intText n) = Json.intText n := by
  have hstops {s : List Char} (hs : ∀ c ∈ s, c ∈ Json.intText n) : Stops isBlank s := fun c hc =>
    (not_mark_of_mem_intText (hs c (List.mem_of_mem_head? hc))).1
  exact trimChars_of_trimmed ⟨hstops fun _ hc => hc, hstops fun _ hc => List.mem_reverse.mp hc⟩

theorem tokens_of_integers (hw : w ∈ listing (numbers.map fun n => {Json.intText n})) :
    tokens (String.ofList w) = numbers.map decimal := by
  have hmap : (numbers.map fun n => ({Json.intText n} : Language Char)) =
      (numbers.map decimal).map fun value => {value.toList} := by
    simp [decimal]
  rw [hmap] at hw
  refine tokens_of_listing ?_ ?_ ?_ hw
  · intro value hvalue v hv
    obtain ⟨n, -, rfl⟩ := List.mem_map.mp hvalue
    obtain rfl : v = (decimal n).toList := hv
    simpa [decimal] using conveys_intText n
  · intro value hvalue
    obtain ⟨n, -, rfl⟩ := List.mem_map.mp hvalue
    simpa [decimal] using trimChars_intText n
  · rw [List.getLast?_map]
    intro hlast
    obtain ⟨n, -, hnil⟩ := Option.map_eq_some_iff.mp hlast
    exact Datum.intText_ne_nil n (by simpa [decimal] using congrArg String.toList hnil)

/-- A list of written values gives back the values, each of which is classified on its own. So a
list of integers that fit a word gives the integers. -/
theorem parse_of_written :
    (∀ (values : List String) (w : List Char), (∀ value ∈ values, trim value = value) →
      values.getLast? ≠ some "" → w ∈ listing (values.map written) →
        tokens (String.ofList w) = values ∧
        parse (String.ofList w) = values.map Datum.ofToken) ∧
    ∀ (numbers : List Int) (w : List Char), (∀ n ∈ numbers, Number.fitsSigned n = true) →
      w ∈ listing (numbers.map fun n => {Json.intText n}) →
        parse (String.ofList w) = numbers.map Datum.int := by
  constructor
  · intro values w htrim hlast hw
    have htokens : tokens (String.ofList w) = values := by
      refine tokens_of_listing (fun _ _ _ => conveys_of_written) ?_ hlast hw
      intro value hvalue
      simpa [trim] using congrArg String.toList (htrim value hvalue)
    exact ⟨htokens, by rw [parse, htokens]⟩
  · intro numbers w hfits hw
    rw [parse, tokens_of_integers hw, List.map_map]
    exact List.map_congr_left fun n hn => Datum.ofToken_intText (hfits n hn)

/-- Quotes, commas and backslashes in both kinds of values, an empty value in the middle, and the
least integer of a word. -/
theorem parse_of_written_mixed :
    tokens " 'it\\'s, \\\\',, a\\,b\\' " = ["it's, \\", "", "a,b'"] ∧
    parse "-9223372036854775808 ,7" = [.int (-9223372036854775808), .int 7] := by
  have hvalues : " 'it\\'s, \\\\',, a\\,b\\' ".toList ∈
      listing (["it's, \\", "", "a,b'"].map written) :=
    Form.mem_listing.mpr ⟨[' '], by decide, _,
      Form.mem_separated_cons.mpr ⟨_, Or.inl rfl, [], by decide, [], by decide, _,
        Form.mem_separated_cons.mpr ⟨_, Or.inr rfl, [], by decide, [' '], by decide, _,
          Or.inr rfl, rfl⟩, rfl⟩, [' '], by decide, by decide⟩
  have hnumbers : "-9223372036854775808 ,7".toList ∈
      listing ([-9223372036854775808, 7].map fun n => {Json.intText n}) :=
    Form.mem_listing.mpr ⟨[], by decide, _,
      Form.mem_separated_cons.mpr ⟨_, rfl, [' '], by decide, [], by decide, _, rfl, rfl⟩,
      [], by decide, by decide⟩
  refine ⟨?_, ?_⟩
  · simpa using (parse_of_written.1 _ _ (by decide) (by decide) hvalues).1
  · simpa using parse_of_written.2 _ _ (by decide) hnumbers

end SchemaChange.ValueList
