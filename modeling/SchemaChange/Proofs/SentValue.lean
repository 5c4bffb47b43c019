import SchemaChange.Call
import SchemaChange.Migration
import SchemaChange.Proofs.NumberText
import SchemaChange.Proofs.Overflow
import SchemaChange.Proofs.TokenForm
import SchemaChange.Proofs.WrittenValue

/-!
# Values in a request

In which text a value of a row is sent. A number is sent as a number and `NULL` as `null`, but a
number beyond the finite ones of floating point is held as an infinity, and JSON has no infinities:
it is sent as `null`, like a value that is absent.
-/

namespace SchemaChange

open SchemaChange.Number (Binary64 Numeral fitsSigned)
open SchemaChange.Json (numeralTexts)
open SchemaChange.Text (eqIgnoringAsciiCase)

variable {token : String} {datum : Datum} {n : Numeral} {negative : Bool} {w : List Char}

namespace Number.Numeral

theorem magnitude_of_integerTexts (h : w ∈ n.integerTexts) : n.magnitude = |(n.toInt : ℚ)| := by
  obtain ⟨hfraction, hexponent, -⟩ := h
  have hscale : n.scale = 0 := by rw [scale, hfraction, hexponent]; rfl
  have hdigits : n.significand = Nat.ofDigitChars 10 n.whole 0 := by
    rw [significand, hfraction, Option.getD_none, List.append_nil]
  rw [magnitude, hscale, zpow_zero, mul_one, hdigits, toInt]
  cases n.negative with
  | true => simp
  | false => simp

/-- The integers of a word are far from overflow. -/
theorem magnitude_lt_overflow (h : w ∈ n.integerTexts) (hfits : fitsSigned n.toInt = true) :
    n.magnitude < Binary64.overflow := by
  obtain ⟨hleast, hgreatest⟩ := Datum.fitsSigned_iff.mp hfits
  have habs : |n.toInt| ≤ 2 ^ 63 := abs_le.mpr ⟨hleast, by omega⟩
  rw [magnitude_of_integerTexts h, Binary64.overflow_eq]
  calc |(n.toInt : ℚ)| ≤ 2 ^ 63 := by exact_mod_cast habs
    _ < (2 ^ 54 - 1) * 2 ^ 10 := by norm_num
    _ ≤ (2 ^ 54 - 1) * 2 ^ 970 := by gcongr <;> norm_num

end Number.Numeral

namespace Json

theorem exists_cons_of_numeralTexts (h : w ∈ numeralTexts n) :
    ∃ c s, w = c :: s ∧ (c = '-' ∨ c.isDigit = true) := by
  obtain ⟨sign, hsign, v, hv, rfl⟩ := Language.mem_mul.mp h
  obtain ⟨d, s, rfl, hd⟩ := exists_digit_of_unsignedTexts hv
  unfold signTexts at hsign
  split at hsign
  · obtain rfl : sign = ['-'] := hsign
    exact ⟨'-', _, rfl, .inl rfl⟩
  · obtain rfl : sign = [] := hsign
    exact ⟨d, s, rfl, .inr hd⟩

/-- The text for an absent value is no number. -/
theorem null_not_mem_numeralTexts : compactChars .null ∉ numeralTexts n := by
  intro h
  obtain ⟨c, s, heq, hc⟩ := exists_cons_of_numeralTexts h
  obtain ⟨rfl, -⟩ := List.cons.inj heq
  exact absurd hc (by decide)

end Json

namespace Datum

/-- The text in which a value is sent. -/
def sentText (datum : Datum) : String :=
  Json.compact datum.toJson

/-- A value that is sent as a number. -/
def SentAsNumber (datum : Datum) : Prop :=
  ∃ n, datum.sentText.toList ∈ numeralTexts n

/-- The tokens for a number that is too large for a finite floating-point number. -/
def Overflows (token : String) : Prop :=
  ∃ n : Numeral, (token.toList ∈ n.integerTexts ∨ token.toList ∈ n.pointTexts) ∧
    Binary64.overflow ≤ n.magnitude

theorem toList_sentText (datum : Datum) :
    datum.sentText.toList = Json.compactChars datum.toJson :=
  String.toList_ofList

theorem sentAsNumber_iff : SentAsNumber datum ↔
    ∃ n, Json.compactChars datum.toJson ∈ numeralTexts n := by
  rw [SentAsNumber, toList_sentText]

theorem sentAsNumber_int (value : Int) : SentAsNumber (.int value) :=
  sentAsNumber_iff.mpr ⟨_, Number.intText_mem_numeralTexts value⟩

theorem sentAsNumber_finite (significand : Nat) (exponent : Int) :
    SentAsNumber (.float (.finite negative significand exponent)) :=
  sentAsNumber_iff.mpr (Number.write_mem_numeralTexts negative significand exponent)

theorem sentText_infinite : sentText (.float (.infinite negative)) = "null" := by
  cases negative with
  | true => rfl
  | false => rfl

theorem ne_null_of_sentAsNumber (h : SentAsNumber datum) : datum.sentText ≠ "null" := by
  intro hnull
  obtain ⟨n, hn⟩ := h
  rw [hnull] at hn
  exact Json.null_not_mem_numeralTexts hn

/-- What is sent as if it were absent. -/
theorem sentText_eq_null_iff : datum.sentText = "null" ↔
    datum.isNull = true ∨ ∃ negative, datum = .float (.infinite negative) := by
  have hfirst {c : Char} {s : List Char} (h : Json.compactChars datum.toJson = c :: s)
      (hc : c ≠ 'n') : datum.sentText ≠ "null" := by
    intro hnull
    have heq := congrArg String.toList hnull
    rw [toList_sentText, h] at heq
    exact hc (List.cons.inj heq).1
  constructor
  · intro hnull
    cases datum with
    | null => exact .inl rfl
    | bool value =>
      cases value with
      | true => exact absurd hnull (hfirst rfl (by decide))
      | false => exact absurd hnull (hfirst rfl (by decide))
    | int value => exact absurd hnull (ne_null_of_sentAsNumber (sentAsNumber_int value))
    | float value =>
      cases value with
      | finite negative significand exponent =>
        exact absurd hnull (ne_null_of_sentAsNumber (sentAsNumber_finite significand exponent))
      | infinite negative => exact .inr ⟨negative, rfl⟩
    | array items =>
      have hopens : Json.compactChars (.array items) =
          '[' :: ([','].intercalate (Json.compactItems items) ++ [']']) := by
        rw [Json.compactChars]
      exact absurd hnull (hfirst hopens (by decide))
    | text value =>
      have hopens : Json.compactChars (.text value) =
          '"' :: (value.toList.flatMap Json.escaped ++ ['"']) := by
        rw [Json.compactChars, Json.quoted]
      exact absurd hnull (hfirst hopens (by decide))
  · rintro (hnull | ⟨negative, rfl⟩)
    · cases datum with
      | null => rfl
      | _ => cases hnull
    · exact sentText_infinite

theorem ofToken_of_overflow (hw : token.toList ∈ n.integerTexts ∨ token.toList ∈ n.pointTexts)
    (hoverflow : Binary64.overflow ≤ n.magnitude) :
    ofToken token = .float (.infinite n.negative) := by
  have hinfinite : Binary64.ofNumeral n = .infinite n.negative :=
    Binary64.ofNumeral_eq_infinite_iff.mpr ⟨rfl, hoverflow⟩
  refine hinfinite ▸ Written.ofToken_eq (.number ?_)
  obtain h | h := hw
  · cases hfits : fitsSigned n.toInt with
    | true => exact absurd hoverflow (not_le.mpr (Numeral.magnitude_lt_overflow h hfits))
    | false => exact .large h hfits
  · exact .point h

/-- A token overflows exactly if it is classified as an infinity. -/
theorem overflows_iff : Overflows token ↔
    ∃ negative, ofToken token = .float (.infinite negative) := by
  constructor
  · rintro ⟨n, hw, hoverflow⟩
    exact ⟨n.negative, ofToken_of_overflow hw hoverflow⟩
  · rintro ⟨negative, h⟩
    obtain ⟨n, hinfinite, hw⟩ :=
      written_float_iff.mp ((ofToken_eq_iff_written (by simp)).mp h)
    exact ⟨n, hw.imp And.left id, (Binary64.ofNumeral_eq_infinite_iff.mp hinfinite).2⟩

/-- An integer that is too large is held as an infinity, though every digit of it was written. -/
theorem parse_decimal_of_overflow {value : Int} (h : Binary64.overflow ≤ |(value : ℚ)|) :
    ValueList.parse (ValueList.decimal value) = [.float (.infinite (decide (value < 0)))] := by
  have hlisting : Json.intText value ∈ Form.listing ([value].map fun n => {Json.intText n}) :=
    Form.mem_listing.mpr ⟨[], by decide, _, rfl, [], by decide, (List.append_nil _).symm⟩
  have htokens : ValueList.tokens (ValueList.decimal value) = [ValueList.decimal value] :=
    ValueList.tokens_of_integers hlisting
  have hw : (ValueList.decimal value).toList ∈ (Numeral.ofInt value).integerTexts := by
    rw [ValueList.decimal, String.toList_ofList, Numeral.mem_integerTexts_iff,
      ← Numeral.ofChars?_eq_some_iff]
    exact ⟨Numeral.ofChars?_intText value, rfl, rfl, Nat.toDigits_ne_nil⟩
  have hoverflow : Binary64.overflow ≤ (Numeral.ofInt value).magnitude := by
    rw [Numeral.magnitude_of_integerTexts hw, Numeral.toInt_ofInt]
    exact h
  rw [ValueList.parse, htokens, List.map_singleton, ofToken_of_overflow (.inl hw) hoverflow,
    Numeral.ofInt]

/-- How the value of a token is sent. -/
structure Sends (token : String) (datum : Datum) : Prop where
  int : ∀ value, datum = .int value → SentAsNumber datum
  float : ∀ value, datum = .float value → (SentAsNumber datum ↔ ¬ Overflows token)
  overflow : Overflows token ↔ ∃ negative, datum = .float (.infinite negative)
  null : datum.sentText = "null" ↔ datum.isNull = true ∨ Overflows token
  isNull : datum.isNull = true ↔ eqIgnoringAsciiCase token "NULL" = true

theorem sends_ofToken (token : String) : Sends token (ofToken token) where
  int := by
    rintro value h
    rw [h]
    exact sentAsNumber_int value
  float := by
    rintro value h
    rw [overflows_iff, h]
    cases value with
    | finite negative significand exponent =>
      exact iff_of_true (sentAsNumber_finite significand exponent) (by simp)
    | infinite negative =>
      exact iff_of_false (fun h => ne_null_of_sentAsNumber h sentText_infinite)
        (fun hnot => hnot ⟨negative, rfl⟩)
  overflow := overflows_iff
  null := by rw [sentText_eq_null_iff, overflows_iff]
  isNull := by
    have hnull : (ofToken token).isNull = true ↔ ofToken token = .null := by
      cases ofToken token with
      | null => simp [Datum.isNull]
      | _ => simp [Datum.isNull]
    rw [hnull, ofToken_eq_iff_written (by simp), written_null_iff]

/-! ## Rows -/

theorem compactMembers_row (row : Row) :
    Json.compactMembers (row.map fun (name, datum) => (name, datum.toJson)) =
      row.map fun (name, datum) => Json.quoted name ++ ':' :: datum.sentText.toList := by
  induction row with
  | nil => rfl
  | cons cell row ih =>
    simp only [List.map_cons, Json.compactMembers, ih, toList_sentText]

/-- A row is sent as its values are, each behind its name. -/
theorem compactChars_createRecord (collection : String) (row : Row) :
    Json.compactChars (Call.createRecord collection row).body =
      '\x7b' :: Json.quoted "data" ++ [':', '\x7b'] ++
        [','].intercalate (row.map fun (name, datum) =>
          Json.quoted name ++ ':' :: datum.sentText.toList) ++ ['\x7d', '\x7d'] := by
  simp only [Call.body, Step.rowJson, Json.compactChars, Json.compactMembers, compactMembers_row]
  simp

/-- Every value in a row of a migration comes from a token. -/
theorem exists_token_of_mem_row {migration : Migration} {step : Step} {row : Row} {name : String}
    (hstep : step ∈ migration.steps) (hrow : step.effect = .addRow row)
    (hcell : (name, datum) ∈ row) : ∃ token, ofToken token = datum := by
  obtain ⟨statement, -, hstep⟩ := List.mem_flatMap.mp hstep
  cases statement with
  | newTable table columns =>
    obtain ⟨column, -, rfl⟩ := List.mem_map.mp hstep
    cases hrow
  | newColumn table column =>
    obtain rfl := List.mem_singleton.mp hstep
    cases hrow
  | newIndex index table columns =>
    obtain rfl := List.mem_singleton.mp hstep
    cases hrow
  | newRow table columns values =>
    simp only [Step.ofStatement] at hstep
    split at hstep
    · obtain rfl := List.mem_singleton.mp hstep
      cases hrow
      have hpair := List.of_mem_zip (Members.mem_of_mem_ofPairs hcell)
      obtain ⟨token, -, htoken⟩ := List.mem_map.mp hpair.2
      exact ⟨token, htoken⟩
    · cases hstep

/-- Integers and finite numbers are sent as numbers. A value is sent as `null` exactly if it is
absent or its token overflows. So it is with the values of a list and with those in the request for
a row of a migration. -/
theorem sends_parse (raw : String) (migration : Migration) :
    List.Forall₂ Sends (ValueList.tokens raw) (ValueList.parse raw) ∧
    ∀ step ∈ migration.steps, ∀ collection row,
      Dispatch.ofStep step = .send (.createRecord collection row) →
        Json.compactChars (Call.createRecord collection row).body =
          '\x7b' :: Json.quoted "data" ++ [':', '\x7b'] ++
            [','].intercalate (row.map fun (name, datum) =>
              Json.quoted name ++ ':' :: datum.sentText.toList) ++ ['\x7d', '\x7d'] ∧
        ∀ name datum, (name, datum) ∈ row → ∃ token, ofToken token = datum ∧ Sends token datum := by
  refine ⟨?_, fun step hstep collection row hsend =>
    ⟨compactChars_createRecord collection row, fun name datum hcell => ?_⟩⟩
  · exact List.forall₂_map_right_iff.mpr (List.forall₂_same.mpr fun token _ => sends_ofToken token)
  · have hrow : step.effect = .addRow row := by
      unfold Dispatch.ofStep at hsend
      split at hsend
      · cases hsend
      · rename_i heffect
        cases hsend
        exact heffect
      · cases hsend
    obtain ⟨token, rfl⟩ := exists_token_of_mem_row hstep hrow hcell
    exact ⟨token, rfl, sends_ofToken token⟩

/-- A large integer is sent as a number, one beyond the finite numbers as if it were absent, from a
list and from a migration. -/
theorem sends_parse_large :
    (∃ large beyond, ValueList.parse "99999999999999999999, 1.0e400" = [large, beyond] ∧
      SentAsNumber large ∧ Overflows "1.0e400" ∧ beyond.sentText = "null" ∧
      beyond.isNull = false) ∧
    ∃ step ∈ Migration.steps ⟨"m.sql", "INSERT INTO t(x)VALUES(1.0e400);"⟩, ∃ token,
      Dispatch.ofStep step =
        .send (.createRecord "t" [("x", .float (.infinite false))]) ∧
      Overflows token ∧ sentText (ofToken token) = "null" := by
  have htokens : ValueList.tokens "99999999999999999999, 1.0e400" =
    ["99999999999999999999", "1.0e400"] := by decide
  have hparse : ValueList.parse "99999999999999999999, 1.0e400" =
      [.float (.finite false 6103515625000000 14), .float (.infinite false)] := by
    rw [ValueList.parse, htokens]
    rfl
  have hsteps : Migration.steps ⟨"m.sql", "INSERT INTO t(x)VALUES(1.0e400);"⟩ =
      [⟨"t", "m.sql", .rowInsertion, .addRow [("x", .float (.infinite false))]⟩] := by rfl
  obtain ⟨hsends, hrows⟩ := sends_parse "99999999999999999999, 1.0e400"
    ⟨"m.sql", "INSERT INTO t(x)VALUES(1.0e400);"⟩
  rw [hparse, htokens] at hsends
  rw [hsteps] at hrows ⊢
  constructor
  · obtain ⟨hlarge, hrest⟩ := List.forall₂_cons.mp hsends
    obtain ⟨hbeyond, -⟩ := List.forall₂_cons.mp hrest
    have hfinite : ¬ Overflows "99999999999999999999" := by
      intro h
      obtain ⟨negative, h⟩ := hlarge.overflow.mp h
      cases h
    have hoverflows := hbeyond.overflow.mpr ⟨false, rfl⟩
    exact ⟨_, _, rfl, (hlarge.float _ rfl).mpr hfinite, hoverflows,
      hbeyond.null.mpr (.inr hoverflows), rfl⟩
  · obtain ⟨token, heq, hsends⟩ := (hrows _ List.mem_cons_self "t" _ rfl).2 _ _ List.mem_cons_self
    have hoverflows := hsends.overflow.mpr ⟨false, rfl⟩
    exact ⟨_, List.mem_cons_self, token, rfl, hoverflows, heq ▸ hsends.null.mpr (.inr hoverflows)⟩

/-- Not every number stays a number. -/
theorem not_sentAsNumber_of_parse :
    ValueList.parse "1.0e400" = [.float (.infinite false)] ∧
    ValueList.parse (ValueList.decimal (10 ^ 309)) = [.float (.infinite false)] ∧
    ¬ SentAsNumber (.float (.infinite false)) ∧
    sentText (.float (.infinite false)) = "null" ∧ isNull (.float (.infinite false)) = false := by
  have hinteger {value : Int} (hvalue : value = 10 ^ 309) :
      ValueList.parse (ValueList.decimal value) = [.float (.infinite false)] := by
    have hpos : 0 < value := hvalue ▸ by positivity
    have hoverflow : Binary64.overflow ≤ |(value : ℚ)| := by
      rw [abs_of_pos (Int.cast_pos.mpr hpos), hvalue, Int.cast_pow]
      exact Binary64.overflow_le
    rw [parse_decimal_of_overflow hoverflow, decide_eq_false (Int.not_lt.mpr hpos.le)]
  refine ⟨?_, hinteger rfl, fun h => ne_null_of_sentAsNumber h sentText_infinite,
    sentText_infinite, rfl⟩
  have htokens : ValueList.tokens "1.0e400" = ["1.0e400"] := by decide
  rw [ValueList.parse, htokens]
  rfl

end Datum

end SchemaChange
