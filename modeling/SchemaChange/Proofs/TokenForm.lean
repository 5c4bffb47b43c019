import SchemaChange.Proofs.ArrayToken
import SchemaChange.Proofs.NumeralText

/-!
# The forms of tokens

What a token is classified as, by its text alone: a keyword in any letter case, an array in its
brackets, the integers of a word, the numbers that are held in floating point, and a text where it
has none of these forms. No token has two forms, though the tests for them overlap.
-/

namespace SchemaChange

open SchemaChange.Number (Binary64 IsDigits Numeral fitsSigned isSign)
open SchemaChange.Json (exponentSigns greatestDepth texts)
open SchemaChange.Text (eqIgnoringAsciiCase)

namespace Datum

variable {token : String} {datum other : Datum} {items : List Json} {c : Char} {w : List Char}

/-- The tokens that are a keyword, in any letter case. -/
inductive Keyword (token : String) : Datum → Prop
  | null (h : eqIgnoringAsciiCase token "NULL" = true) : Keyword token .null
  | yes (h : eqIgnoringAsciiCase token "TRUE" = true) : Keyword token (.bool true)
  | no (h : eqIgnoringAsciiCase token "FALSE" = true) : Keyword token (.bool false)

/-- The tokens in brackets whose text is that of an array once every single quote is a double one.
What JSON leaves to its readers is settled: how deep the text may be nested, and that a number in
floating point denotes what it is scaled to. -/
structure Bracketed (token : String) (items : List Json) : Prop where
  opens : token.toList.head? = some '['
  closes : token.toList.getLast? = some ']'
  text : doubled token.toList ∈ texts Numeral.ScalesTo greatestDepth (.array items)

/-- The tokens that are a number. An integer that does not fit a word is held in floating point, and
so is every number with a point. -/
inductive Numeric (token : String) : Datum → Prop
  | int {n : Numeral} (h : token.toList ∈ n.integerTexts) (hfits : fitsSigned n.toInt = true) :
      Numeric token (.int n.toInt)
  | large {n : Numeral} (h : token.toList ∈ n.integerTexts) (hfits : fitsSigned n.toInt = false) :
      Numeric token (.float (Binary64.ofNumeral n))
  | point {n : Numeral} (h : token.toList ∈ n.pointTexts) :
      Numeric token (.float (Binary64.ofNumeral n))

/-- The forms other than a text. -/
inductive Written (token : String) : Datum → Prop
  | keyword {datum : Datum} (h : Keyword token datum) : Written token datum
  | array {items : List Json} (h : Bracketed token items) : Written token (.array items)
  | number {datum : Datum} (h : Numeric token datum) : Written token datum

/-! ## Keywords -/

theorem ofKeyword?_eq_some_iff : ofKeyword? token = some datum ↔ Keyword token datum := by
  have hdistinct {a b : String} (ha : eqIgnoringAsciiCase token a = true)
      (hb : eqIgnoringAsciiCase token b = true) :
      a.toList.map Char.toLower = b.toList.map Char.toLower := by
    simp only [eqIgnoringAsciiCase, beq_iff_eq] at ha hb
    exact ha.symm.trans hb
  constructor
  · intro h
    unfold ofKeyword? at h
    split at h
    · cases h
      exact .null ‹_›
    · split at h
      · cases h
        exact .yes ‹_›
      · split at h
        · cases h
          exact .no ‹_›
        · cases h
  · rintro (h | h | h)
    · rw [ofKeyword?, if_pos h]
    · rw [ofKeyword?, if_neg fun hnull => absurd (hdistinct hnull h) (by decide), if_pos h]
    · rw [ofKeyword?, if_neg fun hnull => absurd (hdistinct hnull h) (by decide),
        if_neg fun hyes => absurd (hdistinct hyes h) (by decide), if_pos h]

/-! ## Arrays -/

theorem exists_brackets_of_ends (hopens : w.head? = some '[') (hcloses : w.getLast? = some ']') :
    ∃ v, w = '[' :: (v ++ [']']) := by
  obtain ⟨front, rfl⟩ := List.getLast?_eq_some_iff.mp hcloses
  cases front with
  | nil => cases hopens
  | cons c front =>
    cases hopens
    exact ⟨front, rfl⟩

theorem isBracketed_iff : isBracketed w = true ↔ w.head? = some '[' ∧ w.getLast? = some ']' := by
  simp [isBracketed]

theorem Bracketed.ofToken_eq (h : Bracketed token items) : ofToken token = .array items := by
  obtain ⟨v, hv⟩ := exists_brackets_of_ends h.opens h.closes
  exact (ofToken_eq_array_iff hv).mpr h.text

/-- A token in brackets is an array, or a text. -/
theorem ofToken_of_isBracketed (hbracketed : isBracketed token.toList = true) :
    Written token (ofToken token) ∨ ofToken token = .text token := by
  obtain ⟨hopens, hcloses⟩ := isBracketed_iff.mp hbracketed
  obtain ⟨v, hv⟩ := exists_brackets_of_ends hopens hcloses
  rw [ofToken_of_brackets hv]
  cases hitems : arrayItems? token.toList with
  | some items => exact .inl (.array ⟨hopens, hcloses, (arrayItems?_eq_some_iff hv).mp hitems⟩)
  | none => exact .inr rfl

/-! ## Numbers -/

theorem ofNumeral?_eq_some_iff : (Numeral.ofChars? token.toList).bind ofNumeral? = some datum ↔
    Numeric token datum := by
  rw [Option.bind_eq_some_iff]
  constructor
  · rintro ⟨n, hn, h⟩
    rw [Numeral.ofChars?_eq_some_iff] at hn
    unfold ofNumeral? at h
    split at h
    · rename_i hfraction
      split at h
      · cases h
      · rename_i hparts
        simp only [Bool.or_eq_true, List.isEmpty_iff, not_or, Option.not_isSome_iff_eq_none] at hparts
        have hinteger := Numeral.mem_integerTexts_iff.mpr ⟨hn, hfraction, hparts.2, hparts.1⟩
        split at h
        · cases h
          exact .int hinteger ‹_›
        · cases h
          exact .large hinteger (Bool.eq_false_iff.mpr ‹_›)
    · rename_i fraction hfraction
      split at h
      · cases h
      · rename_i hparts
        cases h
        simp only [Bool.and_eq_true, List.isEmpty_iff, not_and_or] at hparts
        exact .point (Numeral.mem_pointTexts_iff.mpr ⟨hn, fraction, hfraction, hparts⟩)
  · have hinteger {n : Numeral} (h : token.toList ∈ n.integerTexts) :
        Numeral.ofChars? token.toList = some n ∧ ofNumeral? n =
          some (if fitsSigned n.toInt then .int n.toInt else .float (Binary64.ofNumeral n)) := by
      obtain ⟨hn, hfraction, hexponent, hwhole⟩ := Numeral.mem_integerTexts_iff.mp h
      refine ⟨Numeral.ofChars?_eq_some_iff.mpr hn, ?_⟩
      simp only [ofNumeral?, hfraction, hexponent, Option.isSome_none, Bool.or_false,
        List.isEmpty_iff, hwhole, if_false]
      split
      all_goals rfl
    rintro (@⟨n, h, hfits⟩ | @⟨n, h, hfits⟩ | @⟨n, h⟩)
    · obtain ⟨hread, hnumber⟩ := hinteger h
      exact ⟨n, hread, by rw [hnumber, if_pos hfits]⟩
    · obtain ⟨hread, hnumber⟩ := hinteger h
      exact ⟨n, hread, by rw [hnumber, hfits]; rfl⟩
    · obtain ⟨hn, fraction, hfraction, hne⟩ := Numeral.mem_pointTexts_iff.mp h
      refine ⟨n, Numeral.ofChars?_eq_some_iff.mpr hn, ?_⟩
      have hparts : ¬ (n.whole.isEmpty && fraction.isEmpty) = true := by
        rw [Bool.and_eq_true, List.isEmpty_iff, List.isEmpty_iff, not_and_or]
        exact hne
      simp only [ofNumeral?, hfraction, if_neg hparts]

/-- In front of a number stands a sign, a digit or a point. -/
theorem Numeric.exists_cons (h : Numeric token datum) :
    ∃ c s, token.toList = c :: s ∧ (isSign c = true ∨ c.isDigit = true ∨ c = '.') := by
  have hfront {front digits : List Char} {negative : Bool} (rest : List Char)
      (hsign : front ∈ exponentSigns negative) (hdigits : IsDigits digits)
      (hrest : digits ≠ [] ∨ rest.head? = some '.') :
      ∃ c s, front ++ (digits ++ rest) = c :: s ∧
        (isSign c = true ∨ c.isDigit = true ∨ c = '.') := by
    cases front with
    | cons c front => exact ⟨c, _, rfl, .inl (Number.isSign_of_exponentSigns hsign c (by simp))⟩
    | nil =>
      cases digits with
      | cons c digits => exact ⟨c, _, rfl, .inr (.inl (hdigits c (by simp)))⟩
      | nil =>
        obtain ⟨s, rfl⟩ := List.head?_eq_some_iff.mp (hrest.resolve_left fun hne => hne rfl)
        exact ⟨'.', s, rfl, .inr (.inr rfl)⟩
  have hinteger {n : Numeral} (h : token.toList ∈ n.integerTexts) :
      ∃ c s, token.toList = c :: s ∧ (isSign c = true ∨ c.isDigit = true ∨ c = '.') := by
    obtain ⟨-, -, hrun, sign, hsign, heq⟩ := h
    rw [heq]
    simpa using hfront [] hsign hrun.2 (.inl hrun.1)
  cases h with
  | int h hfits => exact hinteger h
  | large h hfits => exact hinteger h
  | point h =>
    obtain ⟨fraction, -, hwhole, -, -, sign, hsign, power, -, heq⟩ := h
    rw [heq]
    exact hfront _ hsign hwhole (.inr rfl)

/-- In a number stand digits and signs, and behind a point or in front of one the mark of an
exponent. -/
theorem Numeric.of_mem (h : Numeric token datum) (hc : c ∈ token.toList) :
    isSign c = true ∨ c.isDigit = true ∨
      ('.' ∈ token.toList ∧ (c = '.' ∨ c = 'e' ∨ c = 'E')) := by
  have hinteger {n : Numeral} (h : token.toList ∈ n.integerTexts) :
      isSign c = true ∨ c.isDigit = true := by
    obtain ⟨-, -, hrun, sign, hsign, heq⟩ := h
    rw [heq] at hc
    exact (List.mem_append.mp hc).imp (Number.isSign_of_exponentSigns hsign c) (hrun.2 c)
  cases h with
  | int h hfits => exact (hinteger h).imp_right .inl
  | large h hfits => exact (hinteger h).imp_right .inl
  | point h =>
    obtain ⟨fraction, -, hwhole, hdigits, -, sign, hsign, power, hpower, heq⟩ := h
    rw [heq] at hc ⊢
    have hpoint {front : List Char} : '.' ∈ sign ++ (front ++ ('.' :: fraction ++ power)) := by simp
    simp only [List.mem_append, List.mem_cons] at hc
    obtain hc | hc | (hc | hc) | hc := hc
    · exact .inl (Number.isSign_of_exponentSigns hsign c hc)
    · exact .inr (.inl (hwhole c hc))
    · exact .inr (.inr ⟨hpoint, .inl hc⟩)
    · exact .inr (.inl (hdigits c hc))
    · obtain hmark | hrest := Number.of_mem_exponentTexts hpower hc
      · exact .inr (.inr ⟨hpoint, .inr hmark⟩)
      · exact hrest.imp_right .inl

theorem isDigit_of_isAlpha (h : c.isAlpha = true) : c.isDigit = false :=
  Text.of_isAlpha (p := fun c => c.isDigit = false) (by decide) h

theorem Numeric.ofToken_eq (h : Numeric token datum) : ofToken token = datum := by
  obtain ⟨c, s, hcons, hc⟩ := h.exists_cons
  have hplain : c.isAlpha = false ∧ c ≠ '[' := by
    obtain hc | hc | rfl := hc
    · simp only [isSign, Bool.or_eq_true, beq_iff_eq] at hc
      obtain rfl | rfl := hc
      · decide
      · decide
    · refine ⟨Bool.eq_false_iff.mpr fun halpha => ?_, ?_⟩
      · rw [isDigit_of_isAlpha halpha] at hc
        cases hc
      · rintro rfl
        exact absurd hc (by decide)
    · decide
  have hopen : isBracketed token.toList = false := by
    simp [isBracketed, hcons, hplain.2]
  rw [ofToken, ofKeyword?_eq_none hcons (by simp [hplain.1]), hopen, ofNumeral?_eq_some_iff.mpr h]
  rfl

/-! ## Every token has one form -/

theorem Written.ofToken_eq (h : Written token datum) : ofToken token = datum := by
  cases h with
  | keyword h => rw [ofToken, ofKeyword?_eq_some_iff.mpr h]
  | array h => exact h.ofToken_eq
  | number h => exact h.ofToken_eq

theorem not_written_text {value : String} : ¬ Written token (.text value) := by
  rintro (h | _ | h)
  · cases h
  · cases h

theorem ofToken_cases (token : String) :
    Written token (ofToken token) ∨ ofToken token = .text token := by
  cases hkeyword : ofKeyword? token with
  | some datum =>
    have h := Written.keyword (ofKeyword?_eq_some_iff.mp hkeyword)
    exact .inl (h.ofToken_eq ▸ h)
  | none =>
    cases hbracketed : isBracketed token.toList with
    | true => exact ofToken_of_isBracketed hbracketed
    | false =>
      cases hnumber : (Numeral.ofChars? token.toList).bind ofNumeral? with
      | some datum =>
        have h := ofNumeral?_eq_some_iff.mp hnumber
        exact .inl (h.ofToken_eq ▸ .number h)
      | none =>
        rw [ofToken, hkeyword, hbracketed, hnumber]
        exact .inr rfl

/-- A token is classified by its form, and as a text as it stands where it has none. -/
theorem ofToken_eq_iff : ofToken token = datum ↔
    Written token datum ∨ datum = .text token ∧ ∀ other, ¬ Written token other := by
  constructor
  · rintro rfl
    obtain h | h := ofToken_cases token
    · exact .inl h
    · refine .inr ⟨h, fun other hother => ?_⟩
      rw [← hother.ofToken_eq, h] at hother
      exact not_written_text hother
  · rintro (h | ⟨rfl, hnone⟩)
    · exact h.ofToken_eq
    · exact (ofToken_cases token).resolve_left (hnone _)

theorem ofToken_eq_iff_written (h : ∀ value, datum ≠ .text value) :
    ofToken token = datum ↔ Written token datum := by
  rw [ofToken_eq_iff, or_iff_left fun htext => h token htext.1]

theorem written_null_iff : Written token .null ↔ eqIgnoringAsciiCase token "NULL" = true := by
  constructor
  · rintro (h | _ | h)
    · cases h with
      | null h => exact h
    · cases h
  · exact fun h => .keyword (.null h)

theorem written_bool_iff {value : Bool} : Written token (.bool value) ↔
    eqIgnoringAsciiCase token (if value then "TRUE" else "FALSE") = true := by
  constructor
  · rintro (h | _ | h)
    · cases h with
      | yes h => exact h
      | no h => exact h
    · cases h
  · intro h
    cases value with
    | true => exact .keyword (.yes h)
    | false => exact .keyword (.no h)

theorem written_array_iff : Written token (.array items) ↔ Bracketed token items := by
  constructor
  · rintro (h | h | h)
    · cases h
    · exact h
    · cases h
  · exact .array

theorem written_int_iff {value : Int} : Written token (.int value) ↔
    fitsSigned value = true ∧ ∃ n : Numeral, token.toList ∈ n.integerTexts ∧ n.toInt = value := by
  constructor
  · rintro (h | _ | h)
    · cases h
    · cases h with
      | int h hfits => exact ⟨hfits, _, h, rfl⟩
  · rintro ⟨hfits, n, h, rfl⟩
    exact .number (.int h hfits)

theorem written_float_iff {value : Binary64} : Written token (.float value) ↔
    ∃ n : Numeral, Binary64.ofNumeral n = value ∧
      (token.toList ∈ n.integerTexts ∧ fitsSigned n.toInt = false ∨
        token.toList ∈ n.pointTexts) := by
  constructor
  · rintro (h | _ | h)
    · cases h
    · cases h with
      | large h hfits => exact ⟨_, rfl, .inl ⟨h, hfits⟩⟩
      | point h => exact ⟨_, rfl, .inr h⟩
  · rintro ⟨n, rfl, ⟨h, hfits⟩ | h⟩
    · exact .number (.large h hfits)
    · exact .number (.point h)

theorem forall_not_keyword_iff : (∀ datum, ¬ Keyword token datum) ↔
    ∀ keyword ∈ ["NULL", "TRUE", "FALSE"], eqIgnoringAsciiCase token keyword = false := by
  simp only [List.forall_mem_cons, List.not_mem_nil, false_imp_iff, implies_true, and_true]
  constructor
  · intro hnone
    exact ⟨Bool.eq_false_iff.mpr fun h => hnone _ (.null h),
      Bool.eq_false_iff.mpr fun h => hnone _ (.yes h),
      Bool.eq_false_iff.mpr fun h => hnone _ (.no h)⟩
  · rintro ⟨hnull, hyes, hno⟩ datum (h | h | h)
    · exact Bool.eq_false_iff.mp hnull h
    · exact Bool.eq_false_iff.mp hyes h
    · exact Bool.eq_false_iff.mp hno h

theorem forall_not_numeric_iff : (∀ datum, ¬ Numeric token datum) ↔
    ∀ n : Numeral, token.toList ∉ n.integerTexts ∧ token.toList ∉ n.pointTexts := by
  constructor
  · refine fun hnone n => ⟨fun h => ?_, fun h => hnone _ (.point h)⟩
    cases hfits : fitsSigned n.toInt with
    | true => exact hnone _ (.int h hfits)
    | false => exact hnone _ (.large h hfits)
  · rintro hnone datum (h | h | h)
    · exact (hnone _).1 h
    · exact (hnone _).1 h
    · exact (hnone _).2 h

/-- A token has no form exactly if it is none of the keywords, no array and no number. -/
theorem forall_not_written_iff : (∀ datum, ¬ Written token datum) ↔
    (∀ datum, ¬ Keyword token datum) ∧ (∀ items, ¬ Bracketed token items) ∧
      ∀ datum, ¬ Numeric token datum := by
  constructor
  · intro hnone
    exact ⟨fun datum h => hnone _ (.keyword h), fun items h => hnone _ (.array h),
      fun datum h => hnone _ (.number h)⟩
  · rintro ⟨hkeyword, hitems, hnumber⟩ datum (h | h | h)
    · exact hkeyword _ h
    · exact hitems _ h
    · exact hnumber _ h

theorem fitsSigned_iff {value : Int} :
    fitsSigned value = true ↔ -2 ^ 63 ≤ value ∧ value < 2 ^ 63 := by
  simp only [fitsSigned, Bool.and_eq_true, decide_eq_true_eq]
  omega

/-- Each kind of datum has its tokens, and every token is of one kind: a keyword, an array, the
decimal form of an integer that fits a word, a number that is rounded to floating point, or else a
text. In an array such a number is scaled, and what is not scaled makes a text of the token. What
holds a letter, a mark or a digit of another script is a text, if it is no keyword and no array; an
exponent belongs to a number only together with a point. -/
theorem ofToken_partitions (token : String) :
    (ofToken token = .null ↔ eqIgnoringAsciiCase token "NULL" = true) ∧
    (∀ value, ofToken token = .bool value ↔
      eqIgnoringAsciiCase token (if value then "TRUE" else "FALSE") = true) ∧
    (∀ items, ofToken token = .array items ↔ Bracketed token items) ∧
    (∀ value, ofToken token = .int value ↔ (-2 ^ 63 ≤ value ∧ value < 2 ^ 63) ∧
      ∃ n : Numeral, token.toList ∈ n.integerTexts ∧ n.toInt = value) ∧
    (∀ value, ofToken token = .float value ↔ ∃ n : Numeral,
      (n.RoundsTo value ∨ Binary64.overflow ≤ n.magnitude ∧ value = .infinite n.negative) ∧
      (token.toList ∈ n.integerTexts ∧ ¬ (-2 ^ 63 ≤ n.toInt ∧ n.toInt < 2 ^ 63) ∨
        token.toList ∈ n.pointTexts)) ∧
    (∀ value, ofToken token = .text value ↔ value = token ∧
      (∀ keyword ∈ ["NULL", "TRUE", "FALSE"], eqIgnoringAsciiCase token keyword = false) ∧
      (∀ items, ¬ Bracketed token items) ∧
      ∀ n : Numeral, token.toList ∉ n.integerTexts ∧ token.toList ∉ n.pointTexts) ∧
    (∃! datum, Written token datum ∨ datum = .text token ∧ ∀ other, ¬ Written token other) ∧
    (∀ c ∈ token.toList, isSign c = false → c.isDigit = false →
      ('.' ∈ token.toList → c ≠ '.' ∧ c ≠ 'e' ∧ c ≠ 'E') →
      (∀ keyword ∈ ["NULL", "TRUE", "FALSE"], eqIgnoringAsciiCase token keyword = false) →
      (∀ items, ¬ Bracketed token items) → ofToken token = .text token) := by
  have htext {value : String} : ofToken token = .text value ↔
      value = token ∧ ∀ datum, ¬ Written token datum := by
    rw [ofToken_eq_iff, or_iff_right not_written_text, Datum.text.injEq]
  refine ⟨?_, fun value => ?_, fun items => ?_, fun value => ?_, fun value => ?_, fun value => ?_,
    ⟨ofToken token, ofToken_eq_iff.mp rfl, fun other h => (ofToken_eq_iff.mpr h).symm⟩,
    fun c hc hsign hdigit hmark hkeyword hitems => ?_⟩
  · rw [ofToken_eq_iff_written (by simp), written_null_iff]
  · rw [ofToken_eq_iff_written (by simp), written_bool_iff]
  · rw [ofToken_eq_iff_written (by simp), written_array_iff]
  · rw [ofToken_eq_iff_written (by simp), written_int_iff, fitsSigned_iff]
  · rw [ofToken_eq_iff_written (by simp), written_float_iff]
    simp only [← Bool.not_eq_true, fitsSigned_iff, Numeral.ofNumeral_eq_iff]
  · rw [htext, forall_not_written_iff, forall_not_keyword_iff, forall_not_numeric_iff]
  · refine htext.mpr ⟨rfl, forall_not_written_iff.mpr
      ⟨forall_not_keyword_iff.mpr hkeyword, hitems, fun datum h => ?_⟩⟩
    obtain h | h | ⟨hpoint, h⟩ := h.of_mem hc
    · exact Bool.eq_false_iff.mp hsign h
    · exact Bool.eq_false_iff.mp hdigit h
    · obtain ⟨hne, hlower, hupper⟩ := hmark hpoint
      obtain h | h | h := h
      · exact hne h
      · exact hlower h
      · exact hupper h

/-- A word of floating point, an exponent without a point, a separator, another base and digits of
another script make texts; the least integer of a word has leading zeros, and one more below it is
held in floating point. -/
theorem ofToken_partitions_words :
    ofToken "inf" = .text "inf" ∧ ofToken "1e5" = .text "1e5" ∧ ofToken "1_000" = .text "1_000" ∧
    ofToken "0x1F" = .text "0x1F" ∧ ofToken "٣" = .text "٣" ∧
    ofToken "-009223372036854775808" = .int (-9223372036854775808) ∧
    ofToken "-9223372036854775809" = .float (.finite true 4503599627370496 11) := by
  have htext (token : String) (c : Char) (hc : c ∈ token.toList) (hmore : c.isDigit = false)
      (hsign : isSign c = false) (hpoint : '.' ∉ token.toList)
      (hkeyword : ∀ keyword ∈ ["NULL", "TRUE", "FALSE"], eqIgnoringAsciiCase token keyword = false)
      (hopens : token.toList.head? ≠ some '[') : ofToken token = .text token := by
    obtain ⟨-, -, -, -, -, -, -, h⟩ := ofToken_partitions token
    exact h c hc hsign hmore (fun h => absurd h hpoint) hkeyword fun items h => hopens h.opens
  have hsigned {token : String} (digits : List Char) (hne : digits ≠ [])
      (hdigits : ∀ c ∈ digits, c.isDigit = true) (h : token.toList = '-' :: digits) :
      token.toList ∈ (⟨true, digits, none, none⟩ : Numeral).integerTexts :=
    ⟨rfl, rfl, ⟨hne, hdigits⟩, ['-'], rfl, h⟩
  refine ⟨htext _ 'i' ?_ ?_ ?_ ?_ ?_ ?_, htext _ 'e' ?_ ?_ ?_ ?_ ?_ ?_,
    htext _ '_' ?_ ?_ ?_ ?_ ?_ ?_, htext _ 'x' ?_ ?_ ?_ ?_ ?_ ?_, htext _ '٣' ?_ ?_ ?_ ?_ ?_ ?_,
    ?least, ?below⟩
  case least =>
    obtain ⟨-, -, -, h, -⟩ := ofToken_partitions "-009223372036854775808"
    exact (h _).mpr ⟨by decide, _, hsigned "009223372036854775808".toList
      (by decide) (by decide) rfl, by decide⟩
  case below =>
    obtain ⟨-, -, -, -, h, -⟩ := ofToken_partitions "-9223372036854775809"
    exact (h _).mpr ⟨_, .inl (Numeral.roundsTo_of_ofNumeral (by decide)),
      .inl ⟨hsigned "9223372036854775809".toList (by decide) (by decide) rfl, by decide⟩⟩
  all_goals decide

/-- A token in brackets may be the text of an array, in which every number is near to a finite one,
and be a text nevertheless. -/
theorem ofToken_text_of_array :
    "[1.7976931348623158e308]".toList.head? = some '[' ∧
    "[1.7976931348623158e308]".toList.getLast? = some ']' ∧
    doubled "[1.7976931348623158e308]".toList ∈ texts Numeral.RoundsTo greatestDepth
      (.array [.real (.finite false 9007199254740991 971)]) ∧
    ofToken "[1.7976931348623158e308]" = .text "[1.7976931348623158e308]" := by
  refine ⟨by decide, by decide, ?_, ?_⟩
  · rw [doubled_of_quote_not_mem (by decide)]
    exact aboveGreatest_mem_texts Numeral.aboveGreatest_roundsTo
  · exact ofToken_eq_text (v := "1.7976931348623158e308".toList) (by decide)
      fun others => doubled_not_mem_texts (by decide +kernel)

end Datum

end SchemaChange
