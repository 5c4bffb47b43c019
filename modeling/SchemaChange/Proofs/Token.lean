import SchemaChange.Datum
import SchemaChange.Proofs.CharClass

/-!
# Forms of tokens

A token that does not begin with a letter is no keyword. The decimal form of an integer that fits a
word is read back as that integer.
-/

namespace SchemaChange

open SchemaChange.Text

theorem Text.isBlank_of_isDigit {c : Char} (h : c.isDigit = true) : isBlank c = false := by
  have hall : ∀ n < 58, (Char.ofNat n).isDigit = true → isBlank (Char.ofNat n) = false := by
    decide
  have hlt : c.toNat < 58 := by
    have heq : c.val.toNat = c.toNat := rfl
    simp only [Char.isDigit, Bool.and_eq_true, decide_eq_true_eq, UInt32.le_iff_toNat_le] at h
    have hnine : '9'.val.toNat = 57 := rfl
    omega
  simpa using hall c.toNat hlt (by simpa using h)

namespace Number

variable {s : List Char}

theorem sign_of_digits (h : ∀ c ∈ s, c.isDigit = true) : sign s = (false, s) := by
  unfold sign
  split
  · exact absurd (h '-' (by simp)) (by decide)
  · exact absurd (h '+' (by simp)) (by decide)
  · rfl

theorem digits_append {rest : List Char} (h : ∀ c ∈ s, c.isDigit = true)
    (hrest : Stops Char.isDigit rest) : digits (s ++ rest) = (s, rest) := by
  rw [digits, takeWhile_append_of_stops h hrest, dropWhile_append_of_stops h hrest]

/-- The decimal form of an integer, with the parts of a number. -/
def Numeral.ofInt (n : Int) : Numeral :=
  ⟨decide (n < 0), Nat.toDigits 10 n.natAbs, none, none⟩

theorem Numeral.toInt_ofInt (n : Int) : (Numeral.ofInt n).toInt = n := by
  unfold Numeral.toInt Numeral.ofInt
  simp only [Nat.ofDigitChars_ten_toDigits, decide_eq_true_eq]
  split
  · omega
  · omega

theorem Numeral.ofChars?_intText (n : Int) :
    Numeral.ofChars? (Json.intText n) = some (Numeral.ofInt n) := by
  have hdigits : ∀ c ∈ Nat.toDigits 10 n.natAbs, c.isDigit = true := fun _ hc =>
    Nat.isDigit_of_mem_toDigits (by decide) (by decide) hc
  have hunsigned (negative : Bool) : Numeral.unsigned negative (Nat.toDigits 10 n.natAbs) =
      some (⟨negative, Nat.toDigits 10 n.natAbs, none, none⟩, []) := by
    have hall := digits_append hdigits stops_nil
    rw [List.append_nil] at hall
    rw [Numeral.unsigned, hall]
    rfl
  unfold Json.intText Numeral.ofInt Numeral.ofChars?
  by_cases hn : n < 0
  · rw [if_pos hn, sign]
    simp [hunsigned, hn]
  · rw [if_neg hn, sign_of_digits hdigits]
    simp [hunsigned, hn]

end Number

namespace Datum

open SchemaChange.Number (Numeral)

variable {token : String} {c d : Char} {s t : List Char}

theorem eqIgnoringAsciiCase_eq_false (word : String) (htoken : token.toList = c :: s)
    (hc : ¬ c.isAlpha = true)
    (hword : word.toList = d :: t) (hd : d.isAlpha = true) :
    eqIgnoringAsciiCase token word = false := by
  rw [eqIgnoringAsciiCase, htoken, hword, beq_eq_false_iff_ne]
  intro heq
  obtain rfl | ⟨hc', -⟩ := eq_or_isAlpha_of_toLower_eq (List.cons.inj heq).1
  · exact hc hd
  · exact hc hc'

theorem ofKeyword?_eq_none (htoken : token.toList = c :: s) (hc : ¬ c.isAlpha = true) :
    ofKeyword? token = none := by
  rw [ofKeyword?, eqIgnoringAsciiCase_eq_false "NULL" htoken hc rfl rfl,
    eqIgnoringAsciiCase_eq_false "TRUE" htoken hc rfl rfl,
    eqIgnoringAsciiCase_eq_false "FALSE" htoken hc rfl rfl]
  rfl

/-- The decimal form of an integer is a run of digits, behind a minus if the integer is negative. -/
theorem mem_intText {n : Int} (h : c ∈ Json.intText n) : c = '-' ∨ c.isDigit = true := by
  have hdigit {c : Char} (hc : c ∈ Nat.toDigits 10 n.natAbs) : c.isDigit = true :=
    Nat.isDigit_of_mem_toDigits (by decide) (by decide) hc
  unfold Json.intText at h
  split at h
  · exact (List.mem_cons.mp h).imp id hdigit
  · exact Or.inr (hdigit h)

theorem intText_ne_nil (n : Int) : Json.intText n ≠ [] := by
  unfold Json.intText
  split
  · simp
  · exact Nat.toDigits_ne_nil

/-- An integer in decimal form is classified as itself. -/
theorem ofToken_intText {n : Int} (h : Number.fitsSigned n = true) :
    ofToken (String.ofList (Json.intText n)) = .int n := by
  obtain ⟨c, s, hcons⟩ := List.exists_cons_of_ne_nil (intText_ne_nil n)
  have hc := mem_intText (n := n) (c := c) (by simp [hcons])
  have halpha : ¬ c.isAlpha = true := by
    intro halpha
    obtain rfl | hdigit := hc
    · exact absurd halpha (by decide)
    · have := of_isAlpha (p := fun c => c.isDigit = false) (by decide) halpha
      rw [hdigit] at this
      cases this
  have hbracket : isBracketed (Json.intText n) = false := by
    have hne : c ≠ '[' := by
      rintro rfl
      exact absurd hc (by decide)
    simp [isBracketed, hcons, hne]
  have hnumeral : ofNumeral? (Numeral.ofInt n) = some (.int n) := by
    have hwhole : (Numeral.ofInt n).whole.isEmpty = false := by
      simp [Numeral.ofInt, Nat.toDigits_ne_nil]
    have hexponent : (Numeral.ofInt n).exponent = none := rfl
    have hfraction : (Numeral.ofInt n).fraction = none := rfl
    simp [ofNumeral?, hfraction, hwhole, hexponent, Numeral.toInt_ofInt, h]
  rw [ofToken, ofKeyword?_eq_none (by rw [String.toList_ofList, hcons]) halpha]
  simp only [String.toList_ofList, hbracket, Number.Numeral.ofChars?_intText, Option.bind_some,
    hnumeral]
  rfl

end Datum

end SchemaChange
