import SchemaChange.Proofs.JsonScalar

/-!
# The texts of written numbers

A written number is an optional sign, digits, a point with digits behind it, and an exponent, where
each part may be left out. The reader takes exactly these texts and finds their parts.
-/

namespace SchemaChange.Number

open SchemaChange.Text (Stops stops_nil stops_cons mem_takeWhile)
open SchemaChange.Json (IsRun exponentSigns exponentTexts)

variable {n : Numeral} {s w : List Char}

/-- Digits, possibly none. -/
def IsDigits (digits : List Char) : Prop :=
  ∀ c ∈ digits, c.isDigit = true

/-- A point with digits behind it, possibly none, or nothing. -/
def pointPart : Option (List Char) → List Char
  | none => []
  | some digits => '.' :: digits

/-- The texts with the parts of a numeral. A sign is a minus, or else a plus or nothing. -/
def Numeral.writtenTexts (n : Numeral) : Language Char :=
  {w | IsDigits n.whole ∧ IsDigits (n.fraction.getD []) ∧
    ∃ sign ∈ exponentSigns n.negative, ∃ power ∈ exponentTexts n.exponent,
      w = sign ++ (n.whole ++ (pointPart n.fraction ++ power))}

/-- The texts of a sign and digits. -/
def Numeral.integerTexts (n : Numeral) : Language Char :=
  {w | n.fraction = none ∧ n.exponent = none ∧ IsRun n.whole ∧
    ∃ sign ∈ exponentSigns n.negative, w = sign ++ n.whole}

/-- The texts with a point, and a digit on one of its sides at least. -/
def Numeral.pointTexts (n : Numeral) : Language Char :=
  {w | ∃ fraction, n.fraction = some fraction ∧ IsDigits n.whole ∧ IsDigits fraction ∧
    (n.whole ≠ [] ∨ fraction ≠ []) ∧
    ∃ sign ∈ exponentSigns n.negative, ∃ power ∈ exponentTexts n.exponent,
      w = sign ++ (n.whole ++ ('.' :: fraction ++ power))}

theorem isDigits_digits (s : List Char) : IsDigits (digits s).1 := mem_takeWhile

theorem fractionPart_eq (s : List Char) :
    IsDigits ((fractionPart s).1.getD []) ∧
      s = pointPart (fractionPart s).1 ++ (fractionPart s).2 := by
  unfold fractionPart
  split
  · exact ⟨isDigits_digits _, congrArg ('.' :: ·) (Json.digits_append_digits _).symm⟩
  · exact ⟨by simp [IsDigits], rfl⟩

theorem fractionPart_append {fraction : Option (List Char)} (hdigits : IsDigits (fraction.getD []))
    (hrest : Stops (fun c => c.isDigit || c == '.') s) :
    fractionPart (pointPart fraction ++ s) = (fraction, s) := by
  cases fraction with
  | none =>
    have hnone : pointPart none ∈ Json.fractionTexts none := rfl
    exact Json.fractionPart_append hnone hrest
  | some ds =>
    have hds : IsDigits ds := hdigits
    have hstops : Stops Char.isDigit s := fun c hc => (Bool.or_eq_false_iff.mp (hrest c hc)).1
    rw [pointPart, List.cons_append, fractionPart, digits_append hds hstops]

theorem stops_pointPart {p : Char → Bool} (fraction : Option (List Char)) (hpoint : p '.' = false)
    (hs : Stops p s) : Stops p (pointPart fraction ++ s) := by
  cases fraction with
  | none => exact hs
  | some ds => exact stops_cons.mpr hpoint

/-- Whether a character is a sign. -/
def isSign (c : Char) : Bool :=
  c == '-' || c == '+'

theorem sign_append {negative : Bool} (hw : w ∈ exponentSigns negative) (hs : Stops isSign s) :
    sign (w ++ s) = (negative, s) := by
  have hnone : sign s = (false, s) := by
    unfold sign
    split
    · exact absurd (stops_cons.mp hs) (by decide)
    · exact absurd (stops_cons.mp hs) (by decide)
    · rfl
  cases negative with
  | true =>
    obtain rfl : w = ['-'] := hw
    rfl
  | false =>
    obtain rfl | rfl : w = [] ∨ w = ['+'] := hw
    · exact hnone
    · rfl

theorem stops_isSign_of_isDigits {digits : List Char} (hdigits : IsDigits digits)
    (hs : Stops isSign s) : Stops isSign (digits ++ s) := by
  cases digits with
  | nil => exact hs
  | cons c digits =>
    refine stops_cons.mpr ?_
    have hc := hdigits c List.mem_cons_self
    simp only [isSign, Bool.or_eq_false_iff, beq_eq_false_iff_ne]
    constructor
    · rintro rfl
      exact absurd hc (by decide)
    · rintro rfl
      exact absurd hc (by decide)

/-- The reader takes a whole text as a numeral exactly if it is written with these parts. -/
theorem Numeral.ofChars?_eq_some_iff : ofChars? w = some n ↔ w ∈ n.writtenTexts := by
  constructor
  · intro h
    simp only [ofChars?, unsigned, Option.bind_eq_bind, Option.bind_eq_some_iff] at h
    obtain ⟨⟨numeral, rest⟩, ⟨⟨power, rest'⟩, hpower, hparts⟩, h⟩ := h
    obtain ⟨rfl, rfl⟩ := Prod.mk.inj (Option.some.inj hparts)
    split at h
    · rename_i hempty
      obtain rfl := List.isEmpty_iff.mp hempty
      obtain rfl := Option.some.inj h
      obtain ⟨sign, hsign, hw⟩ := Json.exists_sign (s := w) rfl
      obtain ⟨tail, htail, heq⟩ := Json.exists_text_of_exponentPart hpower
      obtain ⟨hfraction, hpoint⟩ := fractionPart_eq (digits (Number.sign w).2).2
      refine ⟨isDigits_digits _, hfraction, sign, hsign, tail, htail, ?_⟩
      rw [List.append_nil] at heq
      rw [← heq, ← hpoint, Json.digits_append_digits]
      exact hw
    · cases h
  · rintro ⟨hwhole, hfraction, sign, hsign, power, hpower, rfl⟩
    have hstops {p : Char → Bool} (hmark : p 'e' = false ∧ p 'E' = false) : Stops p power := by
      simpa using Json.stops_of_exponentTexts hpower hmark stops_nil
    have hpoint {p : Char → Bool} (hmark : p 'e' = false ∧ p 'E' = false)
        (hpoint : p '.' = false) : Stops p (pointPart n.fraction ++ power) :=
      stops_pointPart n.fraction hpoint (hstops hmark)
    have hread : exponentPart power = some (n.exponent, []) := by
      simpa using Json.exponentPart_append hpower stops_nil
    have hbehind : Number.sign (sign ++ (n.whole ++ (pointPart n.fraction ++ power))) =
        (n.negative, n.whole ++ (pointPart n.fraction ++ power)) :=
      sign_append hsign (stops_isSign_of_isDigits hwhole (hpoint (by decide) (by decide)))
    simp [ofChars?, unsigned, hbehind, digits_append hwhole (hpoint (by decide) (by decide)),
      fractionPart_append hfraction (hstops (by decide)), hread]

theorem Numeral.mem_integerTexts_iff : w ∈ n.integerTexts ↔
    w ∈ n.writtenTexts ∧ n.fraction = none ∧ n.exponent = none ∧ n.whole ≠ [] := by
  obtain ⟨negative, whole, fraction, exponent⟩ := n
  constructor
  · rintro ⟨hfraction, hexponent, hrun, sign, hsign, rfl⟩
    dsimp only at *
    subst hfraction hexponent
    exact ⟨⟨hrun.2, by simp [IsDigits], sign, hsign, [], rfl, by simp [pointPart]⟩, rfl, rfl, hrun.1⟩
  · rintro ⟨⟨hwhole, -, sign, hsign, power, hpower, rfl⟩, hfraction, hexponent, hne⟩
    dsimp only at *
    subst hfraction hexponent
    obtain rfl : power = [] := hpower
    exact ⟨rfl, rfl, ⟨hne, hwhole⟩, sign, hsign, by simp [pointPart]⟩

theorem Numeral.mem_pointTexts_iff : w ∈ n.pointTexts ↔
    w ∈ n.writtenTexts ∧ ∃ fraction, n.fraction = some fraction ∧
      (n.whole ≠ [] ∨ fraction ≠ []) := by
  obtain ⟨negative, whole, fraction, exponent⟩ := n
  constructor
  · rintro ⟨fraction, hfraction, hwhole, hdigits, hne, sign, hsign, power, hpower, rfl⟩
    dsimp only at *
    subst hfraction
    exact ⟨⟨hwhole, hdigits, sign, hsign, power, hpower, rfl⟩, fraction, rfl, hne⟩
  · rintro ⟨⟨hwhole, hdigits, sign, hsign, power, hpower, rfl⟩, fraction, hfraction, hne⟩
    dsimp only at *
    subst hfraction
    exact ⟨fraction, rfl, hwhole, hdigits, hne, sign, hsign, power, hpower, rfl⟩

/-! ## The characters of a written number -/

theorem isSign_of_exponentSigns {negative : Bool} (hw : w ∈ exponentSigns negative) :
    ∀ c ∈ w, isSign c = true := by
  cases negative with
  | true =>
    obtain rfl : w = ['-'] := hw
    decide
  | false =>
    obtain rfl | rfl : w = [] ∨ w = ['+'] := hw
    · simp
    · decide

/-- In an exponent stand its mark, signs and digits. -/
theorem of_mem_exponentTexts {power : Option Int} (hw : w ∈ exponentTexts power) {c : Char}
    (hc : c ∈ w) : (c = 'e' ∨ c = 'E') ∨ isSign c = true ∨ c.isDigit = true := by
  cases power with
  | none =>
    obtain rfl : w = [] := hw
    cases hc
  | some power =>
    obtain ⟨mark, negative, sign, hsign, digits, hrun, hmark, rfl, -⟩ := hw
    obtain rfl | hc := List.mem_cons.mp hc
    · exact Or.inl hmark
    · exact Or.inr ((List.mem_append.mp hc).imp (isSign_of_exponentSigns hsign c) (hrun.2 c))

end SchemaChange.Number
