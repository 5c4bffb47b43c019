import Mathlib.Computability.Language
import SchemaChange.Proofs.Scaling
import SchemaChange.Proofs.Token

/-!
# Strings and numbers of JSON

The texts that denote a string or a number, as formal languages, and that the readers take exactly
these. A number ends where nothing follows that could be more of it. What a number in floating point
denotes is a matter of its own: the languages leave it to a relation, and the reader scales.
-/

namespace SchemaChange.Json

open SchemaChange.Text (Reader Stops stops_nil stops_cons stops_append)
open SchemaChange.Number (Binary64 Numeral)

variable {c : Char} {cs rest s w : List Char} {u n : Nat} {real : Numeral → Binary64 → Prop}

/-! ## Strings -/

/-- Four hexadecimal digits of a number. -/
def IsUnit (u : Nat) (digits : List Char) : Prop :=
  ∃ a b c d : Char, ∃ i j k l : Nat, digits = [a, b, c, d] ∧ hexDigit? a = some i ∧
    hexDigit? b = some j ∧ hexDigit? c = some k ∧ hexDigit? d = some l ∧
    u = ((i * 16 + j) * 16 + k) * 16 + l

/-- The ways to write a character in a string. -/
inductive CharacterText : Char → List Char → Prop
  | plain {c : Char} (hquote : c ≠ '"') (hslash : c ≠ '\\') (hcontrol : 0x20 ≤ c.toNat) :
      CharacterText c [c]
  | letter {letter c : Char} (h : letterEscape? letter = some c) : CharacterText c ['\\', letter]
  | unit {u : Nat} {digits : List Char} (h : IsUnit u digits) (hhigh : isHighSurrogate u = false)
      (hlow : isLowSurrogate u = false) : CharacterText (Char.ofNat u) ('\\' :: 'u' :: digits)
  | pair {u v : Nat} {high low : List Char} (h : IsUnit u high) (h' : IsUnit v low)
      (hhigh : isHighSurrogate u = true) (hlow : isLowSurrogate v = true) :
      CharacterText (Char.ofNat (0x10000 + (u - 0xD800) * 0x400 + (v - 0xDC00)))
        ('\\' :: 'u' :: (high ++ '\\' :: 'u' :: low))

/-- The characters of a string one after the other. -/
inductive CharactersText : List Char → List Char → Prop
  | nil : CharactersText [] []
  | cons {c : Char} {cs v w : List Char} (hc : CharacterText c v) (hcs : CharactersText cs w) :
      CharactersText (c :: cs) (v ++ w)

/-- A string in its quotes. -/
def stringTexts (value : String) : Language Char :=
  {w | ∃ v, CharactersText value.toList v ∧ w = '"' :: (v ++ ['"'])}

theorem unit16_eq_some_iff :
    unit16 s = some (u, rest) ↔ ∃ digits, IsUnit u digits ∧ s = digits ++ rest := by
  constructor
  · intro h
    unfold unit16 at h
    split at h
    · rename_i a b c d s
      simp only [Option.bind_eq_bind, Option.bind_eq_some_iff, Option.some.injEq,
        Prod.mk.injEq] at h
      obtain ⟨i, hi, j, hj, k, hk, l, hl, rfl, rfl⟩ := h
      exact ⟨[a, b, c, d], ⟨a, b, c, d, i, j, k, l, rfl, hi, hj, hk, hl, rfl⟩, rfl⟩
    · cases h
  · rintro ⟨_, ⟨a, b, c, d, i, j, k, l, rfl, hi, hj, hk, hl, rfl⟩, rfl⟩
    simp [unit16, hi, hj, hk, hl]

theorem exists_text_of_unicodeEscape (h : unicodeEscape s = some (c, rest)) :
    ∃ w, CharacterText c ('\\' :: 'u' :: w) ∧ s = w ++ rest := by
  simp only [unicodeEscape, Option.bind_eq_bind, Option.bind_eq_some_iff] at h
  obtain ⟨⟨u, s'⟩, hunit, h⟩ := h
  obtain ⟨high, hhigh, rfl⟩ := unit16_eq_some_iff.mp hunit
  split at h
  · rename_i hsurrogate
    split at h
    · simp only [Option.bind_eq_some_iff] at h
      obtain ⟨⟨v, s'⟩, hunit', h⟩ := h
      obtain ⟨low, hlow, rfl⟩ := unit16_eq_some_iff.mp hunit'
      split at h
      · rename_i hsurrogate'
        simp only [Option.some.injEq, Prod.mk.injEq] at h
        obtain ⟨rfl, rfl⟩ := h
        obtain rfl := ‹_ = '\\' :: 'u' :: (low ++ _)›
        exact ⟨_, .pair hhigh hlow hsurrogate hsurrogate', by simp⟩
      · cases h
    · cases h
  · rename_i hsurrogate
    split at h
    · cases h
    · rename_i hsurrogate'
      cases h
      exact ⟨high, .unit hhigh (by simpa using hsurrogate) (by simpa using hsurrogate'), rfl⟩

theorem exists_text_of_character (hquote : s.head? ≠ some '"') (h : character s = some (c, rest)) :
    ∃ w, CharacterText c w ∧ s = w ++ rest := by
  unfold character at h
  split at h
  · cases h
  · obtain ⟨w, hw, rfl⟩ := exists_text_of_unicodeEscape h
    exact ⟨_, hw, rfl⟩
  · rename_i letter s hu
    obtain ⟨d, hd, heq⟩ := Option.map_eq_some_iff.mp h
    cases heq
    exact ⟨_, .letter hd, rfl⟩
  · cases h
  · rename_i d s hu hslash hend
    split at h
    · cases h
    · rename_i hcontrol
      simp only [Option.some.injEq, Prod.mk.injEq] at h
      obtain ⟨rfl, rfl⟩ := h
      refine ⟨[d], .plain (by simpa using hquote) ?_ (by omega), rfl⟩
      rintro rfl
      cases s with
      | nil => exact hend rfl rfl
      | cons c s => exact hslash c s rfl rfl

theorem character_append (h : CharacterText c w) : character (w ++ rest) = some (c, rest) := by
  cases h with
  | plain hquote hslash hcontrol =>
    have hnot : ¬ c.toNat < 0x20 := by omega
    simp [character, hslash, hnot]
  | @letter letter c h =>
    have hu : letter ≠ 'u' := by
      rintro rfl
      simp [letterEscape?] at h
    rw [List.cons_append, List.cons_append, character]
    · rw [h, Option.map_some, List.nil_append]
    · simpa using hu
  | unit h hhigh hlow =>
    simp [character, unicodeEscape, unit16_eq_some_iff.mpr ⟨_, h, rfl⟩, hhigh, hlow]
  | pair h h' hhigh hlow =>
    simp [character, unicodeEscape, unit16_eq_some_iff.mpr ⟨_, h, rfl⟩,
      unit16_eq_some_iff.mpr ⟨_, h', rfl⟩, hhigh, hlow]

/-- The text of a character is not empty, and a quote in it stands behind a backslash. -/
theorem CharacterText.exists_cons (h : CharacterText c w) : ∃ d v, w = d :: v ∧ d ≠ '"' := by
  cases h with
  | plain hquote hslash hcontrol => exact ⟨c, [], rfl, hquote⟩
  | letter h => exact ⟨'\\', _, rfl, by decide⟩
  | unit h hhigh hlow => exact ⟨'\\', _, rfl, by decide⟩
  | pair h h' hhigh hlow => exact ⟨'\\', _, rfl, by decide⟩

theorem exists_text_of_characters (h : characters n s = some (cs, rest)) :
    ∃ w, CharactersText cs w ∧ s = w ++ '"' :: rest := by
  induction n generalizing s cs with
  | zero => cases h
  | succ n ih =>
    unfold characters at h
    split at h
    · cases h
      exact ⟨[], .nil, rfl⟩
    · rename_i s' hquote
      simp only [Option.bind_eq_bind, Option.bind_eq_some_iff, Option.some.injEq,
        Prod.mk.injEq] at h
      obtain ⟨⟨c, s'⟩, hc, ⟨cs, s'⟩, hcs, rfl, rfl⟩ := h
      have hhead : s.head? ≠ some '"' := by
        rw [ne_eq, List.head?_eq_some_iff]
        rintro ⟨s', rfl⟩
        exact hquote s' rfl
      obtain ⟨v, hv, rfl⟩ := exists_text_of_character hhead hc
      obtain ⟨w, hw, rfl⟩ := ih hcs
      exact ⟨v ++ w, .cons hv hw, by simp⟩

theorem characters_append (h : CharactersText cs w) (hn : w.length < n) :
    characters n (w ++ '"' :: rest) = some (cs, rest) := by
  induction h generalizing n with
  | nil =>
    obtain ⟨n, rfl⟩ := Nat.exists_eq_succ_of_ne_zero (Nat.ne_of_gt hn)
    rfl
  | @cons c cs v w hc hcs ih =>
    obtain ⟨n, rfl⟩ := Nat.exists_eq_succ_of_ne_zero (Nat.ne_of_gt (Nat.zero_lt_of_lt hn))
    have hchar : character (v ++ (w ++ '"' :: rest)) = some (c, w ++ '"' :: rest) :=
      character_append hc
    obtain ⟨d, v, rfl, hd⟩ := hc.exists_cons
    have hlt : w.length < n := by
      simp only [List.length_append, List.length_cons] at hn
      omega
    rw [List.append_assoc, characters]
    · rw [hchar]
      simp [ih hlt]
    · intro s heq
      exact hd (List.cons.inj heq).1

theorem string_eq_some_iff {value : String} :
    string s = some (value, rest) ↔ ∃ w ∈ stringTexts value, '"' :: s = w ++ rest := by
  constructor
  · intro h
    simp only [string, Option.bind_eq_bind, Option.bind_eq_some_iff, Option.some.injEq,
      Prod.mk.injEq] at h
    obtain ⟨⟨cs, s'⟩, hcs, rfl, rfl⟩ := h
    obtain ⟨w, hw, rfl⟩ := exists_text_of_characters hcs
    exact ⟨_, ⟨w, by simpa using hw, rfl⟩, by simp⟩
  · rintro ⟨_, ⟨v, hv, rfl⟩, heq⟩
    obtain rfl : s = v ++ '"' :: rest := by simpa using heq
    have hlength : v.length < (v ++ '"' :: rest).length + 1 := by
      rw [List.length_append]
      omega
    rw [string, characters_append hv hlength]
    simp

/-! ## Numbers -/

/-- At least one digit. -/
def IsRun (digits : List Char) : Prop :=
  digits ≠ [] ∧ ∀ c ∈ digits, c.isDigit = true

def signTexts (negative : Bool) : Language Char :=
  if negative then {['-']} else 1

/-- The digits of the whole part, with no zero in front of others. -/
def wholeTexts (whole : List Char) : Language Char :=
  {w | w = whole ∧ IsRun whole ∧ (whole.head? = some '0' → whole.length = 1)}

def fractionTexts : Option (List Char) → Language Char
  | none => 1
  | some digits => {w | w = '.' :: digits ∧ IsRun digits}

/-- The sign of an exponent, where a plus may be written as well. -/
def exponentSigns (negative : Bool) : Language Char :=
  if negative then {['-']} else 1 + {['+']}

/-- An exponent behind its mark. -/
def exponentTexts : Option Int → Language Char
  | none => 1
  | some power => {w | ∃ mark negative, ∃ sign ∈ exponentSigns negative, ∃ digits, IsRun digits ∧
      (mark = 'e' ∨ mark = 'E') ∧ w = mark :: (sign ++ digits) ∧
      power = if negative then -(Nat.ofDigitChars 10 digits 0 : Int)
        else (Nat.ofDigitChars 10 digits 0 : Int)}

/-- A number as JSON has it, behind its sign. -/
def unsignedTexts (n : Numeral) : Language Char :=
  wholeTexts n.whole * (fractionTexts n.fraction * exponentTexts n.exponent)

def numeralTexts (n : Numeral) : Language Char :=
  signTexts n.negative * unsignedTexts n

/-- The numerals of integers that are kept as they are: those of a word, signed or unsigned, but no
negative zero. -/
def KeepsInteger (n : Numeral) : Prop :=
  n.fraction = none ∧ n.exponent = none ∧ (-2 ^ 63 ≤ n.toInt ∧ n.toInt < 2 ^ 64) ∧
    ¬ (n.negative = true ∧ n.toInt = 0)

/-- The value of a numeral. What is not kept as an integer is a number in floating point, and `real`
says which one. -/
inductive Denotes (real : Numeral → Binary64 → Prop) (n : Numeral) : Json → Prop
  | int (h : KeepsInteger n) : Denotes real n (.int n.toInt)
  | real {x : Binary64} (h : ¬ KeepsInteger n) (hx : real n x) : Denotes real n (.real x)

/-- The numbers with a given value. -/
def numberTexts (real : Numeral → Binary64 → Prop) (value : Json) : Language Char :=
  {w | ∃ n, w ∈ numeralTexts n ∧ Denotes real n value}

/-- What could be more of a number. -/
def isMore (c : Char) : Bool :=
  c.isDigit || c == '.' || c == 'e' || c == 'E'

theorem isRun_digits (h : (Number.digits s).1 ≠ []) : IsRun (Number.digits s).1 :=
  ⟨h, Text.mem_takeWhile⟩

theorem digits_append_digits (s : List Char) : (Number.digits s).1 ++ (Number.digits s).2 = s :=
  List.takeWhile_append_dropWhile

theorem exists_sign {negative : Bool} (h : Number.sign s = (negative, rest)) :
    ∃ w ∈ exponentSigns negative, s = w ++ rest := by
  unfold Number.sign at h
  split at h
  · cases h
    exact ⟨['-'], rfl, rfl⟩
  · cases h
    exact ⟨['+'], Or.inr rfl, rfl⟩
  · cases h
    exact ⟨[], Or.inl rfl, rfl⟩

theorem sign_append {negative : Bool} (h : w ∈ exponentSigns negative) (hs : IsRun s) :
    Number.sign (w ++ (s ++ rest)) = (negative, s ++ rest) := by
  cases negative with
  | true =>
    obtain rfl : w = ['-'] := h
    rfl
  | false =>
    obtain rfl | rfl : w = [] ∨ w = ['+'] := h
    · obtain ⟨c, s, rfl⟩ := List.exists_cons_of_ne_nil hs.1
      have hc := hs.2 c (by simp)
      rw [List.nil_append, List.cons_append, Number.sign]
      · rintro _ ⟨⟩
        exact absurd hc (by decide)
      · rintro _ ⟨⟩
        exact absurd hc (by decide)
    · rfl

theorem exists_text_of_exponentPart {power : Option Int}
    (h : Number.exponentPart s = some (power, rest)) :
    ∃ w ∈ exponentTexts power, s = w ++ rest := by
  unfold Number.exponentPart at h
  split at h
  · cases h
    exact ⟨[], rfl, rfl⟩
  · rename_i mark s
    split at h
    · rename_i hmark
      have hmark : mark = 'e' ∨ mark = 'E' := by simpa using hmark
      cases hread : Number.sign s with
      | mk negative s' =>
        obtain ⟨sign, hsign, rfl⟩ := exists_sign hread
        simp only [hread] at h
        split at h
        · cases h
        · rename_i ds rest hne hdigits
          cases h
          have hrun := isRun_digits (s := s') (by simpa [hdigits] using hne)
          have hbehind := digits_append_digits s'
          rw [hdigits] at hrun hbehind
          obtain rfl : ds ++ rest = s' := hbehind
          exact ⟨_, ⟨mark, _, sign, hsign, ds, hrun, hmark, rfl, rfl⟩, by simp⟩
    · cases h
      exact ⟨[], rfl, rfl⟩

theorem stops_digit_of_isMore (h : Stops isMore rest) : Stops Char.isDigit rest := by
  intro c hc
  have := h c hc
  simp only [isMore, Bool.or_eq_false_iff] at this
  exact this.1.1.1

theorem exponentPart_append {power : Option Int} (hw : w ∈ exponentTexts power)
    (hrest : Stops isMore rest) : Number.exponentPart (w ++ rest) = some (power, rest) := by
  cases power with
  | none =>
    obtain rfl : w = [] := hw
    cases rest with
    | nil => rfl
    | cons c rest =>
      have hc := stops_cons.mp hrest
      simp only [isMore, Bool.or_eq_false_iff, beq_eq_false_iff_ne] at hc
      simp [Number.exponentPart, hc]
  | some power =>
    obtain ⟨mark, negative, sign, hsign, ds, hrun, hmark, rfl, rfl⟩ := hw
    have hdigits := Number.digits_append hrun.2 (stops_digit_of_isMore hrest)
    obtain ⟨d, ds, rfl⟩ := List.exists_cons_of_ne_nil hrun.1
    rw [List.cons_append, List.append_assoc, Number.exponentPart, if_pos (by simpa using hmark),
      sign_append hsign hrun]
    simp only [hdigits]

theorem exists_text_of_fractionPart (hne : (Number.fractionPart s).1 ≠ some []) :
    ∃ w ∈ fractionTexts (Number.fractionPart s).1, s = w ++ (Number.fractionPart s).2 := by
  unfold Number.fractionPart at hne ⊢
  split at hne
  · rename_i s
    have hrun := isRun_digits fun hnil => hne (congrArg some hnil)
    exact ⟨_, ⟨rfl, hrun⟩, congrArg ('.' :: ·) (digits_append_digits s).symm⟩
  · exact ⟨[], rfl, rfl⟩

theorem fractionPart_append {fraction : Option (List Char)} (hw : w ∈ fractionTexts fraction)
    (hrest : Stops (fun c => c.isDigit || c == '.') rest) :
    Number.fractionPart (w ++ rest) = (fraction, rest) := by
  cases fraction with
  | none =>
    obtain rfl : w = [] := hw
    cases rest with
    | nil => rfl
    | cons c rest =>
      have hc := stops_cons.mp hrest
      simp only [Bool.or_eq_false_iff, beq_eq_false_iff_ne] at hc
      rw [List.nil_append, Number.fractionPart]
      rintro _ ⟨⟩
      exact hc.2 rfl
  | some digits =>
    obtain ⟨rfl, hrun⟩ := hw
    have hdigit : Stops Char.isDigit rest := by
      intro c hc
      exact (Bool.or_eq_false_iff.mp (hrest c hc)).1
    rw [List.cons_append, Number.fractionPart, Number.digits_append hrun.2 hdigit]

/-- What follows the whole part of a number does not begin with a digit. -/
theorem stops_of_exponentTexts {p : Char → Bool} {power : Option Int}
    (hw : w ∈ exponentTexts power) (hmark : p 'e' = false ∧ p 'E' = false) (hrest : Stops p rest) :
    Stops p (w ++ rest) := by
  cases power with
  | none =>
    obtain rfl : w = [] := hw
    exact hrest
  | some power =>
    obtain ⟨mark, negative, sign, -, ds, -, rfl | rfl, rfl, -⟩ := hw
    · exact stops_cons.mpr hmark.1
    · exact stops_cons.mpr hmark.2

theorem stops_of_fractionTexts {p : Char → Bool} {fraction : Option (List Char)}
    (hw : w ∈ fractionTexts fraction) (hpoint : p '.' = false) (hrest : Stops p rest) :
    Stops p (w ++ rest) := by
  cases fraction with
  | none =>
    obtain rfl : w = [] := hw
    exact hrest
  | some digits =>
    obtain ⟨rfl, -⟩ := hw
    exact stops_cons.mpr hpoint

theorem exists_text_of_unsigned {negative : Bool} {n : Numeral}
    (h : Numeral.unsigned negative s = some (n, rest)) (hjson : isJsonNumeral n = true) :
    n.negative = negative ∧ ∃ w ∈ unsignedTexts n, s = w ++ rest := by
  simp only [Numeral.unsigned, Option.bind_eq_bind, Option.bind_eq_some_iff, Option.some.injEq,
    Prod.mk.injEq] at h
  obtain ⟨⟨power, s'⟩, hexponent, rfl, rfl⟩ := h
  simp only [isJsonNumeral, Bool.and_eq_true, Bool.not_eq_true', bne_iff_ne, Bool.or_eq_true,
    beq_iff_eq] at hjson
  obtain ⟨⟨hwhole, hzero⟩, hfraction⟩ := hjson
  have hrun := isRun_digits (s := s) (by simpa using hwhole)
  obtain ⟨v, hv, hbehind⟩ := exists_text_of_fractionPart hfraction
  obtain ⟨w, hw, hend⟩ := exists_text_of_exponentPart hexponent
  refine ⟨rfl, _, Language.append_mem_mul ⟨rfl, hrun, ?_⟩ (Language.append_mem_mul hv hw), ?_⟩
  · exact fun hhead => hzero.resolve_left (fun hne => hne hhead)
  · simp only [List.append_assoc]
    rw [← hend, ← hbehind, digits_append_digits]

theorem unsigned_append {n : Numeral} (hw : w ∈ unsignedTexts n) (hrest : Stops isMore rest) :
    Numeral.unsigned n.negative (w ++ rest) = some (n, rest) ∧ isJsonNumeral n = true := by
  obtain ⟨_, ⟨rfl, hrun, hzero⟩, _, h₁, rfl⟩ := Language.mem_mul.mp hw
  obtain ⟨fraction, hfraction, power, hpower, rfl⟩ := Language.mem_mul.mp h₁
  have hmore {p : Char → Bool} (hp : ∀ c, isMore c = false → p c = false) : Stops p rest :=
    fun c hc => hp c (hrest c hc)
  have hbehind : Stops (fun c => c.isDigit || c == '.') (power ++ rest) := by
    refine stops_of_exponentTexts hpower (by decide) (hmore fun c hc => ?_)
    simp only [isMore, Bool.or_eq_false_iff] at hc ⊢
    exact hc.1.1
  have hdigits : Stops Char.isDigit (fraction ++ (power ++ rest)) :=
    stops_of_fractionTexts hfraction (by decide)
      (stops_of_exponentTexts hpower (by decide) (stops_digit_of_isMore hrest))
  constructor
  · simp only [Numeral.unsigned, Option.bind_eq_bind, List.append_assoc,
      Number.digits_append hrun.2 hdigits, fractionPart_append hfraction hbehind,
      exponentPart_append hpower hrest, Option.bind_some]
  · have hne : n.fraction ≠ some [] := by
      intro hnil
      rw [hnil] at hfraction
      exact hfraction.2.1 rfl
    simp only [isJsonNumeral, Bool.and_eq_true, Bool.not_eq_true', bne_iff_ne, Bool.or_eq_true,
      beq_iff_eq]
    refine ⟨⟨by simpa using hrun.1, ?_⟩, hne⟩
    exact (em (n.whole.head? = some '0')).symm.imp id hzero

theorem staysInteger_iff {n : Numeral} : staysInteger n = true ↔ KeepsInteger n := by
  simp only [staysInteger, Numeral.isIntegral, Number.fitsSigned, Number.fitsUnsigned, KeepsInteger,
    Bool.and_eq_true, Bool.or_eq_true, Bool.not_eq_true', ← Bool.not_eq_true, beq_iff_eq,
    decide_eq_true_eq, Option.isNone_iff_eq_none]
  rw [and_assoc, and_assoc]
  refine and_congr_right fun _ => and_congr_right fun _ => ?_
  refine and_congr_left fun _ => ?_
  omega

/-- The reader gives a numeral its value, scaled if it is none of the integers. -/
theorem ofNumeral?_eq_some_iff {n : Numeral} {value : Json} :
    ofNumeral? n = some value ↔ Denotes Numeral.ScalesTo n value := by
  unfold ofNumeral?
  split_ifs with hinteger
  · rw [staysInteger_iff] at hinteger
    constructor
    · rintro ⟨⟩
      exact .int hinteger
    · rintro (_ | ⟨hnot, -⟩)
      · rfl
      · exact absurd hinteger hnot
  · rw [staysInteger_iff] at hinteger
    rw [Option.map_eq_some_iff]
    constructor
    · rintro ⟨x, hx, rfl⟩
      exact .real hinteger (Numeral.scaled?_eq_some_iff.mp hx)
    · rintro (h | ⟨-, hx⟩)
      · exact absurd h hinteger
      · exact ⟨_, Numeral.scaled?_eq_some_iff.mpr hx, rfl⟩

/-- The reader of a number behind its sign. -/
def magnitude (negative : Bool) : Reader Json := fun s => do
  let (n, s) ← Numeral.unsigned negative s
  if isJsonNumeral n then (ofNumeral? n).map fun value => (value, s) else none

theorem number_minus : number ('-' :: s) = magnitude true s := rfl

theorem number_of_no_minus (h : s.head? ≠ some '-') : number s = magnitude false s := by
  unfold number
  split
  rename_i negative s' hsign
  split at hsign
  · exact absurd rfl h
  · cases hsign
    rfl

theorem exists_text_of_magnitude {negative : Bool} {value : Json}
    (h : magnitude negative s = some (value, rest)) :
    ∃ n, n.negative = negative ∧ ofNumeral? n = some value ∧
      ∃ w ∈ unsignedTexts n, s = w ++ rest := by
  simp only [magnitude, Option.bind_eq_bind, Option.bind_eq_some_iff] at h
  obtain ⟨⟨n, s'⟩, hunsigned, h⟩ := h
  split at h
  · rename_i hjson
    obtain ⟨_, hvalue, heq⟩ := Option.map_eq_some_iff.mp h
    cases heq
    obtain ⟨hnegative, hw⟩ := exists_text_of_unsigned hunsigned hjson
    exact ⟨n, hnegative, hvalue, hw⟩
  · cases h

theorem magnitude_append {n : Numeral} {value : Json} (hw : w ∈ unsignedTexts n)
    (hvalue : ofNumeral? n = some value) (hrest : Stops isMore rest) :
    magnitude n.negative (w ++ rest) = some (value, rest) := by
  obtain ⟨hunsigned, hjson⟩ := unsigned_append hw hrest
  simp [magnitude, hunsigned, hjson, hvalue]

theorem exists_text_of_number {value : Json} (h : number s = some (value, rest)) :
    ∃ w ∈ numberTexts Numeral.ScalesTo value, s = w ++ rest := by
  have hsigned (negative : Bool) (sign s : List Char) (hsign : sign ∈ signTexts negative)
      (h : magnitude negative s = some (value, rest)) :
      ∃ w ∈ numberTexts Numeral.ScalesTo value, sign ++ s = w ++ rest := by
    obtain ⟨n, rfl, hvalue, w, hw, rfl⟩ := exists_text_of_magnitude h
    exact ⟨sign ++ w, ⟨n, Language.append_mem_mul hsign hw, ofNumeral?_eq_some_iff.mp hvalue⟩,
      by simp⟩
  by_cases hminus : s.head? = some '-'
  · obtain ⟨s, rfl⟩ := List.head?_eq_some_iff.mp hminus
    rw [number_minus] at h
    exact hsigned true ['-'] s rfl h
  · rw [number_of_no_minus hminus] at h
    exact hsigned false [] s rfl h

theorem exists_digit_of_unsignedTexts {n : Numeral} (hw : w ∈ unsignedTexts n) :
    ∃ d t, w = d :: t ∧ d.isDigit = true := by
  obtain ⟨_, ⟨rfl, hrun, -⟩, t, -, rfl⟩ := Language.mem_mul.mp hw
  obtain ⟨d, ds, hcons⟩ := List.exists_cons_of_ne_nil hrun.1
  exact ⟨d, ds ++ t, by rw [hcons, List.cons_append], hrun.2 d (by simp [hcons])⟩

/-- A number is read as far as it goes. -/
theorem number_append {value : Json} (hw : w ∈ numberTexts Numeral.ScalesTo value)
    (hrest : Stops isMore rest) :
    number (w ++ rest) = some (value, rest) := by
  obtain ⟨n, hn, hvalue⟩ := hw
  obtain ⟨sign, hsign, v, hv, rfl⟩ := Language.mem_mul.mp hn
  have hread := magnitude_append hv (ofNumeral?_eq_some_iff.mpr hvalue) hrest
  cases hnegative : n.negative with
  | true =>
    rw [hnegative] at hsign hread
    obtain rfl : sign = ['-'] := hsign
    rwa [List.cons_append, List.nil_append, List.cons_append, number_minus]
  | false =>
    rw [hnegative] at hsign hread
    obtain rfl : sign = [] := hsign
    obtain ⟨d, t, rfl, hd⟩ := exists_digit_of_unsignedTexts hv
    rw [List.nil_append, number_of_no_minus, hread]
    rw [List.cons_append, List.head?_cons, ne_eq, Option.some.injEq]
    rintro rfl
    exact absurd hd (by decide)

end SchemaChange.Json
