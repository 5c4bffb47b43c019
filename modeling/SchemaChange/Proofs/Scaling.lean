import SchemaChange.Proofs.Rounding

/-!
# Scaling by powers of ten

What scaling makes of a written number, said with exact products and quotients: the significand, the
power of ten and the result are rounded, each once, and a small power is taken in several steps.
-/

namespace SchemaChange.Number

variable {n : Nat} {power : Int}

namespace Magnitude

variable {ten x y z : Magnitude}

theorem numerator_div_denominator (x : Magnitude) :
    (x.numerator : ℚ) / x.denominator = x.value := by
  have h := Binary64.shift_quotient x.significand 1 (-x.exponent)
  rw [Int.neg_neg, Nat.cast_one, div_one, zpow_neg, div_inv_eq_mul] at h
  exact h

theorem denominator_ne_zero (x : Magnitude) : x.denominator ≠ 0 := by
  rw [denominator, Nat.shiftLeft_eq, Nat.one_mul]
  exact Nat.two_pow_pos _ |>.ne'

theorem numerator_ne_zero (hx : x.value ≠ 0) : x.numerator ≠ 0 := by
  intro h
  rw [← numerator_div_denominator, h, Nat.cast_zero, zero_div] at hx
  exact hx rfl

theorem mul?_eq_some_iff : x.mul? y = some z ↔ Nearest (x.value * y.value) z := by
  rw [mul?, nearest?_eq_some_iff (Nat.mul_ne_zero x.denominator_ne_zero y.denominator_ne_zero),
    Nat.cast_mul, Nat.cast_mul, mul_div_mul_comm, numerator_div_denominator,
    numerator_div_denominator]

theorem div?_eq_some_iff (hy : y.value ≠ 0) :
    x.div? y = some z ↔ Nearest (x.value / y.value) z := by
  rw [div?, nearest?_eq_some_iff (Nat.mul_ne_zero x.denominator_ne_zero (numerator_ne_zero hy)),
    Nat.cast_mul, Nat.cast_mul, ← numerator_div_denominator x, ← numerator_div_denominator y,
    div_div_div_eq]

theorem tenPow?_eq_some_iff : tenPow? n = some x ↔ Nearest (10 ^ n) x := by
  rw [tenPow?, nearest?_eq_some_iff one_ne_zero, Nat.cast_one, div_one, Nat.pow_eq, Nat.cast_pow,
    Nat.cast_ofNat]

/-- One is nearer to a greater number than zero is. -/
theorem Nearest.value_ne_zero {q : ℚ} (h : Nearest q x) (hq : 1 ≤ q) : x.value ≠ 0 := by
  have hone : InFormat ⟨2 ^ 52, -52⟩ := ⟨by decide, by decide, by decide, .inr le_rfl⟩
  have hvalue : value ⟨2 ^ 52, -52⟩ = 1 := by norm_num [value]
  intro hx
  have hle := h.least _ hone
  rw [hx, hvalue, zero_sub, abs_neg, abs_of_nonneg (by linarith), abs_sub_comm,
    abs_of_nonneg (by linarith)] at hle
  linarith

theorem tenPow_ne_zero (h : Nearest (10 ^ n) ten) : ten.value ≠ 0 :=
  h.value_ne_zero (one_le_pow₀ (by norm_num))

/-- A number times a power of ten, where every step rounds and the power is rounded first. A power
beyond the finite numbers is divided by in steps, and multiplied by only where the number is zero. -/
inductive Scales : Magnitude → Int → Magnitude → Prop
  | up {x ten y : Magnitude} {power : Nat} (hpower : power ≤ 308)
      (hten : Nearest (10 ^ power) ten) (h : Nearest (x.value * ten.value) y) : Scales x power y
  | down {x ten y : Magnitude} {power : Nat} (hpos : 0 < power) (hpower : power ≤ 308)
      (hten : Nearest (10 ^ power) ten) (h : Nearest (x.value / ten.value) y) : Scales x (-power) y
  | zero {x : Magnitude} {power : Int} (hpower : 308 < power.natAbs) (hx : x.value = 0) :
      Scales x power x
  | step {x ten y z : Magnitude} {power : Int} (hpower : power < -308) (hx : x.value ≠ 0)
      (hten : Nearest (10 ^ 308) ten) (hy : Nearest (x.value / ten.value) y)
      (h : Scales y (power + 308) z) : Scales x power z

theorem scales_of_scale? (h : x.scale? power = some z) : Scales x power z := by
  fun_induction scale? x power with
  | case1 x power hpower =>
    obtain ⟨ten, hten, h⟩ := Option.bind_eq_some_iff.mp h
    have hten := tenPow?_eq_some_iff.mp hten
    split_ifs at h with hpos
    · rw [← Int.natAbs_of_nonneg hpos]
      exact .up hpower hten (mul?_eq_some_iff.mp h)
    · have hneg : power = -(power.natAbs : Int) := by omega
      rw [hneg]
      exact .down (by omega) hpower hten ((div?_eq_some_iff (tenPow_ne_zero hten)).mp h)
  | case2 x power hpower hx =>
    obtain rfl := Option.some.inj h
    exact .zero (Nat.lt_of_not_le hpower) (value_eq_zero_iff.mpr hx)
  | case3 => cases h
  | case4 x power hpower hx hneg ih =>
    obtain ⟨ten, hten, h⟩ := Option.bind_eq_some_iff.mp h
    obtain ⟨y, hy, h⟩ := Option.bind_eq_some_iff.mp h
    have hten := tenPow?_eq_some_iff.mp hten
    have hpower : 308 < power.natAbs := Nat.lt_of_not_le hpower
    exact .step (by omega) (value_eq_zero_iff.not.mpr hx) hten
      ((div?_eq_some_iff (tenPow_ne_zero hten)).mp hy) (ih _ h)

theorem scale?_of_scales (h : Scales x power z) : x.scale? power = some z := by
  induction h with
  | @up x ten y power hpower hten h =>
    rw [scale?, greatestPower, Int.natAbs_natCast, if_pos hpower, tenPow?_eq_some_iff.mpr hten]
    simp [mul?_eq_some_iff.mpr h]
  | @down x ten y power hpos hpower hten h =>
    have hne : power ≠ 0 := by omega
    rw [scale?, greatestPower, Int.natAbs_neg, Int.natAbs_natCast, if_pos hpower,
      tenPow?_eq_some_iff.mpr hten]
    simp [hne, (div?_eq_some_iff (tenPow_ne_zero hten)).mpr h]
  | zero hpower hx =>
    rw [scale?, greatestPower, if_neg (Nat.not_le.mpr hpower), if_pos (value_eq_zero_iff.mp hx)]
  | @step x ten y z power hpower hx hten hy h ih =>
    have hlarge : ¬ power.natAbs ≤ 308 := by omega
    have hneg : ¬ 0 ≤ power := by omega
    rw [scale?, greatestPower, if_neg hlarge, if_neg (value_eq_zero_iff.not.mp hx), if_neg hneg,
      tenPow?_eq_some_iff.mpr hten]
    simp [(div?_eq_some_iff (tenPow_ne_zero hten)).mpr hy, ih]

theorem scale?_eq_some_iff : x.scale? power = some z ↔ Scales x power z :=
  ⟨scales_of_scale?, scale?_of_scales⟩

end Magnitude

/-! ## Digits that fit a word -/

variable {before digits kept omitted : List Char} {c : Char} {m : Nat}

/-- Of the digits that stand behind others, as many are kept as fit a word together with those. -/
structure Kept (before kept omitted : List Char) : Prop where
  fits : Nat.ofDigitChars 10 (before ++ kept) 0 < 2 ^ 64
  full : ∀ c ∈ omitted.head?, 2 ^ 64 ≤ Nat.ofDigitChars 10 (before ++ kept ++ [c]) 0

theorem fitsUnsigned_natCast (m : Nat) : fitsUnsigned m = true ↔ m < 2 ^ 64 := by
  simp only [fitsUnsigned, Bool.and_eq_true, decide_eq_true_eq]
  omega

theorem le_ofDigitChars (m : Nat) (digits : List Char) : m ≤ Nat.ofDigitChars 10 digits m := by
  induction digits generalizing m with
  | nil => exact Nat.le_refl m
  | cons c digits ih =>
    rw [Nat.ofDigitChars_cons]
    exact Nat.le_trans (by omega) (ih _)

/-- There is one way to keep as many digits as fit. -/
theorem Kept.unique {kept' omitted' : List Char} (h : Kept before kept omitted)
    (h' : Kept before kept' omitted') (heq : kept ++ omitted = kept' ++ omitted') :
    kept = kept' ∧ omitted = omitted' := by
  have hlonger {kept extra omitted : List Char} (h : Kept before kept (extra ++ omitted))
      (h' : Kept before (kept ++ extra) omitted) : extra = [] := by
    cases extra with
    | nil => rfl
    | cons c extra =>
      have hfull := h.full c rfl
      have hmore := le_ofDigitChars (Nat.ofDigitChars 10 (before ++ kept ++ [c]) 0) extra
      have hfits := h'.fits
      rw [← List.append_assoc] at hfits
      rw [← Nat.ofDigitChars_append, ← List.append_cons] at hmore
      omega
  obtain ⟨extra, rfl, rfl⟩ | ⟨extra, rfl, rfl⟩ := List.append_eq_append_iff.mp heq
  · obtain rfl := hlonger h h'
    exact ⟨(List.append_nil _).symm, rfl⟩
  · obtain rfl := hlonger h' h
    exact ⟨List.append_nil _, rfl⟩

theorem exists_kept_of_appendDigits (hbefore : Nat.ofDigitChars 10 before 0 < 2 ^ 64)
    (h : appendDigits (Nat.ofDigitChars 10 before 0) digits = (m, omitted)) :
    ∃ kept, digits = kept ++ omitted ∧ Kept before kept omitted ∧
      m = Nat.ofDigitChars 10 (before ++ kept) 0 := by
  induction digits generalizing before with
  | nil =>
    obtain ⟨rfl, rfl⟩ := Prod.mk.inj h
    exact ⟨[], rfl, ⟨by rwa [List.append_nil], by simp⟩, by rw [List.append_nil]⟩
  | cons c digits ih =>
    have hnext : Nat.ofDigitChars 10 [c] (Nat.ofDigitChars 10 before 0) =
        Nat.ofDigitChars 10 (before ++ [c]) 0 := (Nat.ofDigitChars_append 0).symm
    rw [appendDigits, hnext] at h
    by_cases hfits : Nat.ofDigitChars 10 (before ++ [c]) 0 < 2 ^ 64
    · rw [if_pos ((fitsUnsigned_natCast _).mpr hfits)] at h
      obtain ⟨kept, rfl, hkept, rfl⟩ := ih hfits h
      exact ⟨c :: kept, rfl, ⟨by simpa using hkept.fits, by simpa using hkept.full⟩, by simp⟩
    · rw [if_neg ((fitsUnsigned_natCast _).not.mpr hfits)] at h
      obtain ⟨rfl, rfl⟩ := Prod.mk.inj h
      refine ⟨[], rfl, ⟨by rwa [List.append_nil], ?_⟩, by rw [List.append_nil]⟩
      rintro _ ⟨⟩
      rw [List.append_nil]
      exact Nat.not_lt.mp hfits

/-- Digits are appended as long as they fit. -/
theorem appendDigits_eq_iff (hbefore : Nat.ofDigitChars 10 before 0 < 2 ^ 64) :
    appendDigits (Nat.ofDigitChars 10 before 0) digits = (m, omitted) ↔
      ∃ kept, digits = kept ++ omitted ∧ Kept before kept omitted ∧
        m = Nat.ofDigitChars 10 (before ++ kept) 0 := by
  refine ⟨exists_kept_of_appendDigits hbefore, ?_⟩
  rintro ⟨kept, rfl, hkept, rfl⟩
  have happend : appendDigits (Nat.ofDigitChars 10 before 0) (kept ++ omitted) = (_, _) := rfl
  obtain ⟨kept', heq, hkept', hvalue⟩ := exists_kept_of_appendDigits hbefore happend
  obtain ⟨rfl, homitted⟩ := hkept.unique hkept' heq
  exact Prod.ext hvalue homitted.symm

/-- The floating-point number that a numeral is scaled to. Of the digits in front, and again of those
of the fraction, as many are kept as fit a word. The power of ten counts those that are left out in
front and those that are kept behind the point. -/
inductive Numeral.ScalesTo (n : Numeral) : Binary64 → Prop
  | intro {kept omitted kept' omitted' : List Char} {x y : Magnitude}
      (hwhole : n.whole = kept ++ omitted) (hkept : Kept [] kept omitted)
      (hfraction : n.fraction.getD [] = kept' ++ omitted') (hkept' : Kept kept kept' omitted')
      (hx : Magnitude.Nearest (Nat.ofDigitChars 10 (kept ++ kept') 0 : Nat) x)
      (hy : Magnitude.Scales x (n.exponent.getD 0 + omitted.length - kept'.length) y) :
      n.ScalesTo (.finite n.negative y.significand y.exponent)

/-- The parts into which the digits of a numeral fall. -/
theorem Numeral.wordDigits_eq_iff {n : Numeral} {significand left : Nat} :
    n.wordDigits = (significand, left) ↔ ∃ kept omitted kept' omitted' : List Char,
      n.whole = kept ++ omitted ∧ Kept [] kept omitted ∧
      n.fraction.getD [] = kept' ++ omitted' ∧ Kept kept kept' omitted' ∧
      significand = Nat.ofDigitChars 10 (kept ++ kept') 0 ∧
      left = omitted.length + omitted'.length := by
  have hnil : Nat.ofDigitChars 10 [] 0 < 2 ^ 64 := by decide
  constructor
  · intro h
    unfold wordDigits at h
    cases hwhole : appendDigits 0 n.whole with
    | mk front omitted =>
      rw [hwhole] at h
      obtain ⟨kept, hfront, hkept, rfl⟩ := (appendDigits_eq_iff hnil).mp hwhole
      cases hfraction : appendDigits (Nat.ofDigitChars 10 ([] ++ kept) 0) (n.fraction.getD []) with
      | mk m omitted' =>
        simp only [hfraction] at h
        obtain ⟨kept', hbehind, hkept', rfl⟩ := (appendDigits_eq_iff hkept.fits).mp hfraction
        obtain ⟨rfl, rfl⟩ := Prod.mk.inj h
        exact ⟨kept, omitted, kept', omitted', hfront, hkept, hbehind, hkept', rfl, rfl⟩
  · rintro ⟨kept, omitted, kept', omitted', hwhole, hkept, hfraction, hkept', rfl, rfl⟩
    have hfront : appendDigits 0 n.whole = (Nat.ofDigitChars 10 kept 0, omitted) :=
      (appendDigits_eq_iff hnil).mpr ⟨kept, hwhole, hkept, rfl⟩
    have hbehind : appendDigits (Nat.ofDigitChars 10 kept 0) (n.fraction.getD []) =
        (Nat.ofDigitChars 10 (kept ++ kept') 0, omitted') :=
      (appendDigits_eq_iff hkept.fits).mpr ⟨kept', hfraction, hkept', rfl⟩
    rw [wordDigits, hfront]
    dsimp only
    rw [hbehind]

theorem Numeral.scaled?_eq_some_iff {n : Numeral} {x : Binary64} :
    n.scaled? = some x ↔ n.ScalesTo x := by
  have hnearest (m : Nat) (x : Magnitude) : Magnitude.nearest? m 1 = some x ↔ x.Nearest m := by
    rw [Magnitude.nearest?_eq_some_iff one_ne_zero, Nat.cast_one, div_one]
  have hpower {kept' omitted omitted' : List Char}
      (hfraction : n.fraction.getD [] = kept' ++ omitted') :
      n.scale + (omitted.length + omitted'.length : Nat) =
        n.exponent.getD 0 + omitted.length - kept'.length := by
    rw [scale, hfraction, List.length_append]
    omega
  constructor
  · intro h
    unfold scaled? at h
    cases hdigits : n.wordDigits with
    | mk significand left =>
      obtain ⟨kept, omitted, kept', omitted', hwhole, hkept, hfraction, hkept', rfl, rfl⟩ :=
        wordDigits_eq_iff.mp hdigits
      rw [hdigits] at h
      simp only [Option.bind_eq_bind, Option.bind_eq_some_iff, Option.some.injEq,
        hpower hfraction] at h
      obtain ⟨x, hx, y, hy, rfl⟩ := h
      exact .intro hwhole hkept hfraction hkept' ((hnearest _ _).mp hx)
        (Magnitude.scale?_eq_some_iff.mp hy)
  · rintro ⟨hwhole, hkept, hfraction, hkept', hx, hy⟩
    have hdigits := wordDigits_eq_iff.mpr ⟨_, _, _, _, hwhole, hkept, hfraction, hkept', rfl, rfl⟩
    rw [← hpower hfraction] at hy
    simp only [scaled?, hdigits, (hnearest _ _).mpr hx, Magnitude.scale?_eq_some_iff.mpr hy,
      Option.bind_eq_bind, Option.bind_some]

/-! ## Short numbers -/

namespace Magnitude

variable {x : Magnitude} {q : ℚ} {e : Int}

/-- A number of the format is nearest to itself. -/
theorem nearest_of_value_eq (hx : x.InFormat) (hq : q < Binary64.overflow) (h : x.value = q) :
    Nearest q x := by
  refine ⟨hx, hq, fun y _ => ?_, fun y hy hne heq => ?_⟩
  · rw [h, sub_self, abs_zero]
    exact abs_nonneg _
  · rw [h, sub_self, abs_zero, abs_eq_zero, sub_eq_zero, ← h] at heq
    exact absurd (hy.eq_of_value_eq hx heq) hne

/-- A significand of at most 53 bits with a middling exponent is a number of the format. -/
theorem exists_value_eq (hm : m < 2 ^ 53) (hleast : -1022 ≤ e) (hgreatest : e ≤ 971) :
    ∃ x : Magnitude, x.InFormat ∧ x.value = m * 2 ^ e := by
  obtain rfl | hpos := Nat.eq_zero_or_pos m
  · exact ⟨zero, inFormat_zero, by rw [value_zero, Nat.cast_zero, zero_mul]⟩
  · have hlog : m.log2 < 53 := (Nat.log2_lt hpos.ne').mpr hm
    obtain ⟨k, hk⟩ : ∃ k, m.log2 + k = 52 := ⟨52 - m.log2, by omega⟩
    have hfull : 2 ^ 52 ≤ m * 2 ^ k := by
      rw [← hk, Nat.pow_add]
      exact Nat.mul_le_mul_right _ (Nat.log2_self_le hpos.ne')
    have hbits : m * 2 ^ k < 2 ^ 53 :=
      calc m * 2 ^ k < 2 ^ (m.log2 + 1) * 2 ^ k :=
            Nat.mul_lt_mul_of_pos_right Nat.lt_log2_self (Nat.two_pow_pos k)
        _ = 2 ^ 53 := by rw [← Nat.pow_add, Nat.add_right_comm, hk]
    refine ⟨⟨m * 2 ^ k, e - k⟩, ⟨hbits, ?_, ?_, .inr hfull⟩, ?_⟩
    · dsimp only
      omega
    · dsimp only
      omega
    · rw [value, Nat.cast_mul, Nat.cast_pow, Nat.cast_two, zpow_sub₀ two_ne_zero, zpow_natCast]
      field_simp

theorem lt_overflow (hq : q < 2 ^ 99) : q < Binary64.overflow := by
  rw [Binary64.overflow_eq]
  calc q < 2 ^ 99 := hq
    _ ≤ (2 ^ 54 - 1) * 2 ^ 46 := by norm_num
    _ ≤ (2 ^ 54 - 1) * 2 ^ 970 := by
      gcongr
      · norm_num
      · norm_num

/-- The numbers that stand for integers of at most 53 bits and for small powers of ten do so
exactly. -/
theorem exists_nearest_natCast (hm : m < 2 ^ 53) : ∃ x, Nearest m x ∧ x.value = m := by
  obtain ⟨x, hx, hvalue⟩ := exists_value_eq (e := 0) hm (by decide) (by decide)
  rw [zpow_zero, mul_one] at hvalue
  have hlt : (m : ℚ) < 2 ^ 53 := by exact_mod_cast hm
  exact ⟨x, nearest_of_value_eq hx (lt_overflow (hlt.trans (by norm_num))) hvalue, hvalue⟩

theorem exists_nearest_tenPow (hn : n ≤ 22) : ∃ x, Nearest (10 ^ n) x ∧ x.value = 10 ^ n := by
  have hfive : 5 ^ n < 2 ^ 53 :=
    Nat.lt_of_le_of_lt (Nat.pow_le_pow_right (by decide) hn) (by decide)
  obtain ⟨x, hx, hvalue⟩ := exists_value_eq (e := n) hfive (by omega) (by omega)
  have hten : x.value = 10 ^ n := by
    rw [hvalue, zpow_natCast, Nat.cast_pow, ← mul_pow]
    norm_num
  have hlt : (10 : ℚ) ^ n < 2 ^ 99 :=
    calc (10 : ℚ) ^ n ≤ 10 ^ 22 := pow_le_pow_right₀ (by norm_num) hn
      _ < 2 ^ 99 := by norm_num
  exact ⟨x, nearest_of_value_eq hx (lt_overflow hlt) hten, hten⟩

end Magnitude

namespace Numeral

variable {n : Numeral} {x : Binary64}

/-- The finite floating-point number that is nearest to a numeral. -/
inductive RoundsTo (n : Numeral) : Binary64 → Prop
  | finite {x : Magnitude} (h : x.Nearest n.magnitude) :
      n.RoundsTo (.finite n.negative x.significand x.exponent)

theorem roundsTo_of_ofNumeral {sign : Bool} {m : Nat} {e : Int}
    (h : Binary64.ofNumeral n = .finite sign m e) : n.RoundsTo (.finite sign m e) := by
  obtain ⟨rfl, hnearest⟩ := Magnitude.ofNumeral_eq_finite_iff.mp h
  exact .finite hnearest

/-- The number nearest to a numeral is infinite from the threshold on. -/
theorem ofNumeral_eq_iff : Binary64.ofNumeral n = x ↔
    n.RoundsTo x ∨ Binary64.overflow ≤ n.magnitude ∧ x = .infinite n.negative := by
  cases x with
  | infinite sign =>
    rw [Binary64.ofNumeral_eq_infinite_iff]
    constructor
    · rintro ⟨rfl, hlarge⟩
      exact .inr ⟨hlarge, rfl⟩
    · rintro (h | ⟨hlarge, heq⟩)
      · cases h
      · exact ⟨(Binary64.infinite.inj heq).symm, hlarge⟩
  | finite sign m e =>
    constructor
    · exact fun h => .inl (roundsTo_of_ofNumeral h)
    · rintro (h | ⟨-, ⟨⟩⟩)
      cases h with
      | finite h => exact Magnitude.ofNumeral_eq_finite_iff.mpr ⟨rfl, h⟩

/-- Few digits, and a small power of ten. -/
def IsShort (n : Numeral) : Prop :=
  n.significand < 2 ^ 53 ∧ |n.scale| ≤ 22

/-- The digits of a short numeral all fit a word. -/
theorem IsShort.keepsDigits (h : n.IsShort) :
    Kept [] n.whole [] ∧ Kept n.whole (n.fraction.getD []) [] := by
  have hle : Nat.ofDigitChars 10 n.whole 0 ≤ n.significand := by
    rw [significand, Nat.ofDigitChars_append]
    exact le_ofDigitChars _ _
  have hlt := h.1
  refine ⟨⟨?_, by simp⟩, ⟨?_, by simp⟩⟩
  · rw [List.nil_append]
    omega
  · rw [← significand]
    omega

/-- A short numeral is scaled to the number that is nearest to it: the significand and the power of
ten are exact, so only one step rounds. -/
theorem RoundsTo.scalesTo (h : n.RoundsTo x) (hshort : n.IsShort) : n.ScalesTo x := by
  obtain ⟨hnearest⟩ := h
  obtain ⟨hkept, hkept'⟩ := hshort.keepsDigits
  obtain ⟨start, hstart, hexact⟩ := Magnitude.exists_nearest_natCast hshort.1
  refine .intro (List.append_nil _).symm hkept (List.append_nil _).symm hkept' hstart ?_
  have hscale : n.exponent.getD 0 + ([] : List Char).length - (n.fraction.getD []).length =
      n.scale := by
    rw [scale, List.length_nil, Nat.cast_zero, add_zero]
  obtain ⟨hleast, hgreatest⟩ := abs_le.mp hshort.2
  rw [hscale]
  rw [magnitude, ← hexact] at hnearest
  obtain hpos | hneg := le_or_gt 0 n.scale
  · obtain ⟨power, hpower⟩ := Int.eq_ofNat_of_zero_le hpos
    obtain ⟨ten, hten, hvalue⟩ := Magnitude.exists_nearest_tenPow (n := power) (by omega)
    rw [hpower, zpow_natCast, ← hvalue] at hnearest
    rw [hpower]
    exact .up (by omega) hten hnearest
  · obtain ⟨power, hpower⟩ := Int.exists_eq_neg_ofNat hneg.le
    obtain ⟨ten, hten, hvalue⟩ := Magnitude.exists_nearest_tenPow (n := power) (by omega)
    rw [hpower, zpow_neg, zpow_natCast, ← div_eq_mul_inv, ← hvalue] at hnearest
    rw [hpower]
    exact .down (by omega) (by omega) hten hnearest

/-! ## Numbers that are not short -/

/-- The charge of an electron, which is scaled to the number beside the nearest one. -/
def electronCharge : Numeral :=
  ⟨false, ['1'], some ['6', '0', '2', '1', '7', '6', '6', '3', '4'], some (-19)⟩

theorem electronCharge_roundsTo :
    electronCharge.RoundsTo (.finite false 6655181362828883 (-115)) :=
  roundsTo_of_ofNumeral (by decide +kernel)

theorem electronCharge_scalesTo :
    electronCharge.ScalesTo (.finite false 6655181362828884 (-115)) :=
  scaled?_eq_some_iff.mp (by decide +kernel)

/-- A number just above the greatest finite one, which is nearest to it. -/
def aboveGreatest : Numeral :=
  ⟨false, ['1'], some ['7', '9', '7', '6', '9', '3', '1', '3', '4', '8', '6', '2', '3', '1', '5', '8'],
    some 308⟩

theorem aboveGreatest_roundsTo : aboveGreatest.RoundsTo (.finite false 9007199254740991 971) :=
  roundsTo_of_ofNumeral (by decide +kernel)

end Numeral

end SchemaChange.Number
