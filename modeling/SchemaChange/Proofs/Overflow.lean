import Mathlib.Algebra.Order.Field.Power
import Mathlib.Algebra.Order.Field.Rat
import Mathlib.Data.Int.Log
import Mathlib.Data.Rat.Floor
import Mathlib.Tactic.GCongr
import Mathlib.Tactic.NormNum
import Mathlib.Tactic.Positivity
import SchemaChange.Number.Binary64

/-!
# Overflow

The decimal numbers that are too large for a finite floating-point number. They begin halfway
between the greatest finite number and the next power of two: the halfway point itself is rounded to
the even side, and that is the power of two.
-/

namespace SchemaChange.Number

/-- The magnitude of a written number. -/
def Numeral.magnitude (n : Numeral) : ℚ :=
  n.significand * 10 ^ n.scale

namespace Binary64

variable {a b den k m num significand : Nat} {negative sign : Bool} {scale : Int}

/-- Shifting both parts scales a quotient by a power of two. -/
theorem shift_quotient (num den : Nat) (e : Int) :
    ((num <<< (-e).toNat : Nat) : ℚ) / (den <<< e.toNat : Nat) = num / den / 2 ^ e := by
  obtain ⟨j, rfl | rfl⟩ := e.eq_nat_or_neg
  · simp [Nat.shiftLeft_eq, div_div]
  · simp [Nat.shiftLeft_eq, div_mul_eq_mul_div]

/-- The counts of binary digits give the logarithm up to one, and one comparison settles it. -/
theorem log2Quotient_eq_log (hnum : num ≠ 0) (hden : den ≠ 0) :
    log2Quotient num den = Int.log 2 ((num : ℚ) / den) := by
  have hnum₁ : (2 : ℚ) ^ (num.log2 : Int) ≤ num := by
    rw [zpow_natCast]
    exact_mod_cast Nat.log2_self_le hnum
  have hnum₂ : (num : ℚ) < 2 ^ ((num.log2 : Int) + 1) := by
    exact_mod_cast Nat.lt_log2_self (n := num)
  have hden₁ : (2 : ℚ) ^ (den.log2 : Int) ≤ den := by
    rw [zpow_natCast]
    exact_mod_cast Nat.log2_self_le hden
  have hden₂ : (den : ℚ) < 2 ^ ((den.log2 : Int) + 1) := by
    exact_mod_cast Nat.lt_log2_self (n := den)
  have hden₀ : (0 : ℚ) < den := Nat.cast_pos.mpr (Nat.pos_of_ne_zero hden)
  have hquotient : (0 : ℚ) < num / den := div_pos (Nat.cast_pos.mpr (Nat.pos_of_ne_zero hnum)) hden₀
  generalize hguess : (num.log2 : Int) - den.log2 = guess
  have hleast : guess - 1 ≤ Int.log 2 ((num : ℚ) / den) := by
    rw [← Int.zpow_le_iff_le_log (by decide) hquotient, le_div_iff₀ hden₀, Nat.cast_ofNat]
    calc (2 : ℚ) ^ (guess - 1) * den ≤ 2 ^ (guess - 1) * 2 ^ ((den.log2 : Int) + 1) := by gcongr
      _ = 2 ^ (num.log2 : Int) := by rw [← zpow_add₀ two_ne_zero]; congr 1; omega
      _ ≤ num := hnum₁
  have hgreatest : Int.log 2 ((num : ℚ) / den) < guess + 1 := by
    rw [← Int.lt_zpow_iff_log_lt (by decide) hquotient, div_lt_iff₀ hden₀, Nat.cast_ofNat]
    calc (num : ℚ) < 2 ^ ((num.log2 : Int) + 1) := hnum₂
      _ = 2 ^ (guess + 1) * 2 ^ (den.log2 : Int) := by
        rw [← zpow_add₀ two_ne_zero]; congr 1; omega
      _ ≤ 2 ^ (guess + 1) * den := by gcongr
  have hcompare : den <<< guess.toNat ≤ num <<< (-guess).toNat ↔
      guess ≤ Int.log 2 ((num : ℚ) / den) := by
    have hshift : (0 : ℚ) < (den <<< guess.toNat : Nat) := by
      rw [Nat.shiftLeft_eq]
      exact Nat.cast_pos.mpr (Nat.mul_pos (Nat.pos_of_ne_zero hden) (Nat.two_pow_pos _))
    rw [← Int.zpow_le_iff_le_log (by decide) hquotient, Nat.cast_ofNat, ← Nat.cast_le (α := ℚ),
      ← one_le_div₀ hshift, shift_quotient, one_le_div₀ (by positivity)]
  unfold log2Quotient
  dsimp only
  rw [hguess]
  split_ifs with hle
  · have := hcompare.mp hle
    omega
  · have := mt hcompare.mpr hle
    omega

theorem le_log2Quotient_iff (hnum : num ≠ 0) (hden : den ≠ 0) :
    (k : Int) ≤ log2Quotient num den ↔ den * 2 ^ k ≤ num := by
  have hnum₀ : (0 : ℚ) < num := Nat.cast_pos.mpr (Nat.pos_of_ne_zero hnum)
  have hden₀ : (0 : ℚ) < den := Nat.cast_pos.mpr (Nat.pos_of_ne_zero hden)
  rw [log2Quotient_eq_log hnum hden, ← Int.zpow_le_iff_le_log (by decide) (div_pos hnum₀ hden₀),
    le_div_iff₀ hden₀, mul_comm, zpow_natCast]
  exact_mod_cast Iff.rfl
/-- A quotient below an even number is rounded to it from halfway on. -/
theorem nearest_eq_succ_iff (hodd : m % 2 = 1) (hlt : a < (m + 1) * b) :
    nearest a b = m + 1 ↔ (2 * m + 1) * b ≤ 2 * a := by
  have hb : 0 < b := Nat.pos_of_ne_zero fun h => by simp [h] at hlt
  have hquotient : a / b ≤ m := Nat.lt_succ_iff.mp ((Nat.div_lt_iff_lt_mul hb).mpr hlt)
  have hsplit : b * (a / b) + a % b = a := Nat.div_add_mod a b
  have hrest : a % b < b := Nat.mod_lt a hb
  unfold nearest
  dsimp only
  generalize a / b = q at *
  generalize a % b = r at *
  obtain hq | rfl := Nat.lt_or_eq_of_le hquotient
  · have hmul : b * (q + 1) ≤ b * m := Nat.mul_le_mul_left b hq
    have hbelow : 2 * a < (2 * m + 1) * b := by
      rw [Nat.mul_add] at hmul
      rw [Nat.add_mul, Nat.mul_assoc, Nat.mul_comm m b]
      omega
    refine iff_of_false ?_ (Nat.not_le.mpr hbelow)
    split_ifs
    all_goals omega
  · have hhalf : (2 * q + 1) * b ≤ 2 * a ↔ b ≤ 2 * r := by
      rw [Nat.add_mul, Nat.mul_assoc, Nat.mul_comm q b]
      omega
    rw [hhalf]
    split_ifs
    all_goals omega

/-- The exponent decides, after the carry that a significand of 54 bits makes. -/
theorem ofQuotient_eq_infinite_iff_exponent {exponent : Int}
    (hexponent : exponent = max (log2Quotient num den - 52) leastExponent) :
    ofQuotient negative num den = .infinite sign ↔
      negative = sign ∧ (greatestExponent < exponent ∨
        nearest (num <<< (-exponent).toNat) (den <<< exponent.toNat) = 2 * leastNormal ∧
          greatestExponent < exponent + 1) := by
  unfold ofQuotient
  rw [← hexponent]
  dsimp only
  split_ifs with hcarry hgreat hgreat
  · simp [hcarry, hgreat]
  · have hless : ¬ greatestExponent < exponent := by omega
    simp [hgreat, hless]
  · simp [hgreat]
  · simp [hcarry, hgreat]

theorem ofQuotient_eq_infinite_iff (hnum : num ≠ 0) (hden : den ≠ 0) :
    ofQuotient negative num den = .infinite sign ↔
      negative = sign ∧ (2 ^ 54 - 1) * (den * 2 ^ 970) ≤ num := by
  have hgreat := le_log2Quotient_iff (k := 970 + 54) hnum hden
  have hlast := le_log2Quotient_iff (k := 970 + 53) hnum hden
  have hunit (i j : Nat) : den * 2 ^ (i + j) = 2 ^ j * (den * 2 ^ i) := by
    rw [Nat.pow_add, Nat.mul_comm (2 ^ i), Nat.mul_left_comm]
  rw [hunit 970 54] at hgreat
  rw [hunit 970 53] at hlast
  rw [ofQuotient_eq_infinite_iff_exponent rfl]
  refine and_congr_right fun _ => ?_
  have hdouble (i : Nat) : den <<< (i + 1) = 2 * (den * 2 ^ i) := by
    rw [Nat.shiftLeft_eq, hunit i 1, Nat.pow_one]
  have hhalf := hdouble 970
  generalize den * 2 ^ 970 = unit at *
  simp only [greatestExponent, leastExponent, leastNormal]
  generalize log2Quotient num den = power at *
  obtain hlt | rfl | hgt := lt_trichotomy power 1023
  · exact iff_of_false (by omega) (by omega)
  · have hround := nearest_eq_succ_iff (m := 2 ^ 53 - 1) (a := num) (b := 2 * unit)
      (by decide) (by omega)
    have hpower : max ((1023 : Int) - 52) (-1074) = 971 := by decide
    have hshift : (-971 : Int).toNat = 0 ∧ (971 : Int).toNat = 970 + 1 := by decide
    rw [hpower, hshift.1, hshift.2, Nat.shiftLeft_zero, hhalf]
    omega
  · exact iff_of_true (by omega) (by omega)

/-! ## Decimal numbers -/

/-- The least magnitude that no finite number is near to. -/
def overflow : ℚ :=
  2 ^ 1024 - 2 ^ 970

theorem overflow_eq : overflow = (2 ^ 54 - 1) * 2 ^ 970 := by
  have hpow (x y : Nat) : (2 : ℚ) ^ (x + y) = 2 ^ y * 2 ^ x := by rw [pow_add, mul_comm]
  rw [overflow, hpow 970 54, sub_mul, one_mul]

/-- The least power of ten beyond all finite numbers. -/
theorem overflow_le : overflow ≤ 10 ^ 309 := by
  have hstep : (2 : ℚ) ^ 128 ≤ 341 * 10 ^ 36 := by norm_num
  calc overflow ≤ 2 ^ 1024 := sub_le_self _ (by positivity)
    _ = (2 ^ 128) ^ 8 := by rw [← pow_mul]
    _ ≤ (341 * 10 ^ 36) ^ 8 := by gcongr
    _ = 341 ^ 8 * 10 ^ 288 := by rw [mul_pow, ← pow_mul]
    _ ≤ 10 ^ 21 * 10 ^ 288 := by gcongr; norm_num
    _ = 10 ^ 309 := by rw [← pow_add]

theorem one_lt_overflow : 1 < overflow := by
  rw [overflow_eq]
  calc (1 : ℚ) < 2 ^ 54 - 1 := by norm_num
    _ ≤ (2 ^ 54 - 1) * 2 ^ 970 :=
      le_mul_of_one_le_right (by norm_num) (one_le_pow₀ (by norm_num))

/-- The count of digits gives a magnitude up to a factor of ten. -/
theorem significand_bounds (hsignificand : significand ≠ 0) :
    (10 : ℚ) ^ (((Nat.toDigits 10 significand).length : Int) - 1) ≤ significand ∧
      (significand : ℚ) < 10 ^ ((Nat.toDigits 10 significand).length : Int) := by
  obtain ⟨size, hsize⟩ : ∃ size, (Nat.toDigits 10 significand).length = size + 1 :=
    Nat.exists_eq_succ_of_ne_zero (Nat.ne_of_gt Nat.length_toDigits_pos)
  rw [hsize]
  constructor
  · have hle : 10 ^ size ≤ significand := by
      obtain rfl | hpos := Nat.eq_zero_or_pos size
      · exact Nat.one_le_iff_ne_zero.mpr hsignificand
      · refine Nat.le_of_not_lt fun hlt => ?_
        have := (Nat.length_toDigits_le_iff (by decide) hpos).mpr hlt
        omega
    rw [Nat.cast_succ, add_sub_cancel_right, zpow_natCast]
    exact_mod_cast hle
  · have hlt : significand < 10 ^ (size + 1) :=
      (Nat.length_toDigits_le_iff (by decide) (Nat.succ_pos _)).mp hsize.le
    rw [zpow_natCast]
    exact_mod_cast hlt

/-- The threshold against a quotient of natural numbers. -/
theorem overflow_le_div_iff (hden : den ≠ 0) :
    overflow ≤ (num : ℚ) / den ↔ (2 ^ 54 - 1) * (den * 2 ^ 970) ≤ num := by
  have hpos : (0 : ℚ) < den := Nat.cast_pos.mpr (Nat.pos_of_ne_zero hden)
  have hcast : ((2 ^ 54 - 1 : Nat) : ℚ) = 2 ^ 54 - 1 := by norm_num
  rw [le_div_iff₀ hpos, overflow_eq, ← Nat.cast_le (α := ℚ)]
  rw [Nat.cast_mul, hcast, Nat.cast_mul, Nat.cast_pow, Nat.cast_ofNat, mul_comm (den : ℚ), mul_assoc]

/-- A decimal number is a quotient of natural numbers. -/
theorem mul_tenPow_eq_div (significand : Nat) (scale : Int) :
    significand * (10 : ℚ) ^ scale =
      (significand * Nat.pow 10 scale.toNat : Nat) / (Nat.pow 10 (-scale).toNat : Nat) := by
  obtain ⟨j, rfl | rfl⟩ := scale.eq_nat_or_neg
  · simp
  · simp [div_eq_mul_inv]

theorem ofDecimal_eq_infinite_iff : ofDecimal negative significand scale = .infinite sign ↔
    negative = sign ∧ overflow ≤ significand * (10 : ℚ) ^ scale := by
  by_cases hzero : significand = 0
  · have hsmall : ¬ overflow ≤ (0 : ℚ) := not_le.mpr (one_lt_overflow.trans' zero_lt_one)
    simp [hzero, ofDecimal, zero, hsmall]
  obtain ⟨hleast, hgreatest⟩ := significand_bounds hzero
  have hscale : (0 : ℚ) < 10 ^ scale := by positivity
  unfold ofDecimal
  extract_lets size
  -- on either side the count of digits settles it, and the quotient is rounded only in between
  split_ifs with hlow hhigh
  · have hsize : size < -330 := by simpa [hzero] using hlow
    have hsmall : significand * (10 : ℚ) ^ scale < overflow :=
      calc significand * (10 : ℚ) ^ scale
        _ < 10 ^ ((Nat.toDigits 10 significand).length : Int) * 10 ^ scale := by gcongr
        _ = 10 ^ size := (zpow_add₀ (by norm_num) _ _).symm
        _ ≤ 10 ^ (0 : Int) := zpow_le_zpow_right₀ (by norm_num) (by omega)
        _ = 1 := zpow_zero _
        _ < overflow := one_lt_overflow
    simp [zero, not_le.mpr hsmall]
  · have hlarge : overflow ≤ significand * (10 : ℚ) ^ scale :=
      calc overflow ≤ 10 ^ (309 : Int) := overflow_le
        _ ≤ 10 ^ (((Nat.toDigits 10 significand).length : Int) - 1 + scale) :=
          zpow_le_zpow_right₀ (by norm_num) (by omega)
        _ = 10 ^ (((Nat.toDigits 10 significand).length : Int) - 1) * 10 ^ scale :=
          zpow_add₀ (by norm_num) _ _
        _ ≤ significand * 10 ^ scale := by gcongr
    simp [hlarge]
  · have hden : Nat.pow 10 (-scale).toNat ≠ 0 := Nat.ne_of_gt (Nat.pow_pos (by decide))
    have hnum : significand * Nat.pow 10 scale.toNat ≠ 0 :=
      Nat.mul_ne_zero hzero (Nat.ne_of_gt (Nat.pow_pos (by decide)))
    rw [ofQuotient_eq_infinite_iff hnum hden, mul_tenPow_eq_div, overflow_le_div_iff hden]

/-- A written number is rounded to infinity from the threshold on. -/
theorem ofNumeral_eq_infinite_iff {n : Numeral} :
    ofNumeral n = .infinite sign ↔ n.negative = sign ∧ overflow ≤ n.magnitude :=
  ofDecimal_eq_infinite_iff

end Binary64

end SchemaChange.Number
