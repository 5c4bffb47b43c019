import Mathlib.Tactic.FieldSimp
import Mathlib.Tactic.Linarith
import Mathlib.Tactic.Ring
import SchemaChange.Number.Scaling
import SchemaChange.Proofs.Overflow

/-!
# Rounding

What it is to be the number nearest to a rational one, said over all numbers of the format, and that
rounding a quotient finds it. There is at most one such number, and there is none from the threshold
of overflow on.
-/

namespace SchemaChange.Number

variable {a b den k m num : Nat} {e : Int} {q t : ℚ}

/-! ## The nearest integer -/

/-- An integer nearest to a rational number; halfway between two, the even one. -/
structure NearestInt (t : ℚ) (m : Nat) : Prop where
  close : |(m : ℚ) - t| ≤ 1 / 2
  even : |(m : ℚ) - t| = 1 / 2 → m % 2 = 0

section

variable {rest : ℚ}

theorem nearestInt_of_lt_half (hnonneg : 0 ≤ rest) (h : rest < 1 / 2) : NearestInt (m + rest) m := by
  have hdist : |(m : ℚ) - (m + rest)| = rest := by
    rw [sub_add_cancel_left, abs_neg, abs_of_nonneg hnonneg]
  constructor
  · linarith
  · intro heq
    linarith

theorem nearestInt_of_half_lt (h : 1 / 2 < rest) (hless : rest < 1) :
    NearestInt (m + rest) (m + 1) := by
  have hdist : |((m + 1 : Nat) : ℚ) - (m + rest)| = 1 - rest := by
    rw [Nat.cast_add_one, add_sub_add_left_eq_sub, abs_of_pos (by linarith)]
  constructor
  · linarith
  · intro heq
    linarith

/-- Halfway, what makes the integer even is added. -/
theorem nearestInt_half (m : Nat) : NearestInt (m + 1 / 2) (m + m % 2) := by
  obtain heven | hodd := Nat.mod_two_eq_zero_or_one m
  · refine ⟨?_, fun _ => by omega⟩
    rw [heven, Nat.add_zero, sub_add_cancel_left, abs_neg, abs_of_pos (by norm_num)]
  · refine ⟨?_, fun _ => by omega⟩
    rw [hodd, Nat.cast_add_one, add_sub_add_left_eq_sub, abs_of_pos (by norm_num)]
    norm_num

end

/-- The division leaves less than half, half or more. -/
theorem nearestInt_nearest (a : Nat) (hb : 0 < b) :
    NearestInt ((a : ℚ) / b) (Binary64.nearest a b) := by
  have hpos : (0 : ℚ) < b := Nat.cast_pos.mpr hb
  have hsplit : (a : ℚ) / b = (a / b : Nat) + (a % b : Nat) / b := by
    rw [div_eq_iff hpos.ne', add_mul, div_mul_cancel₀ _ hpos.ne']
    exact_mod_cast (Nat.div_add_mod' a b).symm
  have hhalf (r : Nat) : (r : ℚ) / b < 1 / 2 ↔ 2 * r < b := by
    rw [div_lt_div_iff₀ hpos two_pos, one_mul, mul_comm]
    exact_mod_cast Iff.rfl
  have hmore (r : Nat) : 1 / 2 < (r : ℚ) / b ↔ b < 2 * r := by
    rw [div_lt_div_iff₀ two_pos hpos, one_mul, mul_comm (r : ℚ)]
    exact_mod_cast Iff.rfl
  have hless : ((a % b : Nat) : ℚ) / b < 1 := by
    rw [div_lt_one hpos]
    exact_mod_cast Nat.mod_lt a hb
  rw [hsplit]
  unfold Binary64.nearest
  dsimp only
  split_ifs with hbelow habove
  · exact nearestInt_of_lt_half (by positivity) ((hhalf _).mpr hbelow)
  · exact nearestInt_of_half_lt ((hmore _).mpr habove) hless
  · have hrest : ((a % b : Nat) : ℚ) / b = 1 / 2 :=
      le_antisymm (not_lt.mp (mt (hmore _).mp habove)) (not_lt.mp (mt (hhalf _).mp hbelow))
    rw [hrest]
    exact nearestInt_half (a / b)

theorem NearestInt.le_of_le (h : NearestInt t m) (hk : (k : ℚ) ≤ t) : k ≤ m := by
  have hclose := (abs_le.mp h.close).1
  have hlt : (k : ℚ) < (m + 1 : Nat) := by
    push_cast
    linarith
  exact Nat.lt_succ_iff.mp (by exact_mod_cast hlt)

theorem NearestInt.le_of_lt (h : NearestInt t m) (hk : t < k) : m ≤ k := by
  have hclose := (abs_le.mp h.close).2
  have hlt : (m : ℚ) < (k + 1 : Nat) := by
    push_cast
    linarith
  exact Nat.lt_succ_iff.mp (by exact_mod_cast hlt)

/-- Another integer is no nearer, and as near only if it is odd. -/
theorem NearestInt.of_ne (h : NearestInt t m) (hk : k ≠ m) :
    |(m : ℚ) - t| ≤ |(k : ℚ) - t| ∧
      (|(k : ℚ) - t| = |(m : ℚ) - t| → m % 2 = 0 ∧ k % 2 = 1) := by
  have hclose := h.close
  have hapart : 1 ≤ |(k : ℚ) - m| := by
    have : 1 ≤ |(k : Int) - m| := Int.one_le_abs (by omega)
    exact_mod_cast this
  have htriangle : |(k : ℚ) - m| ≤ |(k : ℚ) - t| + |(m : ℚ) - t| := by
    rw [abs_sub_comm (m : ℚ) t]
    exact abs_sub_le _ _ _
  refine ⟨by linarith, fun heq => ?_⟩
  have hhalf : |(m : ℚ) - t| = 1 / 2 := by linarith
  have hone : |(k : ℚ) - m| = 1 := by linarith
  have heven := h.even hhalf
  have hone : |(k : Int) - m| = 1 := by exact_mod_cast hone
  obtain hpos | hneg := abs_choice ((k : Int) - m)
  · omega
  · omega

/-! ## The nearest number -/

namespace Magnitude

open Binary64 (overflow)

variable {x y z : Magnitude}

/-- The rational number that a magnitude is. -/
def value (x : Magnitude) : ℚ :=
  x.significand * 2 ^ x.exponent

/-- The numbers of the format: a significand of 53 bits, an exponent in its range, and no exponent
that is greater than the significand needs. -/
structure InFormat (x : Magnitude) : Prop where
  significand_lt : x.significand < 2 ^ 53
  least_le : -1074 ≤ x.exponent
  le_greatest : x.exponent ≤ 971
  full : x.exponent = -1074 ∨ 2 ^ 52 ≤ x.significand

/-- The number nearest to a rational one that does not overflow; halfway between two, the one with
the even significand. -/
structure Nearest (q : ℚ) (x : Magnitude) : Prop where
  inFormat : x.InFormat
  bounded : q < overflow
  least : ∀ y : Magnitude, y.InFormat → |x.value - q| ≤ |y.value - q|
  even : ∀ y : Magnitude, y.InFormat → y ≠ x → |y.value - q| = |x.value - q| →
    x.significand % 2 = 0

/-- A number of the format is a multiple of a power of two, or else too small for it. An odd multiple
is its own significand. -/
theorem InFormat.grid (hy : y.InFormat) (e : Int) :
    (∃ k : Nat, y.value = k * 2 ^ e ∧ (k % 2 = 1 → y = ⟨k, e⟩)) ∨
      -1074 < e ∧ y.value < 2 ^ 52 * 2 ^ e := by
  by_cases hle : e ≤ y.exponent
  · obtain ⟨j, hj⟩ := Int.le.dest hle
    refine .inl ⟨y.significand * 2 ^ j, ?_, ?_⟩
    · rw [value, ← hj, zpow_add₀ two_ne_zero, zpow_natCast]
      push_cast
      ring
    · intro hodd
      cases j with
      | zero =>
        rw [Nat.pow_zero, Nat.mul_one]
        have : y.exponent = e := by omega
        rw [← this]
      | succ j =>
        rw [Nat.pow_succ, ← Nat.mul_assoc, Nat.mul_mod_left] at hodd
        cases hodd
  · have hleast := hy.least_le
    refine .inr ⟨by omega, ?_⟩
    have hsignificand : (y.significand : ℚ) < 2 ^ 53 := by exact_mod_cast hy.significand_lt
    calc y.value = y.significand * 2 ^ y.exponent := rfl
      _ < 2 ^ 53 * 2 ^ y.exponent := by gcongr
      _ ≤ 2 ^ 53 * 2 ^ (e - 1) := by
        gcongr
        · norm_num
        · omega
      _ = 2 ^ 52 * 2 ^ e := by rw [zpow_sub_one₀ two_ne_zero]; ring

theorem InFormat.eq_of_exponent_le (hx : x.InFormat) (hy : y.InFormat)
    (hle : x.exponent ≤ y.exponent) (h : x.value = y.value) : x = y := by
  obtain ⟨j, hj⟩ := Int.le.dest hle
  have hsignificand : x.significand = y.significand * 2 ^ j := by
    have hpow : (0 : ℚ) < 2 ^ x.exponent := by positivity
    rw [value, value, ← hj, zpow_add₀ two_ne_zero, zpow_natCast, mul_comm (_ ^ _) (2 ^ j),
      ← mul_assoc] at h
    exact_mod_cast mul_right_cancel₀ hpow.ne' h
  cases j with
  | zero =>
    have hexponent : x.exponent = y.exponent := by omega
    rw [Nat.pow_zero, Nat.mul_one] at hsignificand
    cases x
    cases y
    simp_all
  | succ j =>
    have hnormal : 2 ^ 52 ≤ y.significand := by
      have := hx.least_le
      exact hy.full.resolve_left (by omega)
    have hlarge : 2 ^ 52 * 2 ≤ y.significand * 2 ^ (j + 1) :=
      Nat.mul_le_mul hnormal (Nat.le_pow (Nat.succ_pos j))
    have := hx.significand_lt
    omega

/-- The format has no two numbers with one value. -/
theorem InFormat.eq_of_value_eq (hx : x.InFormat) (hy : y.InFormat) (h : x.value = y.value) :
    x = y := by
  obtain hle | hle := Int.le_total x.exponent y.exponent
  · exact hx.eq_of_exponent_le hy hle h
  · exact (hy.eq_of_exponent_le hx hle h.symm).symm

theorem abs_sub_eq_mul (r q : ℚ) (e : Int) : |r * 2 ^ e - q| = |r - q / 2 ^ e| * 2 ^ e := by
  have hpow : (0 : ℚ) < 2 ^ e := by positivity
  have hsplit : r * 2 ^ e - q = (r - q / 2 ^ e) * 2 ^ e := by
    rw [sub_mul, div_mul_cancel₀ _ hpow.ne']
  rw [hsplit, abs_mul, abs_of_pos hpow]

/-- A number whose significand is nearest on its own grid, which is fine enough for the number to be
rounded. -/
structure OnGrid (q : ℚ) (e : Int) (m : Nat) (x : Magnitude) : Prop where
  inFormat : x.InFormat
  value_eq : x.value = m * 2 ^ e
  even : m % 2 = 0 → x.significand % 2 = 0
  rounds : NearestInt (q / 2 ^ e) m
  fine : e = -1074 ∨ 2 ^ 52 ≤ q / 2 ^ e

/-- No other number is nearer, and one that is as near has an odd significand. -/
theorem OnGrid.of_ne (h : OnGrid q e m x) (hy : y.InFormat) (hne : y ≠ x) :
    |x.value - q| ≤ |y.value - q| ∧
      (|y.value - q| = |x.value - q| → x.significand % 2 = 0 ∧ y.significand % 2 = 1) := by
  have hpow : (0 : ℚ) < 2 ^ e := by positivity
  rw [h.value_eq, abs_sub_eq_mul]
  obtain ⟨k, hk, hodd⟩ | ⟨he, hbelow⟩ := hy.grid e
  · have hkm : k ≠ m := by
      rintro rfl
      exact hne (hy.eq_of_value_eq h.inFormat (hk.trans h.value_eq.symm))
    obtain ⟨hle, htie⟩ := h.rounds.of_ne hkm
    rw [hk, abs_sub_eq_mul]
    refine ⟨by gcongr, fun heq => ?_⟩
    obtain ⟨hm, hk⟩ := htie (mul_right_cancel₀ hpow.ne' heq)
    rw [hodd hk]
    exact ⟨h.even hm, hk⟩
  · -- between a smaller number and the rounded one lies the least significand of the grid
    have hfine : 2 ^ 52 ≤ q / 2 ^ e := h.fine.resolve_left (by omega)
    have hq : 2 ^ 52 * 2 ^ e ≤ q := (le_div_iff₀ hpow).mp hfine
    have hle : |(m : ℚ) - q / 2 ^ e| ≤ q / 2 ^ e - 2 ^ 52 := by
      have habs : |((2 ^ 52 : Nat) : ℚ) - q / 2 ^ e| = q / 2 ^ e - 2 ^ 52 := by
        rw [abs_sub_comm, abs_of_nonneg (by push_cast; linarith)]
        norm_num
      by_cases hm : 2 ^ 52 = m
      · rw [← hm, habs]
      · exact (h.rounds.of_ne hm).1.trans_eq habs
    have hlt : |(m : ℚ) - q / 2 ^ e| * 2 ^ e < |y.value - q| :=
      calc |(m : ℚ) - q / 2 ^ e| * 2 ^ e ≤ (q / 2 ^ e - 2 ^ 52) * 2 ^ e := by gcongr
        _ = q - 2 ^ 52 * 2 ^ e := by rw [sub_mul, div_mul_cancel₀ _ hpow.ne']
        _ < q - y.value := by linarith
        _ ≤ |y.value - q| := by rw [abs_sub_comm]; exact le_abs_self _
    exact ⟨hlt.le, fun heq => absurd heq hlt.ne'⟩

theorem OnGrid.nearest (h : OnGrid q e m x) (hq : q < overflow) : Nearest q x where
  inFormat := h.inFormat
  bounded := hq
  least := by
    intro y hy
    by_cases hne : y = x
    · rw [hne]
    · exact (h.of_ne hy hne).1
  even := fun y hy hne heq => ((h.of_ne hy hne).2 heq).1

/-- A number on the grid is the only one that is nearest. -/
theorem OnGrid.eq_of_nearest (h : OnGrid q e m x) (hy : Nearest q y) : y = x := by
  by_contra hne
  have hdist : |y.value - q| = |x.value - q| :=
    le_antisymm (hy.least x h.inFormat) (h.of_ne hy.inFormat hne).1
  have hodd := ((h.of_ne hy.inFormat hne).2 hdist).2
  have heven := hy.even x h.inFormat (Ne.symm hne) hdist.symm
  omega

/-! ## Rounding a quotient -/

variable {negative sign : Bool} {exponent : Int} {significand : Nat}

/-- The exponent of a quotient leaves at most 53 bits before the point, and all 53 of them above the
least exponent. -/
theorem scaled_bounds (hnum : num ≠ 0) (hden : den ≠ 0)
    (he : e = max (Binary64.log2Quotient num den - 52) Binary64.leastExponent) :
    (num : ℚ) / den / 2 ^ e < 2 ^ 53 ∧ (e = -1074 ∨ 2 ^ 52 ≤ (num : ℚ) / den / 2 ^ e) := by
  have hquotient : (0 : ℚ) < num / den :=
    div_pos (Nat.cast_pos.mpr (Nat.pos_of_ne_zero hnum)) (Nat.cast_pos.mpr (Nat.pos_of_ne_zero hden))
  have hpow : (0 : ℚ) < 2 ^ e := by positivity
  rw [Binary64.log2Quotient_eq_log hnum hden, Binary64.leastExponent] at he
  generalize hlog : Int.log 2 ((num : ℚ) / den) = log at he
  have hjoin (i : Nat) : (2 : ℚ) ^ i * 2 ^ e = 2 ^ (e + i) := by
    rw [zpow_add₀ two_ne_zero, zpow_natCast, mul_comm]
  constructor
  · rw [div_lt_iff₀ hpow, hjoin, ← Nat.cast_two, Int.lt_zpow_iff_log_lt (by decide) hquotient, hlog]
    omega
  · obtain hleast | heq : e = -1074 ∨ e = log - 52 := by omega
    · exact .inl hleast
    · right
      rw [le_div_iff₀ hpow, hjoin, ← Nat.cast_two, Int.zpow_le_iff_le_log (by decide) hquotient, hlog]
      omega

theorem onGrid_of_ofQuotient (hnum : num ≠ 0) (hden : den ≠ 0)
    (h : Binary64.ofQuotient negative num den = .finite sign significand exponent) :
    negative = sign ∧ ∃ e m, OnGrid ((num : ℚ) / den) e m ⟨significand, exponent⟩ := by
  unfold Binary64.ofQuotient at h
  extract_lets e m at h
  obtain ⟨hbelow, hfine⟩ := scaled_bounds hnum hden (rfl : e = _)
  have hrounds : NearestInt ((num : ℚ) / den / 2 ^ e) m := by
    rw [← Binary64.shift_quotient]
    refine nearestInt_nearest _ ?_
    rw [Nat.shiftLeft_eq]
    exact Nat.mul_pos (Nat.pos_of_ne_zero hden) (Nat.two_pow_pos _)
  have hleast : -1074 ≤ e := Int.le_max_right ..
  have hm : m ≤ 2 ^ 53 := hrounds.le_of_lt (by exact_mod_cast hbelow)
  have hfull : e = -1074 ∨ 2 ^ 52 ≤ m :=
    hfine.imp_right fun hfine => hrounds.le_of_le (by exact_mod_cast hfine)
  clear_value e m
  -- a significand of 54 bits is carried into the exponent
  by_cases hcarry : m = 2 * Binary64.leastNormal
  · rw [if_pos hcarry] at h
    dsimp only at h
    split_ifs at h with hlarge
    obtain ⟨rfl, rfl, rfl⟩ := Binary64.finite.inj h
    have hleast : -1074 ≤ e + 1 := by omega
    have hformat : InFormat ⟨Binary64.leastNormal, e + 1⟩ :=
      ⟨(by decide : Binary64.leastNormal < 2 ^ 53), hleast, Int.not_lt.mp hlarge, .inr le_rfl⟩
    refine ⟨rfl, e, m, hformat, ?_, fun _ => (by decide : Binary64.leastNormal % 2 = 0), hrounds,
      hfine⟩
    rw [value, hcarry, zpow_add_one₀ two_ne_zero, Nat.cast_mul]
    push_cast
    ring
  · rw [if_neg hcarry] at h
    dsimp only at h
    split_ifs at h with hlarge
    obtain ⟨rfl, rfl, rfl⟩ := Binary64.finite.inj h
    have hm : m < 2 ^ 53 := Nat.lt_of_le_of_ne hm hcarry
    exact ⟨rfl, e, m, ⟨hm, hleast, Int.not_lt.mp hlarge, hfull⟩, rfl, id,
      hrounds, hfine⟩

/-- Rounding a quotient finds the number that is nearest to it. -/
theorem ofQuotient_eq_finite_iff (hnum : num ≠ 0) (hden : den ≠ 0) :
    Binary64.ofQuotient negative num den = .finite sign significand exponent ↔
      negative = sign ∧ Nearest ((num : ℚ) / den) ⟨significand, exponent⟩ := by
  have hinfinite (sign : Bool) : Binary64.ofQuotient negative num den = .infinite sign ↔
      negative = sign ∧ overflow ≤ (num : ℚ) / den := by
    rw [Binary64.ofQuotient_eq_infinite_iff hnum hden, Binary64.overflow_le_div_iff hden]
  constructor
  · intro h
    obtain ⟨hsign, e, m, hgrid⟩ := onGrid_of_ofQuotient hnum hden h
    refine ⟨hsign, hgrid.nearest (not_le.mp fun hlarge => ?_)⟩
    rw [(hinfinite negative).mpr ⟨rfl, hlarge⟩] at h
    cases h
  · rintro ⟨rfl, hnearest⟩
    cases hresult : Binary64.ofQuotient negative num den with
    | infinite sign =>
      exact absurd ((hinfinite sign).mp hresult).2 (not_le.mpr hnearest.bounded)
    | finite sign m e =>
      obtain ⟨rfl, _, _, hgrid⟩ := onGrid_of_ofQuotient hnum hden hresult
      obtain ⟨rfl, rfl⟩ := Magnitude.mk.inj (hgrid.eq_of_nearest hnearest)
      rfl

theorem inFormat_zero : zero.InFormat :=
  ⟨by decide, by decide, by decide, .inl rfl⟩

theorem value_zero : zero.value = 0 := by
  rw [value, zero, Nat.cast_zero, zero_mul]

theorem value_eq_zero_iff : x.value = 0 ↔ x.significand = 0 := by
  have hpow : (2 : ℚ) ^ x.exponent ≠ 0 := by positivity
  rw [value, mul_eq_zero_iff_right hpow, Nat.cast_eq_zero]

theorem nearest_zero_iff : Nearest 0 x ↔ x = zero := by
  constructor
  · intro h
    have hle := h.least zero inFormat_zero
    rw [value_zero, sub_zero, sub_zero, abs_zero] at hle
    exact h.inFormat.eq_of_value_eq inFormat_zero ((abs_nonpos_iff.mp hle).trans value_zero.symm)
  · rintro rfl
    refine ⟨inFormat_zero, Binary64.one_lt_overflow.trans' zero_lt_one, fun y _ => ?_,
      fun _ _ _ _ => rfl⟩
    rw [value_zero, sub_zero, abs_zero]
    exact abs_nonneg _

theorem nearest?_eq_some_iff (hden : den ≠ 0) :
    nearest? num den = some x ↔ Nearest ((num : ℚ) / den) x := by
  unfold nearest?
  split_ifs with hnum
  · rw [hnum, Nat.cast_zero, zero_div, nearest_zero_iff, Option.some.injEq, eq_comm]
  · constructor
    · intro h
      split at h
      · rename_i hresult
        obtain rfl := Option.some.inj h
        exact ((ofQuotient_eq_finite_iff hnum hden).mp hresult).2
      · cases h
    · intro h
      have hresult : Binary64.ofQuotient false num den = .finite false x.significand x.exponent :=
        (ofQuotient_eq_finite_iff hnum hden).mpr ⟨rfl, h⟩
      rw [hresult]

/-! ## Rounding a decimal number -/

/-- Less than half of the least number is nearest to zero. -/
theorem nearest_iff_of_lt (hnonneg : 0 ≤ q) (hlt : q < 2 ^ (-1075 : Int)) :
    Nearest q x ↔ x = zero := by
  have hpow : (0 : ℚ) < 2 ^ (-1074 : Int) := by positivity
  have hhalf : q / 2 ^ (-1074 : Int) < 1 / 2 := by
    rw [div_lt_iff₀ hpow, one_div, ← zpow_neg_one, ← zpow_add₀ two_ne_zero]
    exact hlt
  have hdist : |((0 : Nat) : ℚ) - q / 2 ^ (-1074 : Int)| = q / 2 ^ (-1074 : Int) := by
    rw [Nat.cast_zero, zero_sub, abs_neg, abs_of_nonneg (by positivity)]
  have hgrid : OnGrid q (-1074) 0 zero :=
    ⟨inFormat_zero, by rw [value_zero, Nat.cast_zero, zero_mul], fun _ => rfl,
      ⟨hdist.trans_le hhalf.le, fun _ => rfl⟩, .inl rfl⟩
  constructor
  · exact hgrid.eq_of_nearest
  · rintro rfl
    refine hgrid.nearest (hlt.trans (Binary64.one_lt_overflow.trans' ?_))
    exact zpow_lt_one_of_neg₀ (by norm_num) (by norm_num)

theorem tenPow_lt {size : Int} (hsize : size < -330) : (10 : ℚ) ^ size < 2 ^ (-1075 : Int) := by
  have hstep : (2 : ℚ) ^ 108 < 10 ^ 33 := by norm_num
  calc (10 : ℚ) ^ size ≤ 10 ^ (-330 : Int) := zpow_le_zpow_right₀ (by norm_num) hsize.le
    _ = ((10 ^ 33) ^ 10)⁻¹ := by rw [← pow_mul, ← zpow_natCast, ← zpow_neg]; rfl
    _ < ((2 ^ 108) ^ 10)⁻¹ := by gcongr
    _ = 2 ^ (-1080 : Int) := by rw [← pow_mul, ← zpow_natCast, ← zpow_neg]; rfl
    _ ≤ 2 ^ (-1075 : Int) := zpow_le_zpow_right₀ (by norm_num) (by norm_num)

theorem zero_eq_finite_iff {m : Nat} {e : Int} :
    Binary64.zero negative = .finite sign m e ↔ negative = sign ∧ (⟨m, e⟩ : Magnitude) = zero := by
  simp [Binary64.zero, zero, eq_comm]

theorem ofDecimal_eq_finite_iff {scale : Int} {m : Nat} {e : Int} :
    Binary64.ofDecimal negative significand scale = .finite sign m e ↔
      negative = sign ∧ Nearest (significand * 10 ^ scale) ⟨m, e⟩ := by
  by_cases hzero : significand = 0
  · rw [hzero, Nat.cast_zero, zero_mul, nearest_zero_iff]
    rw [← zero_eq_finite_iff]
    simp [Binary64.ofDecimal]
  obtain ⟨-, hgreatest⟩ := Binary64.significand_bounds hzero
  have hscale : (0 : ℚ) < 10 ^ scale := by positivity
  unfold Binary64.ofDecimal
  extract_lets size
  split_ifs with hlow hhigh
  · have hsize : size < -330 := by simpa [hzero] using hlow
    have hsmall : significand * (10 : ℚ) ^ scale < 2 ^ (-1075 : Int) :=
      calc significand * (10 : ℚ) ^ scale
        _ < 10 ^ ((Nat.toDigits 10 significand).length : Int) * 10 ^ scale := by gcongr
        _ = 10 ^ size := (zpow_add₀ (by norm_num) _ _).symm
        _ < 2 ^ (-1075 : Int) := tenPow_lt hsize
    rw [nearest_iff_of_lt (by positivity) hsmall]
    exact zero_eq_finite_iff
  · have hresult : Binary64.ofDecimal negative significand scale = .infinite negative := by
      unfold Binary64.ofDecimal
      rw [if_neg hlow, if_pos hhigh]
    have hlarge := (Binary64.ofDecimal_eq_infinite_iff.mp hresult).2
    exact iff_of_false (by simp) fun h => absurd hlarge (not_le.mpr h.2.bounded)
  · rw [Binary64.mul_tenPow_eq_div]
    exact ofQuotient_eq_finite_iff
      (Nat.mul_ne_zero hzero (Nat.ne_of_gt (Nat.pow_pos (by decide))))
      (Nat.ne_of_gt (Nat.pow_pos (by decide)))

/-- A written number is rounded to the nearest number, with its sign. -/
theorem ofNumeral_eq_finite_iff {n : Numeral} {m : Nat} {e : Int} :
    Binary64.ofNumeral n = .finite sign m e ↔ n.negative = sign ∧ Nearest n.magnitude ⟨m, e⟩ :=
  ofDecimal_eq_finite_iff

end Magnitude

end SchemaChange.Number
