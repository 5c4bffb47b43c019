import SchemaChange.Proofs.JsonScalar

/-!
# Numbers in a JSON document

What is written for an integer and for a finite floating-point number is a number as JSON has it,
whatever the magnitude. The one trap is a zero in front of other digits, so a decimal with the
digits zero is only written with the scale zero.
-/

namespace SchemaChange

open SchemaChange.Json (IsRun exponentTexts fractionTexts numeralTexts signTexts unsignedTexts
  wholeTexts)

namespace Number

variable {digits : List Char} {d : Decimal} {n : Nat} {point power : Int}

/-! ## Decimal digits -/

theorem isRun_toDigits (n : Nat) : IsRun (Nat.toDigits 10 n) :=
  ⟨Nat.toDigits_ne_nil, fun _ hc => Nat.isDigit_of_mem_toDigits (by decide) (by decide) hc⟩

theorem head?_toDigits (hn : n ≠ 0) : (Nat.toDigits 10 n).head? ≠ some '0' := by
  induction n using Nat.strongRecOn with
  | ind n ih =>
    by_cases hlt : n < 10
    · rw [Nat.toDigits_of_lt_base hlt]
      have hall : ∀ m < 10, m ≠ 0 → [Nat.digitChar m].head? ≠ some '0' := by decide
      exact hall n hlt hn
    · rw [Nat.toDigits_of_base_le (by decide) (Nat.le_of_not_lt hlt),
        List.head?_append_of_ne_nil _ Nat.toDigits_ne_nil]
      exact ih (n / 10) (by omega) (by omega)

/-- Digits in front of which nothing may stand are not those of a zero. -/
theorem length_toDigits (hhead : (Nat.toDigits 10 n).head? = some '0') :
    n = 0 ∧ (Nat.toDigits 10 n).length = 1 := by
  by_cases hn : n = 0
  · subst hn
    exact ⟨rfl, rfl⟩
  · exact absurd hhead (head?_toDigits hn)

/-! ## The shortest decimal -/

/-- Zero is never nearest to a number other than zero. -/
theorem onGrid?_digits_pos {tie : Tie} {significand : Nat} {exponent scale : Int}
    (hsignificand : significand ≠ 0) (h : onGrid? tie significand exponent scale = some d) :
    0 < d.digits := by
  unfold onGrid? at h
  extract_lets quarter step value narrow least greatest closed below above belowFits aboveFits
    belowGap aboveGap belowWins at h
  have hquarter : 0 < quarter := by
    rw [show quarter = Nat.pow 10 _ <<< _ from rfl, Nat.shiftLeft_eq]
    exact Nat.mul_pos (Nat.pow_pos (by decide)) (Nat.two_pow_pos _)
  have hleast : 0 < least := by
    refine Nat.mul_pos ?_ hquarter
    split
    all_goals omega
  split at h
  · rename_i hfits
    cases h
    have hbelow : least ≤ below * step := by
      simp only [Bool.and_eq_true, belowFits, Bool.or_eq_true, decide_eq_true_eq, beq_iff_eq] at hfits
      omega
    exact Nat.pos_of_mul_pos_right (Nat.lt_of_lt_of_le hleast hbelow)
  · split at h
    · cases h
      exact Nat.succ_pos _
    · cases h

theorem shortest_scale {tie : Tie} {significand : Nat} {exponent : Int}
    (hdigits : (shortest tie significand exponent).digits = 0) :
    (shortest tie significand exponent).scale = 0 := by
  unfold shortest at hdigits ⊢
  split
  · rfl
  · rename_i hsignificand
    rw [if_neg hsignificand] at hdigits
    dsimp only at hdigits ⊢
    generalize hfound : List.findSome? _ _ = found at hdigits ⊢
    cases found with
    | none => rfl
    | some d =>
      obtain ⟨n, -, hgrid⟩ := List.exists_of_findSome?_eq_some hfound
      have hpos := onGrid?_digits_pos hsignificand hgrid
      dsimp only at hdigits
      split at hdigits
      · cases hdigits
      · omega

/-! ## The written forms -/

theorem isDigit_of_replicate {k : Nat} : ∀ c ∈ List.replicate k '0', c.isDigit = true := by
  intro c hc
  rw [List.eq_of_mem_replicate hc]
  rfl

/-- A number without an exponent has a point with a digit on either side. -/
theorem positionalText_mem (hrun : IsRun digits)
    (hzero : digits.head? = some '0' → digits.length = 1 ∧ point ≤ 1) :
    ∃ whole fraction, positionalText ['.', '0'] digits point ∈
      wholeTexts whole * (fractionTexts (some fraction) * exponentTexts none) := by
  have hparts {whole fraction : List Char} (hwhole : IsRun whole)
      (hhead : whole.head? = some '0' → whole.length = 1) (hfraction : IsRun fraction) :
      whole ++ '.' :: fraction ∈
        wholeTexts whole * (fractionTexts (some fraction) * exponentTexts none) := by
    have hfront : whole ∈ wholeTexts whole := ⟨rfl, hwhole, hhead⟩
    have hbehind : '.' :: fraction ∈ fractionTexts (some fraction) := ⟨rfl, hfraction⟩
    have h := Language.append_mem_mul hfront
      (Language.append_mem_mul hbehind (b := []) (m := exponentTexts none) rfl)
    rwa [List.append_nil] at h
  unfold positionalText
  split
  · exact ⟨['0'], _, hparts ⟨by simp, by decide⟩ (fun _ => rfl)
      ⟨by simp [hrun.1], List.forall_mem_append.mpr ⟨isDigit_of_replicate, hrun.2⟩⟩⟩
  · rename_i hpoint
    split
    · refine ⟨_, ['0'], hparts ⟨by simp [hrun.1],
        List.forall_mem_append.mpr ⟨hrun.2, isDigit_of_replicate⟩⟩ (fun hhead => ?_)
        ⟨by simp, by decide⟩⟩
      rw [List.head?_append_of_ne_nil _ hrun.1] at hhead
      obtain ⟨hlength, hle⟩ := hzero hhead
      rw [List.length_append, List.length_replicate]
      omega
    · rename_i hlength
      refine ⟨_, _, hparts ⟨?_, fun c hc => hrun.2 c (List.mem_of_mem_take hc)⟩ (fun hhead => ?_)
        ⟨?_, fun c hc => hrun.2 c (List.mem_of_mem_drop hc)⟩⟩
      · rw [ne_eq, List.take_eq_nil_iff]
        exact not_or.mpr ⟨by omega, hrun.1⟩
      · rw [List.head?_take, if_neg (by omega)] at hhead
        obtain ⟨hone, -⟩ := hzero hhead
        omega
      · rw [ne_eq, List.drop_eq_nil_iff]
        omega

/-- A number with an exponent has one digit in front of its point, if it has a point at all. -/
theorem exponentText_mem (hrun : IsRun digits) :
    ∃ whole fraction, exponentText digits power ∈
      wholeTexts whole * (fractionTexts fraction * exponentTexts (some power)) := by
  have hpower : (if power < 0 then ['e', '-'] else ['e', '+']) ++ Nat.toDigits 10 power.natAbs ∈
      exponentTexts (some power) := by
    split
    · refine ⟨'e', true, ['-'], rfl, _, isRun_toDigits power.natAbs, .inl rfl, rfl, ?_⟩
      rw [if_pos rfl, Nat.ofDigitChars_ten_toDigits]
      omega
    · refine ⟨'e', false, ['+'], .inr rfl, _, isRun_toDigits power.natAbs, .inl rfl, rfl, ?_⟩
      rw [if_neg (by decide), Nat.ofDigitChars_ten_toDigits]
      omega
  have hwhole {c : Char} (hc : c.isDigit = true) : [c] ∈ wholeTexts [c] :=
    ⟨rfl, ⟨by simp, by simpa using hc⟩, fun _ => rfl⟩
  match digits, hrun with
  | [c], hrun =>
    have hc := hrun.2 c (by simp)
    refine ⟨[c], none, ?_⟩
    have h := Language.append_mem_mul (hwhole hc)
      (Language.append_mem_mul (a := []) (l := fractionTexts none) rfl hpower)
    simpa [exponentText] using h
  | c :: e :: rest, hrun =>
    have hc := hrun.2 c (by simp)
    have hfraction : '.' :: e :: rest ∈ fractionTexts (some (e :: rest)) :=
      ⟨rfl, by simp, fun d hd => hrun.2 d (List.mem_cons_of_mem _ hd)⟩
    refine ⟨[c], some (e :: rest), ?_⟩
    have h := Language.append_mem_mul (hwhole hc) (Language.append_mem_mul hfraction hpower)
    simpa [exponentText] using h

theorem magnitude_mem (negative : Bool) (hd : d.digits = 0 → d.scale = 0) :
    ∃ n : Numeral, n.negative = negative ∧ Layout.json.magnitude d ∈ unsignedTexts n := by
  have hrun := isRun_toDigits d.digits
  have hzero : (Nat.toDigits 10 d.digits).head? = some '0' →
      (Nat.toDigits 10 d.digits).length = 1 ∧
        d.scale + (Nat.toDigits 10 d.digits).length ≤ 1 := by
    intro hhead
    obtain ⟨hdigits, hlength⟩ := length_toDigits hhead
    exact ⟨hlength, by rw [hlength, hd hdigits]; decide⟩
  simp only [Layout.magnitude, Layout.json]
  split
  · obtain ⟨whole, fraction, h⟩ := positionalText_mem hrun hzero
    exact ⟨⟨negative, whole, some fraction, none⟩, rfl, h⟩
  · obtain ⟨whole, fraction, h⟩ := exponentText_mem hrun
    exact ⟨⟨negative, whole, fraction, some _⟩, rfl, h⟩

/-- What is written for a finite number is a number. -/
theorem write_mem_numeralTexts (negative : Bool) (significand : Nat) (exponent : Int) :
    ∃ n : Numeral,
      Layout.json.write (.finite negative significand exponent) ∈ numeralTexts n := by
  have hscale : (shortest Layout.json.tie significand exponent).digits = 0 →
      (shortest Layout.json.tie significand exponent).scale = 0 := shortest_scale
  obtain ⟨n, rfl, hn⟩ := magnitude_mem negative hscale
  refine ⟨n, ?_⟩
  simp only [Layout.write, numeralTexts, signTexts]
  cases n.negative with
  | true => exact Language.append_mem_mul (a := ['-']) rfl hn
  | false => exact Language.append_mem_mul (a := []) rfl hn

/-- What is written for an integer is a number. -/
theorem intText_mem_numeralTexts (n : Int) : Json.intText n ∈ numeralTexts (Numeral.ofInt n) := by
  have hwhole : Nat.toDigits 10 n.natAbs ∈ unsignedTexts (Numeral.ofInt n) := by
    have h := Language.append_mem_mul (a := Nat.toDigits 10 n.natAbs) (b := [])
      (l := wholeTexts (Numeral.ofInt n).whole) (m := fractionTexts none * exponentTexts none)
      ⟨rfl, isRun_toDigits n.natAbs, fun hhead => (length_toDigits hhead).2⟩
      (Language.append_mem_mul (a := []) (b := []) rfl rfl)
    rwa [List.append_nil] at h
  unfold Json.intText
  split
  · rename_i hn
    refine Language.append_mem_mul (a := ['-']) ?_ hwhole
    rw [signTexts, Numeral.ofInt, decide_eq_true hn]
    rfl
  · rename_i hn
    refine Language.append_mem_mul (a := []) ?_ hwhole
    rw [signTexts, Numeral.ofInt, decide_eq_false hn]
    rfl

end Number

end SchemaChange
