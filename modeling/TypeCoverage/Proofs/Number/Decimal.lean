import TypeCoverage.Proofs.Number.Magnitude

/-!
# Shortest decimals

The decimal that a number is written with is not zero, unless it is `⟨0, 0⟩`, and is at most twice
the number, so where the number is moderate its leading digit is not far from the point.
-/

set_option autoImplicit false

namespace TypeCoverage.Decimal

open Binary64 (magnitude unscaleBy cast_unscaleBy)

variable {num den m count : Nat} {e : Int} {tie : Tie} {d : Decimal}

def value (d : Decimal) : ℚ := d.digits * 10 ^ d.exponent

theorem unscale_eq (num den : Nat) (k : Int) : unscale num den k = unscaleBy 10 num den k := by
  cases k <;> rfl

theorem cast_unscale (num : Nat) (hden : den ≠ 0) (k : Int) : (unscale num den k).2 ≠ 0
    ∧ ((unscale num den k).1 : ℚ) / (unscale num den k).2 = num / den / 10 ^ k := by
  rw [unscale_eq]
  exact_mod_cast cast_unscaleBy (by norm_num : 10 ≠ 0) num hden k

theorem value_trimZeros (fuel : Nat) (d : Decimal) : (trimZeros fuel d).value = d.value := by
  induction fuel generalizing d with
  | zero => rfl
  | succ fuel ih =>
      rw [trimZeros]
      split
      · next h =>
          rw [ih, value, value]
          dsimp only
          have hdigits : (d.digits : ℚ) = 10 * (d.digits / 10 : ℕ) := by
            exact_mod_cast (Nat.mul_div_cancel' (Nat.dvd_of_mod_eq_zero h.2)).symm
          rw [hdigits, zpow_add_one₀ (by norm_num)]
          ring
      · rfl

theorem between_of_isInside {quarter : Nat × Nat} {digits : Nat}
    (h : isInside m e quarter digits = true) : (quarters m e).1 * quarter.1 ≤ digits * quarter.2
      ∧ digits * quarter.2 ≤ (quarters m e).2 * quarter.1 := by
  unfold isInside at h
  dsimp only at h
  split at h
  · simpa using h
  · simp only [Bool.and_eq_true, decide_eq_true_eq] at h
    exact ⟨h.1.le, h.2.le⟩

/-- The interval of a number that is not zero is not near zero, and not twice as far up. -/
theorem quarters_bounds (hm : m ≠ 0) (e : Int) :
    0 < (quarters m e).1 ∧ (quarters m e).2 ≤ 6 * m := by
  unfold quarters
  constructor
  · dsimp only
    split <;> omega
  · dsimp only
    omega

/-- What is found on a grid is not zero, and at most twice the number. -/
theorem onGrid?_spec (hm : m ≠ 0) (h : onGrid? tie m e count = some d) :
    d.digits ≠ 0 ∧ d.value ≤ 2 * magnitude m e := by
  obtain ⟨digits, hfound, rfl⟩ := Option.map_eq_some_iff.1 h
  obtain ⟨hlow, hhigh⟩ := between_of_isInside (List.find?_some hfound)
  obtain ⟨hpos, hle⟩ := quarters_bounds hm e
  generalize leadExponent _ _ - count + 1 = k at hlow hhigh ⊢
  obtain ⟨hunit, hunitCast⟩ := Binary64.cast_unscale 1 one_ne_zero (2 - e)
  obtain ⟨hne, hcast⟩ := cast_unscale (Binary64.unscale 1 1 (2 - e)).1 hunit k
  rw [hunitCast] at hcast
  generalize unscale _ _ k = quarter at hlow hhigh hne hcast
  have hden : (0 : ℚ) < quarter.2 := by positivity
  have hnum : (quarter.1 : ℚ) = 1 / 2 ^ (2 - e) / 10 ^ k * quarter.2 := by
    rw [← div_eq_iff hden.ne', hcast]
    simp
  constructor
  · rintro rfl
    rw [Nat.zero_mul, Nat.le_zero, Nat.mul_eq_zero] at hlow
    have hzero : quarter.1 = 0 := by omega
    rw [hzero] at hnum
    have hprod : (0 : ℚ) < 1 / 2 ^ (2 - e) / 10 ^ k * quarter.2 := by positivity
    exact hprod.ne hnum
  · have hbound : (digits * quarter.2 : ℚ) ≤ 6 * m * quarter.1 := by
      exact_mod_cast hhigh.trans (Nat.mul_le_mul_right quarter.1 hle)
    rw [hnum, ← mul_assoc, mul_le_mul_iff_left₀ hden] at hbound
    show (digits : ℚ) * 10 ^ k ≤ 2 * (m * 2 ^ e)
    calc (digits : ℚ) * 10 ^ k ≤ 6 * m * (1 / 2 ^ (2 - e) / 10 ^ k) * 10 ^ k := by gcongr
      _ = 6 * m * (1 / 2 ^ (2 - e)) := by rw [mul_assoc, div_mul_cancel₀ _ (by positivity)]
      _ = 3 / 2 * (m * 2 ^ e) := by
          rw [zpow_sub₀ two_ne_zero, one_div_div]
          norm_num
          ring
      _ ≤ 2 * (m * 2 ^ e) := by
          have hnonneg : (0 : ℚ) ≤ m * 2 ^ e := by positivity
          linarith

theorem digits_trimZeros (fuel : Nat) {d : Decimal} (h : d.digits ≠ 0) :
    (trimZeros fuel d).digits ≠ 0 := by
  induction fuel generalizing d with
  | zero => exact h
  | succ fuel ih =>
      rw [trimZeros]
      split
      · next hzero =>
          refine ih ?_
          dsimp only
          omega
      · exact h

/-- **The shortest decimal.** It is not zero, unless none was found, and at most twice the number. -/
theorem shortest_spec (tie : Tie) (hm : m ≠ 0) (e : Int) :
    shortest tie m e = ⟨0, 0⟩
      ∨ (shortest tie m e).digits ≠ 0 ∧ (shortest tie m e).value ≤ 2 * magnitude m e := by
  unfold shortest
  rw [if_neg hm]
  split
  · next d hd =>
      obtain ⟨i, -, hgrid⟩ := List.exists_of_findSome?_eq_some hd
      obtain ⟨hne, hle⟩ := onGrid?_spec hm hgrid
      exact Or.inr ⟨digits_trimZeros 20 hne, (value_trimZeros 20 d).trans_le hle⟩
  · exact Or.inl rfl

/-! ## The leading digit -/

theorem length_ofNat_pos (n : Nat) : 0 < (Text.ofNat n).length := Nat.length_toDigits_pos

/-- The leading digit of a number. -/
theorem pow_length_le {n : Nat} (hn : n ≠ 0) : 10 ^ ((Text.ofNat n).length - 1) ≤ n := by
  induction n using Nat.strong_induction_on with
  | _ n ih =>
      by_cases h : n < 10
      · rw [Text.ofNat, Nat.toDigits_of_lt_base h]
        exact Nat.one_le_iff_ne_zero.2 hn
      · have hrest := ih (n / 10) (by omega) (by omega)
        have hpos := length_ofNat_pos (n / 10)
        have hlength : (Text.ofNat n).length = (Text.ofNat (n / 10)).length + 1 := by
          rw [Text.ofNat, Nat.toDigits_of_base_le (by omega) (by omega), List.length_append]
          rfl
        calc 10 ^ ((Text.ofNat n).length - 1)
            = 10 ^ ((Text.ofNat (n / 10)).length - 1) * 10 := by
              rw [← Nat.pow_succ]
              congr 1
              omega
          _ ≤ n / 10 * 10 := Nat.mul_le_mul_right 10 hrest
          _ ≤ n := Nat.div_mul_le_self n 10

/-- The exponent of ten of the leading digit of a decimal that is not zero. -/
theorem lead_le (hd : d.digits ≠ 0) {k : Nat} (h : d.value ≤ 10 ^ k) : d.layout.2 - 1 ≤ k := by
  have hpos := length_ofNat_pos d.digits
  have hdigits : (10 : ℚ) ^ ((Text.ofNat d.digits).length - 1) ≤ d.digits := by
    exact_mod_cast pow_length_le hd
  have hle : (10 : ℚ) ^ (d.layout.2 - 1) ≤ 10 ^ (k : Int) := by
    calc (10 : ℚ) ^ (d.layout.2 - 1)
        = 10 ^ (((Text.ofNat d.digits).length - 1 : ℕ) : Int) * 10 ^ d.exponent := by
          rw [← zpow_add₀ (by norm_num)]
          congr 1
          rw [layout]
          dsimp only
          omega
      _ ≤ d.value := by
          rw [zpow_natCast, value]
          gcongr
      _ ≤ 10 ^ (k : Int) := by rwa [zpow_natCast]
  exact (zpow_le_zpow_iff_right₀ (by norm_num)).1 hle

end TypeCoverage.Decimal
