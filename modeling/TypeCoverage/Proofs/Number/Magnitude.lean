import Mathlib.Algebra.Order.Field.Power
import Mathlib.Data.Nat.Log
import Mathlib.Data.Rat.Floor
import Mathlib.Tactic
import TypeCoverage.Coverage
import TypeCoverage.Number.Reading

/-!
# How large rounded numbers are

Rounding a quotient that is far from the greatest number of the format gives a finite number, and
at most doubles it. So products and quotients of moderate numbers are moderate numbers, which is all
that is needed to know of them where they are written.
-/

set_option autoImplicit false

namespace TypeCoverage.Binary64

variable {num den m m' : Nat} {e e' : Int} {q q' : ℚ}

def magnitude (m : Nat) (e : Int) : ℚ := m * 2 ^ e

theorem magnitude_nonneg (m : Nat) (e : Int) : 0 ≤ magnitude m e := by
  unfold magnitude
  positivity

/-! ## Quotients -/

/-- Numerator and denominator of `num / den / base ^ e`. -/
def unscaleBy (base num den : Nat) : Int → Nat × Nat
  | .ofNat k => (num, den * Nat.pow base k)
  | .negSucc k => (num * Nat.pow base (k + 1), den)

theorem unscale_eq (num den : Nat) (e : Int) : unscale num den e = unscaleBy 2 num den e := by
  cases e <;> rfl

/-- Taking a power out of a quotient. -/
theorem cast_unscaleBy {base : Nat} (hbase : base ≠ 0) (num : Nat) (hden : den ≠ 0) (e : Int) :
    (unscaleBy base num den e).2 ≠ 0
      ∧ ((unscaleBy base num den e).1 : ℚ) / (unscaleBy base num den e).2
        = num / den / base ^ e := by
  have hpow : ∀ k, Nat.pow base k = base ^ k := fun k => rfl
  cases e with
  | ofNat k =>
      refine ⟨Nat.mul_ne_zero hden (pow_ne_zero k hbase), ?_⟩
      rw [unscaleBy, hpow, Int.ofNat_eq_natCast, zpow_natCast]
      push_cast
      rw [div_div]
  | negSucc k =>
      refine ⟨hden, ?_⟩
      rw [unscaleBy, hpow, zpow_negSucc]
      push_cast
      rw [div_inv_eq_mul]
      ring

theorem cast_unscale (num : Nat) (hden : den ≠ 0) (e : Int) : (unscale num den e).2 ≠ 0
    ∧ ((unscale num den e).1 : ℚ) / (unscale num den e).2 = num / den / 2 ^ e := by
  rw [unscale_eq]
  exact_mod_cast cast_unscaleBy two_ne_zero num hden e

/-- A quotient is rounded down, or up from a half on. -/
theorem roundHalfEven_cases (num den : Nat) :
    roundHalfEven num den = num / den
      ∨ (roundHalfEven num den = num / den + 1 ∧ den ≤ 2 * (num % den)) := by
  unfold roundHalfEven
  dsimp only
  split
  · exact Or.inl rfl
  · split
    · exact Or.inr ⟨rfl, by omega⟩
    · rcases Nat.mod_two_eq_zero_or_one (num / den) with h | h
      · exact Or.inl (by rw [h, Nat.add_zero])
      · exact Or.inr ⟨by rw [h], by omega⟩

/-- Rounding at most doubles. -/
theorem roundHalfEven_le (hden : den ≠ 0) : (roundHalfEven num den : ℚ) ≤ 2 * (num / den) := by
  have hnat : roundHalfEven num den * den ≤ 2 * num := by
    have hsum := Nat.div_add_mod num den
    rcases roundHalfEven_cases num den with h | ⟨h, hhalf⟩
    · rw [h, Nat.mul_comm]
      omega
    · rw [h, Nat.add_mul, Nat.mul_comm]
      omega
  have hpos : (0 : ℚ) < den := by positivity
  rw [← mul_div_assoc, le_div_iff₀ hpos]
  exact_mod_cast hnat

/-- Rounding at most halves what is one or more. -/
theorem le_roundHalfEven (hden : den ≠ 0) (h : den ≤ num) :
    (num / den : ℚ) ≤ 2 * roundHalfEven num den := by
  have hnat : num ≤ 2 * roundHalfEven num den * den := by
    have hsum := Nat.div_add_mod num den
    have hmod := Nat.mod_lt num (Nat.pos_of_ne_zero hden)
    have hone : den * 1 ≤ den * (num / den) :=
      Nat.mul_le_mul_left den (Nat.div_pos h (Nat.pos_of_ne_zero hden))
    have hle : den * (num / den) ≤ roundHalfEven num den * den := by
      rw [Nat.mul_comm]
      rcases roundHalfEven_cases num den with h | ⟨h, -⟩
      · rw [h]
      · exact Nat.mul_le_mul_right den (by omega)
    rw [Nat.mul_assoc]
    omega
  have hpos : (0 : ℚ) < den := by positivity
  rw [div_le_iff₀ hpos]
  exact_mod_cast hnat

/-! ## Rounding -/

/-- A quotient lies between the powers of two that its logarithms say. -/
theorem two_zpow_lt_div (hnum : num ≠ 0) (hden : den ≠ 0) :
    (2 : ℚ) ^ ((Nat.log2 num : Int) - Nat.log2 den - 1) < num / den := by
  have hn : 2 ^ Nat.log2 num ≤ num := Nat.log2_self_le hnum
  have hd : den < 2 ^ (Nat.log2 den + 1) := Nat.lt_log2_self
  have hpos : (0 : ℚ) < den := by positivity
  rw [lt_div_iff₀ hpos]
  calc (2 : ℚ) ^ ((Nat.log2 num : Int) - Nat.log2 den - 1) * den
      < 2 ^ ((Nat.log2 num : Int) - Nat.log2 den - 1) * 2 ^ ((Nat.log2 den : Int) + 1) := by
        gcongr
        exact_mod_cast hd
    _ = 2 ^ (Nat.log2 num : Int) := by
        rw [← zpow_add₀ two_ne_zero]
        congr 1
        ring
    _ ≤ num := by exact_mod_cast hn

/-- A mantissa whose exponent is not too great gives a finite number of the same magnitude. -/
theorem exists_settle_eq (negative : Bool) (mantissa : Nat) {e : Int} (he : e + 1 ≤ 971) :
    ∃ m e', settle negative mantissa e = .finite negative m e'
      ∧ magnitude m e' = magnitude mantissa e := by
  unfold settle
  split
  · next hfull =>
      refine ⟨Nat.pow 2 52, e + 1, if_neg (by omega), ?_⟩
      have hpow : ∀ k, ((Nat.pow 2 k : ℕ) : ℚ) = 2 ^ k := fun k => Nat.cast_pow 2 k
      rw [hfull, magnitude, magnitude, hpow, hpow, zpow_add_one₀ two_ne_zero]
      ring
  · exact ⟨mantissa, e, if_neg (by omega), rfl⟩

/-- The exponent of the unit is near the difference of the logarithms. -/
theorem unitExponent_le (num den : Nat) :
    unitExponent num den ≤ max ((Nat.log2 num : Int) - Nat.log2 den - 52) (-1073) := by
  unfold unitExponent
  dsimp only
  split <;> omega

/-- The unit is not above a quotient that is one or more. -/
theorem unit_le (hden : den ≠ 0) (hge : den ≤ num) :
    (unscale num den (unitExponent num den)).2 ≤ (unscale num den (unitExponent num den)).1 := by
  have hnum : num ≠ 0 := by omega
  have hunit := unitExponent_le num den
  obtain ⟨hne, hcast⟩ := cast_unscale num hden (unitExponent num den)
  have hlogs : Nat.log2 den ≤ Nat.log2 num := by
    rw [Nat.log2_eq_log_two, Nat.log2_eq_log_two]
    exact Nat.log_mono_right hge
  have hle : (2 : ℚ) ^ unitExponent num den ≤ num / den :=
    (zpow_le_zpow_right₀ one_le_two (by omega)).trans (two_zpow_lt_div hnum hden).le
  have hquotient : (1 : ℚ) ≤ (unscale num den (unitExponent num den)).1
      / (unscale num den (unitExponent num den)).2 := by
    rw [hcast, one_le_div₀ (by positivity)]
    exact hle
  rw [one_le_div₀ (by positivity)] at hquotient
  exact_mod_cast hquotient

/-- **Rounding a moderate quotient.** The result is finite and at most twice the quotient, and at
least half of it if it is one or more. -/
theorem exists_round_eq (negative : Bool) (hden : den ≠ 0) (hq : (num / den : ℚ) ≤ 2 ^ 250) :
    ∃ m e, round negative num den = .finite negative m e ∧ magnitude m e ≤ 2 * (num / den)
      ∧ (den ≤ num → (num / den : ℚ) ≤ 2 * magnitude m e) := by
  by_cases hnum : num = 0
  · subst hnum
    refine ⟨0, -1074, if_pos rfl, by simp [magnitude], fun hle => ?_⟩
    exact absurd (Nat.le_zero.1 hle) hden
  have hunit := unitExponent_le num den
  -- a quotient that is not too great has an exponent that is not too great
  have hlog : (Nat.log2 num : Int) - Nat.log2 den - 1 < 250 := by
    have hmoderate := (two_zpow_lt_div hnum hden).trans_le hq
    rw [← zpow_natCast] at hmoderate
    exact (zpow_lt_zpow_iff_right₀ one_lt_two).1 hmoderate
  have hone : den ≤ num → _ := unit_le hden
  rw [round, if_neg hnum]
  generalize unitExponent num den = unit at hunit hone
  obtain ⟨m, e, hsettle, hmagnitude⟩ :=
    exists_settle_eq negative (mantissaAt num den unit) (show unit + 1 ≤ 971 by omega)
  obtain ⟨hne, hcast⟩ := cast_unscale num hden unit
  have hscale : (num / den : ℚ) / 2 ^ unit * 2 ^ unit = num / den :=
    div_mul_cancel₀ _ (zpow_ne_zero unit two_ne_zero)
  refine ⟨m, e, hsettle, ?_, fun hge => ?_⟩
  · calc magnitude m e = mantissaAt num den unit * 2 ^ unit := hmagnitude
      _ ≤ 2 * (num / den / 2 ^ unit) * 2 ^ unit := by
          rw [← hcast]
          gcongr
          exact roundHalfEven_le hne
      _ = 2 * (num / den) := by rw [mul_assoc, hscale]
  · calc (num / den : ℚ) = num / den / 2 ^ unit * 2 ^ unit := hscale.symm
      _ ≤ 2 * mantissaAt num den unit * 2 ^ unit := by
          rw [← hcast]
          gcongr
          exact le_roundHalfEven hne (hone hge)
      _ = 2 * magnitude m e := by
          rw [hmagnitude, mul_assoc]
          rfl

/-! ## Arithmetic -/

/-- A number that is finite, not negative, and at most `q`. -/
def AtMost (x : Binary64) (q : ℚ) : Prop := ∃ m e, x = .finite false m e ∧ magnitude m e ≤ q

theorem AtMost.mono {x : Binary64} (h : x.AtMost q) (hle : q ≤ q') : x.AtMost q' := by
  obtain ⟨m, e, hx, hm⟩ := h
  exact ⟨m, e, hx, hm.trans hle⟩

theorem atMost_roundScaled (num : Nat) (hden : den ≠ 0) (e : Int)
    (hq : (num / den : ℚ) * 2 ^ e ≤ 2 ^ 250) :
    (roundScaled false num den e).AtMost (2 * (num / den * 2 ^ e)) := by
  obtain ⟨hne, hcast⟩ := cast_unscale num hden (-e)
  have hvalue : ((unscale num den (-e)).1 / (unscale num den (-e)).2 : ℚ) = num / den * 2 ^ e := by
    rw [hcast, zpow_neg, div_inv_eq_mul]
  obtain ⟨m, e', hround, hle, -⟩ := exists_round_eq false hne (hvalue ▸ hq)
  exact ⟨m, e', hround, hvalue ▸ hle⟩

/-- A count as a number of the format, and how far rounding can take it. -/
theorem exists_ofNat_eq {n : Nat} (hn : (n : ℚ) ≤ 2 ^ 250) :
    ∃ m e, ofNat n = .finite false m e ∧ magnitude m e ≤ 2 * n
      ∧ (n ≠ 0 → (n : ℚ) ≤ 2 * magnitude m e) := by
  have hone : ((n : ℚ) / (1 : ℕ)) = n := by simp
  obtain ⟨m, e, hround, hle, hge⟩ := exists_round_eq false one_ne_zero (hone ▸ hn)
  rw [hone] at hle hge
  exact ⟨m, e, hround, hle, fun hne => hge (Nat.one_le_iff_ne_zero.2 hne)⟩

theorem AtMost.mul {x y : Binary64} (hx : x.AtMost q) (hy : y.AtMost q') (hq : q * q' ≤ 2 ^ 250) :
    (x.mul y).AtMost (2 * (q * q')) := by
  obtain ⟨m, e, rfl, hm⟩ := hx
  obtain ⟨m', e', rfl, hm'⟩ := hy
  have hvalue : (((m * m' : ℕ) : ℚ) / (1 : ℕ)) * 2 ^ (e + e')
      = magnitude m e * magnitude m' e' := by
    rw [magnitude, magnitude, zpow_add₀ two_ne_zero]
    push_cast
    ring
  have hle : magnitude m e * magnitude m' e' ≤ q * q' :=
    mul_le_mul hm hm' (magnitude_nonneg m' e') ((magnitude_nonneg m e).trans hm)
  have hround := atMost_roundScaled (m * m') one_ne_zero (e + e') (hvalue ▸ hle.trans hq)
  rw [hvalue] at hround
  exact hround.mono (by linarith)

/-- Dividing by a number that is not near zero. -/
theorem AtMost.div {x : Binary64} (hx : x.AtMost q) {m' : Nat} {e' : Int} (hpos : 0 < q')
    (hm' : q' ≤ magnitude m' e') (hq : q / q' ≤ 2 ^ 250) :
    (x.div (.finite false m' e')).AtMost (2 * (q / q')) := by
  obtain ⟨m, e, rfl, hm⟩ := hx
  have hne : m' ≠ 0 := by
    rintro rfl
    rw [magnitude, Nat.cast_zero, zero_mul] at hm'
    exact absurd hpos (not_lt.2 hm')
  have hvalue : ((m : ℚ) / m') * 2 ^ (e - e') = magnitude m e / magnitude m' e' := by
    rw [magnitude, magnitude, zpow_sub₀ two_ne_zero]
    ring
  have hle : magnitude m e / magnitude m' e' ≤ q / q' :=
    div_le_div₀ ((magnitude_nonneg m e).trans hm) hm hpos hm'
  have hround := atMost_roundScaled m hne (e - e') (hvalue ▸ hle.trans hq)
  rw [hvalue] at hround
  rw [Binary64.div, if_neg hne]
  exact hround.mono (by linarith)

end TypeCoverage.Binary64

namespace TypeCoverage.Coverage

open Binary64 (AtMost)

theorem cast_le_of_le_maxCount {n : Nat} (h : n ≤ maxCount) : (n : ℚ) ≤ 2 ^ 64 := by
  have hle : n ≤ 2 ^ 64 := h.trans (by decide)
  exact_mod_cast hle

/-- **The share is a moderate number.** Of counts that fit in 64 bits it is finite and not
negative. -/
theorem percent_atMost {c : Coverage} (hcorrect : c.correct ≤ maxCount)
    (htotal : c.total ≤ maxCount) : c.percent.AtMost (2 ^ 80) := by
  have hhundred : (Binary64.ofNat 100).AtMost 200 := by
    obtain ⟨m, e, hround, hle, -⟩ := Binary64.exists_ofNat_eq (n := 100) (by norm_num)
    exact ⟨m, e, hround, hle.trans (by norm_num)⟩
  have hc := cast_le_of_le_maxCount hcorrect
  have ht := cast_le_of_le_maxCount htotal
  unfold percent
  split
  · exact hhundred.mono (by norm_num)
  · next hne =>
      obtain ⟨m, e, hround, hle, -⟩ := Binary64.exists_ofNat_eq (n := c.correct)
        (hc.trans (by norm_num))
      obtain ⟨m', e', hround', -, hge⟩ := Binary64.exists_ofNat_eq (n := c.total)
        (ht.trans (by norm_num))
      have hone : (1 : ℚ) ≤ c.total := by exact_mod_cast Nat.one_le_iff_ne_zero.2 hne
      have hhalf : (1 / 2 : ℚ) ≤ Binary64.magnitude m' e' := by linarith [hge hne]
      have hcorrect : (Binary64.ofNat c.correct).AtMost (2 ^ 65) :=
        ⟨m, e, hround, by linarith⟩
      have hquotient := hcorrect.div one_half_pos hhalf (by norm_num)
      rw [hround']
      exact (hquotient.mul hhundred (by norm_num)).mono (by norm_num)

end TypeCoverage.Coverage
