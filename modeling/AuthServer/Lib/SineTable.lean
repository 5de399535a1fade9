/-
Tables of sines, rounded down, checked with whole numbers.

The point of the unit circle at one radian is taken from the first terms of the exponential
series, its powers are computed in the Gaussian integers, and the error of a power grows no
faster than its exponent.
-/

import Mathlib.Analysis.Complex.Basic
import Mathlib.Analysis.Complex.Trigonometric
import Mathlib.NumberTheory.Zsqrtd.GaussianInt

set_option autoImplicit false

namespace SineTable

open GaussianInt (toComplex_def' intCast_real_norm intCast_im)

/-- `n!` times the terms up to the `n`-th of the exponential series at the imaginary unit. -/
def series : Nat → GaussianInt
  | 0 => 1
  | n + 1 => ((n + 1 : Nat) : GaussianInt) * series n + ⟨0, 1⟩ ^ (n + 1)

theorem series_toComplex (n : Nat) :
    (series n : ℂ) = n.factorial * ∑ m ∈ Finset.range (n + 1), Complex.I ^ m / m.factorial := by
  induction n with
  | zero => simp [series]
  | succ n ih =>
      have unit : ((⟨0, 1⟩ : GaussianInt) : ℂ) = Complex.I := by
        rw [toComplex_def']
        simp
      have filled : ((n + 1).factorial : ℂ) ≠ 0 :=
        Nat.cast_ne_zero.mpr (Nat.factorial_ne_zero (n + 1))
      rw [series, map_add, map_mul, map_pow, map_natCast, unit, ih, Finset.sum_range_succ _ (n + 1),
        mul_add, mul_div_cancel₀ _ filled, ← mul_assoc, Nat.factorial_succ, Nat.cast_mul]

/-- How far the terms up to the `n`-th are from the whole series. -/
noncomputable def error (n : Nat) : ℝ := (n + 2 : Nat) / ((n + 1).factorial * (n + 1) : Nat)

theorem series_close (n : Nat) :
    ‖Complex.exp Complex.I - series n / n.factorial‖ ≤ error n := by
  have filled : (n.factorial : ℂ) ≠ 0 := Nat.cast_ne_zero.mpr n.factorial_ne_zero
  have bound := Complex.exp_bound (le_of_eq Complex.norm_I) (Nat.succ_pos n)
  rw [Complex.norm_I, one_pow, one_mul] at bound
  rw [series_toComplex, mul_div_cancel_left₀ _ filled]
  refine bound.trans (le_of_eq ?_)
  rw [error, div_eq_mul_inv, Nat.cast_mul]

/-- Powers of two points inside the unit circle part no faster than the exponent grows. -/
theorem pow_close (a b : ℂ) (left : ‖a‖ ≤ 1) (right : ‖b‖ ≤ 1) (n : Nat) :
    ‖a ^ n - b ^ n‖ ≤ n * ‖a - b‖ := by
  induction n with
  | zero => simp
  | succ n ih =>
      have split : a ^ (n + 1) - b ^ (n + 1) = a * (a ^ n - b ^ n) + (a - b) * b ^ n := by ring
      have first : ‖a * (a ^ n - b ^ n)‖ ≤ n * ‖a - b‖ := by
        rw [norm_mul]
        exact (mul_le_of_le_one_left (norm_nonneg _) left).trans ih
      have second : ‖(a - b) * b ^ n‖ ≤ ‖a - b‖ := by
        rw [norm_mul, norm_pow]
        exact mul_le_of_le_one_right (norm_nonneg _) (pow_le_one₀ (norm_nonneg _) right)
      calc ‖a ^ (n + 1) - b ^ (n + 1)‖
          = ‖a * (a ^ n - b ^ n) + (a - b) * b ^ n‖ := by rw [split]
        _ ≤ ‖a * (a ^ n - b ^ n)‖ + ‖(a - b) * b ^ n‖ := norm_add_le _ _
        _ ≤ n * ‖a - b‖ + ‖a - b‖ := add_le_add first second
        _ = (n + 1 : Nat) * ‖a - b‖ := by
            push_cast
            ring

theorem series_inside (n : Nat) (inside : (series n).norm ≤ (n.factorial : Int) ^ 2) :
    ‖(series n / n.factorial : ℂ)‖ ≤ 1 := by
  have positive : (0 : ℝ) < n.factorial := Nat.cast_pos.mpr n.factorial_pos
  have square : ‖(series n : ℂ)‖ ^ 2 ≤ (n.factorial : ℝ) ^ 2 := by
    rw [← Complex.normSq_eq_norm_sq, ← intCast_real_norm]
    exact_mod_cast inside
  rw [norm_div, Complex.norm_natCast, div_le_one positive]
  exact le_of_sq_le_sq square positive.le

theorem sine_close (n i : Nat) (inside : (series n).norm ≤ (n.factorial : Int) ^ 2) :
    |Real.sin i - ((series n) ^ i).im / (n.factorial : ℝ) ^ i| ≤ i * error n := by
  have sine : (Complex.exp Complex.I ^ i).im = Real.sin i := by
    rw [← Complex.exp_nat_mul, ← Complex.exp_ofReal_mul_I_im, Complex.ofReal_natCast]
  have rational : ((series n / n.factorial : ℂ) ^ i).im =
      ((series n) ^ i).im / (n.factorial : ℝ) ^ i := by
    rw [div_pow, ← map_pow, intCast_im]
    have real : (n.factorial : ℂ) ^ i = (((n.factorial : ℝ) ^ i : ℝ) : ℂ) := by push_cast; rfl
    rw [real, Complex.div_ofReal_im]
  have circle : ‖Complex.exp Complex.I‖ ≤ 1 := by
    have unit := Complex.norm_exp_ofReal_mul_I 1
    rw [Complex.ofReal_one, one_mul] at unit
    exact le_of_eq unit
  rw [← sine, ← rational, ← Complex.sub_im]
  calc |(Complex.exp Complex.I ^ i - (series n / n.factorial : ℂ) ^ i).im|
      ≤ ‖Complex.exp Complex.I ^ i - (series n / n.factorial : ℂ) ^ i‖ := Complex.abs_im_le_norm _
    _ ≤ i * ‖Complex.exp Complex.I - series n / n.factorial‖ :=
        pow_close _ _ circle (series_inside n inside) i
    _ ≤ i * error n := mul_le_mul_of_nonneg_left (series_close n) (Nat.cast_nonneg i)

/-- The power tells that the sine, so many times as large and without its sign, lies between
`value` and the next number. -/
def Tells (n scale i value : Nat) : Prop :=
  let whole := n.factorial ^ i
  let part := (n + 1).factorial * (n + 1)
  let nearby := scale * ((series n) ^ i).im.natAbs * part
  let slack := scale * i * (n + 2) * whole
  value * whole * part + slack ≤ nearby ∧ nearby + slack < (value + 1) * whole * part

instance tellsDecidable (n scale i value : Nat) : Decidable (Tells n scale i value) := by
  unfold Tells
  infer_instance

theorem fractions_sub (scale near whole times more part : ℝ) (left : 0 < whole)
    (right : 0 < part) :
    scale * (near / whole - times * (more / part)) =
      (scale * near * part - scale * times * more * whole) / (whole * part) := by
  field_simp

theorem floor_eq (n scale i value : Nat) (inside : (series n).norm ≤ (n.factorial : Int) ^ 2)
    (tells : Tells n scale i value) : ⌊scale * |Real.sin i|⌋₊ = value := by
  obtain ⟨lower, upper⟩ := tells
  have whole : (0 : ℝ) < (n.factorial : ℝ) ^ i := pow_pos (Nat.cast_pos.mpr n.factorial_pos) i
  have part : (0 : ℝ) < ((n + 1).factorial * (n + 1) : Nat) :=
    Nat.cast_pos.mpr (Nat.mul_pos (n + 1).factorial_pos (Nat.succ_pos n))
  have lowerReal : (value : ℝ) * (n.factorial : ℝ) ^ i * ((n + 1).factorial * (n + 1) : Nat) +
      scale * i * (n + 2 : Nat) * (n.factorial : ℝ) ^ i ≤
        scale * (((series n) ^ i).im.natAbs : ℝ) * ((n + 1).factorial * (n + 1) : Nat) := by
    exact_mod_cast lower
  have upperReal : scale * (((series n) ^ i).im.natAbs : ℝ) * ((n + 1).factorial * (n + 1) : Nat) +
      scale * i * (n + 2 : Nat) * (n.factorial : ℝ) ^ i <
        ((value : ℝ) + 1) * (n.factorial : ℝ) ^ i * ((n + 1).factorial * (n + 1) : Nat) := by
    exact_mod_cast upper
  have near := (abs_abs_sub_abs_le_abs_sub _ _).trans (sine_close n i inside)
  rw [abs_div, abs_of_pos whole, ← Int.cast_abs, Int.abs_eq_natAbs, Int.cast_natCast, error,
    abs_le] at near
  obtain ⟨above, below⟩ := near
  have scales : (0 : ℝ) ≤ scale := Nat.cast_nonneg scale
  refine (Nat.floor_eq_iff (mul_nonneg scales (abs_nonneg _))).mpr ⟨?_, ?_⟩
  · calc (value : ℝ)
        ≤ scale * ((((series n) ^ i).im.natAbs : ℝ) / (n.factorial : ℝ) ^ i -
            i * ((n + 2 : Nat) / ((n + 1).factorial * (n + 1) : Nat))) := by
          rw [fractions_sub _ _ _ _ _ _ whole part, le_div_iff₀ (mul_pos whole part)]
          linarith only [lowerReal]
      _ ≤ scale * |Real.sin i| := mul_le_mul_of_nonneg_left (by linarith only [above]) scales
  · calc scale * |Real.sin i|
        ≤ scale * ((((series n) ^ i).im.natAbs : ℝ) / (n.factorial : ℝ) ^ i -
            -i * ((n + 2 : Nat) / ((n + 1).factorial * (n + 1) : Nat))) :=
          mul_le_mul_of_nonneg_left (by linarith only [below]) scales
      _ < (value : ℝ) + 1 := by
          rw [fractions_sub _ _ _ _ _ _ whole part, div_lt_iff₀ (mul_pos whole part)]
          linarith only [upperReal]

end SineTable
