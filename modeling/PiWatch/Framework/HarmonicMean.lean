import Mathlib.Algebra.Order.Field.Basic
import Mathlib.Tactic.Ring

/-!
# The harmonic mean

The harmonic mean of two numbers that are not negative lies between them. Of two shares of the
same part it is the share of the part in both wholes together.
-/

namespace PiWatch

variable {K : Type*} [Semifield K] [LinearOrder K] {a b : K}

/-- The mean of two zeros is zero. -/
def harmonicMean (a b : K) : K := if a + b = 0 then 0 else 2 * a * b / (a + b)

theorem harmonicMean_comm (a b : K) : harmonicMean a b = harmonicMean b a := by
  rw [harmonicMean, harmonicMean, add_comm b a, mul_right_comm]

theorem harmonicMean_zero : harmonicMean (0 : K) 0 = 0 := by
  rw [harmonicMean, if_pos (add_zero 0)]

theorem harmonicMean_of_pos (h : 0 < a + b) : harmonicMean a b = 2 * a * b / (a + b) := by
  rw [harmonicMean, if_neg h.ne']

variable [IsStrictOrderedRing K]

theorem le_harmonicMean_of_le (ha : 0 ≤ a) (hab : a ≤ b) : a ≤ harmonicMean a b := by
  rcases (add_nonneg ha (ha.trans hab)).eq_or_lt with hzero | hpos
  · rw [harmonicMean, if_pos hzero.symm]
    exact ((add_eq_zero_iff_of_nonneg ha (ha.trans hab)).mp hzero.symm).1.le
  · rw [harmonicMean_of_pos hpos, le_div_iff₀ hpos]
    calc a * (a + b) = a * a + a * b := by ring
      _ ≤ a * b + a * b := by gcongr
      _ = 2 * a * b := by ring

theorem harmonicMean_le_of_le (ha : 0 ≤ a) (hab : a ≤ b) : harmonicMean a b ≤ b := by
  have hb : 0 ≤ b := ha.trans hab
  rcases (add_nonneg ha hb).eq_or_lt with hzero | hpos
  · rwa [harmonicMean, if_pos hzero.symm]
  · rw [harmonicMean_of_pos hpos, div_le_iff₀ hpos]
    calc 2 * a * b = b * a + a * b := by ring
      _ ≤ b * a + b * b := by gcongr
      _ = b * (a + b) := by ring

theorem min_le_harmonicMean (ha : 0 ≤ a) (hb : 0 ≤ b) : min a b ≤ harmonicMean a b := by
  rcases le_total a b with hab | hba
  · rw [min_eq_left hab]
    exact le_harmonicMean_of_le ha hab
  · rw [min_eq_right hba, harmonicMean_comm]
    exact le_harmonicMean_of_le hb hba

theorem harmonicMean_le_max (ha : 0 ≤ a) (hb : 0 ≤ b) : harmonicMean a b ≤ max a b := by
  rcases le_total a b with hab | hba
  · rw [max_eq_right hab]
    exact harmonicMean_le_of_le ha hab
  · rw [max_eq_left hba, harmonicMean_comm]
    exact harmonicMean_le_of_le hb hba

/-- A part `t` of the wholes `t + p` and `t + n`. -/
theorem harmonicMean_div {t p n : K} (ht : 0 ≤ t) (hp : 0 ≤ p) (hn : 0 ≤ n) :
    harmonicMean (t / (t + p)) (t / (t + n)) = 2 * t / (2 * t + p + n) := by
  rcases ht.eq_or_lt with rfl | hpos
  · rw [zero_div, zero_div, harmonicMean_zero, mul_zero, zero_div]
  · have htp : 0 < t + p := add_pos_of_pos_of_nonneg hpos hp
    have htn : 0 < t + n := add_pos_of_pos_of_nonneg hpos hn
    have hsum : t / (t + p) + t / (t + n) = t * (2 * t + p + n) / ((t + p) * (t + n)) := by
      rw [div_add_div _ _ htp.ne' htn.ne']
      congr 1
      ring
    have hprod : 2 * (t / (t + p)) * (t / (t + n)) = t * (2 * t) / ((t + p) * (t + n)) := by
      rw [mul_assoc, div_mul_div_comm, mul_div_assoc']
      congr 1
      ring
    rw [harmonicMean_of_pos (add_pos (div_pos hpos htp) (div_pos hpos htn)), hsum, hprod,
      div_div_div_cancel_right₀ (mul_pos htp htn).ne', mul_div_mul_left _ _ hpos.ne']

end PiWatch
