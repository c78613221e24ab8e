import Mathlib.Algebra.BigOperators.Fin
import Mathlib.Algebra.Order.Chebyshev
import Mathlib.Tactic.FieldSimp
import Mathlib.Tactic.Linarith

/-!
# Deviations from the mean

The mean and the sample variance of a list of values. No value lies further from the mean of the
values it is one of than their number and their variance allow.
-/

namespace PiWatch

namespace Deviation

variable {K : Type*} [Field K]

def mean (l : List K) : K := l.sum / l.length

/-- The sum of the squared deviations. -/
def spread (l : List K) : K := (l.map fun x => (x - mean l) ^ 2).sum

/-- With one degree of freedom less than values. -/
def variance (l : List K) : K := spread l / (l.length - 1)

section Ordered

variable [LinearOrder K] [IsStrictOrderedRing K] {l : List K}

theorem spread_nonneg (l : List K) : 0 ≤ spread l := by
  apply List.sum_nonneg
  intro y hy
  obtain ⟨x, -, rfl⟩ := List.mem_map.mp hy
  exact sq_nonneg _

theorem sum_sub_mean (h : l ≠ []) : (l.map fun x => x - mean l).sum = 0 := by
  have hlength : (l.length : K) ≠ 0 := by
    rw [Nat.cast_ne_zero]
    exact fun hzero => h (List.length_eq_zero_iff.mp hzero)
  simp only [sub_eq_add_neg, List.sum_map_add, List.map_id', List.map_const', List.sum_replicate,
    nsmul_eq_mul, mul_neg]
  rw [mean, mul_div_cancel₀ _ hlength, add_neg_cancel]

/-- The deviation of one value is made up by the others, so it cannot be large alone. -/
theorem sq_sub_mean_le {x : K} (hx : x ∈ l) :
    l.length * (x - mean l) ^ 2 ≤ (l.length - 1) * spread l := by
  obtain ⟨j, hj, rfl⟩ := List.mem_iff_getElem.mp hx
  let d : Fin l.length → K := fun i => l[i] - mean l
  have hsum : ∑ i, d i = 0 := (Fin.sum_univ_fun_getElem l fun x => x - mean l).trans
    (sum_sub_mean (List.ne_nil_of_mem hx))
  have hspread : ∑ i, d i ^ 2 = spread l := Fin.sum_univ_fun_getElem l fun x => (x - mean l) ^ 2
  have hothers : ∑ i ∈ Finset.univ.erase ⟨j, hj⟩, d i = -d ⟨j, hj⟩ := by
    rw [Finset.sum_erase_eq_sub (Finset.mem_univ _), hsum, zero_sub]
  have hsquares : ∑ i ∈ Finset.univ.erase ⟨j, hj⟩, d i ^ 2 = spread l - d ⟨j, hj⟩ ^ 2 := by
    rw [Finset.sum_erase_eq_sub (Finset.mem_univ _), hspread]
  have hcard : ((Finset.univ.erase (⟨j, hj⟩ : Fin l.length)).card : K) = l.length - 1 := by
    rw [Finset.card_erase_of_mem (Finset.mem_univ _), Finset.card_univ, Fintype.card_fin,
      Nat.cast_pred (by omega)]
  have hcauchy := sq_sum_le_card_mul_sum_sq (s := Finset.univ.erase ⟨j, hj⟩) (f := d)
  rw [hothers, hsquares, hcard, neg_sq] at hcauchy
  change l.length * d ⟨j, hj⟩ ^ 2 ≤ (l.length - 1) * spread l
  linarith

/-- How far a value is from the mean, in squared units of the deviation. -/
theorem sq_sub_mean_div_variance_le {x : K} (hx : x ∈ l) :
    (x - mean l) ^ 2 / variance l ≤ (l.length - 1) ^ 2 / l.length := by
  have hlength : (1 : K) ≤ l.length := by
    exact_mod_cast List.length_pos_iff.mpr (List.ne_nil_of_mem hx)
  rcases hlength.eq_or_lt with hone | hmany
  · simp [variance, ← hone]
  rcases (spread_nonneg l).eq_or_lt with hzero | hspread
  · rw [variance, ← hzero, zero_div, div_zero]
    positivity
  have hrest : (0 : K) < l.length - 1 := sub_pos.mpr hmany
  have hpos : (0 : K) < l.length := zero_lt_one.trans hmany
  have hvariance : 0 < variance l := div_pos hspread hrest
  rw [div_le_div_iff₀ hvariance hpos]
  calc (x - mean l) ^ 2 * l.length = l.length * (x - mean l) ^ 2 := mul_comm _ _
    _ ≤ (l.length - 1) * spread l := sq_sub_mean_le hx
    _ = (l.length - 1) ^ 2 * variance l := by
      rw [variance, sq, mul_assoc, mul_div_cancel₀ _ hrest.ne']

end Ordered

/-! ## One value apart from the others -/

section Spike

theorem mean_spike (c x : K) (n : ℕ) :
    mean (List.replicate n c ++ [x]) = (n * c + x) / (n + 1) := by
  simp [mean]

variable [CharZero K] {c x : K} {n : ℕ}

theorem spread_spike (c x : K) (n : ℕ) :
    spread (List.replicate n c ++ [x]) = n * (x - c) ^ 2 / (n + 1) := by
  have hn : (n : K) + 1 ≠ 0 := Nat.cast_add_one_ne_zero n
  simp only [spread, mean_spike, List.map_append, List.map_replicate, List.map_singleton,
    List.sum_append, List.sum_replicate, List.sum_singleton, nsmul_eq_mul]
  field_simp
  ring

/-- Such a value is as far from the mean as their number allows, however close it is. -/
theorem spike_div_variance (hx : x ≠ c) (hn : n ≠ 0) :
    (x - mean (List.replicate n c ++ [x])) ^ 2 / variance (List.replicate n c ++ [x]) =
      n ^ 2 / (n + 1) := by
  have hne : x - c ≠ 0 := sub_ne_zero.mpr hx
  have hn' : (n : K) ≠ 0 := Nat.cast_ne_zero.mpr hn
  have hn1 : (n : K) + 1 ≠ 0 := Nat.cast_add_one_ne_zero n
  rw [variance, spread_spike, mean_spike]
  simp only [List.length_append, List.length_replicate, List.length_singleton, Nat.cast_add,
    Nat.cast_one, add_sub_cancel_right]
  field_simp
  ring

end Spike

/-! ## Other units -/

section Units

variable [CharZero K] {l : List K} (a b : K)

theorem mean_affine (h : l ≠ []) : mean (l.map fun x => a * x + b) = a * mean l + b := by
  have hlength : (l.length : K) ≠ 0 := by
    rw [Nat.cast_ne_zero]
    exact fun hzero => h (List.length_eq_zero_iff.mp hzero)
  have hsum : (l.map fun x => a * x).sum = a * l.sum := by
    rw [List.sum_map_mul_left, List.map_id']
  simp only [mean, List.length_map, List.sum_map_add, hsum, List.map_const', List.sum_replicate,
    nsmul_eq_mul]
  field_simp

theorem variance_affine (l : List K) :
    variance (l.map fun x => a * x + b) = a ^ 2 * variance l := by
  rcases eq_or_ne l [] with rfl | h
  · simp [variance, spread]
  · have hspread : spread (l.map fun x => a * x + b) = a ^ 2 * spread l := by
      rw [spread, spread, mean_affine a b h, List.map_map, ← List.sum_map_mul_left]
      congr 1
      apply List.map_congr_left
      intro x _
      change (a * x + b - (a * mean l + b)) ^ 2 = a ^ 2 * (x - mean l) ^ 2
      ring
    rw [variance, variance, hspread, List.length_map, mul_div_assoc]

end Units

end Deviation

end PiWatch
