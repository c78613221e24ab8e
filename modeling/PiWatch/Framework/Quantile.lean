import Mathlib.Algebra.Order.Floor.Semiring
import Mathlib.Data.List.Sort
import Mathlib.Tactic.Linarith
import Mathlib.Tactic.Ring

/-!
# Quantiles

The quantile of a list lies between two neighbours of the sorted list and is interpolated linearly.
-/

namespace PiWatch

section Sorted

variable {α : Type*} [LinearOrder α] {l : List α} {a c : α} {k : ℕ}

/-- In a sorted list the elements up to a bound come first. -/
theorem getElem?_le_iff_of_sortedLE (h : l.SortedLE) (ha : l[k]? = some a) :
    a ≤ c ↔ k < l.countP (· ≤ c) := by
  induction l generalizing k with
  | nil => cases ha
  | cons b l ih =>
    obtain ⟨hb, hl⟩ := List.pairwise_cons.mp h.pairwise
    by_cases hbc : b ≤ c
    · rw [List.countP_cons_of_pos (by rwa [decide_eq_true_iff])]
      cases k with
      | zero =>
        rw [List.getElem?_cons_zero, Option.some.injEq] at ha
        rw [← ha]
        exact iff_of_true hbc (Nat.succ_pos _)
      | succ k =>
        rw [List.getElem?_cons_succ] at ha
        rw [ih hl.sortedLE ha, Nat.succ_lt_succ_iff]
    · have hall : ∀ x ∈ b :: l, ¬ x ≤ c := by
        intro x hx
        rcases List.mem_cons.mp hx with rfl | hx
        · exact hbc
        · exact fun hxc => hbc ((hb x hx).trans hxc)
      have hzero : (b :: l).countP (· ≤ c) = 0 := by
        rw [List.countP_eq_zero]
        intro x hx
        rw [decide_eq_true_iff]
        exact hall x hx
      rw [hzero]
      exact iff_of_false (hall a (List.mem_of_getElem? ha)) (Nat.not_lt_zero k)

end Sorted

section Quantile

variable {α : Type*} [CommRing α] [LinearOrder α] {l : List α} {q c v : α}

/-- The place of the quantile in the sorted list. -/
def virtualIndex (l : List α) (q : α) : α := ((l.length - 1 : ℕ) : α) * q

/-- `np.quantile(l, q)`; there is none of an empty list. -/
def quantile [FloorSemiring α] (l : List α) (q : α) : Option α :=
  let sorted := l.insertionSort (· ≤ ·)
  let i := ⌊virtualIndex l q⌋₊
  sorted[i]?.map fun a => a + (virtualIndex l q - i) * (sorted[i + 1]?.getD a - a)

variable [IsStrictOrderedRing α]

theorem virtualIndex_nonneg (l : List α) (hq : 0 ≤ q) : 0 ≤ virtualIndex l q :=
  mul_nonneg (Nat.cast_nonneg _) hq

theorem virtualIndex_le (l : List α) (hq1 : q ≤ 1) : virtualIndex l q ≤ (l.length - 1 : ℕ) :=
  mul_le_of_le_one_right (Nat.cast_nonneg _) hq1

/-- A value between two neighbours lies above a bound exactly if the upper one does. -/
theorem lt_lerp_iff {a b t : α} (hca : c ≤ a) (hab : a ≤ b) (ht : 0 < t) (ht1 : t < 1) :
    c < a + t * (b - a) ↔ c < b := by
  have hmix : a + t * (b - a) - c = (1 - t) * (a - c) + t * (b - c) := by ring
  rw [← sub_pos, hmix]
  constructor
  · intro h
    by_contra hbc
    have hb : b - c = 0 := by linarith
    have ha : a - c = 0 := by linarith
    rw [ha, hb, mul_zero, mul_zero, add_zero] at h
    exact lt_irrefl 0 h
  · intro h
    have hfirst := mul_nonneg (sub_nonneg.mpr ht1.le) (sub_nonneg.mpr hca)
    have hsecond := mul_pos ht (sub_pos.mpr h)
    linarith

variable [FloorSemiring α]

theorem exists_quantile (hl : l ≠ []) (hq1 : q ≤ 1) : ∃ v, quantile l q = some v := by
  have hi : ⌊virtualIndex l q⌋₊ < (l.insertionSort (· ≤ ·)).length := by
    have hlength := List.length_pos_of_ne_nil hl
    have hle := Nat.floor_mono (virtualIndex_le l hq1)
    rw [Nat.floor_natCast] at hle
    rw [List.length_insertionSort]
    omega
  rw [quantile, List.getElem?_eq_getElem hi]
  exact ⟨_, rfl⟩

/-- The quantile of numbers from a bound on lies above it exactly if no more of them are equal to
the bound than come before the quantile. -/
theorem lt_quantile_iff (hl : ∀ x ∈ l, c ≤ x) (hq : 0 ≤ q) (hq1 : q ≤ 1)
    (hv : quantile l q = some v) : c < v ↔ l.countP (· ≤ c) ≤ ⌈virtualIndex l q⌉₊ := by
  have hsorted : (l.insertionSort (· ≤ ·)).SortedLE := List.sortedLE_insertionSort
  have hcount : ∀ {k : ℕ} {x : α}, (l.insertionSort (· ≤ ·))[k]? = some x →
      (c < x ↔ l.countP (· ≤ c) ≤ k) := by
    intro k x hx
    rw [← not_le, getElem?_le_iff_of_sortedLE hsorted hx, not_lt,
      (List.perm_insertionSort _ l).countP_eq]
  have hbound : ∀ {k : ℕ} {x : α}, (l.insertionSort (· ≤ ·))[k]? = some x → c ≤ x := by
    intro k x hx
    exact hl x (List.mem_insertionSort _ |>.mp (List.mem_of_getElem? hx))
  obtain ⟨a, ha, rfl⟩ := Option.map_eq_some_iff.mp hv
  rcases (Nat.floor_le (virtualIndex_nonneg l hq)).eq_or_lt with hwhole | hpart
  · have hceil : ⌈virtualIndex l q⌉₊ = ⌊virtualIndex l q⌋₊ := by
      rw [← hwhole, Nat.ceil_natCast, Nat.floor_natCast]
    rw [hwhole, sub_self, zero_mul, add_zero, hceil]
    exact hcount ha
  · have hceil : ⌈virtualIndex l q⌉₊ = ⌊virtualIndex l q⌋₊ + 1 :=
      Nat.le_antisymm (Nat.ceil_le_floor_add_one _) (Nat.lt_ceil.mpr hpart)
    have hlast : ⌊virtualIndex l q⌋₊ < l.length - 1 := by
      rw [← Nat.cast_lt (α := α)]
      exact hpart.trans_le (virtualIndex_le l hq1)
    obtain ⟨b, hb⟩ : ∃ b, (l.insertionSort (· ≤ ·))[⌊virtualIndex l q⌋₊ + 1]? = some b := by
      refine ⟨_, List.getElem?_eq_getElem ?_⟩
      rw [List.length_insertionSort]
      omega
    have hab : a ≤ b := by
      obtain ⟨hi, rfl⟩ := List.getElem?_eq_some_iff.mp ha
      obtain ⟨hi', rfl⟩ := List.getElem?_eq_some_iff.mp hb
      exact hsorted.getElem_le_getElem_of_le (Nat.le_succ _)
    have hfrac := Nat.lt_floor_add_one (virtualIndex l q)
    rw [hb, Option.getD_some,
      lt_lerp_iff (hbound ha) hab (sub_pos.mpr hpart) (sub_lt_iff_lt_add'.mpr hfrac), hceil]
    exact hcount hb

end Quantile

end PiWatch
