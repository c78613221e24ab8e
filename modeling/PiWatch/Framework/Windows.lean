import Mathlib.Data.List.Basic

/-!
# Windows

Parts of a list that start some steps apart, and the assignment of values to the end of a list.
-/

namespace PiWatch

section Slice

variable {α : Type*}

/-- `l[start:stop]`. -/
def slice (l : List α) (start stop : ℕ) : List α := (l.take stop).drop start

theorem length_slice {l : List α} {stop : ℕ} (start : ℕ) (h : stop ≤ l.length) :
    (slice l start stop).length = stop - start := by
  rw [slice, List.length_drop, List.length_take, Nat.min_eq_left h]

theorem take_append_slice {l : List α} {start stop : ℕ} (h : start ≤ stop) :
    l.take start ++ slice l start stop = l.take stop := by
  have hstart : (l.take stop).take start = l.take start := by
    rw [List.take_take, Nat.min_eq_left h]
  rw [slice, ← hstart, List.take_append_drop]

/-- Slices between ascending places follow each other without a gap. -/
theorem flatten_slices (l : List α) {places : ℕ → ℕ} (hzero : places 0 = 0) {k : ℕ}
    (hmono : ∀ i < k, places i ≤ places (i + 1)) :
    ((List.range k).map fun i => slice l (places i) (places (i + 1))).flatten =
      l.take (places k) := by
  induction k with
  | zero => rw [hzero, List.range_zero, List.map_nil, List.flatten_nil, List.take_zero]
  | succ k ih =>
    rw [List.range_succ, List.map_append, List.flatten_append,
      ih fun i hi => hmono i (Nat.lt_succ_of_lt hi), List.map_singleton,
      List.flatten_singleton, take_append_slice (hmono k (Nat.lt_succ_self k))]

end Slice

section Steps

variable {stop step : ℕ}

/-- `range(0, stop, step)`. -/
def stepsBelow (stop step : ℕ) : List ℕ := List.range' 0 ((stop + step - 1) / step) step

theorem getElem?_stepsBelow (hstep : 0 < step) (k : ℕ) :
    (stepsBelow stop step)[k]? = if k * step < stop then some (k * step) else none := by
  have hmem : k < (stop + step - 1) / step ↔ k * step < stop := by
    rw [Nat.lt_iff_add_one_le, Nat.le_div_iff_mul_le hstep, Nat.add_one_mul]
    omega
  split_ifs with hk
  · rw [stepsBelow, List.getElem?_range' (hmem.mpr hk), Nat.zero_add, Nat.mul_comm]
  · rw [stepsBelow, List.getElem?_eq_none]
    rwa [List.length_range', ← Nat.not_lt, hmem]

theorem length_stepsBelow (hstep : 0 < step) (d : ℕ) :
    (stepsBelow (d + 1) step).length = d / step + 1 := by
  rw [stepsBelow, List.length_range', Nat.add_right_comm, Nat.add_sub_cancel,
    Nat.add_div_right d hstep]

end Steps

section Assign

variable {β : Type*}

/-- `l[start:] = ys`, one place after the other. -/
def assignFrom (l : List β) (start : ℕ) (ys : List β) : List β :=
  (ys.zipIdx start).foldl (fun l y => l.set y.2 y.1) l

/-- The places that are assigned to. -/
def assignedPlaces (start : ℕ) (ys : List β) : List ℕ := (ys.zipIdx start).map Prod.snd

theorem assignFrom_eq {l : List β} {start : ℕ} {ys : List β} (h : start + ys.length = l.length) :
    assignFrom l start ys = l.take start ++ ys := by
  induction ys generalizing l start with
  | nil =>
    rw [List.length_nil, Nat.add_zero] at h
    rw [h, List.take_length, List.append_nil]
    rfl
  | cons y ys ih =>
    rw [List.length_cons] at h
    have hstart : (l.set start y).take (start + 1) = l.take start ++ [y] := by
      rw [List.take_add_one, List.take_set_of_le (Nat.le_refl start),
        List.getElem?_set_self (by omega), Option.toList_some]
    rw [assignFrom, List.zipIdx_cons, List.foldl_cons, ← assignFrom,
      ih (by rw [List.length_set]; omega), hstart, List.append_assoc, List.singleton_append]

theorem count_assignedPlaces (start : ℕ) (ys : List β) (i : ℕ) :
    (assignedPlaces start ys).count i = if start ≤ i ∧ i < start + ys.length then 1 else 0 := by
  rw [assignedPlaces, List.zipIdx_map_snd, List.count_range_1']

end Assign

end PiWatch
