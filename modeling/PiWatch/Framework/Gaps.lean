import Mathlib.Data.List.Basic

/-!
# Filling the gaps of a table

A row gives the values of its columns, some of which may be missing. A missing value is taken from
the rows above, or, where there is none, from the rows below.
-/

namespace PiWatch

section Gaps

variable {ι α : Type*}

/-- The first value of a column. -/
def firstValue (c : ι) (rows : List (ι → Option α)) : Option α := rows.findSome? fun r => r c

/-- The last value of a column. -/
def lastValue (c : ι) (rows : List (ι → Option α)) : Option α := firstValue c rows.reverse

/-- Missing values become those of the row above. -/
def ffill (above : ι → Option α) : List (ι → Option α) → List (ι → Option α)
  | [] => []
  | r :: rs =>
    let filled := fun c => (r c).or (above c)
    filled :: ffill filled rs

/-- Missing values become the first ones below. -/
def bfill : List (ι → Option α) → List (ι → Option α)
  | [] => []
  | r :: rs => (fun c => (r c).or (firstValue c rs)) :: bfill rs

@[simp] theorem firstValue_nil (c : ι) : firstValue c ([] : List (ι → Option α)) = none := rfl

theorem firstValue_cons (c : ι) (r : ι → Option α) (rs : List (ι → Option α)) :
    firstValue c (r :: rs) = (r c).or (firstValue c rs) := by
  rw [firstValue, List.findSome?_cons]
  cases r c <;> rfl

theorem firstValue_append (c : ι) (rs rs' : List (ι → Option α)) :
    firstValue c (rs ++ rs') = (firstValue c rs).or (firstValue c rs') :=
  List.findSome?_append

@[simp] theorem lastValue_nil (c : ι) : lastValue c ([] : List (ι → Option α)) = none := rfl

theorem lastValue_cons (c : ι) (r : ι → Option α) (rs : List (ι → Option α)) :
    lastValue c (r :: rs) = (lastValue c rs).or (r c) := by
  rw [lastValue, lastValue, List.reverse_cons, firstValue_append, firstValue_cons, firstValue_nil,
    Option.or_none]

theorem lastValue_singleton (c : ι) (r : ι → Option α) : lastValue c [r] = r c := by
  rw [lastValue_cons, lastValue_nil, Option.none_or]

/-- A column has a first value exactly if it has a last one. -/
theorem lastValue_eq_none_iff {c : ι} {rows : List (ι → Option α)} :
    lastValue c rows = none ↔ firstValue c rows = none := by
  simp only [lastValue, firstValue, List.findSome?_eq_none_iff, List.mem_reverse]

@[simp] theorem length_ffill (above : ι → Option α) (rows : List (ι → Option α)) :
    (ffill above rows).length = rows.length := by
  induction rows generalizing above with
  | nil => rfl
  | cons r rs ih => rw [ffill, List.length_cons, ih, List.length_cons]

@[simp] theorem length_bfill (rows : List (ι → Option α)) : (bfill rows).length = rows.length := by
  induction rows with
  | nil => rfl
  | cons r rs ih => rw [bfill, List.length_cons, ih, List.length_cons]

theorem getElem?_bfill {rows : List (ι → Option α)} {i : ℕ} (h : i < rows.length) :
    (bfill rows)[i]? = some fun c => firstValue c (rows.drop i) := by
  induction rows generalizing i with
  | nil => cases h
  | cons r rs ih =>
    cases i with
    | zero =>
      rw [bfill, List.getElem?_cons_zero, List.drop_zero]
      simp only [firstValue_cons]
    | succ i =>
      rw [bfill, List.getElem?_cons_succ, ih (Nat.lt_of_succ_lt_succ h), List.drop_succ_cons]

/-- A column that is missing above keeps its first value. -/
theorem firstValue_ffill {c : ι} {above : ι → Option α} (habove : above c = none)
    (rows : List (ι → Option α)) : firstValue c (ffill above rows) = firstValue c rows := by
  induction rows generalizing above with
  | nil => rfl
  | cons r rs ih =>
    rw [ffill, firstValue_cons, firstValue_cons, habove, Option.or_none]
    cases hr : r c with
    | some x => rfl
    | none => rw [ih (by simp only [hr, habove, Option.or_none])]

theorem firstValue_drop_ffill (c : ι) (above : ι → Option α) {rows : List (ι → Option α)} {i : ℕ}
    (h : i < rows.length) :
    firstValue c ((ffill above rows).drop i) =
      (lastValue c (rows.take (i + 1))).or ((above c).or (firstValue c (rows.drop (i + 1)))) := by
  induction rows generalizing above i with
  | nil => cases h
  | cons r rs ih =>
    cases i with
    | zero =>
      rw [List.drop_zero, ffill, firstValue_cons, List.take_succ_cons, List.take_zero,
        lastValue_singleton, List.drop_succ_cons, List.drop_zero, ← Option.or_assoc]
      cases hfilled : (r c).or (above c) with
      | some x => rfl
      | none =>
        rw [firstValue_ffill]
        exact hfilled
    | succ i =>
      rw [ffill, List.drop_succ_cons, ih _ (Nat.lt_of_succ_lt_succ h), List.take_succ_cons,
        List.drop_succ_cons, lastValue_cons]
      simp only [Option.or_assoc]

/-- A filled row shows the last value of each column so far, or else the first one below. -/
theorem getElem?_bfill_ffill {rows : List (ι → Option α)} {i : ℕ} (h : i < rows.length) :
    (bfill (ffill (fun _ => none) rows))[i]? =
      some fun c => (lastValue c (rows.take (i + 1))).or (firstValue c (rows.drop (i + 1))) := by
  rw [getElem?_bfill (by rwa [length_ffill])]
  simp only [firstValue_drop_ffill _ _ h, Option.none_or]

/-- The first rows depend on the rows behind them through the columns that have no value yet. -/
theorem take_bfill_ffill {past later later' : List (ι → Option α)}
    (h : ∀ c, firstValue c past ≠ none ∨ firstValue c later = firstValue c later') :
    (bfill (ffill (fun _ => none) (past ++ later))).take past.length =
      (bfill (ffill (fun _ => none) (past ++ later'))).take past.length := by
  apply List.ext_getElem?
  intro i
  rw [List.getElem?_take, List.getElem?_take]
  split_ifs with hi
  · rw [getElem?_bfill_ffill (by rw [List.length_append]; omega),
      getElem?_bfill_ffill (by rw [List.length_append]; omega),
      List.take_append_of_le_length hi, List.take_append_of_le_length hi,
      List.drop_append_of_le_length hi, List.drop_append_of_le_length hi]
    congr 1
    funext c
    rw [firstValue_append, firstValue_append]
    rcases h c with hpast | hlater
    · cases hlast : lastValue c (past.take (i + 1)) with
      | some x => rfl
      | none =>
        cases hfirst : firstValue c (past.drop (i + 1)) with
        | some x => rfl
        | none =>
          refine absurd ?_ hpast
          rw [← List.take_append_drop (i + 1) past, firstValue_append, hfirst,
            lastValue_eq_none_iff.mp hlast, Option.or_none]
    · rw [hlater]
  · rfl

end Gaps

end PiWatch
