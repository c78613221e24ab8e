import Mathlib.Data.PNat.Basic
import PiWatch.Ml.Dataset

/-!
# Scores

A row is scored by the error the model makes on the window that ends there.
-/

namespace PiWatch.Ml

/-- `score_series`. The model gives an error for every window of scaled rows. -/
def scoreSeries {σ : Type*} [Zero σ] (g : List Row) (error : List Row → σ) (scaler : Scaler)
    (windowSize : ℕ) : List σ :=
  let values := (fillGaps g).map scaler.transform
  let n := values.length
  let scores := List.replicate n 0
  if n < windowSize then scores
  else
    let windows := (List.range' windowSize (n + 1 - windowSize)).map fun i =>
      (values.take i).drop (i - windowSize)
    scores.take (windowSize - 1) ++ windows.map error

/-- The window that ends at a row. -/
def windowAt (g : List Row) (scaler : Scaler) (windowSize i : ℕ) : List Row :=
  (((fillGaps g).take (i + 1)).drop (i + 1 - windowSize)).map scaler.transform

theorem length_values (g : List Row) (scaler : Scaler) :
    ((fillGaps g).map scaler.transform).length = g.length := by
  rw [List.length_map, length_fillGaps]

section Rows

variable {σ : Type*} [Zero σ] (error : List Row → σ) (scaler : Scaler) {w : ℕ} (hw : 0 < w)

include hw

theorem length_scoreSeries (g : List Row) : (scoreSeries g error scaler w).length = g.length := by
  rw [scoreSeries]
  dsimp only
  rw [length_values]
  split_ifs with hshort
  · rw [List.length_replicate]
  · rw [List.length_append, List.length_take, List.length_replicate, List.length_map,
      List.length_map, List.length_range']
    omega

theorem getElem?_scoreSeries {g : List Row} {i : ℕ} (h : i < g.length) :
    (scoreSeries g error scaler w)[i]? =
      some (if i + 1 < w then 0 else error (windowAt g scaler w i)) := by
  rw [scoreSeries]
  dsimp only
  rw [length_values]
  by_cases hshort : g.length < w
  · rw [if_pos hshort, if_pos (by omega), List.getElem?_replicate_of_lt h]
  · rw [if_neg hshort, List.take_replicate, Nat.min_eq_left (by omega)]
    split_ifs with hi
    · rw [List.getElem?_append_left (by rw [List.length_replicate]; omega),
        List.getElem?_replicate_of_lt (by omega)]
    · have hlast : w + (i - (w - 1)) = i + 1 := by omega
      rw [List.getElem?_append_right (by rw [List.length_replicate]; omega), List.length_replicate,
        List.map_map, List.getElem?_map, List.getElem?_range' (by omega), one_mul, hlast,
        Option.map_some, Function.comp_apply, windowAt, ← List.map_take, ← List.map_drop]

theorem scoreSeries_eq_map (g : List Row) :
    scoreSeries g error scaler w = (List.range g.length).map fun i =>
      if i + 1 < w then 0 else error (windowAt g scaler w i) := by
  apply List.ext_getElem?
  intro i
  by_cases hi : i < g.length
  · rw [getElem?_scoreSeries error scaler hw hi, List.getElem?_map, List.getElem?_range hi,
      Option.map_some]
  · rw [List.getElem?_eq_none (by rw [length_scoreSeries error scaler hw]; omega),
      List.getElem?_eq_none (by rw [List.length_map, List.length_range]; omega)]

end Rows

/-- The window ends with the filled row itself. -/
theorem getLast?_windowAt {g : List Row} (scaler : Scaler) {w i : ℕ} (hw : 0 < w)
    (h : i < g.length) :
    (windowAt g scaler w i).getLast? = some (scaler.transform fun f =>
      (lastValue f (g.take (i + 1))).or (firstValue f (g.drop (i + 1)))) := by
  have hlength : ((fillGaps g).take (i + 1)).length = i + 1 := by
    rw [List.length_take, length_fillGaps]
    omega
  have hrow := getElem?_bfill_ffill h
  rw [windowAt, List.getLast?_map, List.getLast?_drop, if_neg (by omega), List.getLast?_take,
    if_neg (Nat.succ_ne_zero i), Nat.add_sub_cancel, fillGaps, hrow, Option.some_or,
    Option.map_some]

/-! ## Later data -/

/-- Whatever the scaler and the model, the row has the same score in both tables. -/
def SameScore (g g' : List Row) (w : ℕ+) (i : ℕ) : Prop :=
  ∀ (scaler : Scaler) (σ : Type) (_ : Zero σ) (error : List Row → σ),
    (scoreSeries g error scaler w)[i]? = (scoreSeries g' error scaler w)[i]?

section SameScore

variable {past later later' : List Row} {i : ℕ}

theorem getElem?_scoreSeries_append {σ : Type*} [Zero σ] (error : List Row → σ) (scaler : Scaler)
    (w : ℕ+) (hlength : past.length = i + 1) :
    (scoreSeries (past ++ later) error scaler w)[i]? =
      some (if i + 1 < w then 0 else error (windowAt (past ++ later) scaler w i)) := by
  apply getElem?_scoreSeries error scaler w.pos
  rw [List.length_append]
  omega

theorem windowAt_append (scaler : Scaler) (w : ℕ) (hlength : past.length = i + 1)
    (h : ∀ f, firstValue f past ≠ none ∨ firstValue f later = firstValue f later') :
    windowAt (past ++ later) scaler w i = windowAt (past ++ later') scaler w i := by
  rw [windowAt, windowAt, ← hlength, fillGaps, fillGaps, take_bfill_ffill h]

/-- A column without a value so far is filled with its first value in the rows behind. -/
theorem getLast?_windowAt_append (w : ℕ+) (hlength : past.length = i + 1) {f : Feature}
    (hf : firstValue f past = none) :
    (windowAt (past ++ later) Scaler.unit w i).getLast?.bind (fun r => r f) =
      firstValue f later := by
  rw [getLast?_windowAt Scaler.unit w.pos (by rw [List.length_append]; omega),
    Scaler.transform_unit, ← hlength, List.take_left, List.drop_left, Option.bind_some]
  simp only [lastValue_eq_none_iff.mpr hf, Option.none_or]

theorem firstValue_eq_of_sameScore {w : ℕ+} (hlength : past.length = i + 1)
    (h : SameScore (past ++ later) (past ++ later') w i) (hfull : w ≤ i + 1) {f : Feature}
    (hf : firstValue f past = none) : firstValue f later = firstValue f later' := by
  let zero : Zero (Option ℚ) := ⟨none⟩
  have hscore := h Scaler.unit (Option ℚ) zero fun window => window.getLast?.bind fun r => r f
  rw [getElem?_scoreSeries_append _ _ w hlength, getElem?_scoreSeries_append _ _ w hlength,
    if_neg (Nat.not_lt.mpr hfull), if_neg (Nat.not_lt.mpr hfull),
    getLast?_windowAt_append w hlength hf, getLast?_windowAt_append w hlength hf] at hscore
  exact Option.some.inj hscore

end SameScore

/-- The score of a row depends on the rows behind it exactly if a column has no value up to the
row, and its first value behind it differs. -/
theorem sameScore_iff (earlier later later' : List Row) (row : Row) (w : ℕ+) :
    SameScore (earlier ++ row :: later) (earlier ++ row :: later') w earlier.length ↔
      earlier.length + 1 < w ∨
        ∀ f, firstValue f (earlier ++ [row]) ≠ none ∨ firstValue f later = firstValue f later' := by
  have hlength : (earlier ++ [row]).length = earlier.length + 1 := List.length_append
  rw [List.append_cons earlier row later, List.append_cons earlier row later']
  constructor
  · intro h
    rw [or_iff_not_imp_left]
    intro hfull f
    rw [or_iff_not_imp_left]
    intro hf
    exact firstValue_eq_of_sameScore hlength h (Nat.not_lt.mp hfull) (not_not.mp hf)
  · intro h scaler σ _ error
    rw [getElem?_scoreSeries_append error scaler w hlength,
      getElem?_scoreSeries_append error scaler w hlength]
    rcases h with hwarm | hcolumns
    · rw [if_pos hwarm, if_pos hwarm]
    · rw [windowAt_append scaler w hlength hcolumns]

/-- The node agent reports its first temperature after the first sample. -/
theorem sameScore_temperature :
    ¬ SameScore [fun f => if f = .tempC then none else some 20, fun _ => some 50]
      [fun f => if f = .tempC then none else some 20, fun _ => some 60] 1 0 := by
  intro h
  have hscore := h Scaler.unit (Option ℚ) ⟨none⟩
    fun window => window.getLast?.bind fun r => r .tempC
  revert hscore
  decide +kernel

end PiWatch.Ml
