import PiWatch.Ml.Score

/-!
# Windows of a series

The model is trained on the windows that start some rows apart, and every row is scored by the
window that ends there. Both cut the same windows.
-/

namespace PiWatch.Ml

section BuildWindows

variable {α : Type*} {values : List α} {w stride : ℕ}

theorem getElem?_buildWindows (hstride : 0 < stride) (k : ℕ) :
    (buildWindows values w stride)[k]? =
      if k * stride + w ≤ values.length then some (slice values (k * stride) (k * stride + w))
      else none := by
  rw [buildWindows]
  dsimp only
  split_ifs with hshort hk hk
  · omega
  · rfl
  · rw [List.getElem?_map, getElem?_stepsBelow hstride, if_pos (by omega), Option.map_some]
  · rw [List.getElem?_map, getElem?_stepsBelow hstride, if_neg (by omega), Option.map_none]

theorem length_buildWindows (hstride : 0 < stride) :
    (buildWindows values w stride).length =
      if w ≤ values.length then (values.length - w) / stride + 1 else 0 := by
  rw [buildWindows]
  dsimp only
  split_ifs with hshort hfits hfits
  · omega
  · rfl
  · rw [List.length_map, length_stepsBelow hstride]
  · omega

theorem length_of_mem_buildWindows (hstride : 0 < stride) {window : List α}
    (h : window ∈ buildWindows values w stride) : window.length = w := by
  obtain ⟨k, hk⟩ := List.mem_iff_getElem?.mp h
  rw [getElem?_buildWindows hstride] at hk
  split_ifs at hk with hfits
  rw [← Option.some.inj hk, length_slice _ hfits, Nat.add_sub_cancel_left]

/-- The windows of `score_series`. -/
def scoringWindows (values : List α) (windowSize : ℕ) : List (List α) :=
  (List.range' windowSize (values.length + 1 - windowSize)).map fun i =>
    slice values (i - windowSize) i

theorem scoringWindows_eq (values : List α) (w : ℕ) :
    scoringWindows values w = buildWindows values w 1 := by
  apply List.ext_getElem?
  intro k
  rw [getElem?_buildWindows Nat.one_pos, scoringWindows, List.getElem?_map, Nat.mul_one]
  split_ifs with hk
  · rw [List.getElem?_range' (by omega), Option.map_some, Nat.one_mul, Nat.add_sub_cancel_left,
      Nat.add_comm w k]
  · rw [List.getElem?_eq_none (by rw [List.length_range']; omega), Option.map_none]

/-- The slices of `w` rows that start `stride` rows apart and fit. -/
structure AreWindows (values : List α) (w stride : ℕ) (windows : List (List α)) : Prop where
  count : windows.length =
    if w ≤ values.length then (values.length - w) / stride + 1 else 0
  starts : ∀ k : ℕ, windows[k]? =
    if k * stride + w ≤ values.length then some (slice values (k * stride) (k * stride + w))
    else none
  size : ∀ window ∈ windows, window.length = w

theorem areWindows_buildWindows (hstride : 0 < stride) :
    AreWindows values w stride (buildWindows values w stride) := by
  constructor
  · exact length_buildWindows hstride
  · exact getElem?_buildWindows hstride
  · intro window h
    exact length_of_mem_buildWindows hstride h

end BuildWindows

section ScoreSeries

variable {σ : Type*} [Zero σ]

/-- Every row that ends a window is assigned the error of the window, and no other row is
assigned to. -/
structure ScoredBy (error : List Row → σ) (values : List Row) (w : ℕ) (windows : List (List Row))
    (scores : List σ) : Prop where
  assigned : scores =
    assignFrom (List.replicate values.length 0) (w - 1) (windows.map error)
  once : ∀ r : ℕ, (assignedPlaces (w - 1) (windows.map error)).count r =
    if w - 1 ≤ r ∧ r < values.length then 1 else 0
  offset : ∀ (k : ℕ) (window : List Row), windows[k]? = some window →
    scores[k + w - 1]? = some (error window)
  ends : ∀ r : ℕ, w - 1 ≤ r → r < values.length →
    scores[r]? = some (error (slice values (r + 1 - w) (r + 1)))
  length : scores.length = values.length

variable (error : List Row → σ) (scaler : Scaler) (g : List Row) {w : ℕ} (hw : 0 < w)

theorem length_scoringWindows (values : List Row) (w : ℕ) :
    (scoringWindows values w).length = values.length + 1 - w := by
  rw [scoringWindows, List.length_map, List.length_range']

theorem windowAt_eq_slice (w i : ℕ) :
    windowAt g scaler w i = slice ((fillGaps g).map scaler.transform) (i + 1 - w) (i + 1) := by
  rw [windowAt, slice, List.map_drop, List.map_take]

include hw

theorem scoreSeries_eq_assignFrom :
    scoreSeries g error scaler w =
      assignFrom (List.replicate ((fillGaps g).map scaler.transform).length 0) (w - 1)
        ((scoringWindows ((fillGaps g).map scaler.transform) w).map error) := by
  rw [scoreSeries]
  dsimp only
  split_ifs with hshort
  · rw [scoringWindows, Nat.sub_eq_zero_of_le hshort]
    rfl
  · rw [assignFrom_eq]
    · rfl
    · rw [List.length_map, length_scoringWindows, List.length_replicate]
      omega

theorem scoredBy_scoreSeries :
    ScoredBy error ((fillGaps g).map scaler.transform) w
      (scoringWindows ((fillGaps g).map scaler.transform) w) (scoreSeries g error scaler w) := by
  have hends : ∀ r : ℕ, w - 1 ≤ r → r < ((fillGaps g).map scaler.transform).length →
      (scoreSeries g error scaler w)[r]? =
        some (error (slice ((fillGaps g).map scaler.transform) (r + 1 - w) (r + 1))) := by
    intro r hr hn
    rw [length_values] at hn
    rw [getElem?_scoreSeries error scaler hw hn, if_neg (by omega), windowAt_eq_slice]
  constructor
  case assigned => exact scoreSeries_eq_assignFrom error scaler g hw
  case once =>
    intro r
    rw [count_assignedPlaces, List.length_map, length_scoringWindows]
    congr 1
    apply propext
    omega
  case offset =>
    intro k window hk
    rw [scoringWindows_eq, getElem?_buildWindows Nat.one_pos, Nat.mul_one] at hk
    split_ifs at hk with hfits
    have hlast : k + w - 1 + 1 = k + w := by omega
    rw [hends (k + w - 1) (by omega) (by omega), hlast, Nat.add_sub_cancel, ← Option.some.inj hk]
  case ends => exact hends
  case length => rw [length_scoreSeries error scaler hw, length_values]

end ScoreSeries

/-- The windows a series is scored by are those the model is trained on, one row apart. -/
theorem scoring_windows_are_training_windows {α σ : Type*} [Zero σ] (values : List α)
    (g : List Row) (error : List Row → σ) (scaler : Scaler) (w stride : ℕ+) :
    AreWindows values w stride (buildWindows values w stride) ∧
      scoringWindows ((fillGaps g).map scaler.transform) w =
        buildWindows ((fillGaps g).map scaler.transform) w 1 ∧
      ScoredBy error ((fillGaps g).map scaler.transform) w
        (scoringWindows ((fillGaps g).map scaler.transform) w) (scoreSeries g error scaler w) := by
  refine ⟨areWindows_buildWindows stride.pos, scoringWindows_eq _ _, ?_⟩
  exact scoredBy_scoreSeries error scaler g w.pos

end PiWatch.Ml
