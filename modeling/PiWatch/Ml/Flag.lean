import Mathlib.Data.NNRat.Defs
import PiWatch.Framework.Quantile
import PiWatch.Ml.Score

/-!
# Flags

A row is flagged from a cut-off on, by default a quantile of all scores of the series.
-/

namespace PiWatch.Ml

/-- `flag`. The quantile of no scores at all raises. -/
def flag (scores : List ℚ) (threshold : Option ℚ) (contamination : ℚ) : Option (List Bool) :=
  match threshold with
  | some cutoff => some (scores.map fun score => decide (cutoff ≤ score))
  | none => (quantile scores (1 - contamination)).map fun cutoff =>
      scores.map fun score => decide (cutoff ≤ score)

/-- The default. -/
def contamination : ℚ := 2 / 100

/-- The scores of a series under a model with errors that are not negative. -/
def seriesScores (g : List Row) (error : List Row → ℚ≥0) (scaler : Scaler) (w : ℕ+) : List ℚ :=
  scoreSeries g (fun window => (error window : ℚ)) scaler w

/-- Rows without enough history are not flagged. -/
def WarmUpUnflagged (g : List Row) (error : List Row → ℚ≥0) (scaler : Scaler) (w : ℕ+) : Prop :=
  ∀ i < g.length, i + 1 < w →
    ∃ flags, flag (seriesScores g error scaler w) none contamination = some flags ∧
      flags[i]? = some false

/-- The number of windows the model reconstructs without error. -/
def exactWindows (g : List Row) (error : List Row → ℚ≥0) (scaler : Scaler) (w : ℕ) : ℕ :=
  (List.range g.length).countP fun i => w ≤ i + 1 ∧ error (windowAt g scaler w i) = 0

/-- A row of score zero stays unflagged exactly if the cut-off is above zero. -/
theorem unflagged_iff {scores : List ℚ} {contamination cutoff : ℚ} {i : ℕ}
    (hcutoff : quantile scores (1 - contamination) = some cutoff) (hi : scores[i]? = some 0) :
    (∃ flags, flag scores none contamination = some flags ∧ flags[i]? = some false) ↔
      0 < cutoff := by
  have hflag : flag scores none contamination =
      some (scores.map fun score => decide (cutoff ≤ score)) := by
    rw [flag, hcutoff, Option.map_some]
  have hrow : (scores.map fun score => decide (cutoff ≤ score))[i]? =
      some (decide (cutoff ≤ 0)) := by
    rw [List.getElem?_map, hi, Option.map_some]
  rw [hflag]
  constructor
  · rintro ⟨flags, hflags, hfalse⟩
    rw [← Option.some.inj hflags, hrow, Option.some.injEq, decide_eq_false_iff_not,
      not_le] at hfalse
    exact hfalse
  · intro hpos
    exact ⟨_, rfl, by rw [hrow, decide_eq_false (not_le.mpr hpos)]⟩

/-- The rows without enough history. -/
def warmUpRows (n w : ℕ) : ℕ := min (w - 1) n

theorem countP_range_lt (n k : ℕ) : (List.range n).countP (· < k) = min k n := by
  induction n with
  | zero => rw [List.range_zero, List.countP_nil, Nat.min_zero]
  | succ n ih =>
    rw [List.range_succ, List.countP_append, ih, List.countP_singleton]
    simp only [decide_eq_true_iff]
    split_ifs <;> omega

section Scores

variable (g : List Row) (error : List Row → ℚ≥0) (scaler : Scaler) (w : ℕ+)

theorem length_seriesScores : (seriesScores g error scaler w).length = g.length :=
  length_scoreSeries _ scaler w.pos g

/-- A score of zero is that of a warm-up row, or of a window without error. -/
theorem countP_seriesScores :
    (seriesScores g error scaler w).countP (· ≤ 0) =
      warmUpRows g.length w + exactWindows g error scaler w := by
  rw [seriesScores, scoreSeries_eq_map _ scaler w.pos g, List.countP_map,
    (List.range g.length).countP_eq_countP_filter_add _ fun i => decide (i + 1 < w),
    List.countP_filter, List.countP_filter, warmUpRows, ← countP_range_lt, exactWindows]
  congr 1
  · apply List.countP_congr
    intro i _
    simp only [Function.comp_apply, Bool.and_eq_true, decide_eq_true_iff]
    constructor
    · rintro ⟨-, hi⟩
      omega
    · intro hi
      have hwarm : i + 1 < w := by omega
      exact ⟨(if_pos hwarm).le, hwarm⟩
  · apply List.countP_congr
    intro i _
    simp only [Function.comp_apply, Bool.and_eq_true, Bool.not_eq_true', decide_eq_true_iff,
      decide_eq_false_iff_not, not_lt]
    rw [and_comm]
    apply and_congr_right
    intro hi
    rw [if_neg (Nat.not_lt.mpr hi), ← NNRat.coe_zero, NNRat.coe_le_coe, nonpos_iff_eq_zero]

theorem seriesScores_nonneg : ∀ score ∈ seriesScores g error scaler w, 0 ≤ score := by
  rw [seriesScores, scoreSeries_eq_map _ scaler w.pos g]
  intro score hscore
  obtain ⟨i, -, rfl⟩ := List.mem_map.mp hscore
  split_ifs
  · exact le_refl 0
  · exact NNRat.coe_nonneg _

end Scores

/-- The warm-up rows stay unflagged exactly if there are none, or if they and the windows without
error are no more scores than come before the cut-off. -/
theorem warmUpUnflagged_iff (g : List Row) (error : List Row → ℚ≥0) (scaler : Scaler) (w : ℕ+) :
    WarmUpUnflagged g error scaler w ↔
      warmUpRows g.length w = 0 ∨
        warmUpRows g.length w + exactWindows g error scaler w ≤
          ⌈((g.length - 1 : ℕ) : ℚ) * (1 - contamination)⌉₊ := by
  have hq : (0 : ℚ) ≤ 1 - contamination := by norm_num [contamination]
  have hq1 : 1 - contamination ≤ 1 := by norm_num [contamination]
  have hwarm : ∀ i < g.length, i + 1 < w → (seriesScores g error scaler w)[i]? = some 0 := by
    intro i hi hiw
    rw [seriesScores, getElem?_scoreSeries _ _ w.pos hi, if_pos hiw]
  by_cases hnone : warmUpRows g.length w = 0
  · refine iff_of_true (fun i hi hiw => ?_) (Or.inl hnone)
    rw [warmUpRows] at hnone
    omega
  · have hscores : seriesScores g error scaler w ≠ [] := by
      rw [← List.length_pos_iff, length_seriesScores]
      rw [warmUpRows] at hnone
      omega
    obtain ⟨cutoff, hcutoff⟩ := exists_quantile hscores hq1
    have hcut := lt_quantile_iff (seriesScores_nonneg g error scaler w) hq hq1 hcutoff
    rw [countP_seriesScores, virtualIndex, length_seriesScores] at hcut
    rw [or_iff_right hnone, ← hcut]
    constructor
    · intro h
      rw [warmUpRows] at hnone
      exact (unflagged_iff hcutoff (hwarm 0 (by omega) (by omega))).mp
        (h 0 (by omega) (by omega))
    · intro h i hi hiw
      exact (unflagged_iff hcutoff (hwarm i hi hiw)).mpr h

/-- A series that is shorter than the window is flagged as a whole. -/
theorem warmUpUnflagged_short :
    ¬ WarmUpUnflagged [fun _ => some 20] (fun _ => 1) Scaler.unit 2 := by
  intro h
  have hcutoff : quantile (seriesScores [fun _ => some 20] (fun _ => 1) Scaler.unit 2)
      (1 - contamination) = some 0 := by
    decide +kernel
  have hscore : (seriesScores [fun _ => some 20] (fun _ => 1) Scaler.unit 2)[0]? = some 0 := by
    decide +kernel
  exact lt_irrefl 0 ((unflagged_iff hcutoff hscore).mp (h 0 (by decide) (by decide)))

end PiWatch.Ml
