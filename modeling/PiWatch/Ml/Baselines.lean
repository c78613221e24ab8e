import Mathlib.Data.List.ReduceOption
import Mathlib.Data.NNRat.Defs
import PiWatch.Framework.Deviation
import PiWatch.Framework.Ring

/-!
# Baselines

The z-score of a value in a rolling window, and its deviation from an exponentially weighted mean.
A value is missing where it was not recorded. This is their exact arithmetic: means, deviations
and quotients are not rounded, where pandas computes them in floats and can round a score across
the threshold. A score is kept as its square, which is rational, and compared with the square of
the threshold.
-/

namespace PiWatch.Ml

open Deviation

/-- `(scores >= threshold).to_numpy()`. -/
def flagSquares (threshold : ℚ≥0) (scores : List ℚ) : List Bool :=
  scores.map fun score => decide ((threshold : ℚ) ^ 2 ≤ score)

/-- A flat stretch and one other value. -/
def spiked (c x : ℚ) (n : ℕ) : List (Option ℚ) := List.replicate n (some c) ++ [some x]

/-! ## Z-score -/

namespace Zscore

/-- The recorded values among the last `window` rows up to row `i`. -/
def rolling (series : List (Option ℚ)) (window i : ℕ) : List ℚ :=
  ((series.take (i + 1)).rtake window).reduceOption

/-- The square of the score of a row in exact arithmetic. What is divided by a deviation of zero is
filled with zero, as is what is missing. -/
def scoreAt (series : List (Option ℚ)) (window minPeriods i : ℕ) : ℚ :=
  match series[i]? with
  | some (some x) =>
    let values := rolling series window i
    if values.length < minPeriods then 0 else (x - mean values) ^ 2 / variance values
  | _ => 0

/-- `score` of `zscore`, squared and exact. -/
def score (series : List (Option ℚ)) (window minPeriods : ℕ) : List ℚ :=
  (List.range series.length).map (scoreAt series window minPeriods)

/-- The row is flagged. -/
def Flagged (series : List (Option ℚ)) (window minPeriods : ℕ) (threshold : ℚ≥0) (i : ℕ) : Prop :=
  (flagSquares threshold (score series window minPeriods))[i]? = some true

theorem flagged_iff {series : List (Option ℚ)} {window minPeriods i : ℕ} {threshold : ℚ≥0} :
    Flagged series window minPeriods threshold i ↔
      i < series.length ∧ (threshold : ℚ) ^ 2 ≤ scoreAt series window minPeriods i := by
  rw [Flagged, flagSquares, score, List.map_map, List.getElem?_map, Option.map_eq_some_iff]
  constructor
  · rintro ⟨j, hj, hflag⟩
    obtain ⟨hlt, heq⟩ := List.getElem?_eq_some_iff.mp hj
    rw [List.getElem_range] at heq
    rw [List.length_range] at hlt
    subst heq
    exact ⟨hlt, of_decide_eq_true hflag⟩
  · rintro ⟨hlt, hscore⟩
    exact ⟨i, List.getElem?_range hlt, decide_eq_true hscore⟩

section Bound

variable {series : List (Option ℚ)} {window minPeriods i n : ℕ} {threshold : ℚ≥0}

theorem length_rolling_le (series : List (Option ℚ)) (window i : ℕ) :
    (rolling series window i).length ≤ window :=
  (List.reduceOption_length_le _).trans (length_rtake_le _ _)

/-- A row is in its own window. -/
theorem mem_rolling {x : ℚ} (hx : series[i]? = some (some x)) (hwindow : 0 < window) :
    x ∈ rolling series window i := by
  obtain ⟨hlt, heq⟩ := List.getElem?_eq_some_iff.mp hx
  rw [rolling, List.reduceOption_mem_iff, List.take_add_one, hx, Option.toList_some]
  obtain ⟨window, rfl⟩ := Nat.exists_eq_add_one.mpr hwindow
  rw [List.rtake_concat_succ]
  exact List.mem_append_right _ List.mem_cons_self

/-- The score of a row is bounded by the number of values in its window. -/
theorem scoreAt_le (hn : (rolling series window i).length = n) (hpos : 0 < n) :
    scoreAt series window minPeriods i ≤ ((n : ℚ) - 1) ^ 2 / n := by
  have hwindow : 0 < window := hpos.trans_le (hn ▸ length_rolling_le series window i)
  have hbound : (0 : ℚ) ≤ ((n : ℚ) - 1) ^ 2 / n := by positivity
  rw [scoreAt]
  split
  · rename_i x hx
    dsimp only
    split_ifs
    · exact hbound
    · rw [← hn]
      exact sq_sub_mean_div_variance_le (mem_rolling hx hwindow)
  · exact hbound

end Bound

theorem rolling_spiked (c x : ℚ) {n window : ℕ} (h : n < window) :
    rolling (spiked c x n) window n = List.replicate n c ++ [x] := by
  have hlength : (spiked c x n).length = n + 1 := by simp [spiked]
  have hvalues : spiked c x n = (List.replicate n c ++ [x]).map some := by simp [spiked]
  rw [rolling, List.take_of_length_le hlength.le, rtake_of_length_le (hlength.le.trans h),
    hvalues, List.reduceOption, List.filterMap_map]
  exact List.filterMap_some

/-- The row is flagged at a threshold if a single value can be, with as many values around. -/
def CanFlag (window minPeriods : ℕ) (threshold : ℚ≥0) (n : ℕ) : Prop :=
  minPeriods ≤ n ∧ n ≤ window ∧ (threshold : ℚ) ^ 2 * n ≤ ((n : ℚ) - 1) ^ 2

theorem scoreAt_spiked {c x : ℚ} {n window minPeriods : ℕ} (hx : x ≠ c) (hn : n ≠ 0)
    (hmin : minPeriods ≤ n + 1) (hwindow : n < window) :
    scoreAt (spiked c x n) window minPeriods n = (n : ℚ) ^ 2 / (n + 1) := by
  have hlast : (spiked c x n)[n]? = some (some x) := by simp [spiked]
  have hlength : (List.replicate n c ++ [x]).length = n + 1 := by simp
  rw [scoreAt, hlast]
  dsimp only
  rw [rolling_spiked c x hwindow, if_neg (by omega), spike_div_variance hx hn]

theorem flagged_spiked {window minPeriods : ℕ} {threshold : ℚ≥0} (hthreshold : 0 < threshold)
    {n : ℕ} (h : CanFlag window minPeriods threshold n) {c x : ℚ} (hx : x ≠ c) (hn : 0 < n) :
    Flagged (spiked c x (n - 1)) window minPeriods threshold (n - 1) := by
  obtain ⟨hmin, hwindow, hbound⟩ := h
  have hpos : (0 : ℚ) < (threshold : ℚ) ^ 2 := pow_pos (by exact_mod_cast hthreshold) 2
  obtain ⟨m, rfl⟩ := Nat.exists_eq_add_one.mpr hn
  have hm : m ≠ 0 := by
    rintro rfl
    rw [Nat.zero_add, Nat.cast_one, mul_one, sub_self, zero_pow two_ne_zero] at hbound
    exact hpos.not_ge hbound
  rw [Nat.cast_succ, add_sub_cancel_right] at hbound
  rw [Nat.add_sub_cancel, flagged_iff, scoreAt_spiked hx hm hmin hwindow,
    le_div_iff₀ (by positivity)]
  exact ⟨by simp [spiked], hbound⟩

end Zscore

/-! ## Exponentially weighted mean -/

namespace Ewma

/-- `ewm(span, adjust=False)` after some rows: the mean, once there is a value, and the weight that
is left of it. -/
structure Ewm where
  weighted : Option ℚ
  oldWt : ℚ

/-- Before the first row. -/
def Ewm.start : Ewm := ⟨none, 1⟩

/-- `alpha` of a span. -/
def alphaOf (span : ℕ) : ℚ := 2 / (span + 1)

/-- One row. The mean loses weight also where a value is missing. -/
def Ewm.next (alpha : ℚ) (s : Ewm) (value : Option ℚ) : Ewm :=
  match s.weighted, value with
  | none, none => s
  | none, some x => { s with weighted := some x }
  | some _, none => { s with oldWt := s.oldWt * (1 - alpha) }
  | some m, some x =>
    let oldWt := s.oldWt * (1 - alpha)
    ⟨some ((oldWt * m + alpha * x) / (oldWt + alpha)), 1⟩

/-- `ewm(span, adjust=False).mean()`, from a state on. -/
def ewmFrom (alpha : ℚ) : Ewm → List (Option ℚ) → List (Option ℚ)
  | _, [] => []
  | s, value :: series =>
    (s.next alpha value).weighted :: ewmFrom alpha (s.next alpha value) series

def ewmMean (alpha : ℚ) (series : List (Option ℚ)) : List (Option ℚ) :=
  ewmFrom alpha Ewm.start series

/-- `series - ewm_mean`. -/
def resid (alpha : ℚ) (series : List (Option ℚ)) : List (Option ℚ) :=
  List.zipWith (fun x m => return (← x) - (← m)) series (ewmMean alpha series)

/-- `score` of `ewma`, squared and exact. What is divided by a deviation of zero is filled with
zero, as is what is missing. -/
def score (series : List (Option ℚ)) (span : ℕ) : List ℚ :=
  let squares := (resid (alphaOf span) series).map fun r => r.map (· ^ 2)
  List.zipWith (fun square variance => ((do return (← square) / (← variance)) : Option ℚ).getD 0)
    squares (ewmMean (alphaOf span) squares)

/-- The row is flagged. -/
def Flagged (series : List (Option ℚ)) (span : ℕ) (threshold : ℚ≥0) (i : ℕ) : Prop :=
  (flagSquares threshold (score series span))[i]? = some true

section Bound

variable {alpha : ℚ} {series : List (Option ℚ)} {span i n : ℕ} {threshold : ℚ≥0}

/-- A mean of values that are not negative. -/
structure Ewm.Sound (s : Ewm) : Prop where
  nonneg : ∀ m, s.weighted = some m → 0 ≤ m
  oldWt_nonneg : 0 ≤ s.oldWt
  oldWt_le : s.oldWt ≤ 1

/-- A value has at least the weight `alpha` in the mean it is added to. -/
theorem Ewm.Sound.next {s : Ewm} (h : s.Sound) (hpos : 0 < alpha) (hle : alpha ≤ 1)
    {value : Option ℚ} (hvalue : ∀ x, value = some x → 0 ≤ x) :
    (s.next alpha value).Sound ∧
      ∀ x, value = some x → ∃ m, (s.next alpha value).weighted = some m ∧ alpha * x ≤ m := by
  obtain ⟨weighted, oldWt⟩ := s
  obtain ⟨hm, hw, hw1⟩ := h
  have hkeep : 0 ≤ oldWt * (1 - alpha) := mul_nonneg hw (sub_nonneg.mpr hle)
  have hkeep1 : oldWt * (1 - alpha) ≤ 1 - alpha :=
    mul_le_of_le_one_left (sub_nonneg.mpr hle) hw1
  cases weighted with
  | none =>
    cases value with
    | none => exact ⟨⟨hm, hw, hw1⟩, fun x hx => (nomatch hx)⟩
    | some x =>
      have hx := hvalue x rfl
      refine ⟨⟨fun m hm => Option.some.inj hm ▸ hx, hw, hw1⟩, fun y hy => ⟨x, rfl, ?_⟩⟩
      rw [← Option.some.inj hy]
      exact mul_le_of_le_one_left hx hle
  | some m =>
    have hm0 := hm m rfl
    cases value with
    | none => exact ⟨⟨hm, hkeep, hkeep1.trans (by linarith)⟩, fun x hx => (nomatch hx)⟩
    | some x =>
      have hx := hvalue x rfl
      have hsum : 0 < oldWt * (1 - alpha) + alpha := by linarith
      have hold : 0 ≤ oldWt * (1 - alpha) * m := mul_nonneg hkeep hm0
      have hnew : 0 ≤ alpha * x := mul_nonneg hpos.le hx
      have hge : alpha * x ≤
          (oldWt * (1 - alpha) * m + alpha * x) / (oldWt * (1 - alpha) + alpha) := by
        rw [le_div_iff₀ hsum]
        calc alpha * x * (oldWt * (1 - alpha) + alpha) ≤ alpha * x :=
              mul_le_of_le_one_right hnew (by linarith)
          _ ≤ oldWt * (1 - alpha) * m + alpha * x := le_add_of_nonneg_left hold
      refine ⟨⟨fun m' hm' => ?_, zero_le_one, le_rfl⟩, fun y hy => ⟨_, rfl, ?_⟩⟩
      · rw [← Option.some.inj hm']
        exact hnew.trans hge
      · rw [← Option.some.inj hy]
        exact hge

/-- So the mean of values that are not negative is never below the part of the last one. -/
theorem ewmFrom_ge (hpos : 0 < alpha) (hle : alpha ≤ 1) {s : Ewm} (h : s.Sound)
    (hseries : ∀ x, some x ∈ series → 0 ≤ x) {x : ℚ} (hx : series[i]? = some (some x)) :
    ∃ m, (ewmFrom alpha s series)[i]? = some (some m) ∧ alpha * x ≤ m := by
  induction series generalizing s i with
  | nil => cases hx
  | cons value series ih =>
    have hvalue : ∀ y, value = some y → 0 ≤ y := fun y hy => hseries y (hy ▸ List.mem_cons_self)
    obtain ⟨hnext, hmean⟩ := h.next hpos hle hvalue
    cases i with
    | zero =>
      obtain ⟨m, hm, hge⟩ := hmean x (Option.some.inj hx)
      exact ⟨m, congrArg some hm, hge⟩
    | succ i => exact ih hnext (fun y hy => hseries y (List.mem_cons_of_mem _ hy)) hx

theorem sound_start : Ewm.start.Sound := ⟨fun _ hm => (nomatch hm), zero_le_one, le_rfl⟩

theorem alphaOf_pos (span : ℕ) : 0 < alphaOf span := by
  rw [alphaOf]
  positivity

theorem alphaOf_le (hspan : 1 ≤ span) : alphaOf span ≤ 1 := by
  have hcast : (1 : ℚ) ≤ span := by exact_mod_cast hspan
  rw [alphaOf, div_le_one (by positivity)]
  linarith

/-- No score is beyond what the span allows. -/
theorem score_le (hspan : 1 ≤ span) {s : ℚ} (hs : (score series span)[i]? = some s) :
    s ≤ 1 / alphaOf span := by
  have halpha := alphaOf_pos span
  rw [score, List.getElem?_zipWith_eq_some] at hs
  obtain ⟨square, variance, hsquare, hvariance, rfl⟩ := hs
  cases square with
  | none => exact (one_div_pos.mpr halpha).le
  | some q =>
    have hsquares : ∀ y, some y ∈ (resid (alphaOf span) series).map (fun r => r.map (· ^ 2)) →
        0 ≤ y := by
      intro y hy
      obtain ⟨r, -, hr⟩ := List.mem_map.mp hy
      obtain ⟨x, -, rfl⟩ := Option.map_eq_some_iff.mp hr
      exact sq_nonneg x
    obtain ⟨m, hm, hge⟩ := ewmFrom_ge halpha (alphaOf_le hspan) sound_start hsquares hsquare
    obtain rfl : some m = variance := Option.some.inj (hm.symm.trans hvariance)
    change q / m ≤ 1 / alphaOf span
    rcases (mul_nonneg halpha.le (hsquares q (List.mem_of_getElem? hsquare))).trans hge
      |>.eq_or_lt with hzero | hpos
    · rw [← hzero, div_zero]
      exact (one_div_pos.mpr halpha).le
    · rw [div_le_div_iff₀ hpos halpha, one_mul, mul_comm]
      exact hge

/-! ### One value apart from the others -/

theorem ewmFrom_flat (alpha c x : ℚ) (n : ℕ) :
    ewmFrom alpha ⟨some c, 1⟩ (spiked c x n) = spiked c ((1 - alpha) * c + alpha * x) n := by
  have hstep : ∀ y, Ewm.next alpha ⟨some c, 1⟩ (some y) =
      ⟨some ((1 - alpha) * c + alpha * y), 1⟩ := by
    intro y
    simp [Ewm.next]
  induction n with
  | zero => simp [spiked, ewmFrom, hstep]
  | succ n ih =>
    have hsame : (1 - alpha) * c + alpha * c = c := by ring
    simp only [spiked, List.replicate_succ, List.cons_append, ewmFrom, hstep, hsame]
    exact congrArg _ ih

theorem ewmMean_spiked (alpha c x : ℚ) (hn : n ≠ 0) :
    ewmMean alpha (spiked c x n) = spiked c ((1 - alpha) * c + alpha * x) n := by
  obtain ⟨n, rfl⟩ := Nat.exists_eq_succ_of_ne_zero hn
  exact congrArg (some c :: ·) (ewmFrom_flat alpha c x n)

theorem zipWith_spiked {β : Type*} (f : Option ℚ → Option ℚ → β) (c x c' x' : ℚ) (n : ℕ) :
    List.zipWith f (spiked c x n) (spiked c' x' n) =
      List.replicate n (f (some c) (some c')) ++ [f (some x) (some x')] := by
  rw [spiked, spiked, List.zipWith_append (by simp), List.zipWith_replicate',
    List.zipWith_cons_cons, List.zipWith_nil_left]

/-- The change counts as if the deviation had been estimated from it alone. -/
theorem score_spiked (hspan : 1 < span) {c x : ℚ} (hx : x ≠ c) (hn : n ≠ 0) :
    (score (spiked c x n) span)[n]? = some (1 / alphaOf span) := by
  let r := x - ((1 - alphaOf span) * c + alphaOf span * x)
  have halpha := alphaOf_pos span
  have hr : r ≠ 0 := by
    have hlt : alphaOf span < 1 := by
      have hcast : (1 : ℚ) < span := by exact_mod_cast hspan
      rw [alphaOf, div_lt_one (by positivity)]
      linarith
    have hfactor : r = (1 - alphaOf span) * (x - c) := by ring
    rw [hfactor]
    exact mul_ne_zero (sub_pos.mpr hlt).ne' (sub_ne_zero.mpr hx)
  have hresid : resid (alphaOf span) (spiked c x n) = spiked 0 r n := by
    rw [resid, ewmMean_spiked _ c x hn, zipWith_spiked]
    change List.replicate n (some (c - c)) ++ [some r] = spiked 0 r n
    rw [sub_self, spiked]
  have hsquares : (spiked 0 r n).map (fun r => r.map (· ^ 2)) = spiked 0 (r ^ 2) n := by
    simp [spiked]
  rw [score, hresid, hsquares, ewmMean_spiked _ 0 _ hn, zipWith_spiked,
    List.getElem?_append_right (by simp), List.length_replicate, Nat.sub_self, mul_zero, zero_add]
  change some (r ^ 2 / (alphaOf span * r ^ 2)) = some (1 / alphaOf span)
  rw [div_mul_cancel_right₀ (pow_ne_zero 2 hr), one_div]

theorem flagged_iff : Flagged series span threshold i ↔
    ∃ s, (score series span)[i]? = some s ∧ (threshold : ℚ) ^ 2 ≤ s := by
  rw [Flagged, flagSquares, List.getElem?_map, Option.map_eq_some_iff]
  simp only [decide_eq_true_eq]

end Bound

end Ewma

/-! ## Other units -/

/-- A column in another unit. -/
def inUnit (a b : ℚ) (series : List (Option ℚ)) : List (Option ℚ) :=
  series.map fun value => value.map fun x => a * x + b

section Units

variable {a : ℚ} (b : ℚ)

theorem Zscore.scoreAt_inUnit (ha : a ≠ 0) (series : List (Option ℚ)) (window minPeriods i : ℕ) :
    Zscore.scoreAt (inUnit a b series) window minPeriods i =
      Zscore.scoreAt series window minPeriods i := by
  have hrolling : Zscore.rolling (inUnit a b series) window i =
      (Zscore.rolling series window i).map fun x => a * x + b := by
    rw [Zscore.rolling, Zscore.rolling, inUnit, ← List.map_take, List.rtake, List.rtake,
      ← List.map_drop, List.length_map, List.reduceOption_map]
  cases hx : series[i]? with
  | none => simp [Zscore.scoreAt, inUnit, hx]
  | some value =>
    cases value with
    | none => simp [Zscore.scoreAt, inUnit, hx]
    | some x =>
      have hx' : (inUnit a b series)[i]? = some (some (a * x + b)) := by simp [inUnit, hx]
      rw [Zscore.scoreAt, Zscore.scoreAt, hx, hx']
      dsimp only
      rw [hrolling, List.length_map, variance_affine]
      rcases eq_or_ne (Zscore.rolling series window i) [] with hnil | hvalues
      · simp [hnil, variance, spread]
      · have hsquare : (a * x + b - (a * mean (Zscore.rolling series window i) + b)) ^ 2 =
            a ^ 2 * (x - mean (Zscore.rolling series window i)) ^ 2 := by ring
        rw [mean_affine a b hvalues, hsquare, mul_div_mul_left _ _ (pow_ne_zero 2 ha)]

open Ewma

/-- The mean is in the unit of the values. -/
theorem ewmFrom_inUnit (a : ℚ) {alpha : ℚ} (hpos : 0 < alpha) (hle : alpha ≤ 1) {s : Ewm}
    (hs : 0 ≤ s.oldWt) (series : List (Option ℚ)) :
    ewmFrom alpha ⟨s.weighted.map fun x => a * x + b, s.oldWt⟩ (inUnit a b series) =
      inUnit a b (ewmFrom alpha s series) := by
  induction series generalizing s with
  | nil => rfl
  | cons value series ih =>
    have hkeep : 0 ≤ s.oldWt * (1 - alpha) := mul_nonneg hs (sub_nonneg.mpr hle)
    have hnext : 0 ≤ (s.next alpha value).oldWt ∧
        Ewm.next alpha ⟨s.weighted.map fun x => a * x + b, s.oldWt⟩
            (value.map fun x => a * x + b) =
          ⟨(s.next alpha value).weighted.map fun x => a * x + b, (s.next alpha value).oldWt⟩ := by
      obtain ⟨weighted, oldWt⟩ := s
      cases weighted with
      | none => cases value <;> exact ⟨hs, rfl⟩
      | some m =>
        cases value with
        | none => exact ⟨hkeep, rfl⟩
        | some x =>
          have hsum : oldWt * (1 - alpha) + alpha ≠ 0 := (add_pos_of_nonneg_of_pos hkeep hpos).ne'
          refine ⟨zero_le_one, ?_⟩
          simp only [Ewm.next, Option.map_some]
          congr 2
          field_simp
          ring
    simp only [inUnit, List.map_cons, ewmFrom]
    rw [hnext.2]
    exact congrArg _ (ih hnext.1)

theorem Ewma.score_inUnit (ha : a ≠ 0) {span : ℕ} (hspan : 1 ≤ span)
    (series : List (Option ℚ)) : Ewma.score (inUnit a b series) span = Ewma.score series span := by
  have hstart : 0 ≤ Ewm.start.oldWt := zero_le_one
  have hmean : ∀ a' b' series', ewmMean (alphaOf span) (inUnit a' b' series') =
      inUnit a' b' (ewmMean (alphaOf span) series') := fun a' b' series' =>
    ewmFrom_inUnit b' a' (alphaOf_pos span) (alphaOf_le hspan) hstart series'
  have hresid : resid (alphaOf span) (inUnit a b series) =
      inUnit a 0 (resid (alphaOf span) series) := by
    rw [resid, hmean, resid, inUnit, inUnit, inUnit, List.zipWith_map, List.map_zipWith]
    congr 1
    funext x m
    cases x with
    | none => rfl
    | some x =>
      cases m with
      | none => rfl
      | some m =>
        change some (a * x + b - (a * m + b)) = some (a * (x - m) + 0)
        congr 1
        ring
  have hsquares : (inUnit a 0 (resid (alphaOf span) series)).map (fun r => r.map (· ^ 2)) =
      inUnit (a ^ 2) 0 ((resid (alphaOf span) series).map fun r => r.map (· ^ 2)) := by
    rw [inUnit, inUnit, List.map_map, List.map_map]
    apply List.map_congr_left
    intro r _
    cases r with
    | none => rfl
    | some r =>
      change some ((a * r + 0) ^ 2) = some (a ^ 2 * r ^ 2 + 0)
      congr 1
      ring
  rw [Ewma.score, Ewma.score, hresid, hsquares, hmean, inUnit, inUnit, List.zipWith_map]
  congr 1
  funext square variance
  cases square with
  | none => rfl
  | some q =>
    cases variance with
    | none => rfl
    | some v =>
      change (a ^ 2 * q + 0) / (a ^ 2 * v + 0) = q / v
      rw [add_zero, add_zero, mul_div_mul_left _ _ (pow_ne_zero 2 ha)]

/-- Neither baseline minds the unit of a metric, nor where its scale starts. -/
theorem flagged_inUnit (ha : a ≠ 0) (series : List (Option ℚ)) (window minPeriods : ℕ) {span : ℕ}
    (hspan : 1 ≤ span) (threshold : ℚ≥0) (i : ℕ) :
    (Zscore.Flagged (inUnit a b series) window minPeriods threshold i ↔
      Zscore.Flagged series window minPeriods threshold i) ∧
    (Ewma.Flagged (inUnit a b series) span threshold i ↔ Ewma.Flagged series span threshold i) := by
  constructor
  · rw [Zscore.flagged_iff, Zscore.flagged_iff, Zscore.scoreAt_inUnit b ha, inUnit,
      List.length_map]
  · rw [Ewma.Flagged, Ewma.score_inUnit b ha hspan, Ewma.Flagged]

/-- A jump of one degree is flagged in degrees Fahrenheit, too. -/
theorem flagged_inUnit_fahrenheit :
    Zscore.Flagged (inUnit (9 / 5) 32 (spiked 20 21 10)) 60 10 3 10 ∧
      Ewma.Flagged (inUnit (9 / 5) 32 (spiked 20 21 10)) 30 3 10 := by
  obtain ⟨hzscore, hewma⟩ := @flagged_inUnit (9 / 5) 32 (by norm_num) (spiked 20 21 10) 60 10 30
    (by norm_num) 3 10
  have hflag : Zscore.CanFlag 60 10 3 11 := by
    rw [Zscore.CanFlag]
    norm_num
  refine ⟨hzscore.mpr ?_, hewma.mpr ?_⟩
  · exact Zscore.flagged_spiked (by norm_num) hflag (by norm_num) (by norm_num)
  · refine Ewma.flagged_iff.mpr ⟨_, score_spiked (by norm_num) (by norm_num) (by norm_num), ?_⟩
    norm_num [alphaOf]

end Units

end PiWatch.Ml
