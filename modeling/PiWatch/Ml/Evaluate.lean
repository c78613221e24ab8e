import Mathlib.Data.List.GetD
import PiWatch.Backend.NumberText
import PiWatch.Framework.HarmonicMean

/-!
# Precision and recall

The flags of a detector are compared with the labels row by row. All methods are scored by these
numbers. They are exact.
-/

namespace PiWatch.Ml

structure EvalResult where
  precision : ℚ
  «recall» : ℚ
  f1 : ℚ
  falseAlarmsPerDay : ℚ
  truePositives : ℕ
  falsePositives : ℕ
  falseNegatives : ℕ

/-- `np.sum(predicted & actual)`. -/
def truePositives (predicted actual : List Bool) : ℕ :=
  (List.zipWith (fun p a => p && a) predicted actual).count true

/-- `np.sum(predicted & ~actual)`. -/
def falsePositives (predicted actual : List Bool) : ℕ :=
  (List.zipWith (fun p a => p && !a) predicted actual).count true

/-- `np.sum(~predicted & actual)`. -/
def falseNegatives (predicted actual : List Bool) : ℕ :=
  (List.zipWith (fun p a => !p && a) predicted actual).count true

/-- The numbers `evaluate` derives from the counts. -/
def EvalResult.ofCounts (tp fp fn : ℕ) (spanSeconds : ℚ) : EvalResult :=
  let precision : ℚ := if tp + fp ≠ 0 then tp / (tp + fp : ℕ) else 0
  let «recall» : ℚ := if tp + fn ≠ 0 then tp / (tp + fn : ℕ) else 0
  let f1 :=
    if precision + «recall» ≠ 0 then 2 * precision * «recall» / (precision + «recall») else 0
  let spanDays := spanSeconds / 86400
  let falseAlarmsPerDay := fp / spanDays
  ⟨precision, «recall», f1, falseAlarmsPerDay, tp, fp, fn⟩

def evaluate (predicted actual : List Bool) (spanSeconds : ℚ) : Except String EvalResult :=
  if predicted.length ≠ actual.length then
    .error ("length mismatch: predicted=" ++ toString predicted.length ++ " actual=" ++
      toString actual.length)
  else if spanSeconds ≤ 0 then
    .error ("span_seconds must be positive, got " ++
      String.ofList (PyText.floatText (.finite spanSeconds)))
  else
    .ok (.ofCounts (truePositives predicted actual) (falsePositives predicted actual)
      (falseNegatives predicted actual) spanSeconds)

/-! ## The numbers -/

namespace EvalResult

variable (tp fp fn : ℕ) (spanSeconds : ℚ)

theorem precision_ofCounts : (ofCounts tp fp fn spanSeconds).precision = tp / (tp + fp) := by
  change (if tp + fp ≠ 0 then (tp : ℚ) / (tp + fp : ℕ) else 0) = _
  split_ifs with h
  · rw [Nat.cast_add]
  · rw [← Nat.cast_add, not_not.mp h, Nat.cast_zero, div_zero]

theorem recall_ofCounts :
    (ofCounts tp fp fn spanSeconds).recall = (ofCounts tp fn fp spanSeconds).precision := rfl

theorem f1_eq_harmonicMean :
    (ofCounts tp fp fn spanSeconds).f1 = harmonicMean (ofCounts tp fp fn spanSeconds).precision
      (ofCounts tp fp fn spanSeconds).recall :=
  ite_not ..

theorem f1_ofCounts :
    (ofCounts tp fp fn spanSeconds).f1 = 2 * tp / (2 * tp + fp + fn) := by
  rw [f1_eq_harmonicMean, recall_ofCounts, precision_ofCounts, precision_ofCounts,
    harmonicMean_div (Nat.cast_nonneg tp) (Nat.cast_nonneg fp) (Nat.cast_nonneg fn)]

theorem precision_mem : 0 ≤ (ofCounts tp fp fn spanSeconds).precision ∧
    (ofCounts tp fp fn spanSeconds).precision ≤ 1 := by
  rw [precision_ofCounts]
  constructor
  · positivity
  · apply div_le_one_of_le₀ (le_add_of_nonneg_right (Nat.cast_nonneg fp))
    positivity

theorem recall_mem : 0 ≤ (ofCounts tp fp fn spanSeconds).recall ∧
    (ofCounts tp fp fn spanSeconds).recall ≤ 1 := precision_mem tp fn fp spanSeconds

theorem f1_between : min (ofCounts tp fp fn spanSeconds).precision
      (ofCounts tp fp fn spanSeconds).recall ≤ (ofCounts tp fp fn spanSeconds).f1 ∧
    (ofCounts tp fp fn spanSeconds).f1 ≤ max (ofCounts tp fp fn spanSeconds).precision
      (ofCounts tp fp fn spanSeconds).recall := by
  have hprecision := (precision_mem tp fp fn spanSeconds).1
  have hrecall := (recall_mem tp fp fn spanSeconds).1
  rw [f1_eq_harmonicMean]
  exact ⟨min_le_harmonicMean hprecision hrecall, harmonicMean_le_max hprecision hrecall⟩

theorem f1_mem : 0 ≤ (ofCounts tp fp fn spanSeconds).f1 ∧
    (ofCounts tp fp fn spanSeconds).f1 ≤ 1 := by
  have hprecision := precision_mem tp fp fn spanSeconds
  have hrecall := recall_mem tp fp fn spanSeconds
  have hbetween := f1_between tp fp fn spanSeconds
  exact ⟨(le_min hprecision.1 hrecall.1).trans hbetween.1,
    hbetween.2.trans (max_le hprecision.2 hrecall.2)⟩

theorem f1_eq_zero_iff : (ofCounts tp fp fn spanSeconds).f1 = 0 ↔ tp = 0 := by
  rw [f1_ofCounts, div_eq_zero_iff]
  norm_cast
  omega

theorem f1_eq_one_iff :
    (ofCounts tp fp fn spanSeconds).f1 = 1 ↔ 0 < tp ∧ fp = 0 ∧ fn = 0 := by
  rcases Nat.eq_zero_or_pos tp with rfl | htp
  · rw [(f1_eq_zero_iff 0 fp fn spanSeconds).mpr rfl]
    constructor
    · intro h
      exact absurd h zero_ne_one
    · rintro ⟨h, -⟩
      exact absurd h (lt_irrefl 0)
  · rw [f1_ofCounts, div_eq_one_iff_eq (by positivity)]
    norm_cast
    omega

end EvalResult

/-! ## The counts -/

section Counts

theorem count_zipWith (f : Bool → Bool → Bool) (predicted actual : List Bool) :
    (List.zipWith f predicted actual).count true =
      (predicted.zip actual).countP fun x => f x.1 x.2 := by
  rw [← List.map_uncurry_zip_eq_zipWith, List.count_eq_countP, List.countP_map]
  apply List.countP_congr
  intro x _
  rw [Function.comp_apply, beq_true, Function.uncurry_def]

theorem truePositives_comm (predicted actual : List Bool) :
    truePositives actual predicted = truePositives predicted actual := by
  rw [truePositives, truePositives, List.zipWith_comm_of_comm Bool.and_comm]

theorem falseNegatives_eq (predicted actual : List Bool) :
    falseNegatives predicted actual = falsePositives actual predicted := by
  rw [falseNegatives, falsePositives, List.zipWith_comm]
  simp only [Bool.and_comm]

variable {predicted actual : List Bool}

theorem truePositives_add_falsePositives (h : predicted.length = actual.length) :
    truePositives predicted actual + falsePositives predicted actual = predicted.count true := by
  have hpredicted : predicted.count true = (predicted.zip actual).countP Prod.fst := by
    conv_lhs => rw [← List.map_fst_zip h.le, List.count_eq_countP, List.countP_map]
    apply List.countP_congr
    intro x _
    rw [Function.comp_apply, beq_true]
  rw [hpredicted, List.countP_eq_countP_filter_add _ Prod.fst Prod.snd, List.countP_filter,
    List.countP_filter, truePositives, falsePositives, count_zipWith, count_zipWith]

theorem eq_iff_counts (h : predicted.length = actual.length) :
    predicted = actual ↔
      falsePositives predicted actual = 0 ∧ falseNegatives predicted actual = 0 := by
  rw [← List.forall₂_eq_eq_eq, List.forall₂_iff_zip, and_iff_right h, falsePositives,
    falseNegatives, count_zipWith, count_zipWith, List.countP_eq_zero, List.countP_eq_zero]
  constructor
  · intro hsame
    constructor
    · rintro ⟨p, a⟩ hx
      rw [hsame hx, Bool.and_not_self]
      exact Bool.false_ne_true
    · rintro ⟨p, a⟩ hx
      rw [hsame hx, Bool.not_and_self]
      exact Bool.false_ne_true
  · rintro ⟨hfp, hfn⟩ p a hx
    have hp := hfp (p, a) hx
    have ha := hfn (p, a) hx
    cases p <;> cases a
    · rfl
    · exact absurd rfl ha
    · exact absurd rfl hp
    · rfl

theorem truePositives_self (l : List Bool) : truePositives l l = l.count true := by
  simp only [truePositives, List.zipWith_self, Bool.and_self, List.map_id']

/-- `l[order]`, the rows at these places. -/
def reorder (l : List Bool) (order : List ℕ) : List Bool := order.map fun i => l.getD i false

theorem length_reorder (l : List Bool) (order : List ℕ) :
    (reorder l order).length = order.length :=
  List.length_map _

theorem zip_reorder_perm (h : predicted.length = actual.length) {order : List ℕ}
    (horder : order.Perm (List.range predicted.length)) :
    ((reorder predicted order).zip (reorder actual order)).Perm (predicted.zip actual) := by
  have hrange : (List.range predicted.length).map
      (fun i => (predicted.getD i false, actual.getD i false)) = predicted.zip actual := by
    apply List.ext_getElem
    · rw [List.length_map, List.length_range, List.length_zip, ← h, Nat.min_self]
    · intro i hi hi'
      rw [List.length_map, List.length_range] at hi
      rw [List.getElem_map, List.getElem_range, List.getElem_zip, List.getD_eq_getElem _ _ hi,
        List.getD_eq_getElem _ _ (h ▸ hi)]
  rw [reorder, reorder, List.zip_map', ← hrange]
  exact horder.map _

theorem count_zipWith_reorder (f : Bool → Bool → Bool) (h : predicted.length = actual.length)
    {order : List ℕ} (horder : order.Perm (List.range predicted.length)) :
    (List.zipWith f (reorder predicted order) (reorder actual order)).count true =
      (List.zipWith f predicted actual).count true := by
  rw [count_zipWith, count_zipWith, (zip_reorder_perm h horder).countP_eq]

end Counts

/-! ## The scores -/

/-- The numbers fit the arrays and one another. -/
structure Coherent (predicted actual : List Bool) (r : EvalResult) : Prop where
  predictedRows : r.truePositives + r.falsePositives = predicted.count true
  actualRows : r.truePositives + r.falseNegatives = actual.count true
  precision_mem : 0 ≤ r.precision ∧ r.precision ≤ 1
  recall_mem : 0 ≤ r.recall ∧ r.recall ≤ 1
  f1_mem : 0 ≤ r.f1 ∧ r.f1 ≤ 1
  f1_eq : r.f1 =
    if 0 < 2 * r.truePositives + r.falsePositives + r.falseNegatives then
      (2 * r.truePositives : ℚ) / (2 * r.truePositives + r.falsePositives + r.falseNegatives)
    else 0
  f1_eq_zero_iff : r.f1 = 0 ↔ r.truePositives = 0
  between : min r.precision r.recall ≤ r.f1 ∧ r.f1 ≤ max r.precision r.recall
  f1_eq_one_iff : r.f1 = 1 ↔ predicted = actual ∧ true ∈ actual

section Evaluate

variable {predicted actual : List Bool} {spanSeconds : ℚ}

theorem evaluate_eq (hlength : predicted.length = actual.length) (hspan : 0 < spanSeconds) :
    evaluate predicted actual spanSeconds =
      .ok (.ofCounts (truePositives predicted actual) (falsePositives predicted actual)
        (falseNegatives predicted actual) spanSeconds) := by
  rw [evaluate, if_neg (not_not.mpr hlength), if_neg hspan.not_ge]

theorem coherent_ofCounts (hlength : predicted.length = actual.length) (spanSeconds : ℚ) :
    Coherent predicted actual (.ofCounts (truePositives predicted actual)
      (falsePositives predicted actual) (falseNegatives predicted actual) spanSeconds) := by
  constructor
  case predictedRows => exact truePositives_add_falsePositives hlength
  case actualRows =>
    have hactual := truePositives_add_falsePositives hlength.symm
    rwa [truePositives_comm, ← falseNegatives_eq] at hactual
  case precision_mem => exact EvalResult.precision_mem ..
  case recall_mem => exact EvalResult.recall_mem ..
  case f1_mem => exact EvalResult.f1_mem ..
  case f1_eq =>
    split_ifs with hpos
    · exact EvalResult.f1_ofCounts ..
    · apply (EvalResult.f1_eq_zero_iff ..).mpr
      simp only [EvalResult.ofCounts] at hpos
      omega
  case f1_eq_zero_iff => exact EvalResult.f1_eq_zero_iff ..
  case between => exact EvalResult.f1_between ..
  case f1_eq_one_iff =>
    rw [EvalResult.f1_eq_one_iff, ← eq_iff_counts hlength, and_comm, and_congr_right_iff]
    rintro rfl
    rw [truePositives_self, List.count_pos_iff]

/-- The scores of a detector are coherent. They are swapped with the arrays, and do not depend on
the order of the rows. -/
theorem evaluate_coherent (hlength : predicted.length = actual.length) (hspan : 0 < spanSeconds) :
    ∃ r r', evaluate predicted actual spanSeconds = .ok r ∧ Coherent predicted actual r ∧
      evaluate actual predicted spanSeconds = .ok r' ∧
      (r'.precision = r.recall ∧ r'.recall = r.precision ∧ r'.f1 = r.f1) ∧
      ∀ order, order.Perm (List.range predicted.length) →
        evaluate (reorder predicted order) (reorder actual order) spanSeconds = .ok r := by
  refine ⟨_, _, evaluate_eq hlength hspan, coherent_ofCounts hlength spanSeconds,
    evaluate_eq hlength.symm hspan, ?_, ?_⟩
  · rw [truePositives_comm, falseNegatives_eq, falseNegatives_eq]
    refine ⟨rfl, rfl, ?_⟩
    rw [EvalResult.f1_eq_harmonicMean, EvalResult.f1_eq_harmonicMean, harmonicMean_comm]
    rfl
  · intro order horder
    have hreorder : (reorder predicted order).length = (reorder actual order).length := by
      rw [length_reorder, length_reorder]
    rw [evaluate_eq hreorder hspan, truePositives, falsePositives, falseNegatives,
      count_zipWith_reorder _ hlength horder, count_zipWith_reorder _ hlength horder,
      count_zipWith_reorder _ hlength horder]
    rfl

end Evaluate

/-- One of two anomalies is found. -/
theorem evaluate_coherent_missed :
    ∃ r, evaluate [true, false, false] [true, true, false] 86400 = .ok r ∧
      Coherent [true, false, false] [true, true, false] r ∧
      evaluate [false, true, false] [false, true, true] 86400 = .ok r := by
  have hlength : [true, false, false].length = [true, true, false].length := rfl
  have hspan : (0 : ℚ) < 86400 := by norm_num
  obtain ⟨r, -, h, hcoherent, -, -, hreorder⟩ := evaluate_coherent hlength hspan
  exact ⟨r, h, hcoherent, hreorder [2, 0, 1] (by decide)⟩

end PiWatch.Ml
