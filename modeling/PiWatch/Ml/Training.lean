import PiWatch.Ml.Dataset

/-!
# Training data

A node's table is filled, split and scaled before it is cut into windows. The scaler is fitted to
the training rows; how is a parameter.
-/

namespace PiWatch.Ml

/-- The rows the scaler is fitted to. -/
def trainRows (g : List Row) (valFraction : Fraction) : List Row :=
  (timeBasedSplit (fillGaps g) valFraction).1

/-- `prepare_node_windows`. -/
def prepareNodeWindows (fit : List Row → Scaler) (g : List Row) (windowSize stride : ℕ)
    (valFraction : Fraction) : List (List Row) × List (List Row) × Scaler :=
  let split := timeBasedSplit (fillGaps g) valFraction
  let scaler := fit split.1
  (buildWindows (split.1.map scaler.transform) windowSize stride,
    buildWindows (split.2.map scaler.transform) windowSize stride, scaler)

/-- The same windows to train on, under the same scaler. -/
def SameTraining (g g' : List Row) (windowSize stride : ℕ) (valFraction : Fraction) : Prop :=
  ∀ fit, (prepareNodeWindows fit g windowSize stride valFraction).1 =
      (prepareNodeWindows fit g' windowSize stride valFraction).1 ∧
    (prepareNodeWindows fit g windowSize stride valFraction).2.2 =
      (prepareNodeWindows fit g' windowSize stride valFraction).2.2

variable {g g' : List Row} {valFraction : Fraction}

/-- A column that was not recorded in the training rows is filled from the rows behind them. -/
def FilledAlike (g g' : List Row) (valFraction : Fraction) (f : Feature) : Prop :=
  let cut := splitAt g.length valFraction
  firstValue f (g.take cut) ≠ none ∨ firstValue f (g.drop cut) = firstValue f (g'.drop cut)

theorem trainRows_eq (g : List Row) (valFraction : Fraction) :
    trainRows g valFraction = (fillGaps g).take (splitAt g.length valFraction) := by
  rw [trainRows, timeBasedSplit, length_fillGaps]

theorem prepareNodeWindows_scaler (fit : List Row → Scaler) (g : List Row) (w stride : ℕ)
    (valFraction : Fraction) : (prepareNodeWindows fit g w stride valFraction).2.2 =
      fit (trainRows g valFraction) := rfl

theorem prepareNodeWindows_train (fit : List Row → Scaler) (g : List Row) (w stride : ℕ)
    (valFraction : Fraction) : (prepareNodeWindows fit g w stride valFraction).1 =
      buildWindows ((trainRows g valFraction).map (fit (trainRows g valFraction)).transform) w
        stride := rfl

/-- A scaler can tell one table from all others, so the rows it is fitted to must agree. -/
theorem sameTraining_iff_trainRows {w stride : ℕ} :
    SameTraining g g' w stride valFraction ↔
      trainRows g valFraction = trainRows g' valFraction := by
  classical
  constructor
  · intro h
    by_contra hne
    have hscaler := (h fun rows => if rows = trainRows g valFraction then Scaler.unit
      else ⟨fun _ => 1, fun _ => 1, fun _ => one_ne_zero⟩).2
    rw [prepareNodeWindows_scaler, prepareNodeWindows_scaler, if_pos rfl,
      if_neg (Ne.symm hne)] at hscaler
    exact zero_ne_one (congrFun (congrArg Scaler.mean hscaler) .cpuPct)
  · intro h fit
    rw [prepareNodeWindows_scaler, prepareNodeWindows_scaler, prepareNodeWindows_train,
      prepareNodeWindows_train, h]
    exact ⟨rfl, rfl⟩

/-- The first row is filled with the first value of every column. -/
theorem getElem?_zero_fillGaps (hg : g ≠ []) :
    (fillGaps g)[0]? = some fun f => firstValue f g := by
  obtain ⟨r, rows, rfl⟩ := List.exists_cons_of_ne_nil hg
  rw [fillGaps, getElem?_bfill_ffill (Nat.succ_pos _), List.take_succ_cons, List.take_zero]
  simp only [lastValue_singleton, List.drop_succ_cons, List.drop_zero, firstValue_cons]

theorem firstValue_take_drop (f : Feature) (g : List Row) (cut : ℕ) :
    firstValue f g = (firstValue f (g.take cut)).or (firstValue f (g.drop cut)) := by
  rw [← firstValue_append, List.take_append_drop]

/-- Validation rows reach the training exactly through the columns that no training row has. -/
theorem sameTraining_iff (w stride : ℕ) (hlength : g.length = g'.length)
    (hpast : g.take (splitAt g.length valFraction) = g'.take (splitAt g.length valFraction)) :
    SameTraining g g' w stride valFraction ↔
      g.take (splitAt g.length valFraction) = [] ∨ ∀ f, FilledAlike g g' valFraction f := by
  rw [sameTraining_iff_trainRows, trainRows_eq, trainRows_eq, ← hlength]
  unfold FilledAlike
  generalize splitAt g.length valFraction = cut at hpast ⊢
  constructor
  · intro h
    rw [or_iff_not_imp_left]
    intro hne f
    rw [or_iff_not_imp_left]
    intro hmissing
    -- the first row takes the value of such a column from the rows behind the cut
    have hpos : 0 < cut := by
      rcases Nat.eq_zero_or_pos cut with rfl | hpos
      · exact absurd (List.take_zero) hne
      · exact hpos
    have hg : g ≠ [] := fun hnil => hne (by rw [hnil, List.take_nil])
    have hg' : g' ≠ [] := fun hnil => hne (by rw [hpast, hnil, List.take_nil])
    have hfirst := congrArg (·[0]?) h
    simp only [List.getElem?_take, if_pos hpos, getElem?_zero_fillGaps hg,
      getElem?_zero_fillGaps hg', Option.some.injEq] at hfirst
    have hcolumn := congrFun hfirst f
    rw [firstValue_take_drop f g cut, firstValue_take_drop f g' cut, ← hpast,
      not_not.mp hmissing] at hcolumn
    simpa only [Option.none_or] using hcolumn
  · rintro (hnil | hcolumns)
    · have hnone : ∀ rows : List Row, rows.length = g.length → rows.take cut = [] := by
        intro rows hrows
        rw [List.take_eq_nil_iff] at hnil ⊢
        rcases hnil with hcut | rfl
        · exact Or.inl hcut
        · exact Or.inr (List.length_eq_zero_iff.mp hrows)
      rw [hnone _ (length_fillGaps g), hnone _ ((length_fillGaps g').trans hlength.symm)]
    · have hjoin : g.take cut ++ g'.drop cut = g' := by rw [hpast, List.take_append_drop]
      have hfilled := take_bfill_ffill hcolumns
      rw [List.take_append_drop, hjoin, List.length_take] at hfilled
      have htake : ∀ rows : List Row, rows.length = g.length →
          rows.take cut = rows.take (min cut g.length) := by
        intro rows hrows
        rw [← hrows, ← List.take_eq_take_min]
      rw [htake _ (length_fillGaps g), htake _ ((length_fillGaps g').trans hlength.symm)]
      exact hfilled

private def mostTrained : Fraction := ⟨2 / 5, by norm_num, by norm_num⟩

private def calm : List Row := [fun _ => some 20, fun _ => some 30]

private def spiking : List Row := [fun _ => some 20, fun _ => some 90]

theorem sameTraining_spike : SameTraining calm spiking 1 1 mostTrained := by
  have hcut : splitAt calm.length mostTrained = 1 := by decide +kernel
  have hlength : calm.length = spiking.length := rfl
  refine (sameTraining_iff 1 1 hlength ?_).mpr (Or.inr fun f => Or.inl ?_)
  · rw [hcut]
    rfl
  · rw [hcut]
    exact Option.some_ne_none _

end PiWatch.Ml
