import PiWatch.Ml.Export

/-!
# Training and validation rows

Training and evaluation split a node's table each on its own, by the number of rows it has at the
time. Between the two, dumps may have been added.
-/

namespace PiWatch.Ml

/-- `fill_gaps` leaves the other columns as they are. -/
def fillSamples (g : List Sample) : List Sample :=
  List.zipWith (fun s values => { s with values }) g (fillGaps (g.map Sample.values))

/-- `train_df` of `prepare_node_windows`. -/
def trainDf (g : List Sample) (valFraction : Fraction) : List Sample :=
  (timeBasedSplit (fillSamples g) valFraction).1

/-- `val_df` of `evaluate_node`, in `compare_all` and in `rolling_compare`. -/
def valDf (g : List Sample) (valFraction : Fraction) : List Sample :=
  (timeBasedSplit (fillSamples g) valFraction).2

/-- No row the model was trained on is evaluated. A row of a node is known by its time. -/
def Separate (trained evaluated : List Sample) (valFraction : Fraction) : Prop :=
  ∀ r ∈ trainDf trained valFraction, ∀ r' ∈ valDf evaluated valFraction, r.t ≠ r'.t

/-- The number of rows the model is trained on. -/
def trainCount (n : ℕ) (valFraction : Fraction) : ℕ := min (splitAt n valFraction) n

theorem times_zipWith {g : List Sample} {filled : List Row} (h : g.length = filled.length) :
    times (List.zipWith (fun s values => { s with values }) g filled) = times g := by
  induction g generalizing filled with
  | nil => rfl
  | cons s g ih =>
    cases filled with
    | nil => cases h
    | cons r filled =>
      rw [List.zipWith_cons_cons, times, List.map_cons, ← times, ih (Nat.succ.inj h)]
      rfl

theorem times_fillSamples (g : List Sample) : times (fillSamples g) = times g :=
  times_zipWith (by rw [length_fillGaps, List.length_map])

theorem length_fillSamples (g : List Sample) : (fillSamples g).length = g.length := by
  rw [fillSamples, List.length_zipWith, length_fillGaps, List.length_map, Nat.min_self]

theorem times_trainDf (g : List Sample) (valFraction : Fraction) :
    times (trainDf g valFraction) = (times g).take (trainCount g.length valFraction) := by
  rw [trainDf, timeBasedSplit, length_fillSamples, times, List.map_take, ← times,
    times_fillSamples, trainCount, List.take_eq_take_min, times, List.length_map]

theorem times_valDf (g : List Sample) (valFraction : Fraction) :
    times (valDf g valFraction) = (times g).drop (splitAt g.length valFraction) := by
  rw [valDf, timeBasedSplit, length_fillSamples, times, List.map_drop, ← times, times_fillSamples]

theorem separate_iff_disjoint {trained evaluated : List Sample} {valFraction : Fraction} :
    Separate trained evaluated valFraction ↔
      ((times trained).take (trainCount trained.length valFraction)).Disjoint
        ((times evaluated).drop (splitAt evaluated.length valFraction)) := by
  rw [← times_trainDf, ← times_valDf]
  constructor
  · intro h t ht ht'
    obtain ⟨r, hr, rfl⟩ := List.mem_map.mp ht
    obtain ⟨r', hr', heq⟩ := List.mem_map.mp ht'
    exact h r hr r' hr' heq.symm
  · intro h r hr r' hr' heq
    exact h (List.mem_map_of_mem hr) (heq ▸ List.mem_map_of_mem hr')

/-- A model is evaluated on none of the rows it was trained on exactly if the split of the later
table leaves room for them and for the rows that were merged in before the last of them. -/
theorem separate_iff {rawDir rawDir' : String} {csvPaths csvPaths' : List CsvFile}
    {df df' : List Sample} (h : loadAndMerge rawDir csvPaths = .ok df)
    (h' : loadAndMerge rawDir' csvPaths' = .ok df') (hsub : csvPaths ⊆ csvPaths') (node : String)
    (valFraction : Fraction) :
    Separate (nodeTable df node) (nodeTable df' node) valFraction ↔
      trainCount (nodeTable df node).length valFraction = 0 ∨
        trainCount (nodeTable df node).length valFraction +
            addedBefore (times (nodeTable df node)) (times (nodeTable df' node))
              (trainCount (nodeTable df node).length valFraction) ≤
          splitAt (nodeTable df' node).length valFraction := by
  rw [separate_iff_disjoint]
  apply disjoint_take_drop_iff
  · exact sortedLT_times (sortedLT_loadAndMerge h).nodup node
  · exact sortedLT_times (sortedLT_loadAndMerge h').nodup node
  · intro t ht
    obtain ⟨file, hfile, hkey⟩ := (mem_key_loadAndMerge h).mp (mem_times.mp ht)
    exact mem_times.mpr ((mem_key_loadAndMerge h').mpr ⟨file, hsub hfile, hkey⟩)
  · rw [times, List.length_map]
    exact Nat.min_le_right _ _

/-- Four samples of a replica, ten seconds apart. -/
private def replicaDump (name : String) (start : ℚ) : CsvFile :=
  ⟨name, [0, 10, 20, 30].map fun d => ⟨"pinode01", start + d, fun _ => some 20, some 0, some 0⟩⟩

private def half : Fraction := ⟨1 / 2, by norm_num, by norm_num⟩

theorem separate_continued :
    ∃ df df', loadAndMerge "raw" [replicaDump "a" 100] = .ok df ∧
      loadAndMerge "raw" [replicaDump "a" 100, replicaDump "b" 140] = .ok df' ∧
        Separate (nodeTable df "pinode01") (nodeTable df' "pinode01") half := by
  have hfirst : loadAndMerge "raw" [replicaDump "a" 100] = .ok _ := rfl
  have hlater : loadAndMerge "raw" [replicaDump "a" 100, replicaDump "b" 140] = .ok _ := rfl
  have hsub : [replicaDump "a" 100] ⊆ [replicaDump "a" 100, replicaDump "b" 140] :=
    List.cons_subset_cons _ (List.nil_subset _)
  exact ⟨_, _, hfirst, hlater,
    (separate_iff hfirst hlater hsub "pinode01" half).mpr (Or.inr (by decide +kernel))⟩

/-- The dump of a replica that was running earlier moves trained rows behind the split. -/
theorem separate_earlier_replica :
    ∃ df df', loadAndMerge "raw" [replicaDump "a" 100] = .ok df ∧
      loadAndMerge "raw" [replicaDump "a" 100, replicaDump "b" 60] = .ok df' ∧
        ¬ Separate (nodeTable df "pinode01") (nodeTable df' "pinode01") half := by
  refine ⟨_, _, rfl, rfl, fun h => ?_⟩
  exact @separate_iff_disjoint.mp h 100 (by decide +kernel) (by decide +kernel)

end PiWatch.Ml
