import Mathlib.Data.Prod.Lex
import Mathlib.Data.String.Basic
import PiWatch.Framework.Merge
import PiWatch.Ml.Dataset

/-!
# The merged dumps

All dumps fetched so far are merged into one table, from which every node's rows are taken.
-/

namespace PiWatch.Ml

/-- A row of a dump. -/
structure Sample where
  node : String
  t : ℚ
  values : Row
  nvmeReadBytesPerS : Option ℚ
  nvmeWriteBytesPerS : Option ℚ

/-- `["node", "t"]`, in the order the rows are sorted. -/
def Sample.key (s : Sample) : String ×ₗ ℚ := toLex (s.node, s.t)

structure CsvFile where
  name : String
  rows : List Sample

/-- `load_and_merge`, for the files the directory holds. -/
def loadAndMerge (rawDir : String) (csvPaths : List CsvFile) : Except String (List Sample) :=
  if csvPaths.isEmpty then
    .error ("No CSV dumps found in " ++ rawDir ++ " -- run fetch_history_db.py first")
  else
    let merged := (sortBy CsvFile.name csvPaths).flatMap CsvFile.rows
    .ok (sortBy Sample.key (keepFirst Sample.key [] merged))

/-- The rows of a node, sorted by time. -/
def nodeTable (df : List Sample) (node : String) : List Sample :=
  sortBy Sample.t (df.filter fun s => s.node = node)

/-- The times of its rows. -/
def times (g : List Sample) : List ℚ := g.map Sample.t

section LoadAndMerge

variable {rawDir : String} {csvPaths : List CsvFile} {df : List Sample}

theorem eq_of_loadAndMerge (h : loadAndMerge rawDir csvPaths = .ok df) :
    df = sortBy Sample.key
      (keepFirst Sample.key [] ((sortBy CsvFile.name csvPaths).flatMap CsvFile.rows)) := by
  rw [loadAndMerge] at h
  split_ifs at h
  exact (Except.ok.inj h).symm

theorem exists_loadAndMerge (rawDir : String) (hne : csvPaths ≠ []) :
    ∃ df, loadAndMerge rawDir csvPaths = .ok df := by
  rw [loadAndMerge, if_neg (by rwa [List.isEmpty_iff])]
  exact ⟨_, rfl⟩

/-- The keys are sorted, and each occurs once. -/
theorem sortedLT_loadAndMerge (h : loadAndMerge rawDir csvPaths = .ok df) :
    (df.map Sample.key).SortedLT := by
  rw [eq_of_loadAndMerge h]
  exact sortedLT_map_sortBy (nodup_map_keepFirst _ _)

theorem mem_key_merged {k : String ×ₗ ℚ} :
    k ∈ ((sortBy CsvFile.name csvPaths).flatMap CsvFile.rows).map Sample.key ↔
      k ∈ (csvPaths.flatMap CsvFile.rows).map Sample.key := by
  have hrows := (sortBy_perm CsvFile.name csvPaths).flatMap_right CsvFile.rows
  exact (hrows.map Sample.key).mem_iff

/-- Every key of a dump is there, and no other. -/
theorem mem_key_loadAndMerge (h : loadAndMerge rawDir csvPaths = .ok df) {k : String ×ₗ ℚ} :
    k ∈ df.map Sample.key ↔ ∃ file ∈ csvPaths, k ∈ file.rows.map Sample.key := by
  rw [eq_of_loadAndMerge h, mem_map_sortBy, mem_map_keepFirst, and_iff_left List.not_mem_nil,
    mem_key_merged, List.map_flatMap, List.mem_flatMap]

theorem exists_of_mem_loadAndMerge (h : loadAndMerge rawDir csvPaths = .ok df) {r : Sample}
    (hr : r ∈ df) : ∃ file ∈ csvPaths, r ∈ file.rows := by
  rw [eq_of_loadAndMerge h, mem_sortBy, mem_keepFirst_iff] at hr
  obtain ⟨file, hfile, hrow⟩ := List.mem_flatMap.mp (mem_of_firstOf hr.1)
  exact ⟨file, mem_sortBy.mp hfile, hrow⟩

/-- The rows of a node are at different times, in order. -/
theorem sortedLT_times (h : (df.map Sample.key).Nodup) (node : String) :
    (times (nodeTable df node)).SortedLT := by
  apply sortedLT_map_sortBy
  apply List.Nodup.of_map fun t => toLex (node, t)
  rw [List.map_map]
  have hkeys : (df.filter fun s => s.node = node).map ((fun t => toLex (node, t)) ∘ Sample.t) =
      (df.filter fun s => s.node = node).map Sample.key := by
    apply List.map_congr_left
    intro s hs
    rw [Function.comp_apply, Sample.key, of_decide_eq_true (List.mem_filter.mp hs).2]
  rw [hkeys]
  exact h.sublist (List.filter_sublist.map Sample.key)

theorem mem_times {node : String} {t : ℚ} :
    t ∈ times (nodeTable df node) ↔ toLex (node, t) ∈ df.map Sample.key := by
  rw [times, nodeTable, mem_map_sortBy, List.mem_map, List.mem_map]
  constructor
  · rintro ⟨s, hs, rfl⟩
    rw [List.mem_filter, decide_eq_true_iff] at hs
    exact ⟨s, hs.1, by rw [Sample.key, hs.2]⟩
  · rintro ⟨s, hs, hkey⟩
    obtain ⟨rfl, rfl⟩ := Prod.mk.inj (toLex.injective hkey)
    exact ⟨s, List.mem_filter.mpr ⟨hs, decide_eq_true rfl⟩, rfl⟩

end LoadAndMerge

/-! ## Fetching again -/

/-- Rows with one node and time are identical, if they are in different dumps. -/
def DumpsAgree (csvPaths : List CsvFile) : Prop :=
  Agree Sample.key (csvPaths.map CsvFile.rows)

/-- The table holds one row for every node and time of a dump, and no other, in order. -/
structure IsUnion (csvPaths : List CsvFile) (df : List Sample) : Prop where
  once : ∀ file ∈ csvPaths, ∀ r ∈ file.rows, (df.map Sample.key).count r.key = 1
  only : ∀ r ∈ df, ∃ file ∈ csvPaths, r ∈ file.rows
  sorted : (df.map Sample.key).SortedLT

section Union

variable {csvPaths csvPaths' : List CsvFile}

theorem isUnion_loadAndMerge {rawDir : String} {df : List Sample}
    (h : loadAndMerge rawDir csvPaths = .ok df) : IsUnion csvPaths df := by
  constructor
  · intro file hfile r hr
    apply List.count_eq_one_of_mem (sortedLT_loadAndMerge h).nodup
    exact (mem_key_loadAndMerge h).mpr ⟨file, hfile, List.mem_map_of_mem hr⟩
  · intro r hr
    exact exists_of_mem_loadAndMerge h hr
  · exact sortedLT_loadAndMerge h

/-- Dumps that agree and hold the same rows merge to the same table. -/
theorem loadAndMerge_congr {rawDir rawDir' : String} {df : List Sample} (hne : csvPaths' ≠ [])
    (hagree : DumpsAgree (csvPaths ++ csvPaths'))
    (hrows : ∀ r, r ∈ csvPaths'.flatMap CsvFile.rows ↔ r ∈ csvPaths.flatMap CsvFile.rows)
    (h : loadAndMerge rawDir csvPaths = .ok df) : loadAndMerge rawDir' csvPaths' = .ok df := by
  have hdumps : Agree Sample.key ((sortBy CsvFile.name csvPaths).map CsvFile.rows ++
      (sortBy CsvFile.name csvPaths').map CsvFile.rows) := by
    apply hagree.subset
    rw [← List.map_append]
    apply List.Perm.subset
    exact ((sortBy_perm _ csvPaths).append (sortBy_perm _ csvPaths')).map CsvFile.rows
  have hkeys : ∀ k, k ∈ (csvPaths.flatMap CsvFile.rows).map Sample.key ↔
      k ∈ (csvPaths'.flatMap CsvFile.rows).map Sample.key := by
    intro k
    simp only [List.mem_map, hrows]
  have hfirst := firstOf_flatten_eq hdumps fun k => by
    rw [← List.flatMap_def, ← List.flatMap_def, mem_key_merged, mem_key_merged, hkeys]
  obtain ⟨df', h'⟩ := exists_loadAndMerge rawDir' hne
  rw [h', eq_of_loadAndMerge h, eq_of_loadAndMerge h', List.flatMap_def, List.flatMap_def,
    sortBy_keepFirst_congr hfirst]

/-- Merging is a union of the dumps: neither their order and names matter, nor which dump holds
which rows, nor that rows are fetched again. -/
theorem refetching_keeps_dataset (rawDir : String) (hne : csvPaths ≠ [])
    (hagree : DumpsAgree csvPaths) :
    ∃ df, loadAndMerge rawDir csvPaths = .ok df ∧ IsUnion csvPaths df ∧
      (∀ rawDir' csvPaths', (csvPaths'.map CsvFile.rows).Perm (csvPaths.map CsvFile.rows) →
        loadAndMerge rawDir' csvPaths' = .ok df) ∧
      (∀ rawDir' csvPaths', csvPaths' ≠ [] → DumpsAgree (csvPaths ++ csvPaths') →
        (∀ r, r ∈ csvPaths'.flatMap CsvFile.rows ↔ r ∈ csvPaths.flatMap CsvFile.rows) →
          loadAndMerge rawDir' csvPaths' = .ok df) ∧
      ∀ rawDir' again csvPaths', (∀ a ∈ again, ∃ file ∈ csvPaths, a.rows ⊆ file.rows) →
        DumpsAgree (csvPaths ++ again) → csvPaths'.Perm (csvPaths ++ again) →
          loadAndMerge rawDir' csvPaths' = .ok df := by
  obtain ⟨df, h⟩ := exists_loadAndMerge rawDir hne
  refine ⟨df, h, isUnion_loadAndMerge h, ?_, ?_, ?_⟩
  · intro rawDir' csvPaths' hperm
    have hne' : csvPaths' ≠ [] := by
      rintro rfl
      exact hne (List.map_eq_nil_iff.mp hperm.symm.eq_nil)
    have hsame : (csvPaths ++ csvPaths').map CsvFile.rows ⊆ csvPaths.map CsvFile.rows := by
      rw [List.map_append]
      exact List.append_subset.mpr ⟨List.Subset.refl _, hperm.subset⟩
    apply loadAndMerge_congr hne' (hagree.subset hsame) _ h
    intro r
    rw [List.flatMap_def, List.flatMap_def, hperm.flatten.mem_iff]
  · intro rawDir' csvPaths' hne' hagree' hrows
    exact loadAndMerge_congr hne' hagree' hrows h
  · intro rawDir' again csvPaths' hagain hagree' hperm
    have hne' : csvPaths' ≠ [] := by
      rintro rfl
      exact hne (List.append_eq_nil_iff.mp hperm.symm.eq_nil).1
    have hsame : csvPaths ++ csvPaths' ⊆ csvPaths ++ again :=
      List.append_subset.mpr ⟨List.subset_append_left _ _, hperm.subset⟩
    apply loadAndMerge_congr hne' (hagree'.subset (List.map_subset CsvFile.rows hsame)) _ h
    intro r
    rw [(hperm.flatMap_right CsvFile.rows).mem_iff, List.flatMap_append, List.mem_append,
      or_iff_left_iff_imp]
    intro hr
    obtain ⟨a, ha, hra⟩ := List.mem_flatMap.mp hr
    obtain ⟨file, hfile, hsub⟩ := hagain a ha
    exact List.mem_flatMap_of_mem hfile (hsub hra)

end Union

/-- Samples of a node that is idle. -/
private def idleDump (name : String) (ts : List ℚ) : CsvFile :=
  ⟨name, ts.map fun t => ⟨"pi-1", t, fun _ => some 20, some 0, some 0⟩⟩

private theorem dumpsAgree_idle (fetches : List (String × List ℚ)) :
    DumpsAgree (fetches.map fun fetch => idleDump fetch.1 fetch.2) := by
  apply agree_of_eq (f := fun k => ⟨"pi-1", (ofLex k).2, fun _ => some 20, some 0, some 0⟩)
  intro rows hrows r hr
  obtain ⟨file, hfile, rfl⟩ := List.mem_map.mp hrows
  obtain ⟨fetch, -, rfl⟩ := List.mem_map.mp hfile
  obtain ⟨t, -, rfl⟩ := List.mem_map.mp hr
  rfl

/-- The second fetch has the first sample of the first one again. -/
theorem refetching_keeps_dataset_idle :
    ∃ df, loadAndMerge "raw" [idleDump "a" [100, 110], idleDump "b" [100, 120]] = .ok df ∧
      loadAndMerge "raw" [idleDump "a" [100, 120], idleDump "b" [100, 110]] = .ok df ∧
      loadAndMerge "raw" [idleDump "a" [120, 100, 110]] = .ok df ∧
      loadAndMerge "raw" [idleDump "0" [110], idleDump "a" [100, 110], idleDump "b" [100, 120]] =
        .ok df := by
  have hne : [idleDump "a" [100, 110], idleDump "b" [100, 120]] ≠ [] := List.cons_ne_nil _ _
  obtain ⟨df, h, -, hnames, hsplit, hagain⟩ := refetching_keeps_dataset "raw" hne
    (dumpsAgree_idle [("a", [100, 110]), ("b", [100, 120])])
  refine ⟨df, h, ?_, ?_, ?_⟩
  · apply hnames
    exact List.Perm.swap _ _ _
  · apply hsplit _ _ (List.cons_ne_nil _ _)
      (dumpsAgree_idle [("a", [100, 110]), ("b", [100, 120]), ("a", [120, 100, 110])])
    intro r
    simp only [idleDump, List.flatMap_cons, List.flatMap_nil, List.map_cons, List.map_nil,
      List.mem_append, List.mem_cons, List.not_mem_nil, or_false]
    tauto
  · apply hagain _ [idleDump "0" [110]] _ _
      (dumpsAgree_idle [("a", [100, 110]), ("b", [100, 120]), ("0", [110])])
    · change ([idleDump "0" [110]] ++ _).Perm _
      exact List.perm_append_comm
    · intro a ha
      obtain rfl := List.mem_singleton.mp ha
      exact ⟨_, List.mem_cons_self, List.map_subset _ (by decide)⟩

end PiWatch.Ml
