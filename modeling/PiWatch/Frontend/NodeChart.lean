import Mathlib.Data.Finset.Card
import Mathlib.Data.Rat.Floor
import PiWatch.Backend.Samples

/-!
# The chart of a node

Two pollers record a sample of every node in the same ring, each every ten seconds, and the chart
keeps the last 360 of its rows.
-/

namespace PiWatch

open ClusterState

/-! ## The rows of the chart -/

/-- The time of a point or a row. The times the backend sends are numbers. -/
def timeOf (p : Obj) : Option Time :=
  match p.field "t" with
  | .num (.finite t) => some t
  | _ => none

/-- `Math.round(t / 10) * 10`. -/
def bucket (t : Time) : ℤ := (t / 10 + 1 / 2).floor * 10

/-- A point goes into the row of its bucket, unless it lacks the field. -/
def chartPoint (field node : String) (rows : Dict ℤ Obj) (p : Obj) : Dict ℤ Obj :=
  match timeOf p with
  | some t =>
    if p.field field = .null then rows
    else
      let row := (rows.get? (bucket t)).getD (Dict.ofList [("t", .ofRat (bucket t))])
      rows.insert (bucket t) (row.insert node (p.field field))
  | none => rows

/-- `byBucket`. -/
def byBucket (histories : Dict String (List Obj)) (field : String) : Dict ℤ Obj :=
  (histories.keys.mergeSort fun a b => decide (a ≤ b)).foldl (fun rows node =>
    ((histories.get? node).getD []).foldl (chartPoint field node) rows) ∅

/-- `data` of `NodeChart`. -/
def nodeChartData (histories : Dict String (List Obj)) (field : String) : List Obj :=
  ((byBucket histories field).values.mergeSort fun a b =>
    decide ((timeOf a).getD 0 ≤ (timeOf b).getD 0)).rtake 360

/-! ## Polls -/

/-- A call of the metrics poller for a node. -/
def isMetrics (node : String) : Op → Bool
  | .recordNodeSample n _ _ _ => n = node
  | _ => false

/-- A call of the hardware poller for a node. -/
def isHardware (node : String) : Op → Bool
  | .recordHardware n _ _ _ _ => n = node
  | _ => false

/-- The calls of ten seconds from `t` on: each poller records one sample of the node. -/
structure PollRound (node : String) (t : Time) (ops : List Op) : Prop where
  metrics : ops.countP (isMetrics node) = 1
  hardware : ops.countP (isHardware node) = 1
  stamped : ∀ op ∈ ops, ∀ sample tr, op.sample = some (node, sample, tr) → t ≤ tr ∧ tr < t + 10

inductive PollRounds (node : String) : Time → List (List Op) → Prop
  | nil (t : Time) : PollRounds node t []
  | cons {t : Time} {ops : List Op} {rounds : List (List Op)} (hround : PollRound node t ops)
      (hrounds : PollRounds node (t + 10) rounds) : PollRounds node t (ops :: rounds)

/-- The points of the last `HISTORY_LEN` polls before `now` are still in the history. -/
def KeepsWindow (s : ClusterState) (node : String) (ops : List Op) (now : Time) : Prop :=
  ∀ p ∈ recordedPoints node s ops, ∀ t, timeOf p = some t → now - 10 * historyLen ≤ t →
    p ∈ (runFrom step s ops).chart node

/-- The chart has a row for each of their buckets in which the field was recorded. -/
def ShowsWindow (s : ClusterState) (node : String) (ops : List Op) (now : Time)
    (field : String) : Prop :=
  ∀ p ∈ recordedPoints node s ops, ∀ t, timeOf p = some t → now - 10 * historyLen ≤ t →
    p.field field ≠ .null →
      ∃ row ∈ nodeChartData (runFrom step s ops).snapshot.nodeHistory field,
        timeOf row = some (bucket t : ℚ)

structure CoversWindow (s : ClusterState) (node : String) (ops : List Op) (now : Time) : Prop where
  keeps : KeepsWindow s node ops now
  shows : ∀ field, ShowsWindow s node ops now field

/-- The buckets of the window in which the field was recorded. -/
def windowBuckets (s : ClusterState) (node : String) (ops : List Op) (now : Time)
    (field : String) : Finset ℤ :=
  ((recordedPoints node s ops).filterMap fun p => (timeOf p).bind fun t =>
    if now - 10 * historyLen ≤ t ∧ p.field field ≠ .null then some (bucket t) else none).toFinset

/-! ## The points of a run -/

theorem timeOf_historyPoint (s : ClusterState) (node : String) (sample : Obj) (tr : Time) :
    timeOf (historyPoint (s.mergedSample node sample tr)) = some tr := by
  rw [timeOf, field_t_historyPoint]
  rfl

/-- A point of the run comes from a call that records it. -/
theorem exists_of_mem_recordedPoints {node : String} {s : ClusterState} {ops : List Op} {p : Obj}
    (hp : p ∈ recordedPoints node s ops) :
    ∃ op ∈ ops, ∃ sample tr, op.sample = some (node, sample, tr) ∧ timeOf p = some tr := by
  induction ops generalizing s with
  | nil => cases hp
  | cons op ops ih =>
    rw [recordedPoints, List.mem_append, Option.mem_toList] at hp
    rcases hp with hp | hp
    · obtain ⟨⟨n, sample, tr⟩, hop, hpoint⟩ := Option.bind_eq_some_iff.mp hp
      dsimp only at hpoint
      split_ifs at hpoint with hn
      subst hn
      rw [← Option.some.inj hpoint]
      exact ⟨op, List.mem_cons_self, sample, tr, hop, timeOf_historyPoint s n sample tr⟩
    · obtain ⟨op', hop', hrest⟩ := ih hp
      exact ⟨op', List.mem_cons_of_mem op hop', hrest⟩

/-- A call that records a sample leaves a point with its fields. -/
theorem exists_mem_recordedPoints {node : String} (s : ClusterState) {ops : List Op} {op : Op}
    (hop : op ∈ ops) {sample : Obj} {tr : Time} (hsample : op.sample = some (node, sample, tr)) :
    ∃ p ∈ recordedPoints node s ops, timeOf p = some tr ∧
      ∀ f ∈ nodeHistoryFields, f ∈ sample → p.field f = sample.field f := by
  induction ops generalizing s with
  | nil => cases hop
  | cons first ops ih =>
    rcases List.mem_cons.mp hop with rfl | hop
    · refine ⟨historyPoint (s.mergedSample node sample tr), ?_,
        timeOf_historyPoint s node sample tr, ?_⟩
      · rw [recordedPoints, recordedPoint, hsample, Option.bind_some, if_pos rfl]
        exact List.mem_cons_self
      · intro f hf hmem
        obtain ⟨v, hv⟩ := Option.isSome_iff_exists.mp (Dict.mem_def.mp hmem)
        rw [field_historyPoint _ (List.mem_cons_of_mem _ hf), Obj.field, get?_mergedSample,
          if_neg (ne_of_mem_nodeHistoryFields hf).1, Obj.field, hv]
        rfl
    · obtain ⟨p, hp, hrest⟩ := ih (s.step first) hop
      exact ⟨p, List.mem_append_right _ hp, hrest⟩

/-! ## Rounds -/

theorem PollRounds.append {node : String} {t : Time} {earlier later : List (List Op)}
    (h : PollRounds node t (earlier ++ later)) :
    PollRounds node t earlier ∧ PollRounds node (t + 10 * earlier.length) later := by
  induction earlier generalizing t with
  | nil =>
    refine ⟨.nil t, ?_⟩
    rw [List.length_nil, Nat.cast_zero, mul_zero, add_zero]
    exact h
  | cons ops earlier ih =>
    cases h with
    | cons hround hrounds =>
      obtain ⟨hearlier, hlater⟩ := ih hrounds
      refine ⟨.cons hround hearlier, ?_⟩
      rw [List.length_cons, Nat.cast_succ]
      convert hlater using 1
      ring

/-- A round records two points. -/
private theorem countP_sampledNode (node : String) (ops : List Op) :
    ops.countP (·.sampledNode = some node) =
      ops.countP (isMetrics node) + ops.countP (isHardware node) := by
  induction ops with
  | nil => rfl
  | cons op ops ih =>
    rw [List.countP_cons, List.countP_cons, List.countP_cons, ih]
    cases op <;> simp [Op.sampledNode, isMetrics, isHardware] <;> omega

theorem PollRounds.length_points {node : String} {t : Time} {rounds : List (List Op)}
    (h : PollRounds node t rounds) (s : ClusterState) :
    (recordedPoints node s rounds.flatten).length = 2 * rounds.length := by
  rw [length_recordedPoints]
  induction h with
  | nil t => rfl
  | cons hround _ ih =>
    rw [List.flatten_cons, List.countP_append, ih, countP_sampledNode, hround.metrics,
      hround.hardware, List.length_cons]
    ring

theorem PollRounds.le_of_sample {node : String} {t : Time} {rounds : List (List Op)}
    (h : PollRounds node t rounds) {op : Op} (hop : op ∈ rounds.flatten) {sample : Obj} {tr : Time}
    (hsample : op.sample = some (node, sample, tr)) : t ≤ tr := by
  induction h with
  | nil t => cases hop
  | cons hround _ ih =>
    rw [List.flatten_cons, List.mem_append] at hop
    rcases hop with hop | hop
    · exact (hround.stamped op hop sample tr hsample).1
    · exact le_trans (by linarith) (ih hop)

theorem mem_of_mem_rtake_append {α : Type*} {l m : List α} {x : α} {n : ℕ} (hn : n ≤ m.length)
    (h : x ∈ (l ++ m).rtake n) : x ∈ m :=
  (List.suffix_of_suffix_length_le (rtake_suffix (l ++ m) n) (List.suffix_append l m)
    ((length_rtake_le _ n).trans hn)).subset h

/-- The rounds of the window are the last `HISTORY_LEN`; the first of them stands out. -/
private theorem exists_first_round {rounds : List (List Op)}
    (hlength : historyLen ≤ rounds.length) : ∃ earlier round later,
      rounds = earlier ++ round :: later ∧ later.length + 1 = historyLen := by
  have hlast : (rounds.drop (rounds.length - historyLen)).length = historyLen := by
    rw [List.length_drop]
    omega
  obtain ⟨round, later, hdrop⟩ := List.exists_cons_of_length_pos
    (l := rounds.drop (rounds.length - historyLen)) (by rw [hlast]; decide)
  refine ⟨rounds.take (rounds.length - historyLen), round, later, ?_, ?_⟩
  · rw [← hdrop, List.take_append_drop]
  · rw [← hlast, hdrop, List.length_cons]

private theorem recordedPoints_first_round (s : ClusterState) (node : String)
    (earlier later : List (List Op)) (round : List Op) :
    recordedPoints node s (earlier ++ round :: later).flatten =
      recordedPoints node s earlier.flatten ++
        (recordedPoints node (runFrom step s earlier.flatten) round ++
          recordedPoints node (runFrom step s (earlier.flatten ++ round)) later.flatten) := by
  rw [List.flatten_append, List.flatten_cons, recordedPoints_append, recordedPoints_append,
    runFrom_append]

/-- The ring is full after half of the window, so the first round of the window is lost. -/
theorem not_keepsWindow (s : ClusterState) {node : String} {start : Time}
    {rounds : List (List Op)} (h : PollRounds node start rounds)
    (hlength : historyLen ≤ rounds.length) :
    ¬ KeepsWindow s node rounds.flatten (start + 10 * rounds.length) := by
  intro hkeeps
  obtain ⟨earlier, round, later, rfl, hlast⟩ := exists_first_round hlength
  have hpoints := recordedPoints_first_round s node earlier later round
  obtain ⟨-, hrounds⟩ := h.append
  cases hrounds with
  | cons hround hlater =>
    have hone : (recordedPoints node (runFrom step s earlier.flatten) round).length = 2 := by
      rw [length_recordedPoints, countP_sampledNode, hround.metrics, hround.hardware]
    obtain ⟨p, hp⟩ := List.exists_mem_of_length_pos (by rw [hone]; decide)
    obtain ⟨op, hop, sample, tr, hsample, htime⟩ := exists_of_mem_recordedPoints hp
    obtain ⟨hfrom, hbefore⟩ := hround.stamped op hop sample tr hsample
    have hmem : p ∈ recordedPoints node s (earlier ++ round :: later).flatten := by
      rw [hpoints]
      exact List.mem_append_right _ (List.mem_append_left _ hp)
    have hcount : ((earlier ++ round :: later).length : Time) = earlier.length + historyLen := by
      rw [List.length_append, List.length_cons, hlast]
      exact Nat.cast_add _ _
    -- The point belongs to the window, so it would have to be one of the later rounds.
    have hchart := hkeeps p hmem tr htime (by rw [hcount]; linarith)
    rw [chart_runFrom, hpoints, ← List.append_assoc, ← List.append_assoc] at hchart
    have hfull : historyLen ≤ (recordedPoints node (runFrom step s (earlier.flatten ++ round))
        later.flatten).length := by
      rw [hlater.length_points]
      rw [historyLen] at hlast ⊢
      omega
    obtain ⟨op', hop', sample', tr', hsample', htime'⟩ :=
      exists_of_mem_recordedPoints (mem_of_mem_rtake_append hfull hchart)
    have hlate := hlater.le_of_sample hop' hsample'
    rw [htime] at htime'
    rw [← Option.some.inj htime'] at hlate
    linarith

/-- The chart has at most 360 rows. -/
theorem not_showsWindow {s : ClusterState} {node : String} {ops : List Op} {now : Time}
    {field : String} (h : 360 < (windowBuckets s node ops now field).card) :
    ¬ ShowsWindow s node ops now field := by
  intro hshows
  have hsubset : (windowBuckets s node ops now field).image (Int.cast : ℤ → ℚ) ⊆
      ((nodeChartData (runFrom step s ops).snapshot.nodeHistory field).filterMap
        timeOf).toFinset := by
    intro x hx
    obtain ⟨b, hb, rfl⟩ := Finset.mem_image.mp hx
    rw [windowBuckets, List.mem_toFinset, List.mem_filterMap] at hb
    obtain ⟨p, hp, hbucket⟩ := hb
    obtain ⟨t, htime, ht⟩ := Option.bind_eq_some_iff.mp hbucket
    split_ifs at ht with hwindow
    obtain ⟨row, hrow, hrowTime⟩ := hshows p hp t htime hwindow.1 hwindow.2
    rw [List.mem_toFinset, List.mem_filterMap]
    exact ⟨row, hrow, by rw [hrowTime, Option.some.inj ht]⟩
  have hcard := Finset.card_le_card hsubset
  rw [Finset.card_image_of_injective _ Int.cast_injective] at hcard
  have hrows : (nodeChartData (runFrom step s ops).snapshot.nodeHistory field).length ≤ 360 :=
    length_rtake_le _ 360
  have hfilter := List.length_filterMap_le timeOf
    (nodeChartData (runFrom step s ops).snapshot.nodeHistory field)
  have hdedup := List.toFinset_card_le
    ((nodeChartData (runFrom step s ops).snapshot.nodeHistory field).filterMap timeOf)
  omega

/-- With both pollers at work, no history covers the three hours, and no chart shows a field that
was recorded in more than 360 of their buckets. -/
theorem window_never_covered (s : ClusterState) {node : String} {start : Time}
    {rounds : List (List Op)} (h : PollRounds node start rounds)
    (hlength : historyLen ≤ rounds.length) :
    ¬ KeepsWindow s node rounds.flatten (start + 10 * rounds.length) ∧
      ¬ CoversWindow s node rounds.flatten (start + 10 * rounds.length) ∧
      ∀ field, 360 < (windowBuckets s node rounds.flatten (start + 10 * rounds.length) field).card →
        ¬ ShowsWindow s node rounds.flatten (start + 10 * rounds.length) field :=
  ⟨not_keepsWindow s h hlength, fun hcovers => not_keepsWindow s h hlength hcovers.keeps,
    fun _ hcard => not_showsWindow hcard⟩

/-! ## A steady run -/

/-- Both pollers record their sample at the start of the `k`-th ten seconds. -/
def steadyRound (k : ℕ) : List Op :=
  [.recordNodeSample "rpi-1" (Dict.ofList [("cpu_pct", .ofRat 12)]) (10 * k) (10 * k),
    .recordHardware "rpi-1" (Dict.ofList [("temp_c", .ofRat 50)]) (10 * k) (10 * k) (10 * k)]

theorem pollRounds_steady (k n : ℕ) :
    PollRounds "rpi-1" (10 * k) ((List.range' k n).map steadyRound) := by
  induction n generalizing k with
  | zero => exact .nil _
  | succ n ih =>
    rw [List.range'_succ, List.map_cons]
    refine .cons ⟨by simp [steadyRound, isMetrics],
      by simp [steadyRound, isHardware], ?_⟩ ?_
    · intro op hop sample tr hsample
      simp only [steadyRound, List.mem_cons, List.not_mem_nil, or_false] at hop
      rcases hop with rfl | rfl <;>
      · simp only [Op.sample, Option.some.injEq, Prod.mk.injEq] at hsample
        rw [← hsample.2.2]
        exact ⟨le_rfl, by linarith⟩
    · have hnext := ih (k + 1)
      rw [Nat.cast_succ, mul_add, mul_one] at hnext
      exact hnext

theorem bucket_ten_mul (k : ℕ) : bucket (10 * k) = 10 * k := by
  have hfloor : ((10 * (k : ℚ)) / 10 + 1 / 2).floor = k := by
    change ⌊(10 * (k : ℚ)) / 10 + 1 / 2⌋ = (k : ℤ)
    rw [mul_div_cancel_left₀ _ (by norm_num), Int.floor_natCast_add]
    norm_num
  rw [bucket, hfloor, mul_comm]

/-- The field is recorded in every ten seconds of a steady run. -/
theorem windowBuckets_steady (s : ClusterState) {n : ℕ} (hn : n ≤ historyLen) :
    n ≤ (windowBuckets s "rpi-1" ((List.range' 0 n).map steadyRound).flatten (10 * n)
      "cpu_pct").card := by
  have hsubset : (Finset.range n).image (fun k : ℕ => (10 * k : ℤ)) ⊆
      windowBuckets s "rpi-1" ((List.range' 0 n).map steadyRound).flatten (10 * n) "cpu_pct" := by
    intro b hb
    obtain ⟨k, hk, rfl⟩ := Finset.mem_image.mp hb
    have hop : Op.recordNodeSample "rpi-1" (Dict.ofList [("cpu_pct", .ofRat 12)]) (10 * k)
        (10 * k) ∈ ((List.range' 0 n).map steadyRound).flatten := by
      rw [List.mem_flatten]
      refine ⟨steadyRound k, List.mem_map_of_mem ?_, List.mem_cons_self⟩
      rw [List.mem_range'_1]
      exact ⟨Nat.zero_le k, by simpa using hk⟩
    obtain ⟨p, hp, htime, hfields⟩ := exists_mem_recordedPoints s hop rfl
    have hfield := hfields "cpu_pct" (by simp [nodeHistoryFields]) (by simp [Dict.mem_ofList])
    rw [windowBuckets, List.mem_toFinset, List.mem_filterMap]
    refine ⟨p, hp, ?_⟩
    rw [htime, Option.bind_some, if_pos, bucket_ten_mul]
    refine ⟨?_, ?_⟩
    · have hwindow : (n : ℚ) ≤ historyLen := Nat.cast_le.mpr hn
      have hk' : (0 : ℚ) ≤ k := Nat.cast_nonneg k
      linarith
    · rw [hfield]
      decide
  have hcard := Finset.card_le_card hsubset
  rwa [Finset.card_image_of_injective _ fun a b h => by simpa using h, Finset.card_range] at hcard

theorem window_never_covered_steady :
    ¬ CoversWindow (ClusterState.init 0) "rpi-1" ((List.range' 0 1080).map steadyRound).flatten
      10800 := by
  have hnever := window_never_covered (ClusterState.init 0) (pollRounds_steady 0 1080)
    (by rw [List.length_map, List.length_range']; exact le_rfl)
  rw [List.length_map, List.length_range'] at hnever
  norm_num at hnever
  exact hnever.2.1

/-- After three hours of steady polls the history lacks samples and the chart lacks rows. -/
theorem window_lost_steady :
    ¬ KeepsWindow (ClusterState.init 0) "rpi-1" ((List.range' 0 1080).map steadyRound).flatten
      10800 ∧
    ¬ ShowsWindow (ClusterState.init 0) "rpi-1" ((List.range' 0 1080).map steadyRound).flatten
      10800 "cpu_pct" := by
  constructor
  · have hkeeps := not_keepsWindow (ClusterState.init 0) (pollRounds_steady 0 1080)
      (by rw [List.length_map, List.length_range']; exact le_rfl)
    rw [List.length_map, List.length_range'] at hkeeps
    norm_num at hkeeps
    exact hkeeps
  · have hbuckets := windowBuckets_steady (ClusterState.init 0) (n := 1080) (by decide)
    have hnow : (10 : Time) * (1080 : ℕ) = 10800 := by norm_num
    rw [hnow] at hbuckets
    exact not_showsWindow (lt_of_lt_of_le (by decide) hbuckets)

end PiWatch
