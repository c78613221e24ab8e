import PiWatch.Backend.State

/-!
# Node samples

Two calls record a sample of a node, metrics and hardware. Both merge it over the node's
latest sample, push one history point and publish one message; no other call does.
-/

namespace PiWatch

open ClusterState

/-- Calls that record a sample of a node. -/
def Op.sampledNode : Op → Option String
  | .recordNodeSample node _ _ _ => some node
  | .recordHardware node _ _ _ _ => some node
  | _ => none

/-- The node, the fields and the record stamp of a recorded sample. -/
def Op.sample : Op → Option (String × Obj × Time)
  | .recordNodeSample node sample tr _ => some (node, sample, tr)
  | .recordHardware node data _ tr _ => some (node, data, tr)
  | _ => none

theorem sampledNode_eq (op : Op) : op.sampledNode = op.sample.map (·.1) := by
  cases op <;> rfl

theorem sample_clean {op : Op} (hk : op.WellKeyed) {node : String} {sample : Obj} {tr : Time}
    (hop : op.sample = some (node, sample, tr)) : "node" ∉ sample := by
  cases op with
  | recordNodeSample =>
    cases hop
    exact hk
  | recordHardware =>
    cases hop
    exact hk
  | _ => simp [Op.sample] at hop

/-! ## Labels and points -/

/-- Reading back the label a delta was sent under. -/
theorem text_labelled {field value : String} {d : Obj} (h : field ∉ d) :
    (labelled field value d).text field = value := by
  rw [Obj.text, labelled, Dict.get?_merge, Dict.get?_eq_none_iff.mpr h, Dict.get?_ofList]
  simp

theorem get?_labelled_of_ne {field value g : String} {d : Obj} (h : g ≠ field) :
    (labelled field value d).get? g = d.get? g := by
  rw [labelled, Dict.get?_merge, Dict.get?_ofList]
  cases d.get? g <;> simp [List.lookup_cons, beq_eq_false_iff_ne.mpr h]

theorem ne_of_mem_nodeHistoryFields {f : String} (h : f ∈ nodeHistoryFields) :
    f ≠ "t" ∧ f ≠ "node" := by
  constructor <;> rintro rfl <;> simp [nodeHistoryFields] at h

theorem field_labelled {field value g : String} {d : Obj} (h : g ≠ field) :
    (labelled field value d).field g = d.field g := by
  rw [Obj.field, get?_labelled_of_ne h, Obj.field]

theorem field_historyPoint (merged : Obj) {f : String} (hf : f ∈ "t" :: nodeHistoryFields) :
    (historyPoint merged).field f = merged.field f := by
  rw [Obj.field, historyPoint, ← List.map_cons (f := fun f => (f, merged.field f)),
    Dict.get?_ofList_map hf]
  rfl

theorem get?_mergedSample (s : ClusterState) (node : String) (sample : Obj) (tr : Time)
    (f : String) :
    (s.mergedSample node sample tr).get? f = if f = "t" then some (.ofRat tr)
      else (sample.get? f).or (((s.nodeMetrics.get? node).getD ∅).get? f) := by
  rw [mergedSample, Dict.get?_insert, Dict.get?_merge]

theorem field_t_mergedSample (s : ClusterState) (node : String) (sample : Obj) (tr : Time) :
    (s.mergedSample node sample tr).field "t" = .ofRat tr := by
  rw [Obj.field, get?_mergedSample, if_pos rfl, Option.getD_some]

theorem field_t_historyPoint (s : ClusterState) (node : String) (sample : Obj) (tr : Time) :
    (historyPoint (s.mergedSample node sample tr)).field "t" = .ofRat tr := by
  rw [field_historyPoint _ (by simp), field_t_mergedSample]

/-! ## The latest sample of a node -/

/-- No stored node sample carries the field its message adds. -/
def ClusterState.CleanMetrics (s : ClusterState) : Prop :=
  ∀ node m, s.nodeMetrics.get? node = some m → "node" ∉ m

theorem mergedSample_clean {s : ClusterState} {node : String} {sample : Obj} {tr : Time}
    (hs : s.CleanMetrics) (h : "node" ∉ sample) : "node" ∉ s.mergedSample node sample tr := by
  unfold mergedSample
  rw [Dict.mem_insert, Dict.mem_merge]
  intro hmem
  rcases hmem with heq | hmem | hmem
  · simp at heq
  · exact h hmem
  · cases hm : s.nodeMetrics.get? node with
    | none =>
      rw [hm] at hmem
      exact Dict.not_mem_empty _ hmem
    | some m =>
      rw [hm] at hmem
      exact hs node m hm hmem

theorem nodeMetrics_step_of_none {s : ClusterState} {op : Op} (h : op.sampledNode = none) :
    (s.step op).nodeMetrics = s.nodeMetrics := by
  cases op with
  | recordNodeSample => simp [Op.sampledNode] at h
  | recordHardware => simp [Op.sampledNode] at h
  | addEvent => simp only [step, exec, addEvent]
  | _ => rfl

theorem cleanMetrics_insert {s s' : ClusterState} {node : String} {merged : Obj}
    (hs : s.CleanMetrics) (hm : "node" ∉ merged)
    (h : s'.nodeMetrics = s.nodeMetrics.insert node merged) : s'.CleanMetrics := by
  intro n m hget
  rw [h, Dict.get?_insert] at hget
  by_cases hn : n = node
  · rw [if_pos hn, Option.some.injEq] at hget
    exact hget ▸ hm
  · rw [if_neg hn] at hget
    exact hs n m hget

theorem cleanMetrics_step {s : ClusterState} {op : Op} (hs : s.CleanMetrics)
    (h : op.WellKeyed) : (s.step op).CleanMetrics := by
  cases hop : op.sampledNode with
  | none =>
    unfold CleanMetrics
    rw [nodeMetrics_step_of_none hop]
    exact hs
  | some node =>
    cases op with
    | recordNodeSample node sample tr t =>
      exact cleanMetrics_insert hs (mergedSample_clean hs h) rfl
    | recordHardware node data th tr t =>
      exact cleanMetrics_insert hs (mergedSample_clean hs h) rfl
    | _ => simp [Op.sampledNode] at hop

theorem ClusterState.Reachable.cleanMetrics {s : ClusterState} (h : s.Reachable) :
    s.CleanMetrics := by
  obtain ⟨t, hist, ops, hops, rfl⟩ := h
  have hinit : { ClusterState.init t with nodeHistory := hist }.CleanMetrics := by
    intro node m hm
    simp [ClusterState.init] at hm
  exact runFrom_invariant_of_forall (W := Op.WellKeyed) (fun _ _ hs hk => cleanMetrics_step hs hk)
    hinit hops

/-! ## The series of a node -/

private theorem items_pushHistory (r : Ring historyLen Obj) (x : Obj) :
    (r.push x).items = r.items.rtake 1079 ++ [x] :=
  Ring.items_push_succ (n := 1079) r x

theorem chart_recordNodeSample (s : ClusterState) (node n : String) (sample : Obj)
    (tr t : Time) :
    (s.recordNodeSample node sample tr t).1.chart n =
      if n = node then
        (s.chart node).rtake 1079 ++ [historyPoint (s.mergedSample node sample tr)]
      else s.chart n := by
  simp only [recordNodeSample, ClusterState.chart, Dict.get?_insert]
  split
  · exact items_pushHistory _ _
  · rfl

theorem chart_upsertNode (s : ClusterState) (name : String) (obj : NodeInfo) (t : Time)
    (node : String) : (s.upsertNode name obj t).1.chart node = s.chart node := by
  simp only [upsertNode, ClusterState.chart, Dict.get?_setDefault]
  by_cases hn : node = name <;> simp [hn]

/-- A call that records a sample. -/
theorem exec_of_sample {s : ClusterState} {op : Op} {node : String} {sample : Obj} {tr : Time}
    (h : op.sample = some (node, sample, tr)) :
    (∃ t, (s.exec op).2 =
      [⟨t, .nodeMetrics (labelled "node" node (s.mergedSample node sample tr))⟩]) ∧
    ∀ n, (s.step op).chart n =
      if n = node then
        (s.chart node).rtake 1079 ++ [historyPoint (s.mergedSample node sample tr)]
      else s.chart n := by
  cases op with
  | recordNodeSample node' sample' tr' t =>
    simp only [Op.sample, Option.some.injEq, Prod.mk.injEq] at h
    obtain ⟨rfl, rfl, rfl⟩ := h
    exact ⟨⟨t, rfl⟩, fun n => chart_recordNodeSample s node' n sample' tr' t⟩
  | recordHardware node' data th tr' t =>
    simp only [Op.sample, Option.some.injEq, Prod.mk.injEq] at h
    obtain ⟨rfl, rfl, rfl⟩ := h
    exact ⟨⟨t, rfl⟩, fun n => chart_recordNodeSample _ node' n data tr' t⟩
  | _ => simp [Op.sample] at h

private theorem no_sample_published {msg : Msg} (h : ∀ d, msg.body ≠ .nodeMetrics d) :
    ∀ m ∈ [msg], ∀ d, m.body ≠ .nodeMetrics d := by
  intro m hm
  rw [List.mem_singleton.mp hm]
  exact h

/-- A call that records none. -/
theorem exec_of_no_sample {s : ClusterState} {op : Op} (h : op.sample = none) :
    (∀ msg ∈ (s.exec op).2, ∀ d, msg.body ≠ .nodeMetrics d) ∧
    ∀ n, (s.step op).chart n = s.chart n := by
  cases op with
  | recordNodeSample => simp [Op.sample] at h
  | recordHardware => simp [Op.sample] at h
  | upsertNode name obj t =>
    exact ⟨no_sample_published (fun d hd => by cases hd),
      fun n => chart_upsertNode s name obj t n⟩
  | removeCheck name t =>
    refine ⟨fun msg hmsg d => ?_, fun n => rfl⟩
    rw [exec, removeCheck] at hmsg
    by_cases hm : name ∈ s.healthchecks <;> simp_all
  | _ => exact ⟨no_sample_published (fun d hd => by cases hd), fun n => rfl⟩

/-- The history point of a node that a call records. -/
def recordedPoint (node : String) (s : ClusterState) (op : Op) : Option Obj :=
  op.sample.bind fun x =>
    if x.1 = node then some (historyPoint (s.mergedSample node x.2.1 x.2.2)) else none

/-- The history points of a node that calls record, one after the other. -/
def recordedPoints (node : String) : ClusterState → List Op → List Obj
  | _, [] => []
  | s, op :: ops => (recordedPoint node s op).toList ++ recordedPoints node (s.step op) ops

theorem chart_step (node : String) (s : ClusterState) (op : Op) :
    (s.step op).chart node =
      (s.chart node ++ (recordedPoint node s op).toList).rtake historyLen := by
  have hold : (s.chart node).rtake historyLen = s.chart node := rtake_of_length_le (Ring.bounded _)
  unfold recordedPoint
  cases hop : op.sample with
  | none =>
    rw [(exec_of_no_sample hop).2, Option.bind_none, Option.toList_none, List.append_nil, hold]
  | some x =>
    obtain ⟨n, sample, tr⟩ := x
    rw [(exec_of_sample hop).2, Option.bind_some]
    dsimp only
    by_cases hn : n = node
    · subst hn
      rw [if_pos rfl, if_pos rfl, Option.toList_some, historyLen, List.rtake_concat_succ]
    · rw [if_neg hn, if_neg (Ne.symm hn), Option.toList_none, List.append_nil, hold]

/-- Calls append a node's new points to its chart and evict its oldest entries. -/
theorem chart_runFrom (node : String) (s : ClusterState) (ops : List Op) :
    (runFrom step s ops).chart node =
      (s.chart node ++ recordedPoints node s ops).rtake historyLen := by
  induction ops generalizing s with
  | nil =>
    rw [recordedPoints, List.append_nil]
    exact (rtake_of_length_le (Ring.bounded _)).symm
  | cons op ops ih =>
    rw [runFrom_cons, ih, chart_step, rtake_rtake_append, List.append_assoc, recordedPoints]

theorem length_recordedPoints (node : String) (s : ClusterState) (ops : List Op) :
    (recordedPoints node s ops).length = ops.countP (·.sampledNode = some node) := by
  induction ops generalizing s with
  | nil => rfl
  | cons op ops ih =>
    rw [recordedPoints, List.length_append, ih, List.countP_cons, sampledNode_eq, Nat.add_comm]
    unfold recordedPoint
    cases op.sample with
    | none => simp
    | some x => by_cases hn : x.1 = node <;> simp [hn]

theorem recordedPoints_append (node : String) (s : ClusterState) (ops ops' : List Op) :
    recordedPoints node s (ops ++ ops') =
      recordedPoints node s ops ++ recordedPoints node (runFrom step s ops) ops' := by
  induction ops generalizing s with
  | nil => rfl
  | cons op ops ih =>
    rw [List.cons_append, recordedPoints, recordedPoints, ih, runFrom_cons, List.append_assoc]

end PiWatch
