import PiWatch.Backend.WireForms

/-!
# States of finite numbers

The state stores what the collectors bring it and sends all of it. What it sends has only
finite numbers exactly if what it was brought has.
-/

namespace PiWatch

namespace Json

@[simp] theorem isFinite_null : Json.null.isFinite = true := rfl

@[simp] theorem isFinite_bool (b : Bool) : (Json.bool b).isFinite = true := rfl

@[simp] theorem isFinite_str (s : String) : (Json.str s).isFinite = true := rfl

@[simp] theorem isFinite_num (x : PyFloat) : (Json.num x).isFinite = x.isFinite := rfl

@[simp] theorem isFinite_ofRat (q : ℚ) : (ofRat q).isFinite = true := rfl

@[simp] theorem isFinite_ofNat (n : ℕ) : (ofNat n).isFinite = true := rfl

@[simp] theorem isFinite_arr (xs : List Json) : (Json.arr xs).isFinite = xs.all isFinite := by
  have hlist : ∀ xs, isFiniteList xs = xs.all isFinite := by
    intro xs
    induction xs with
    | nil => rfl
    | cons x xs ih => rw [isFiniteList, ih, List.all_cons]
  exact hlist xs

@[simp] theorem isFinite_obj (fields : List (String × Json)) :
    (Json.obj fields).isFinite = fields.all fun e => e.2.isFinite := by
  have hfields : ∀ fields : List (String × Json),
      isFiniteFields fields = fields.all fun e => e.2.isFinite := by
    intro fields
    induction fields with
    | nil => rfl
    | cons e fields ih => rw [isFiniteFields, ih, List.all_cons]
  exact hfields fields

@[simp] theorem isFinite_optional {α : Type} (f : α → Json) (o : Option α) :
    (optional f o).isFinite = o.all fun a => (f a).isFinite := by
  cases o <;> rfl

@[simp] theorem isFinite_text? (o : Option String) : (text? o).isFinite = true := by
  cases o <;> rfl

@[simp] theorem isFinite_texts (ss : List String) : (texts ss).isFinite = true := by
  simp [texts]

@[simp] theorem isFinite_ofDict {α : Type} (f : α → Json) (d : Dict String α) :
    (ofDict f d).isFinite = d.entries.all fun e => (f e.2).isFinite := by
  simp [ofDict, Function.comp_def]

end Json

open Json

@[simp] theorem NodeInfo.isFinite_toJson (d : NodeInfo) : d.toJson.isFinite = true := by
  simp [toJson, NodeTaint.toJson]

@[simp] theorem PodInfo.isFinite_toJson (d : PodInfo) : d.toJson.isFinite = true := by
  simp [toJson]

@[simp] theorem DeploymentInfo.isFinite_toJson (d : DeploymentInfo) :
    d.toJson.isFinite = true := by
  simp [toJson]

@[simp] theorem StatefulSetInfo.isFinite_toJson (d : StatefulSetInfo) :
    d.toJson.isFinite = true := by
  simp [toJson]

@[simp] theorem DaemonSetInfo.isFinite_toJson (d : DaemonSetInfo) : d.toJson.isFinite = true := by
  simp [toJson]

@[simp] theorem ServiceInfo.isFinite_toJson (d : ServiceInfo) : d.toJson.isFinite = true := by
  simp [toJson, ServicePort.toJson]

@[simp] theorem HpaInfo.isFinite_toJson (d : HpaInfo) : d.toJson.isFinite = true := by
  simp [toJson, HpaMetric.toJson]

@[simp] theorem NetworkPolicyInfo.isFinite_toJson (d : NetworkPolicyInfo) :
    d.toJson.isFinite = true := by
  simp [toJson]

@[simp] theorem SecretInfo.isFinite_toJson (d : SecretInfo) : d.toJson.isFinite = true := by
  simp [toJson]

@[simp] theorem ConfigMapInfo.isFinite_toJson (d : ConfigMapInfo) : d.toJson.isFinite = true := by
  simp [toJson]

@[simp] theorem OrphanedPvInfo.isFinite_toJson (d : OrphanedPvInfo) :
    d.toJson.isFinite = true := by
  simp [toJson]

@[simp] theorem EventInfo.isFinite_toJson (d : EventInfo) : d.toJson.isFinite = true := by
  simp [toJson]

@[simp] theorem FluxGitRepository.isFinite_toJson (d : FluxGitRepository) :
    d.toJson.isFinite = true := by
  simp [toJson]

@[simp] theorem FluxImagePolicy.isFinite_toJson (d : FluxImagePolicy) :
    d.toJson.isFinite = true := by
  simp [toJson]

@[simp] theorem FluxImageAutomation.isFinite_toJson (d : FluxImageAutomation) :
    d.toJson.isFinite = true := by
  simp [toJson]

@[simp] theorem GatewayInfo.isFinite_toJson (d : GatewayInfo) : d.toJson.isFinite = true := by
  simp [toJson, Listener.toJson]

@[simp] theorem HttpRouteInfo.isFinite_toJson (d : HttpRouteInfo) : d.toJson.isFinite = true := by
  simp [toJson]

@[simp] theorem RateLimitPolicyInfo.isFinite_toJson (d : RateLimitPolicyInfo) :
    d.toJson.isFinite = true := by
  simp [toJson]

@[simp] theorem CheckResult.isFinite_toJson (r : CheckResult) : r.toJson.isFinite = true := by
  simp [toJson]

/-! ## Records with numbers of their own -/

/-- All values of an object are finite. -/
def Obj.Finite (d : Obj) : Prop := d.All fun v => v.isFinite

/-- All values but that of one field. -/
def Obj.FiniteBut (f : String) (d : Obj) : Prop :=
  ∀ g v, g ≠ f → d.get? g = some v → v.isFinite

theorem isFinite_ofObj (d : Obj) : (ofObj d).isFinite ↔ d.Finite := by
  rw [Obj.Finite, Dict.all_iff_forall_mem, ofObj, isFinite_obj, List.all_eq_true]

theorem Obj.finite_insert_iff {d : Obj} {f : String} {v : Json} :
    Obj.Finite (d.insert f v) ↔ d.FiniteBut f ∧ v.isFinite := by
  constructor
  · intro h
    refine ⟨fun g w hg hw => h g w ?_, h f v (Dict.get?_insert_self d f v)⟩
    rw [Dict.get?_insert, if_neg hg, hw]
  · intro h g w hw
    rw [Dict.get?_insert] at hw
    split at hw
    · rw [← Option.some.inj hw]
      exact h.2
    · rename_i hg
      exact h.1 g w hg hw

theorem Obj.FiniteBut.merge {d e : Obj} {f : String} (hd : d.Finite) (he : e.FiniteBut f) :
    Obj.FiniteBut f (d.merge e) := by
  intro g v hg hv
  rw [Dict.get?_merge] at hv
  cases hw : e.get? g with
  | none => exact hd g v (by rwa [hw, Option.none_or] at hv)
  | some w =>
    rw [hw, Option.some_or] at hv
    exact he g v hg (hv ▸ hw)

/-- What is merged last stands in the merge. -/
theorem Obj.FiniteBut.of_merge {d e : Obj} {f : String} (h : Obj.FiniteBut f (d.merge e)) :
    e.FiniteBut f := by
  intro g v hg hv
  refine h g v hg ?_
  rw [Dict.get?_merge, hv, Option.some_or]

theorem Obj.Finite.field {d : Obj} (h : d.Finite) (f : String) : (d.field f).isFinite := by
  exact Dict.All.getD h f rfl

def FluxKustomization.Finite (d : FluxKustomization) : Prop := ∀ x ∈ d.nextReconcileT, x.isFinite

theorem FluxKustomization.isFinite_toJson_iff (d : FluxKustomization) :
    d.toJson.isFinite ↔ d.Finite := by
  simp [toJson, Finite, Option.all_eq_true]

structure PvcInfo.Finite (d : PvcInfo) : Prop where
  requested : ∀ x ∈ d.requestedBytes, x.isFinite
  capacity : ∀ x ∈ d.capacityBytes, x.isFinite
  usage : ∀ x ∈ d.usageBytes, x.isFinite
  pct : ∀ x ∈ d.usagePct, x.isFinite

theorem PvcInfo.isFinite_toJson_iff (d : PvcInfo) : d.toJson.isFinite ↔ d.Finite := by
  have hparts : d.toJson.isFinite ↔ (∀ x ∈ d.requestedBytes, x.isFinite) ∧
      (∀ x ∈ d.capacityBytes, x.isFinite) ∧ (∀ x ∈ d.usageBytes, x.isFinite) ∧
      ∀ x ∈ d.usagePct, x.isFinite := by
    simp [toJson, Option.all_eq_true]
  rw [hparts]
  constructor
  · intro h
    exact ⟨h.1, h.2.1, h.2.2.1, h.2.2.2⟩
  · intro h
    exact ⟨h.requested, h.capacity, h.usage, h.pct⟩

theorem SnapshotCheck.isFinite_toJson_iff (e : SnapshotCheck) :
    e.toJson.isFinite ↔ e.config.Finite := by
  rw [← isFinite_ofObj]
  simp [toJson]

private theorem isFinite_ofDict_iff {α : Type} {f : α → Json} {P : α → Prop}
    (h : ∀ a, (f a).isFinite ↔ P a) (d : Dict String α) : (ofDict f d).isFinite ↔ d.All P := by
  rw [isFinite_ofDict, List.all_eq_true, Dict.all_iff_forall_mem]
  exact forall₂_congr fun e _ => h e.2

/-! ## The state -/

structure ClusterState.Finite (s : ClusterState) : Prop where
  kustomizations : s.fluxKustomizations.All FluxKustomization.Finite
  pvcs : s.pvcs.All PvcInfo.Finite
  nodeMetrics : s.nodeMetrics.All Obj.Finite
  hardware : s.hardware.All Obj.Finite
  podMetrics : s.podMetrics.All Obj.Finite
  nodeHistory : s.nodeHistory.All fun points => ∀ d ∈ points.items, d.Finite
  healthchecks : s.healthchecks.All fun e => e.config.Finite

theorem isFinite_snapshot_iff (s : ClusterState) : s.snapshot.toJson.isFinite ↔ s.Finite := by
  have hhistory : (ofDict (fun points : List Obj => Json.arr (points.map ofObj))
      s.snapshot.nodeHistory).isFinite ↔
      s.nodeHistory.All fun points => ∀ d ∈ points.items, d.Finite := by
    rw [isFinite_ofDict_iff (P := fun points : List Obj => ∀ d ∈ points, d.Finite)]
    · exact Dict.all_mapValues_iff
    · intro points
      rw [isFinite_arr, List.all_map, List.all_eq_true]
      exact forall₂_congr fun d _ => isFinite_ofObj d
  have hchecks : (ofDict SnapshotCheck.toJson s.snapshot.healthchecks).isFinite ↔
      s.healthchecks.All fun e => e.config.Finite := by
    rw [isFinite_ofDict_iff SnapshotCheck.isFinite_toJson_iff]
    exact Dict.all_mapValues_iff
  have hparts : s.snapshot.toJson.isFinite ↔
      (ofDict ofObj s.nodeMetrics).isFinite ∧ (ofDict ofObj s.hardware).isFinite ∧
      (ofDict ofObj s.podMetrics).isFinite ∧
      (ofDict FluxKustomization.toJson s.fluxKustomizations).isFinite ∧
      (ofDict PvcInfo.toJson s.pvcs).isFinite ∧
      (ofDict (fun points : List Obj => Json.arr (points.map ofObj))
        s.snapshot.nodeHistory).isFinite ∧
      (ofDict SnapshotCheck.toJson s.snapshot.healthchecks).isFinite := by
    simp [Snapshot.toJson, ClusterState.snapshot]
  rw [hparts, hhistory, hchecks, isFinite_ofDict_iff isFinite_ofObj,
    isFinite_ofDict_iff isFinite_ofObj, isFinite_ofDict_iff isFinite_ofObj,
    isFinite_ofDict_iff FluxKustomization.isFinite_toJson_iff,
    isFinite_ofDict_iff PvcInfo.isFinite_toJson_iff]
  constructor
  · intro h
    obtain ⟨hnodes, hhardware, hpods, hflux, hpvcs, hhist, hhealth⟩ := h
    exact ⟨hflux, hpvcs, hnodes, hhardware, hpods, hhist, hhealth⟩
  · intro h
    exact ⟨h.nodeMetrics, h.hardware, h.podMetrics, h.kustomizations, h.pvcs, h.nodeHistory,
      h.healthchecks⟩

/-! ## The calls -/

namespace Op

/-- What a call brings has only finite numbers. The time of a sample is the state's own. -/
def Finite : Op → Prop
  | .recordNodeSample _ sample _ _ => sample.FiniteBut "t"
  | .recordPodSample _ sample _ _ => sample.FiniteBut "t"
  | .recordHardware _ data _ _ _ => data.FiniteBut "t"
  | .setFluxKustomizations items _ => items.All FluxKustomization.Finite
  | .setPvcs items _ => items.All PvcInfo.Finite
  | .recordCheck _ config _ _ _ _ _ => config.Finite
  | _ => True

end Op

namespace ClusterState

private theorem finite_insert_t_iff {d : Obj} {t : Time} :
    Obj.Finite (d.insert "t" (.ofRat t)) ↔ d.FiniteBut "t" := by
  rw [Obj.finite_insert_iff]
  exact and_iff_left rfl

private theorem finite_mergedSample {s : ClusterState} (h : s.nodeMetrics.All Obj.Finite)
    (node : String) {sample : Obj} (hsample : sample.FiniteBut "t") (t : Time) :
    (s.mergedSample node sample t).Finite :=
  finite_insert_t_iff.mpr (Obj.FiniteBut.merge (h.getD node (Dict.all_empty _)) hsample)

private theorem finite_historyPoint {merged : Obj} (h : merged.Finite) :
    (historyPoint merged).Finite := by
  refine Dict.all_ofList (List.forall_mem_cons.mpr ⟨h.field "t", fun e he => ?_⟩)
  obtain ⟨f, -, rfl⟩ := List.mem_map.mp he
  exact h.field f

private theorem finite_labelled (field value : String) {d : Obj} (h : d.Finite) :
    (labelled field value d).Finite :=
  Dict.All.merge (Dict.all_ofList (by simp)) h

private theorem finite_recordNodeSample {s : ClusterState} (h : s.Finite) (node : String)
    {sample : Obj} (hsample : sample.FiniteBut "t") (tr t : Time) :
    (s.recordNodeSample node sample tr t).1.Finite := by
  have hmerged := finite_mergedSample h.nodeMetrics node hsample tr
  have hpoints : ∀ d ∈ ((s.nodeHistory.get? node).getD ∅).items, Obj.Finite d :=
    h.nodeHistory.getD node (by simp)
  refine { h with
    nodeMetrics := h.nodeMetrics.insert node hmerged
    nodeHistory := h.nodeHistory.insert node fun d hd => ?_ }
  rw [Ring.items_push] at hd
  rcases List.mem_append.mp ((rtake_suffix _ _).subset hd) with hd | hd
  · exact hpoints d hd
  · rw [List.mem_singleton.mp hd]
    exact finite_historyPoint hmerged

/-- A call that brings finite numbers keeps the state's finite. -/
theorem finite_step {s : ClusterState} (h : s.Finite) {op : Op} (hop : op.Finite) :
    (s.step op).Finite := by
  cases op with
  | upsertNode name obj t =>
    refine { h with nodeHistory := fun k points hpoints => ?_ }
    rw [step, exec, upsertNode, Dict.get?_setDefault] at hpoints
    split at hpoints
    · rw [← Option.some.inj hpoints]
      exact h.nodeHistory.getD name (by simp)
    · exact h.nodeHistory k points hpoints
  | removePod key t => exact { h with podMetrics := h.podMetrics.erase key }
  | recordNodeSample node sample tr t => exact finite_recordNodeSample h node hop tr t
  | recordPodSample key sample tr t =>
    exact { h with podMetrics := h.podMetrics.insert key (finite_insert_t_iff.mpr hop) }
  | recordHardware node data th tr t =>
    have hstored := h.hardware.insert node ((finite_insert_t_iff (t := th)).mpr hop)
    have hhardware : ClusterState.Finite
        { s with hardware := s.hardware.insert node (data.insert "t" (.ofRat th)) } :=
      { h with hardware := hstored }
    exact finite_recordNodeSample hhardware node hop tr t
  | setFluxKustomizations items t => exact { h with kustomizations := hop }
  | setPvcs items t => exact { h with pvcs := hop }
  | recordCheck name config ok latencyMs detail tr t =>
    exact { h with healthchecks := h.healthchecks.insert name hop }
  | removeCheck name t => exact { h with healthchecks := h.healthchecks.erase name }
  | _ => exact { h with }

/-- What a call brings stands in the state after it. -/
theorem finite_of_step {s : ClusterState} {op : Op} (h : (s.step op).Finite) : op.Finite := by
  cases op with
  | recordNodeSample node sample tr t =>
    have hmerged := h.nodeMetrics node _ (Dict.get?_insert_self _ _ _)
    exact (finite_insert_t_iff.mp hmerged).of_merge
  | recordPodSample key sample tr t =>
    exact finite_insert_t_iff.mp (h.podMetrics key _ (Dict.get?_insert_self _ _ _))
  | recordHardware node data th tr t =>
    exact finite_insert_t_iff.mp (h.hardware node _ (Dict.get?_insert_self _ _ _))
  | setFluxKustomizations items t => exact h.kustomizations
  | setPvcs items t => exact h.pvcs
  | recordCheck name config ok latencyMs detail tr t =>
    exact h.healthchecks name _ (Dict.get?_insert_self _ _ _)
  | _ => trivial

private theorem isFinite_toJson_iff (m : Msg) :
    m.toJson.isFinite ↔ m.body.typeAndData.2.isFinite := by
  simp [Msg.toJson]

/-- The messages of such a call have only finite numbers as well. -/
theorem isFinite_published {s : ClusterState} (h : s.Finite) {op : Op} (hop : op.Finite) :
    ∀ msg ∈ (s.exec op).2, msg.toJson.isFinite := by
  intro msg hmsg
  rw [isFinite_toJson_iff]
  cases op with
  | removeCheck name t =>
    rw [exec, removeCheck] at hmsg
    dsimp only at hmsg
    split at hmsg
    · rw [List.mem_singleton.mp hmsg]
      rfl
    · cases hmsg
  | recordNodeSample node sample tr t =>
    rw [List.mem_singleton.mp hmsg]
    exact (isFinite_ofObj _).mpr
      (finite_labelled _ _ (finite_mergedSample h.nodeMetrics node hop tr))
  | recordPodSample key sample tr t =>
    rw [List.mem_singleton.mp hmsg]
    exact (isFinite_ofObj _).mpr (finite_labelled _ _ (finite_insert_t_iff.mpr hop))
  | recordHardware node data th tr t =>
    rw [List.mem_singleton.mp hmsg]
    exact (isFinite_ofObj _).mpr
      (finite_labelled _ _ (finite_mergedSample h.nodeMetrics node hop tr))
  | setFluxKustomizations items t =>
    rw [List.mem_singleton.mp hmsg]
    exact (isFinite_ofDict_iff FluxKustomization.isFinite_toJson_iff items).mpr hop
  | setPvcs items t =>
    rw [List.mem_singleton.mp hmsg]
    exact (isFinite_ofDict_iff PvcInfo.isFinite_toJson_iff items).mpr hop
  | recordCheck name config ok latencyMs detail tr t =>
    rw [List.mem_singleton.mp hmsg]
    have hconfig := (isFinite_ofObj config).mpr hop
    simp [Body.typeAndData, CheckData.toJson, hconfig]
  | _ =>
    rw [List.mem_singleton.mp hmsg]
    simp [Body.typeAndData]

end ClusterState

end PiWatch
