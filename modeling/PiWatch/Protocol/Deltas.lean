import PiWatch.Backend.Samples
import PiWatch.Frontend.Store

/-!
# Snapshot plus deltas

A browser takes one snapshot and applies every later delta. `Tracks` relates its copy to
the server's state; every mutation keeps it unless the reducer reads a name that every
object inherits.
-/

namespace PiWatch

open ClusterState Store

-- Nor is the browser's side of a ring unfolded when two states are compared.
attribute [local irreducible] List.rtake

/-- Two history points agree on every chartable field. -/
def SamePoint (p q : Obj) : Prop := ∀ f ∈ nodeHistoryFields, p.field f = q.field f

theorem SamePoint.refl (p : Obj) : SamePoint p p := fun _ _ => rfl

def Snapshot.chart (b : Snapshot) (node : String) : List Obj := (b.nodeHistory.get? node).getD []

theorem chart_snapshot (s : ClusterState) (node : String) :
    s.snapshot.chart node = s.chart node := by
  simp only [Snapshot.chart, snapshot, Dict.get?_mapValues, ClusterState.chart]
  cases s.nodeHistory.get? node <;> rfl

/-- The browser's collections are those of the snapshot, as finite maps. -/
structure Snapshot.Agrees (b s : Snapshot) : Prop where
  nodes : b.nodes.SameMap s.nodes
  pods : b.pods.SameMap s.pods
  deployments : b.deployments.SameMap s.deployments
  statefulsets : b.statefulsets.SameMap s.statefulsets
  daemonsets : b.daemonsets.SameMap s.daemonsets
  services : b.services.SameMap s.services
  hpas : b.hpas.SameMap s.hpas
  networkPolicies : b.networkPolicies.SameMap s.networkPolicies
  secrets : b.secrets.SameMap s.secrets
  configmaps : b.configmaps.SameMap s.configmaps
  orphanedPvs : b.orphanedPvs.SameMap s.orphanedPvs
  events : b.events = s.events
  fluxKustomizations : b.fluxKustomizations.SameMap s.fluxKustomizations
  fluxGitRepositories : b.fluxGitRepositories.SameMap s.fluxGitRepositories
  fluxImagePolicies : b.fluxImagePolicies.SameMap s.fluxImagePolicies
  fluxImageAutomations : b.fluxImageAutomations.SameMap s.fluxImageAutomations
  pvcs : b.pvcs.SameMap s.pvcs
  gateways : b.gateways.SameMap s.gateways
  httpRoutes : b.httpRoutes.SameMap s.httpRoutes
  rateLimitPolicies : b.rateLimitPolicies.SameMap s.rateLimitPolicies
  podMetrics : ∀ key, Option.Rel (Obj.AgreeExcept "key") (b.podMetrics.get? key)
    (s.podMetrics.get? key)
  healthchecks : b.healthchecks.SameMap s.healthchecks

/-- The browser's latest node metrics and live charts are the snapshot's. -/
structure Snapshot.AgreesOnNodes (b s : Snapshot) : Prop where
  nodeMetrics : ∀ node, Option.Rel (Obj.AgreeExcept "node") (b.nodeMetrics.get? node)
    (s.nodeMetrics.get? node)
  nodeHistory : ∀ node, List.Forall₂ SamePoint (b.chart node) (s.chart node)

/-- The relation every delta keeps. -/
structure Tracks (b : Snapshot) (s : ClusterState) : Prop
  extends b.Agrees s.snapshot, b.AgreesOnNodes s.snapshot

theorem Obj.AgreeExcept.refl (f : String) (d : Obj) : Obj.AgreeExcept f d d := fun _ _ => rfl

theorem option_rel_refl {α : Type} {R : α → α → Prop} (h : ∀ a, R a a) (o : Option α) :
    Option.Rel R o o := by
  cases o with
  | none => exact .none
  | some a => exact .some (h a)

theorem tracks_snapshot (s : ClusterState) : Tracks s.snapshot s := by
  constructor
  · constructor <;> first
      | exact Dict.SameMap.refl _
      | rfl
      | exact fun key => option_rel_refl (Obj.AgreeExcept.refl "key") _
  · exact ⟨fun node => option_rel_refl (Obj.AgreeExcept.refl "node") _,
      fun node => List.forall₂_same.mpr fun p _ => SamePoint.refl p⟩

/-! ## One call -/

/-- The call makes the reducer read no inherited property: checks and node samples are the
only messages whose name is read back. `snap` is the snapshot the browser started from. -/
def Op.ReadsOwnNames (snap : Snapshot) (s : ClusterState) : Op → Prop
  | .recordNodeSample node _ _ _ => ReadsOwn snap.nodeHistory node
  | .recordHardware node _ _ _ _ => ReadsOwn snap.nodeHistory node
  | .recordCheck name _ _ _ _ _ _ => ReadsOwn s.healthchecks name
  | _ => True

private theorem tracks_removePod {b : Snapshot} {s : ClusterState} (h : Tracks b s)
    (key : String) (t : Time) :
    Tracks { b with pods := b.pods.erase key, podMetrics := b.podMetrics.erase key }
      (s.removePod key t).1 := by
  refine { h with pods := h.pods.erase _, podMetrics := fun k => ?_ }
  have hpods := h.podMetrics k
  simp only [removePod, snapshot, Dict.get?_erase] at hpods ⊢
  split
  · exact .none
  · exact hpods

private theorem tracks_recordPodSample {b : Snapshot} {s : ClusterState} (h : Tracks b s)
    (key : String) (sample : Obj) (tr t : Time) :
    Tracks { b with podMetrics :=
        b.podMetrics.insert key (labelled "key" key (sample.insert "t" (.ofRat tr))) }
      (s.recordPodSample key sample tr t).1 := by
  refine { h with podMetrics := fun k => ?_ }
  have hpods := h.podMetrics k
  simp only [recordPodSample, snapshot, Dict.get?_insert] at hpods ⊢
  split
  · exact .some fun g hg => get?_labelled_of_ne hg
  · exact hpods

private theorem healthchecks_removeCheck {b : Snapshot} {s : ClusterState} (h : Tracks b s)
    (name : String) (t : Time) :
    (b.healthchecks.erase name).SameMap (s.removeCheck name t).1.snapshot.healthchecks := by
  intro k
  have hchecks := h.healthchecks k
  simp only [removeCheck, snapshot, Dict.get?_mapValues, Dict.get?_erase] at hchecks ⊢
  split <;> simp [hchecks]

private theorem tracks_removeCheck {b : Snapshot} {s : ClusterState} (h : Tracks b s)
    (name : String) (t : Time) :
    ∃ b', applyDeltas b (s.removeCheck name t).2 = some b' ∧
      Tracks b' (s.removeCheck name t).1 ∧ b'.nodeHistory = b.nodeHistory := by
  have hchecks := healthchecks_removeCheck h name t
  by_cases hmem : name ∈ s.healthchecks
  · refine ⟨{ b with healthchecks := b.healthchecks.erase name }, ?_,
      { h with healthchecks := hchecks }, rfl⟩
    simp [removeCheck, hmem, applyDelta]
  · -- a check that is not there is not announced: the browser keeps what it has
    have hnone : b.healthchecks.get? name = none := by
      rw [h.healthchecks name]
      simp [snapshot, Dict.get?_mapValues, Dict.get?_eq_none_iff.mpr hmem]
    refine ⟨b, by simp [removeCheck, hmem, applyDeltas], { h with healthchecks := ?_ }, rfl⟩
    intro k
    rw [← hchecks k, Dict.get?_erase]
    split
    · rename_i hname
      rw [hname, hnone]
    · rfl

private theorem tracks_upsert_remove {b : Snapshot} {s : ClusterState} (h : Tracks b s) {op : Op}
    (hk : op.WellKeyed) (hsample : op.sampledNode = none)
    (hcheck : ∀ name config ok ms detail tr t, op ≠ .recordCheck name config ok ms detail tr t) :
    ∃ b', applyDeltas b (s.exec op).2 = some b' ∧ Tracks b' (s.step op) ∧
      b'.nodeHistory = b.nodeHistory := by
  cases op with
  | upsertNode name obj t =>
    obtain rfl : name = obj.name := hk
    refine ⟨_, rfl, { h with nodes := h.nodes.insert _ _, nodeHistory := fun node => ?_ }, rfl⟩
    have hchart := h.nodeHistory node
    rw [chart_snapshot] at hchart ⊢
    rwa [step, exec, chart_upsertNode]
  | removeNode name t => exact ⟨_, rfl, { h with nodes := h.nodes.erase _ }, rfl⟩
  | upsertPod key obj t =>
    obtain rfl : key = obj.key := hk
    exact ⟨_, rfl, { h with pods := h.pods.insert _ _ }, rfl⟩
  | removePod key t => exact ⟨_, rfl, tracks_removePod h key t, rfl⟩
  | upsertDeployment key obj t =>
    obtain rfl : key = obj.key := hk
    exact ⟨_, rfl, { h with deployments := h.deployments.insert _ _ }, rfl⟩
  | removeDeployment key t =>
    exact ⟨_, rfl, { h with deployments := h.deployments.erase _ }, rfl⟩
  | upsertStatefulset key obj t =>
    obtain rfl : key = obj.key := hk
    exact ⟨_, rfl, { h with statefulsets := h.statefulsets.insert _ _ }, rfl⟩
  | removeStatefulset key t =>
    exact ⟨_, rfl, { h with statefulsets := h.statefulsets.erase _ }, rfl⟩
  | upsertDaemonset key obj t =>
    obtain rfl : key = obj.key := hk
    exact ⟨_, rfl, { h with daemonsets := h.daemonsets.insert _ _ }, rfl⟩
  | removeDaemonset key t =>
    exact ⟨_, rfl, { h with daemonsets := h.daemonsets.erase _ }, rfl⟩
  | upsertService key obj t =>
    obtain rfl : key = obj.key := hk
    exact ⟨_, rfl, { h with services := h.services.insert _ _ }, rfl⟩
  | removeService key t =>
    exact ⟨_, rfl, { h with services := h.services.erase _ }, rfl⟩
  | upsertHpa key obj t =>
    obtain rfl : key = obj.key := hk
    exact ⟨_, rfl, { h with hpas := h.hpas.insert _ _ }, rfl⟩
  | removeHpa key t => exact ⟨_, rfl, { h with hpas := h.hpas.erase _ }, rfl⟩
  | upsertNetworkPolicy key obj t =>
    obtain rfl : key = obj.key := hk
    exact ⟨_, rfl, { h with networkPolicies := h.networkPolicies.insert _ _ }, rfl⟩
  | removeNetworkPolicy key t =>
    exact ⟨_, rfl, { h with networkPolicies := h.networkPolicies.erase _ }, rfl⟩
  | upsertSecret key obj t =>
    obtain rfl : key = obj.key := hk
    exact ⟨_, rfl, { h with secrets := h.secrets.insert _ _ }, rfl⟩
  | removeSecret key t =>
    exact ⟨_, rfl, { h with secrets := h.secrets.erase _ }, rfl⟩
  | upsertConfigmap key obj t =>
    obtain rfl : key = obj.key := hk
    exact ⟨_, rfl, { h with configmaps := h.configmaps.insert _ _ }, rfl⟩
  | removeConfigmap key t =>
    exact ⟨_, rfl, { h with configmaps := h.configmaps.erase _ }, rfl⟩
  | upsertOrphanedPv key obj t =>
    obtain rfl : key = obj.key := hk
    exact ⟨_, rfl, { h with orphanedPvs := h.orphanedPvs.insert _ _ }, rfl⟩
  | removeOrphanedPv key t =>
    exact ⟨_, rfl, { h with orphanedPvs := h.orphanedPvs.erase _ }, rfl⟩
  | addEvent obj t =>
    refine ⟨_, rfl, { h with events := ?_ }, rfl⟩
    rw [h.events]
    exact (Ring.items_push_succ (n := 199) s.events obj).symm
  | recordPodSample key sample tr t =>
    have hstored : "key" ∉ sample.insert "t" (.ofRat tr) := by
      intro hmem
      rcases Dict.mem_insert.mp hmem with heq | hsample
      · simp at heq
      · exact hk hsample
    refine ⟨_, ?_, tracks_recordPodSample h key sample tr t, rfl⟩
    simp only [exec, recordPodSample, applyDeltas_singleton, applyDelta, text_labelled hstored]
  | setFluxKustomizations items t =>
    exact ⟨_, rfl, { h with fluxKustomizations := .refl _ }, rfl⟩
  | setFluxGitRepositories items t =>
    exact ⟨_, rfl, { h with fluxGitRepositories := .refl _ }, rfl⟩
  | setFluxImagePolicies items t =>
    exact ⟨_, rfl, { h with fluxImagePolicies := .refl _ }, rfl⟩
  | setFluxImageAutomations items t =>
    exact ⟨_, rfl, { h with fluxImageAutomations := .refl _ }, rfl⟩
  | setPvcs items t => exact ⟨_, rfl, { h with pvcs := .refl _ }, rfl⟩
  | setGateways items t => exact ⟨_, rfl, { h with gateways := .refl _ }, rfl⟩
  | setHttpRoutes items t => exact ⟨_, rfl, { h with httpRoutes := .refl _ }, rfl⟩
  | setRateLimitPolicies items t =>
    exact ⟨_, rfl, { h with rateLimitPolicies := .refl _ }, rfl⟩
  | removeCheck name t => exact tracks_removeCheck h name t
  | recordNodeSample => simp [Op.sampledNode] at hsample
  | recordHardware => simp [Op.sampledNode] at hsample
  | recordCheck name config ok ms detail tr t =>
    exact absurd rfl (hcheck name config ok ms detail tr t)

/-! ## Healthcheck results -/

private theorem mem_healthchecks {b : Snapshot} {s : ClusterState} (h : Tracks b s)
    {name : String} : name ∈ b.healthchecks ↔ name ∈ s.healthchecks := by
  rw [h.healthchecks.mem_iff, Dict.mem_def, Dict.mem_def]
  simp [snapshot, Dict.get?_mapValues]

private theorem items_pushCheck (r : Ring checkHistoryLen CheckResult) (x : CheckResult) :
    (r.push x).items = r.items.rtake 499 ++ [x] :=
  Ring.items_push_succ (n := 499) r x

/-- The entry a check result leaves behind. -/
private theorem get?_recordCheck (s : ClusterState) (name : String) (config : Obj) (ok : Bool)
    (ms : Option ℚ) (detail : String) (tr t : Time) :
    ∃ uptime, (s.recordCheck name config ok ms detail tr t).2 =
        [⟨t, .healthcheck ⟨name, some config, some tr, ok, ms, detail, some uptime⟩⟩] ∧
      (s.recordCheck name config ok ms detail tr t).1 = { s with
        healthchecks := s.healthchecks.insert name
          ⟨config, some ⟨tr, ok, ms, detail⟩, some uptime,
            (((s.healthchecks.get? name).getD ⟨config, none, none, ∅⟩).history).push
              ⟨tr, ok, ms, detail⟩⟩ } :=
  ⟨_, rfl, rfl⟩

private theorem tracks_recordCheck {b : Snapshot} {s : ClusterState} (h : Tracks b s)
    {name : String} {config : Obj} {ok : Bool} {ms : Option ℚ} {detail : String} {tr t : Time}
    (hread : ReadsOwn s.healthchecks name) :
    ∃ b', applyDeltas b (s.recordCheck name config ok ms detail tr t).2 = some b' ∧
      Tracks b' (s.recordCheck name config ok ms detail tr t).1 ∧
      b'.nodeHistory = b.nodeHistory := by
  obtain ⟨uptime, hmsg, hstate⟩ := get?_recordCheck s name config ok ms detail tr t
  have hown : ReadsOwn b.healthchecks name := fun hp => (mem_healthchecks h).mpr (hread hp)
  have hold : b.healthchecks.get? name =
      (s.healthchecks.get? name).map CheckEntry.toSnapshot := by
    rw [h.healthchecks name]
    exact Dict.get?_mapValues _ _ _
  have hentry := liveEntry_of_readsOwn
    (d := ⟨name, some config, some tr, ok, ms, detail, some uptime⟩) hown
  rw [hmsg, hstate, applyDeltas_singleton]
  simp only [applyDelta, applyHealthcheck, hentry, Option.map_some, Option.some.injEq,
    exists_eq_left']
  refine ⟨{ h with healthchecks := fun k => ?_ }, trivial⟩
  have hchecks := h.healthchecks k
  simp only [snapshot, Dict.get?_mapValues, Dict.get?_insert] at hchecks ⊢
  split
  · rw [Option.map_some, hold]
    cases s.healthchecks.get? name <;>
      simp [CheckEntry.toSnapshot, items_pushCheck]
  · exact hchecks

/-! ## Node samples -/

/-- The point the reducer rebuilds is the one the server stored, field for field. -/
theorem samePoint_livePoint (t : Time) (node : String) (merged : Obj) :
    SamePoint (livePoint t (labelled "node" node merged)) (historyPoint merged) := by
  intro f hf
  rw [field_livePoint t _ hf, field_labelled (ne_of_mem_nodeHistoryFields hf).2,
    field_historyPoint merged (List.mem_cons_of_mem _ hf)]

theorem spreadAt_agree {f : String} {o o' : Dict String Obj} {k : String}
    (h : Option.Rel (Obj.AgreeExcept f) (o.get? k) (o'.get? k)) :
    Obj.AgreeExcept f (spreadAt o k) ((o'.get? k).getD ∅) := by
  rw [spreadAt_eq]
  cases ho : o.get? k with
  | none =>
    cases ho' : o'.get? k with
    | none => exact Obj.AgreeExcept.refl f _
    | some m =>
      rw [ho, ho'] at h
      cases h
  | some m =>
    cases ho' : o'.get? k with
    | none =>
      rw [ho, ho'] at h
      cases h
    | some m' =>
      rw [ho, ho'] at h
      cases h with
      | some hm => exact hm

private theorem agree_merged {b : Snapshot} {s : ClusterState} (h : Tracks b s) (node : String)
    (sample : Obj) (tr : Time) :
    Obj.AgreeExcept "node"
      ((spreadAt b.nodeMetrics node).merge (labelled "node" node (s.mergedSample node sample tr)))
      (s.mergedSample node sample tr) := by
  intro g hg
  rw [Dict.get?_merge, get?_labelled_of_ne hg, spreadAt_agree (h.nodeMetrics node) g hg]
  cases hmerged : (s.mergedSample node sample tr).get? g with
  | some v => rfl
  | none =>
    -- the fields of the sample before it are all in the merged one
    rw [get?_mergedSample] at hmerged
    split at hmerged
    · simp at hmerged
    · exact (Option.or_eq_none_iff.mp hmerged).2

/-- The browser after the delta of one sample. -/
def Snapshot.sampled (b : Snapshot) (node : String) (merged : Obj) (t : Time) : Snapshot :=
  let d := labelled "node" node merged
  { b with
    nodeMetrics := b.nodeMetrics.insert node ((spreadAt b.nodeMetrics node).merge d)
    hardware := b.hardware.insert node ((spreadAt b.hardware node).merge d)
    nodeHistory := b.nodeHistory.insert node ((b.chart node).rtake 1079 ++ [livePoint t d]) }

theorem applyDeltas_recordNodeSample {b : Snapshot} {s : ClusterState} (hclean : s.CleanMetrics)
    {node : String} {sample : Obj} {tr t : Time} (hsample : "node" ∉ sample)
    (hread : ReadsOwn b.nodeHistory node) :
    applyDeltas b (s.recordNodeSample node sample tr t).2 =
      some (b.sampled node (s.mergedSample node sample tr) t) := by
  have hnode : (labelled "node" node (s.mergedSample node sample tr)).text "node" = node :=
    text_labelled (mergedSample_clean hclean hsample)
  simp only [recordNodeSample, applyDeltas_singleton, applyDelta, applyNodeMetrics, hnode,
    liveHistory_of_readsOwn hread, Option.map_some]
  rfl

theorem chart_sampled (b : Snapshot) (node n : String) (merged : Obj) (t : Time) :
    (b.sampled node merged t).chart n =
      if n = node then (b.chart node).rtake 1079 ++ [livePoint t (labelled "node" node merged)]
      else b.chart n := by
  simp only [Snapshot.sampled, Snapshot.chart, Dict.get?_insert]
  split <;> rfl

private theorem tracks_sampled {b : Snapshot} {s : ClusterState} (h : Tracks b s)
    (node : String) (sample : Obj) (tr t : Time) :
    Tracks (b.sampled node (s.mergedSample node sample tr) t)
      (s.recordNodeSample node sample tr t).1 := by
  refine { h with nodeMetrics := fun n => ?_, nodeHistory := fun n => ?_ }
  · have hmetrics := h.nodeMetrics n
    simp only [Snapshot.sampled, recordNodeSample, snapshot, Dict.get?_insert] at hmetrics ⊢
    split
    · exact .some (agree_merged h node sample tr)
    · exact hmetrics
  · rw [chart_snapshot, chart_sampled, chart_recordNodeSample]
    split
    · have hchart := h.nodeHistory node
      rw [chart_snapshot] at hchart
      exact List.rel_append (forall₂_rtake hchart 1079)
        (.cons (samePoint_livePoint t node _) .nil)
    · exact chart_snapshot s n ▸ h.nodeHistory n

/-! ## Whole runs -/

/-- What the browser holds of the names every object inherits: the series it started with. -/
def SameInherited (b snap : Snapshot) : Prop :=
  ∀ n ∈ objectPrototype, (n ∈ b.nodeHistory ↔ n ∈ snap.nodeHistory)

theorem readsOwn_iff {b snap : Snapshot} (h : SameInherited b snap) (node : String) :
    ReadsOwn b.nodeHistory node ↔ ReadsOwn snap.nodeHistory node :=
  forall_congr' fun hp => h node hp

private theorem sameInherited_sampled {b snap : Snapshot} (hown : SameInherited b snap)
    {node : String} (hread : ReadsOwn snap.nodeHistory node) (merged : Obj) (t : Time) :
    SameInherited (b.sampled node merged t) snap := by
  intro n hn
  rw [Snapshot.sampled, Dict.mem_insert, hown n hn]
  constructor
  · intro hmem
    rcases hmem with rfl | hold
    · exact hread hn
    · exact hold
  · exact Or.inr

/-- A hardware call is a node sample of a state that differs in `hardware` only. -/
private theorem tracks_hardware {b : Snapshot} {s : ClusterState} (h : Tracks b s)
    (hardware : Dict String Obj) : Tracks b { s with hardware := hardware } :=
  { h with }

/-- One call whose names read safely: the browser follows. -/
private theorem tracks_step {b snap : Snapshot} {s : ClusterState} (h : Tracks b s)
    (hclean : s.CleanMetrics) (hown : SameInherited b snap) {op : Op} (hk : op.WellKeyed)
    (hread : op.ReadsOwnNames snap s) :
    ∃ b', applyDeltas b (s.exec op).2 = some b' ∧ Tracks b' (s.step op) ∧
      SameInherited b' snap := by
  have keep : (∃ b', applyDeltas b (s.exec op).2 = some b' ∧ Tracks b' (s.step op) ∧
      b'.nodeHistory = b.nodeHistory) → ∃ b', applyDeltas b (s.exec op).2 = some b' ∧
        Tracks b' (s.step op) ∧ SameInherited b' snap := by
    intro hstep
    obtain ⟨b', hrun, htrack, hsame⟩ := hstep
    exact ⟨b', hrun, htrack, fun n hn => hsame ▸ hown n hn⟩
  cases op with
  | recordNodeSample node sample tr t =>
    exact ⟨_, applyDeltas_recordNodeSample hclean hk ((readsOwn_iff hown node).mpr hread),
      tracks_sampled h node sample tr t, sameInherited_sampled hown hread _ t⟩
  | recordHardware node data th tr t =>
    exact ⟨_, applyDeltas_recordNodeSample hclean hk ((readsOwn_iff hown node).mpr hread),
      tracks_sampled (tracks_hardware h (s.hardware.insert node (data.insert "t" (.ofRat th))))
        node data tr t,
      sameInherited_sampled hown hread _ t⟩
  | recordCheck name config ok ms detail tr t => exact keep (tracks_recordCheck h hread)
  | _ => exact keep (tracks_upsert_remove h hk rfl (by simp))

private theorem applyNodeMetrics_eq_none {b : Snapshot} {t : Time} {d : Obj} {node : String}
    (hnode : d.text "node" = node) (hread : ¬ ReadsOwn b.nodeHistory node) :
    applyNodeMetrics b t d = none := by
  rw [applyNodeMetrics, hnode, liveHistory_eq_none hread, Option.map_none]

/-- One call that makes the reducer read an inherited property: the reducer throws. -/
private theorem throws_of_tracks {b snap : Snapshot} {s : ClusterState} (h : Tracks b s)
    (hclean : s.CleanMetrics) (hown : SameInherited b snap) {op : Op} (hk : op.WellKeyed)
    (hread : ¬ op.ReadsOwnNames snap s) : applyDeltas b (s.exec op).2 = none := by
  cases op with
  | recordNodeSample node sample tr t =>
    rw [exec, recordNodeSample, applyDeltas_singleton, applyDelta]
    exact applyNodeMetrics_eq_none (text_labelled (mergedSample_clean hclean hk))
      ((readsOwn_iff hown node).not.mpr hread)
  | recordHardware node data th tr t =>
    rw [exec, recordHardware, recordNodeSample, applyDeltas_singleton, applyDelta]
    exact applyNodeMetrics_eq_none (text_labelled (mergedSample_clean hclean hk))
      ((readsOwn_iff hown node).not.mpr hread)
  | recordCheck name config ok ms detail tr t =>
    have hnone : ¬ ReadsOwn b.healthchecks name :=
      fun hb => hread fun hp => (mem_healthchecks h).mp (hb hp)
    rw [exec, recordCheck, applyDeltas_singleton]
    exact congrArg (Option.map _) (liveEntry_eq_none hnone)
  | _ => exact absurd trivial hread

/-- What a browser in step with the server keeps. -/
structure Follows (snap b : Snapshot) (s : ClusterState) : Prop where
  tracks : Tracks b s
  clean : s.CleanMetrics
  inherited : SameInherited b snap

theorem follows_snapshot {s : ClusterState} (hs : s.Reachable) :
    Follows s.snapshot s.snapshot s :=
  ⟨tracks_snapshot s, hs.cleanMetrics, fun _ _ => Iff.rfl⟩

theorem follows_step {snap b : Snapshot} {s : ClusterState} {op : Op}
    (h : Follows snap b s) (hk : op.WellKeyed) (hread : op.ReadsOwnNames snap s) :
    ∃ b', applyDeltas b (s.exec op).2 = some b' ∧ Follows snap b' (s.step op) := by
  obtain ⟨b', hrun, htrack, hown⟩ := tracks_step h.tracks h.clean h.inherited hk hread
  exact ⟨b', hrun, htrack, cleanMetrics_step h.clean hk, hown⟩

theorem throws_step {snap b : Snapshot} {s : ClusterState} {op : Op} (h : Follows snap b s)
    (hk : op.WellKeyed) (hread : ¬ op.ReadsOwnNames snap s) :
    applyDeltas b (s.exec op).2 = none :=
  throws_of_tracks h.tracks h.clean h.inherited hk hread

/-- Either every name reads safely and the browser tracks the server to the end, or the
reducer throws on the way. -/
private theorem applyDeltas_published {s : ClusterState} (hs : s.Reachable) {ops : List Op}
    (hops : ∀ op ∈ ops, op.WellKeyed) :
    (AlongRun step (fun s' op => op.ReadsOwnNames s.snapshot s') s ops ∧
      ∃ b, applyDeltas s.snapshot (s.published ops) = some b ∧ Tracks b (runFrom step s ops)) ∨
    (¬ AlongRun step (fun s' op => op.ReadsOwnNames s.snapshot s') s ops ∧
      applyDeltas s.snapshot (s.published ops) = none) := by
  rcases receive_outputs_cases (W := Op.WellKeyed)
    (fun _ _ _ h hk hread => follows_step h hk hread)
    (fun _ _ _ h hk hread => throws_step h hk hread)
    (follows_snapshot hs) hops with ⟨hq, b, hb, hfollows⟩ | hthrows
  · exact .inl ⟨hq, b, hb, hfollows.tracks⟩
  · exact .inr hthrows

theorem applyDeltas_tracks {s : ClusterState} (hs : s.Reachable) {ops : List Op}
    (hops : ∀ op ∈ ops, op.WellKeyed)
    (hnames : AlongRun step (fun s' op => op.ReadsOwnNames s.snapshot s') s ops) :
    ∃ b, applyDeltas s.snapshot (s.published ops) = some b ∧ Tracks b (runFrom step s ops) := by
  rcases applyDeltas_published hs hops with ⟨-, hb⟩ | ⟨hq, -⟩
  · exact hb
  · exact absurd hnames hq

/-- A browser that took a snapshot and every delta since holds the server's collections
exactly when no delta made the reducer read an inherited property. -/
theorem applyDeltas_agrees_iff (s : ClusterState) (hs : s.Reachable) (ops : List Op)
    (hops : ∀ op ∈ ops, op.WellKeyed) :
    (∃ b, applyDeltas s.snapshot (s.published ops) = some b ∧
      b.Agrees (runFrom step s ops).snapshot ∧ b.events.length ≤ eventsLen) ↔
    AlongRun step (fun s' op => op.ReadsOwnNames s.snapshot s') s ops := by
  rcases applyDeltas_published hs hops with ⟨hq, b, hb, htrack⟩ | ⟨hq, hb⟩
  · exact iff_of_true ⟨b, hb, htrack.toAgrees,
      htrack.events ▸ (runFrom step s ops).events.bounded⟩ hq
  · exact iff_of_false (fun ⟨b', hb', _⟩ => by simp [hb] at hb') hq

theorem applyDeltas_agrees_after_check :
    ∃ b, applyDeltas (ClusterState.init 0).snapshot ((ClusterState.init 0).published
        [.recordNodeSample "rpi-1" ∅ 1 1, .recordCheck "coredns" ∅ true none "2 answers" 2 2,
          .removeCheck "coredns" 3]) = some b ∧
      b.Agrees (runFrom step (ClusterState.init 0)
        [.recordNodeSample "rpi-1" ∅ 1 1, .recordCheck "coredns" ∅ true none "2 answers" 2 2,
          .removeCheck "coredns" 3]).snapshot ∧
      b.events.length ≤ eventsLen :=
  (applyDeltas_agrees_iff (ClusterState.init 0) ⟨0, ∅, [], by simp, rfl⟩ _
    (by simp [Op.WellKeyed])).mpr (by
      simp [Op.ReadsOwnNames, ReadsOwn, objectPrototype])

/-- The first recorded check of a name like "constructor" stops the browser. -/
theorem applyDeltas_disagrees :
    ¬ ∀ s : ClusterState, s.Reachable → ∀ ops : List Op, (∀ op ∈ ops, op.WellKeyed) →
      ∃ b, applyDeltas s.snapshot (s.published ops) = some b ∧
        b.Agrees (runFrom step s ops).snapshot := by
  intro h
  obtain ⟨b, hb, -⟩ := h (ClusterState.init 0) ⟨0, ∅, [], by simp, rfl⟩
    [.recordCheck "constructor" (Dict.ofList [("name", .str "constructor")]) true none
      "HTTP 200" 1 1] (by simp [Op.WellKeyed])
  have hthrows : applyDeltas (ClusterState.init 0).snapshot ((ClusterState.init 0).published
      [.recordCheck "constructor" (Dict.ofList [("name", .str "constructor")]) true none
        "HTTP 200" 1 1]) = none := by decide +kernel
  rw [hthrows] at hb
  cases hb

/-! ## Runs of node samples -/

private theorem readsOwnNames_sampled {snap : Snapshot} {op : Op} (h : op.sampledNode.isSome)
    (s : ClusterState) :
    op.ReadsOwnNames snap s ↔ ∀ node ∈ op.sampledNode, ReadsOwn snap.nodeHistory node := by
  cases op with
  | recordNodeSample node => simp [Op.sampledNode, Op.ReadsOwnNames]
  | recordHardware node => simp [Op.sampledNode, Op.ReadsOwnNames]
  | _ => simp [Op.sampledNode] at h

/-- Over node samples alone, the latest metrics and the live charts agree, exactly when every
sampled node that is named like an inherited property already had a series. -/
theorem applyDeltas_agreesOnNodes_iff (s : ClusterState) (hs : s.Reachable) (ops : List Op)
    (hops : ∀ op ∈ ops, op.WellKeyed ∧ op.sampledNode.isSome) :
    (∃ b, applyDeltas s.snapshot (s.published ops) = some b ∧
      b.AgreesOnNodes (runFrom step s ops).snapshot ∧
      ∀ node, (b.chart node).length ≤ historyLen) ↔
    ∀ op ∈ ops, ∀ node ∈ op.sampledNode, ReadsOwn s.snapshot.nodeHistory node := by
  have hcond : AlongRun step (fun s' op => op.ReadsOwnNames s.snapshot s') s ops ↔
      ∀ op ∈ ops, ∀ node ∈ op.sampledNode, ReadsOwn s.snapshot.nodeHistory node :=
    alongRun_iff_forall_mem fun op hop => readsOwnNames_sampled (hops op hop).2
  rw [← hcond]
  rcases applyDeltas_published hs fun op hop => (hops op hop).1 with
    ⟨hq, b, hb, htrack⟩ | ⟨hq, hb⟩
  · refine iff_of_true ⟨b, hb, htrack.toAgreesOnNodes, fun node => ?_⟩ hq
    rw [(htrack.nodeHistory node).length_eq, chart_snapshot]
    exact Ring.bounded _
  · exact iff_of_false (fun ⟨b', hb', _⟩ => by simp [hb] at hb') hq

/-- A node was sampled before the browser connected. -/
private def sampledBefore : ClusterState :=
  runFrom step (ClusterState.init 0)
    [.recordNodeSample "rpi-1" (Dict.ofList [("cpu_pct", .ofRat 9)]) 1 1]

/-- Two more samples of it, and the first of a node that is new. -/
private def twoNodeSamples : List Op :=
  [.recordNodeSample "rpi-1" (Dict.ofList [("cpu_pct", .ofRat 12)]) 11 11,
    .recordNodeSample "rpi-2" (Dict.ofList [("cpu_pct", .ofRat 30)]) 11 11,
    .recordNodeSample "rpi-1" (Dict.ofList [("cpu_pct", .ofRat 15)]) 21 21]

theorem applyDeltas_agreesOnNodes_one :
    ∃ b, applyDeltas sampledBefore.snapshot (sampledBefore.published twoNodeSamples) = some b ∧
      b.AgreesOnNodes (runFrom step sampledBefore twoNodeSamples).snapshot ∧
      ∀ node, (b.chart node).length ≤ historyLen := by
  have hreach : sampledBefore.Reachable := ⟨0, ∅, _, by simp [Op.WellKeyed, Dict.mem_ofList], rfl⟩
  refine (applyDeltas_agreesOnNodes_iff sampledBefore hreach twoNodeSamples ?_).mpr ?_
  · simp [twoNodeSamples, Op.WellKeyed, Op.sampledNode, Dict.mem_ofList]
  · simp [twoNodeSamples, Op.sampledNode, ReadsOwn, objectPrototype]

/-- The first sample of a node named like an inherited property stops the browser. -/
theorem applyDeltas_disagrees_on_nodes :
    ¬ ∀ s : ClusterState, s.Reachable →
      ∀ ops : List Op, (∀ op ∈ ops, op.WellKeyed ∧ op.sampledNode.isSome) →
        ∃ b, applyDeltas s.snapshot (s.published ops) = some b ∧
          b.AgreesOnNodes (runFrom step s ops).snapshot := by
  intro h
  obtain ⟨b, hb, -⟩ := h (ClusterState.init 0) ⟨0, ∅, [], by simp, rfl⟩
    [.recordNodeSample "constructor" (Dict.ofList [("cpu_pct", .ofRat 12)]) 1 1]
    (by simp [Op.WellKeyed, Op.sampledNode, Dict.mem_ofList])
  have hthrows : applyDeltas (ClusterState.init 0).snapshot ((ClusterState.init 0).published
      [.recordNodeSample "constructor" (Dict.ofList [("cpu_pct", .ofRat 12)]) 1 1]) = none := by
    decide +kernel
  rw [hthrows] at hb
  cases hb

end PiWatch
