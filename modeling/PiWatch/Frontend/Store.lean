import PiWatch.Backend.State

/-!
# The browser's store

`applyDelta` is the reducer the browser runs on every message after the full state. A
TypeError thrown by the reducer ends the page, which `none` stands for.
-/

namespace PiWatch

/-- The property names a plain object inherits from `Object.prototype`. -/
def objectPrototype : List String :=
  ["constructor", "__defineGetter__", "__defineSetter__", "hasOwnProperty",
    "__lookupGetter__", "__lookupSetter__", "isPrototypeOf", "propertyIsEnumerable",
    "toString", "valueOf", "__proto__", "toLocaleString"]

/-- What `o[k]` evaluates to on an object used as a map. -/
inductive JsRead (β : Type)
  | own (v : β)
  | inherited
  | undefined

def jsRead {β : Type} (o : Dict String β) (k : String) : JsRead β :=
  match o.get? k with
  | some v => .own v
  | none => if k ∈ objectPrototype then .inherited else .undefined

/-- `...o[k]`: spreading `undefined`, or a function or object without properties of its own,
adds nothing. -/
def spreadAt (o : Dict String Obj) (k : String) : Obj :=
  match jsRead o k with
  | .own v => v
  | .inherited => ∅
  | .undefined => ∅

namespace Store

def historyLen : ℕ := 1080

/-- The history point rebuilt from a live delta. -/
def livePoint (t : Time) (d : Obj) : Obj :=
  Dict.ofList
    [("t", .ofRat t),
      ("cpu_pct", d.field "cpu_pct"),
      ("mem_pct", d.field "mem_pct"),
      ("temp_c", d.field "temp_c"),
      ("nvme_read_bytes_per_s", d.field "nvme_read_bytes_per_s"),
      ("nvme_write_bytes_per_s", d.field "nvme_write_bytes_per_s"),
      ("sd_read_bytes_per_s", d.field "sd_read_bytes_per_s"),
      ("sd_write_bytes_per_s", d.field "sd_write_bytes_per_s"),
      ("net_rx_bytes_per_s", d.field "net_rx_bytes_per_s"),
      ("net_tx_bytes_per_s", d.field "net_tx_bytes_per_s")]

/-- `snap.node_history[node] ?? []`, of which the reducer then calls `slice`: an inherited
property has no such method. -/
def liveHistory (snap : Snapshot) (node : String) : Option (List Obj) :=
  match jsRead snap.nodeHistory node with
  | .own hist => some hist
  | .inherited => none
  | .undefined => some []

/-- `snap.healthchecks[name] ?? {...}`, of whose `history` the reducer then calls `slice`. -/
def liveEntry (snap : Snapshot) (d : CheckData) : Option SnapshotCheck :=
  match jsRead snap.healthchecks d.name with
  | .own entry => some entry
  | .inherited => none
  | .undefined =>
    some ⟨d.config.getD (Dict.ofList [("name", .str d.name)]), none, none, []⟩

def applyNodeMetrics (snap : Snapshot) (t : Time) (d : Obj) : Option Snapshot :=
  let node := d.text "node"
  (liveHistory snap node).map fun hist =>
    { snap with
      nodeMetrics := snap.nodeMetrics.insert node ((spreadAt snap.nodeMetrics node).merge d)
      hardware := snap.hardware.insert node ((spreadAt snap.hardware node).merge d)
      nodeHistory := snap.nodeHistory.insert node
        (hist.rtake (historyLen - 1) ++ [livePoint t d]) }

def applyHealthcheck (snap : Snapshot) (t : Time) (d : CheckData) : Option Snapshot :=
  (liveEntry snap d).map fun entry =>
    let result : CheckResult := ⟨d.t.getD t, d.ok, d.ms, d.detail⟩
    { snap with
      healthchecks := snap.healthchecks.insert d.name
        ⟨d.config.getD entry.config, some result, d.uptimePct.or entry.uptimePct,
          entry.history.rtake 499 ++ [result]⟩ }

end Store

open Store in
/-- The reducer, one case per message type. -/
def applyDelta (snap : Snapshot) (msg : Msg) : Option Snapshot :=
  match msg.body with
  | .node d => some { snap with nodes := snap.nodes.insert d.name d }
  | .nodeDeleted name => some { snap with nodes := snap.nodes.erase name }
  | .pod d => some { snap with pods := snap.pods.insert d.key d }
  | .podDeleted key =>
    some { snap with pods := snap.pods.erase key, podMetrics := snap.podMetrics.erase key }
  | .podMetrics d => some { snap with podMetrics := snap.podMetrics.insert (d.text "key") d }
  | .deployment d => some { snap with deployments := snap.deployments.insert d.key d }
  | .deploymentDeleted key => some { snap with deployments := snap.deployments.erase key }
  | .statefulset d => some { snap with statefulsets := snap.statefulsets.insert d.key d }
  | .statefulsetDeleted key => some { snap with statefulsets := snap.statefulsets.erase key }
  | .daemonset d => some { snap with daemonsets := snap.daemonsets.insert d.key d }
  | .daemonsetDeleted key => some { snap with daemonsets := snap.daemonsets.erase key }
  | .service d => some { snap with services := snap.services.insert d.key d }
  | .serviceDeleted key => some { snap with services := snap.services.erase key }
  | .hpa d => some { snap with hpas := snap.hpas.insert d.key d }
  | .hpaDeleted key => some { snap with hpas := snap.hpas.erase key }
  | .networkPolicy d =>
    some { snap with networkPolicies := snap.networkPolicies.insert d.key d }
  | .networkPolicyDeleted key =>
    some { snap with networkPolicies := snap.networkPolicies.erase key }
  | .secret d => some { snap with secrets := snap.secrets.insert d.key d }
  | .secretDeleted key => some { snap with secrets := snap.secrets.erase key }
  | .configmap d => some { snap with configmaps := snap.configmaps.insert d.key d }
  | .configmapDeleted key => some { snap with configmaps := snap.configmaps.erase key }
  | .orphanedPv d => some { snap with orphanedPvs := snap.orphanedPvs.insert d.key d }
  | .orphanedPvDeleted key => some { snap with orphanedPvs := snap.orphanedPvs.erase key }
  | .event d => some { snap with events := snap.events.rtake 199 ++ [d] }
  | .nodeMetrics d => applyNodeMetrics snap msg.t d
  | .fluxKustomizations d => some { snap with fluxKustomizations := d }
  | .fluxGitRepositories d => some { snap with fluxGitRepositories := d }
  | .fluxImagePolicies d => some { snap with fluxImagePolicies := d }
  | .fluxImageAutomations d => some { snap with fluxImageAutomations := d }
  | .pvcs d => some { snap with pvcs := d }
  | .gateways d => some { snap with gateways := d }
  | .httpRoutes d => some { snap with httpRoutes := d }
  | .rateLimitPolicies d => some { snap with rateLimitPolicies := d }
  | .healthcheck d => applyHealthcheck snap msg.t d
  | .healthcheckDeleted name =>
    some { snap with healthchecks := snap.healthchecks.erase name }

/-- A browser that takes every message in order; `none` once the page has thrown. -/
def applyDeltas (snap : Snapshot) (msgs : List Msg) : Option Snapshot :=
  receive applyDelta snap msgs

@[simp] theorem applyDeltas_singleton (snap : Snapshot) (msg : Msg) :
    applyDeltas snap [msg] = applyDelta snap msg := receive_singleton snap msg

/-! ## Reading objects -/

theorem spreadAt_eq (o : Dict String Obj) (k : String) :
    spreadAt o k = (o.get? k).getD ∅ := by
  unfold spreadAt jsRead
  cases o.get? k with
  | some v => rfl
  | none => by_cases hk : k ∈ objectPrototype <;> simp [hk]

/-- A name read safely: not inherited, or held as the object's own. -/
def ReadsOwn {β : Type} (o : Dict String β) (k : String) : Prop := k ∈ objectPrototype → k ∈ o

instance {β : Type} (o : Dict String β) (k : String) : Decidable (ReadsOwn o k) :=
  inferInstanceAs (Decidable (k ∈ objectPrototype → k ∈ o))

theorem jsRead_of_readsOwn {β : Type} {o : Dict String β} {k : String} (h : ReadsOwn o k) :
    jsRead o k = match o.get? k with
      | some v => .own v
      | none => .undefined := by
  unfold jsRead
  cases hk : o.get? k with
  | some v => rfl
  | none =>
    have hmem : k ∉ objectPrototype := fun hp => Dict.get?_eq_none_iff.mp hk (h hp)
    simp [hmem]

theorem jsRead_inherited {β : Type} {o : Dict String β} {k : String} (h : ¬ ReadsOwn o k) :
    jsRead o k = .inherited := by
  unfold ReadsOwn at h
  push Not at h
  simp [jsRead, Dict.get?_eq_none_iff.mpr h.2, h.1]

namespace Store

theorem liveHistory_of_readsOwn {snap : Snapshot} {node : String}
    (h : ReadsOwn snap.nodeHistory node) :
    liveHistory snap node = some ((snap.nodeHistory.get? node).getD []) := by
  unfold liveHistory
  rw [jsRead_of_readsOwn h]
  cases snap.nodeHistory.get? node <;> rfl

theorem liveHistory_eq_none {snap : Snapshot} {node : String}
    (h : ¬ ReadsOwn snap.nodeHistory node) : liveHistory snap node = none := by
  simp [liveHistory, jsRead_inherited h]

theorem liveEntry_of_readsOwn {snap : Snapshot} {d : CheckData}
    (h : ReadsOwn snap.healthchecks d.name) :
    liveEntry snap d = some ((snap.healthchecks.get? d.name).getD
      ⟨d.config.getD (Dict.ofList [("name", .str d.name)]), none, none, []⟩) := by
  unfold liveEntry
  rw [jsRead_of_readsOwn h]
  cases snap.healthchecks.get? d.name <;> rfl

theorem liveEntry_eq_none {snap : Snapshot} {d : CheckData}
    (h : ¬ ReadsOwn snap.healthchecks d.name) : liveEntry snap d = none := by
  simp [liveEntry, jsRead_inherited h]

/-- The hand-kept field list of the reducer is the backend's. -/
theorem field_livePoint (t : Time) (d : Obj) {f : String} (hf : f ∈ nodeHistoryFields) :
    (livePoint t d).field f = d.field f := by
  simp only [nodeHistoryFields, List.mem_cons, List.not_mem_nil, or_false] at hf
  rcases hf with rfl | rfl | rfl | rfl | rfl | rfl | rfl | rfl | rfl <;>
    simp [livePoint, Obj.field, Dict.get?_ofList, List.lookup_cons]

end Store

end PiWatch
