import PiWatch.Framework.ListWatch
import PiWatch.Backend.State

/-!
# The Kubernetes watch loops

Each kind has its own loop: list, apply every listed object as if it had just been added,
then apply the events of a watch. `apply` decides between storing and removing an object.
-/

namespace PiWatch

open ClusterState

namespace ObjectKind

/-- The collection the objects of a kind are stored in. -/
def collection (s : ClusterState) : (k : ObjectKind) → Dict String k.Slim
  | nodes => s.nodes
  | pods => s.pods
  | deployments => s.deployments
  | statefulsets => s.statefulsets
  | daemonsets => s.daemonsets
  | services => s.services
  | hpas => s.hpas
  | networkpolicies => s.networkPolicies
  | secrets => s.secrets
  | configmaps => s.configmaps
  | persistentvolumes => s.orphanedPvs

end ObjectKind

namespace K8sWatch

def noisySecretTypes : List String :=
  ["kubernetes.io/service-account-token", "helm.sh/release.v1"]

def noisyConfigmapNames : List String := ["kube-root-ca.crt"]

/-- `_apply`, for the kinds stored under a key. -/
def apply (s : ClusterState) : (k : ObjectKind) → EvType → k.Slim → Time → Published
  | .nodes, ev, obj, t =>
    if ev = .deleted then s.removeNode obj.name t else s.upsertNode obj.name obj t
  | .pods, ev, obj, t =>
    if ev = .deleted then s.removePod obj.key t else s.upsertPod obj.key obj t
  | .deployments, ev, obj, t =>
    if ev = .deleted then s.removeDeployment obj.key t else s.upsertDeployment obj.key obj t
  | .statefulsets, ev, obj, t =>
    if ev = .deleted then s.removeStatefulset obj.key t else s.upsertStatefulset obj.key obj t
  | .daemonsets, ev, obj, t =>
    if ev = .deleted then s.removeDaemonset obj.key t else s.upsertDaemonset obj.key obj t
  | .services, ev, obj, t =>
    if ev = .deleted ∨ obj.type ≠ some "LoadBalancer" then s.removeService obj.key t
    else s.upsertService obj.key obj t
  | .hpas, ev, obj, t =>
    if ev = .deleted then s.removeHpa obj.key t else s.upsertHpa obj.key obj t
  | .networkpolicies, ev, obj, t =>
    if ev = .deleted then s.removeNetworkPolicy obj.key t
    else s.upsertNetworkPolicy obj.key obj t
  | .secrets, ev, obj, t =>
    if ev = .deleted ∨ obj.type ∈ noisySecretTypes.map some then s.removeSecret obj.key t
    else s.upsertSecret obj.key obj t
  | .configmaps, ev, obj, t =>
    if ev = .deleted ∨ obj.name ∈ noisyConfigmapNames then s.removeConfigmap obj.key t
    else s.upsertConfigmap obj.key obj t
  | .persistentvolumes, ev, obj, t =>
    if ev = .deleted ∨ obj.phase ∉ [some "Released", some "Failed"] then
      s.removeOrphanedPv obj.key t
    else s.upsertOrphanedPv obj.key obj t

/-- `_apply`, for events. -/
def applyEvent (s : ClusterState) (ev : EvType) (obj : EventInfo) (t : Time) : Published :=
  if ev = .deleted then (s, []) else s.addEvent obj t

/-- The kind's filter: what is worth surfacing. -/
def surfaced : (k : ObjectKind) → k.Slim → Bool
  | .services, obj => obj.type = some "LoadBalancer"
  | .secrets, obj => obj.type ∉ noisySecretTypes.map some
  | .configmaps, obj => obj.name ∉ noisyConfigmapNames
  | .persistentvolumes, obj => obj.phase ∈ [some "Released", some "Failed"]
  | _, _ => true

/-- One call of `_apply` stores a surfaced object under its key and removes any other. -/
theorem collection_apply (s : ClusterState) (k : ObjectKind) (ev : EvType) (obj : k.Slim)
    (t : Time) :
    k.collection (apply s k ev obj t).1 =
      if ev = .deleted ∨ ¬ surfaced k obj then (k.collection s).erase (k.objKey obj)
      else (k.collection s).insert (k.objKey obj) obj := by
  cases k <;>
    simp only [apply, surfaced, decide_eq_true_eq, not_true, or_false, not_not, ne_eq] <;>
    split_ifs <;> rfl

/-- The stamp of a call reaches its message only. -/
theorem apply_fst_stamp (s : ClusterState) (k : ObjectKind) (ev : EvType) (obj : k.Slim)
    (t t' : Time) : (apply s k ev obj t).1 = (apply s k ev obj t').1 := by
  cases k <;> simp only [apply] <;> split_ifs <;> rfl

end K8sWatch

/-- The kind whose collection a call writes. -/
def Op.kind : Op → Option ObjectKind
  | .upsertNode .. | .removeNode .. => some .nodes
  | .upsertPod .. | .removePod .. => some .pods
  | .upsertDeployment .. | .removeDeployment .. => some .deployments
  | .upsertStatefulset .. | .removeStatefulset .. => some .statefulsets
  | .upsertDaemonset .. | .removeDaemonset .. => some .daemonsets
  | .upsertService .. | .removeService .. => some .services
  | .upsertHpa .. | .removeHpa .. => some .hpas
  | .upsertNetworkPolicy .. | .removeNetworkPolicy .. => some .networkpolicies
  | .upsertSecret .. | .removeSecret .. => some .secrets
  | .upsertConfigmap .. | .removeConfigmap .. => some .configmaps
  | .upsertOrphanedPv .. | .removeOrphanedPv .. => some .persistentvolumes
  | _ => none

/-- Each collection is written by its own kind's calls only. -/
theorem collection_step_of_kind_ne {s : ClusterState} {op : Op} {k : ObjectKind}
    (h : op.kind ≠ some k) : k.collection (s.step op) = k.collection s := by
  cases op <;> cases k <;> first
    | rfl
    | exact absurd rfl h

namespace K8sWatch

/-! ## Sessions of one loop -/

/-- The API server's identity of an object, as the text it is stored under. -/
def watchKey (k : ObjectKind) (r : k.Raw) : String := identityKey (k.identity r)

theorem watchKey_eq_iff {k : ObjectKind} {r r' : k.Raw} :
    watchKey k r = watchKey k r' ↔ k.identity r = k.identity r' :=
  ⟨fun h => identityKey_inj (identity_scope k r r') h, congrArg identityKey⟩

/-- What the state shows of an object: its slim form, if it passes the filter. -/
def shown (k : ObjectKind) (r : k.Raw) : Option k.Slim :=
  if surfaced k (k.mapper r) then some (k.mapper r) else none

theorem shown_eq_some_iff {k : ObjectKind} {r : k.Raw} {obj : k.Slim} :
    shown k r = some obj ↔ surfaced k (k.mapper r) ∧ obj = k.mapper r := by
  unfold shown
  by_cases hs : surfaced k (k.mapper r) <;> simp [hs, eq_comm]

/-- The state as the store of one kind's loop, next to the calls that write other kinds. -/
def follower (k : ObjectKind) :
    Follower (watchKey k) ClusterState {op : Op // op.kind ≠ some k} k.Slim where
  apply s ev r := (apply s k ev (k.mapper r) 0).1
  other s op := s.step op.1
  view s key := (k.collection s).get? key
  shown := shown k
  view_apply := by
    intro s ev r key
    rw [collection_apply, objKey_mapper]
    by_cases hev : ev = .deleted <;> by_cases hs : surfaced k (k.mapper r) <;>
      simp [hev, hs, shown, watchKey, Dict.get?_erase, Dict.get?_insert]
  view_other := by
    intro s op key
    rw [collection_step_of_kind_ne op.2]

/-- Before the loop's first list: any cluster, and a fresh state with its reloaded history. -/
def start (k : ObjectKind) (src : Source (watchKey k)) (t : Time)
    (hist : Dict String (Ring historyLen Obj)) : Session (watchKey k) ClusterState where
  source := src
  phase := .idle
  pending := []
  seen := ∅
  store := { ClusterState.init t with nodeHistory := hist }

/-- The collection holds exactly the mapped, surfaced items. -/
def HoldsExactly (k : ObjectKind) (s : ClusterState) (items : List k.Raw) : Prop :=
  ∀ key obj, (k.collection s).get? key = some obj ↔
    ∃ r ∈ items, surfaced k (k.mapper r) ∧ key = k.objKey (k.mapper r) ∧ obj = k.mapper r

theorem holdsExactly_iff {k : ObjectKind} {s : ClusterState} {src : Source (watchKey k)} :
    HoldsExactly k s src.items ↔ (follower k).Mirrors s src := by
  refine forall_congr' fun key => ?_
  have hlisted : ∀ obj, (∃ r ∈ src.items, surfaced k (k.mapper r) ∧
      key = k.objKey (k.mapper r) ∧ obj = k.mapper r) ↔
      (src.objects.get? key).bind (follower k).shown = some obj := by
    intro obj
    rw [Option.bind_eq_some_iff]
    constructor
    · intro hitem
      obtain ⟨r, hr, hs, hkey, hobj⟩ := hitem
      rw [objKey_mapper] at hkey
      exact ⟨r, hkey ▸ Source.mem_items.mp hr, shown_eq_some_iff.mpr ⟨hs, hobj⟩⟩
    · intro hobject
      obtain ⟨r, hr, hshown⟩ := hobject
      obtain ⟨hs, hobj⟩ := shown_eq_some_iff.mp hshown
      obtain rfl := src.named key r hr
      exact ⟨r, Source.mem_items.mpr hr, hs, (objKey_mapper k r).symm, hobj⟩
  rw [forall_congr' fun obj => iff_congr Iff.rfl (hlisted obj)]
  constructor
  · intro h
    exact Option.ext fun obj => h obj
  · intro h obj
    exact Iff.of_eq (congrArg (· = some obj) h)

/-- Every list is mirrored exactly when no surfaced object the loop was told of is missing
from it: what disappears between a watch and the next list stays in the collection. -/
theorem watchLoop_mirrors_iff (k : ObjectKind) (src : Source (watchKey k)) (t : Time)
    (hist : Dict String (Ring historyLen Obj))
    (as : List (ListWatchAction String k.Raw {op : Op // op.kind ≠ some k})) :
    AlongRun (follower k).step
      (fun sys a => ∀ listed, a = .seed → sys.phase = .listed listed →
        HoldsExactly k ((follower k).step sys a).store listed.items) (start k src t hist) as ↔
    AlongRun (follower k).step (follower k).NothingMissed (start k src t hist) as := by
  have hstart : (follower k).ShowsSeen (start k src t hist) := by
    intro key
    cases k <;> rfl
  rw [← Follower.mirrorsAfterSeed_run_iff hstart]
  simp only [holdsExactly_iff]
  rfl

private def rpi1 : V1Node where
  metadata := ⟨⟨"rpi-1", by decide⟩, none⟩
  labels := none
  unschedulable := none
  taints := none
  conditions := none
  addresses := none
  nodeInfo := none
  capacity := none

/-- A node deleted while no watch was open stays in the collection. -/
theorem watchLoop_keeps_deleted :
    ¬ ∀ (k : ObjectKind) (src : Source (watchKey k)) (t : Time)
      (hist : Dict String (Ring historyLen Obj))
      (as : List (ListWatchAction String k.Raw {op : Op // op.kind ≠ some k})),
      AlongRun (follower k).step
        (fun sys a => ∀ listed, a = .seed → sys.phase = .listed listed →
          HoldsExactly k ((follower k).step sys a).store listed.items) (start k src t hist) as := by
  intro h
  have hrun := h .nodes ⟨∅, by simp⟩ 0 ∅
    [.put rpi1, .list, .seed, .stop, .delete "rpi-1", .list, .seed]
  obtain ⟨-, -, -, -, -, -, hseed, -⟩ := hrun
  have hexact := hseed ⟨∅, by simp⟩ rfl rfl
  obtain ⟨r, hr, -⟩ := (hexact "rpi-1" (mapNode rpi1)).mp rfl
  simp [Source.items, Dict.values] at hr

end K8sWatch

end PiWatch
