import Mathlib.Data.Rat.Floor
import PiWatch.Framework.Ring
import PiWatch.Framework.Replica
import PiWatch.Backend.Mappers
import PiWatch.Backend.PolledObjects

/-!
# The cluster state and its deltas

Every mutation method returns the new state and the messages it publishes, in order.
The clock readings a method makes are arguments: `t` stamps the message, `tr` the record
a method stores before publishing it.
-/

namespace PiWatch

/-- About three hours of history at one sample every ten seconds. -/
def historyLen : ℕ := 1080

def eventsLen : ℕ := 200

def checkHistoryLen : ℕ := 500

/-- The fields captured in every history point. -/
def nodeHistoryFields : List String :=
  ["cpu_pct", "mem_pct", "temp_c",
    "nvme_read_bytes_per_s", "nvme_write_bytes_per_s",
    "sd_read_bytes_per_s", "sd_write_bytes_per_s",
    "net_rx_bytes_per_s", "net_tx_bytes_per_s"]

/-- Round to the nearest integer, ties to even. -/
def roundHalfEven (x : ℚ) : ℤ :=
  let rest := x - ⌊x⌋
  if rest < 1 / 2 then ⌊x⌋
  else if 1 / 2 < rest then ⌊x⌋ + 1
  else if ⌊x⌋ % 2 = 0 then ⌊x⌋
  else ⌊x⌋ + 1

/-- `round(x, digits)`. -/
def pyRound (digits : ℕ) (x : ℚ) : ℚ := roundHalfEven (x * 10 ^ digits) / 10 ^ digits

structure CheckResult where
  t : Time
  ok : Bool
  ms : Option ℚ
  detail : String
  deriving DecidableEq

structure CheckEntry where
  config : Obj
  last : Option CheckResult
  uptimePct : Option ℚ
  history : Ring checkHistoryLen CheckResult
  deriving DecidableEq

/-- The payload of a `healthcheck` message. The reducer tests three of the fields for
absence, so they are optional here. -/
structure CheckData where
  name : String
  config : Option Obj
  t : Option Time
  ok : Bool
  ms : Option ℚ
  detail : String
  uptimePct : Option ℚ
  deriving DecidableEq

/-! ## Messages -/

/-- The message types with their payloads. -/
inductive Body
  | node (d : NodeInfo)
  | nodeDeleted (name : String)
  | pod (d : PodInfo)
  | podDeleted (key : String)
  | deployment (d : DeploymentInfo)
  | deploymentDeleted (key : String)
  | statefulset (d : StatefulSetInfo)
  | statefulsetDeleted (key : String)
  | daemonset (d : DaemonSetInfo)
  | daemonsetDeleted (key : String)
  | service (d : ServiceInfo)
  | serviceDeleted (key : String)
  | hpa (d : HpaInfo)
  | hpaDeleted (key : String)
  | networkPolicy (d : NetworkPolicyInfo)
  | networkPolicyDeleted (key : String)
  | secret (d : SecretInfo)
  | secretDeleted (key : String)
  | configmap (d : ConfigMapInfo)
  | configmapDeleted (key : String)
  | orphanedPv (d : OrphanedPvInfo)
  | orphanedPvDeleted (key : String)
  | event (d : EventInfo)
  | nodeMetrics (d : Obj)
  | podMetrics (d : Obj)
  | fluxKustomizations (d : Dict String FluxKustomization)
  | fluxGitRepositories (d : Dict String FluxGitRepository)
  | fluxImagePolicies (d : Dict String FluxImagePolicy)
  | fluxImageAutomations (d : Dict String FluxImageAutomation)
  | pvcs (d : Dict String PvcInfo)
  | gateways (d : Dict String GatewayInfo)
  | httpRoutes (d : Dict String HttpRouteInfo)
  | rateLimitPolicies (d : Dict String RateLimitPolicyInfo)
  | healthcheck (d : CheckData)
  | healthcheckDeleted (name : String)
  deriving DecidableEq

structure Msg where
  t : Time
  body : Body
  deriving DecidableEq

/-! ## The state -/

structure ClusterState where
  startedAt : Time
  demoMode : Bool
  nodes : Dict String NodeInfo
  pods : Dict String PodInfo
  deployments : Dict String DeploymentInfo
  statefulsets : Dict String StatefulSetInfo
  daemonsets : Dict String DaemonSetInfo
  services : Dict String ServiceInfo
  hpas : Dict String HpaInfo
  networkPolicies : Dict String NetworkPolicyInfo
  orphanedPvs : Dict String OrphanedPvInfo
  secrets : Dict String SecretInfo
  configmaps : Dict String ConfigMapInfo
  events : Ring eventsLen EventInfo
  nodeMetrics : Dict String Obj
  hardware : Dict String Obj
  podMetrics : Dict String Obj
  nodeHistory : Dict String (Ring historyLen Obj)
  healthchecks : Dict String CheckEntry
  fluxKustomizations : Dict String FluxKustomization
  fluxGitRepositories : Dict String FluxGitRepository
  fluxImagePolicies : Dict String FluxImagePolicy
  fluxImageAutomations : Dict String FluxImageAutomation
  pvcs : Dict String PvcInfo
  gateways : Dict String GatewayInfo
  httpRoutes : Dict String HttpRouteInfo
  rateLimitPolicies : Dict String RateLimitPolicyInfo

namespace ClusterState

/-- `ClusterState()`. -/
def init (startedAt : Time) : ClusterState where
  startedAt := startedAt
  demoMode := false
  nodes := ∅
  pods := ∅
  deployments := ∅
  statefulsets := ∅
  daemonsets := ∅
  services := ∅
  hpas := ∅
  networkPolicies := ∅
  orphanedPvs := ∅
  secrets := ∅
  configmaps := ∅
  events := ∅
  nodeMetrics := ∅
  hardware := ∅
  podMetrics := ∅
  nodeHistory := ∅
  healthchecks := ∅
  fluxKustomizations := ∅
  fluxGitRepositories := ∅
  fluxImagePolicies := ∅
  fluxImageAutomations := ∅
  pvcs := ∅
  gateways := ∅
  httpRoutes := ∅
  rateLimitPolicies := ∅

/-- A state with the messages published on the way to it. -/
abbrev Published := ClusterState × List Msg

def upsertNode (s : ClusterState) (name : String) (obj : NodeInfo) (t : Time) : Published :=
  ({ s with
      nodes := s.nodes.insert name obj
      nodeHistory := s.nodeHistory.setDefault name ∅ }, [⟨t, .node obj⟩])

def removeNode (s : ClusterState) (name : String) (t : Time) : Published :=
  ({ s with nodes := s.nodes.erase name }, [⟨t, .nodeDeleted name⟩])

def upsertPod (s : ClusterState) (key : String) (obj : PodInfo) (t : Time) : Published :=
  ({ s with pods := s.pods.insert key obj }, [⟨t, .pod obj⟩])

def removePod (s : ClusterState) (key : String) (t : Time) : Published :=
  ({ s with pods := s.pods.erase key, podMetrics := s.podMetrics.erase key },
    [⟨t, .podDeleted key⟩])

def upsertDeployment (s : ClusterState) (key : String) (obj : DeploymentInfo) (t : Time) :
    Published :=
  ({ s with deployments := s.deployments.insert key obj }, [⟨t, .deployment obj⟩])

def removeDeployment (s : ClusterState) (key : String) (t : Time) : Published :=
  ({ s with deployments := s.deployments.erase key }, [⟨t, .deploymentDeleted key⟩])

def upsertStatefulset (s : ClusterState) (key : String) (obj : StatefulSetInfo) (t : Time) :
    Published :=
  ({ s with statefulsets := s.statefulsets.insert key obj }, [⟨t, .statefulset obj⟩])

def removeStatefulset (s : ClusterState) (key : String) (t : Time) : Published :=
  ({ s with statefulsets := s.statefulsets.erase key }, [⟨t, .statefulsetDeleted key⟩])

def upsertDaemonset (s : ClusterState) (key : String) (obj : DaemonSetInfo) (t : Time) :
    Published :=
  ({ s with daemonsets := s.daemonsets.insert key obj }, [⟨t, .daemonset obj⟩])

def removeDaemonset (s : ClusterState) (key : String) (t : Time) : Published :=
  ({ s with daemonsets := s.daemonsets.erase key }, [⟨t, .daemonsetDeleted key⟩])

def upsertService (s : ClusterState) (key : String) (obj : ServiceInfo) (t : Time) :
    Published :=
  ({ s with services := s.services.insert key obj }, [⟨t, .service obj⟩])

def removeService (s : ClusterState) (key : String) (t : Time) : Published :=
  ({ s with services := s.services.erase key }, [⟨t, .serviceDeleted key⟩])

def upsertHpa (s : ClusterState) (key : String) (obj : HpaInfo) (t : Time) : Published :=
  ({ s with hpas := s.hpas.insert key obj }, [⟨t, .hpa obj⟩])

def removeHpa (s : ClusterState) (key : String) (t : Time) : Published :=
  ({ s with hpas := s.hpas.erase key }, [⟨t, .hpaDeleted key⟩])

def upsertNetworkPolicy (s : ClusterState) (key : String) (obj : NetworkPolicyInfo)
    (t : Time) : Published :=
  ({ s with networkPolicies := s.networkPolicies.insert key obj }, [⟨t, .networkPolicy obj⟩])

def removeNetworkPolicy (s : ClusterState) (key : String) (t : Time) : Published :=
  ({ s with networkPolicies := s.networkPolicies.erase key },
    [⟨t, .networkPolicyDeleted key⟩])

def upsertSecret (s : ClusterState) (key : String) (obj : SecretInfo) (t : Time) :
    Published :=
  ({ s with secrets := s.secrets.insert key obj }, [⟨t, .secret obj⟩])

def removeSecret (s : ClusterState) (key : String) (t : Time) : Published :=
  ({ s with secrets := s.secrets.erase key }, [⟨t, .secretDeleted key⟩])

def upsertConfigmap (s : ClusterState) (key : String) (obj : ConfigMapInfo) (t : Time) :
    Published :=
  ({ s with configmaps := s.configmaps.insert key obj }, [⟨t, .configmap obj⟩])

def removeConfigmap (s : ClusterState) (key : String) (t : Time) : Published :=
  ({ s with configmaps := s.configmaps.erase key }, [⟨t, .configmapDeleted key⟩])

def upsertOrphanedPv (s : ClusterState) (key : String) (obj : OrphanedPvInfo) (t : Time) :
    Published :=
  ({ s with orphanedPvs := s.orphanedPvs.insert key obj }, [⟨t, .orphanedPv obj⟩])

def removeOrphanedPv (s : ClusterState) (key : String) (t : Time) : Published :=
  ({ s with orphanedPvs := s.orphanedPvs.erase key }, [⟨t, .orphanedPvDeleted key⟩])

def addEvent (s : ClusterState) (obj : EventInfo) (t : Time) : Published :=
  ({ s with events := s.events.push obj }, [⟨t, .event obj⟩])

/-- `{**self.node_metrics.get(node, {}), **sample, "t": now()}`. -/
def mergedSample (s : ClusterState) (node : String) (sample : Obj) (tr : Time) : Obj :=
  (((s.nodeMetrics.get? node).getD ∅).merge sample).insert "t" (.ofRat tr)

/-- The history point of a merged sample. -/
def historyPoint (merged : Obj) : Obj :=
  Dict.ofList (("t", merged.field "t") :: nodeHistoryFields.map fun f => (f, merged.field f))

/-- `{field: value, **d}`. -/
def labelled (field value : String) (d : Obj) : Obj :=
  (Dict.ofList [(field, .str value)]).merge d

/-- Merge a metrics or hardware sample into the node time series. -/
def recordNodeSample (s : ClusterState) (node : String) (sample : Obj) (tr t : Time) :
    Published :=
  let merged := s.mergedSample node sample tr
  let hist := ((s.nodeHistory.get? node).getD ∅).push (historyPoint merged)
  ({ s with
      nodeMetrics := s.nodeMetrics.insert node merged
      nodeHistory := s.nodeHistory.insert node hist },
    [⟨t, .nodeMetrics (labelled "node" node merged)⟩])

def recordPodSample (s : ClusterState) (key : String) (sample : Obj) (tr t : Time) :
    Published :=
  let stored := sample.insert "t" (.ofRat tr)
  ({ s with podMetrics := s.podMetrics.insert key stored },
    [⟨t, .podMetrics (labelled "key" key stored)⟩])

/-- `th` stamps the hardware entry, `tr` the sample merged from it. -/
def recordHardware (s : ClusterState) (node : String) (data : Obj) (th tr t : Time) :
    Published :=
  recordNodeSample { s with hardware := s.hardware.insert node (data.insert "t" (.ofRat th)) }
    node data tr t

def setFluxKustomizations (s : ClusterState) (items : Dict String FluxKustomization)
    (t : Time) : Published :=
  ({ s with fluxKustomizations := items }, [⟨t, .fluxKustomizations items⟩])

def setFluxGitRepositories (s : ClusterState) (items : Dict String FluxGitRepository)
    (t : Time) : Published :=
  ({ s with fluxGitRepositories := items }, [⟨t, .fluxGitRepositories items⟩])

def setFluxImagePolicies (s : ClusterState) (items : Dict String FluxImagePolicy)
    (t : Time) : Published :=
  ({ s with fluxImagePolicies := items }, [⟨t, .fluxImagePolicies items⟩])

def setFluxImageAutomations (s : ClusterState) (items : Dict String FluxImageAutomation)
    (t : Time) : Published :=
  ({ s with fluxImageAutomations := items }, [⟨t, .fluxImageAutomations items⟩])

def setPvcs (s : ClusterState) (items : Dict String PvcInfo) (t : Time) : Published :=
  ({ s with pvcs := items }, [⟨t, .pvcs items⟩])

def setGateways (s : ClusterState) (items : Dict String GatewayInfo) (t : Time) : Published :=
  ({ s with gateways := items }, [⟨t, .gateways items⟩])

def setHttpRoutes (s : ClusterState) (items : Dict String HttpRouteInfo) (t : Time) :
    Published :=
  ({ s with httpRoutes := items }, [⟨t, .httpRoutes items⟩])

def setRateLimitPolicies (s : ClusterState) (items : Dict String RateLimitPolicyInfo)
    (t : Time) : Published :=
  ({ s with rateLimitPolicies := items }, [⟨t, .rateLimitPolicies items⟩])

/-- The percentage of ok results in a history, rounded to two decimals. -/
def uptimePct (history : List CheckResult) : ℚ :=
  pyRound 2 (100 * (history.countP (·.ok) : ℚ) / history.length)

def recordCheck (s : ClusterState) (name : String) (config : Obj) (ok : Bool)
    (latencyMs : Option ℚ) (detail : String) (tr t : Time) : Published :=
  let entry := (s.healthchecks.get? name).getD ⟨config, none, none, ∅⟩
  let result : CheckResult := ⟨tr, ok, latencyMs, detail⟩
  let history := entry.history.push result
  let uptime := uptimePct history.items
  ({ s with healthchecks :=
      s.healthchecks.insert name ⟨config, some result, some uptime, history⟩ },
    [⟨t, .healthcheck ⟨name, some config, some tr, ok, latencyMs, detail, some uptime⟩⟩])

/-- Publishes only when there was an entry to remove. -/
def removeCheck (s : ClusterState) (name : String) (t : Time) : Published :=
  ({ s with healthchecks := s.healthchecks.erase name },
    if name ∈ s.healthchecks then [⟨t, .healthcheckDeleted name⟩] else [])

/-- The list a node is charted from; a missing list counts as empty. -/
def chart (s : ClusterState) (node : String) : List Obj :=
  ((s.nodeHistory.get? node).getD ∅).items

end ClusterState

/-! ## Snapshots -/

structure SnapshotCheck where
  config : Obj
  last : Option CheckResult
  uptimePct : Option ℚ
  history : List CheckResult
  deriving DecidableEq

/-- The full state a client receives when it connects, and what it keeps up to date. -/
structure Snapshot where
  demoMode : Bool
  startedAt : Time
  nodes : Dict String NodeInfo
  pods : Dict String PodInfo
  deployments : Dict String DeploymentInfo
  statefulsets : Dict String StatefulSetInfo
  daemonsets : Dict String DaemonSetInfo
  services : Dict String ServiceInfo
  hpas : Dict String HpaInfo
  networkPolicies : Dict String NetworkPolicyInfo
  secrets : Dict String SecretInfo
  configmaps : Dict String ConfigMapInfo
  orphanedPvs : Dict String OrphanedPvInfo
  events : List EventInfo
  nodeMetrics : Dict String Obj
  hardware : Dict String Obj
  podMetrics : Dict String Obj
  fluxKustomizations : Dict String FluxKustomization
  fluxGitRepositories : Dict String FluxGitRepository
  fluxImagePolicies : Dict String FluxImagePolicy
  fluxImageAutomations : Dict String FluxImageAutomation
  pvcs : Dict String PvcInfo
  gateways : Dict String GatewayInfo
  httpRoutes : Dict String HttpRouteInfo
  rateLimitPolicies : Dict String RateLimitPolicyInfo
  nodeHistory : Dict String (List Obj)
  healthchecks : Dict String SnapshotCheck

def CheckEntry.toSnapshot (e : CheckEntry) : SnapshotCheck :=
  ⟨e.config, e.last, e.uptimePct, e.history.items⟩

def ClusterState.snapshot (s : ClusterState) : Snapshot where
  demoMode := s.demoMode
  startedAt := s.startedAt
  nodes := s.nodes
  pods := s.pods
  deployments := s.deployments
  statefulsets := s.statefulsets
  daemonsets := s.daemonsets
  services := s.services
  hpas := s.hpas
  networkPolicies := s.networkPolicies
  secrets := s.secrets
  configmaps := s.configmaps
  orphanedPvs := s.orphanedPvs
  events := s.events.items
  nodeMetrics := s.nodeMetrics
  hardware := s.hardware
  podMetrics := s.podMetrics
  fluxKustomizations := s.fluxKustomizations
  fluxGitRepositories := s.fluxGitRepositories
  fluxImagePolicies := s.fluxImagePolicies
  fluxImageAutomations := s.fluxImageAutomations
  pvcs := s.pvcs
  gateways := s.gateways
  httpRoutes := s.httpRoutes
  rateLimitPolicies := s.rateLimitPolicies
  nodeHistory := s.nodeHistory.mapValues (·.items)
  healthchecks := s.healthchecks.mapValues CheckEntry.toSnapshot

/-! ## Sequences of mutations -/

/-- One call of a mutation method, with its clock readings. -/
inductive Op
  | upsertNode (name : String) (obj : NodeInfo) (t : Time)
  | removeNode (name : String) (t : Time)
  | upsertPod (key : String) (obj : PodInfo) (t : Time)
  | removePod (key : String) (t : Time)
  | upsertDeployment (key : String) (obj : DeploymentInfo) (t : Time)
  | removeDeployment (key : String) (t : Time)
  | upsertStatefulset (key : String) (obj : StatefulSetInfo) (t : Time)
  | removeStatefulset (key : String) (t : Time)
  | upsertDaemonset (key : String) (obj : DaemonSetInfo) (t : Time)
  | removeDaemonset (key : String) (t : Time)
  | upsertService (key : String) (obj : ServiceInfo) (t : Time)
  | removeService (key : String) (t : Time)
  | upsertHpa (key : String) (obj : HpaInfo) (t : Time)
  | removeHpa (key : String) (t : Time)
  | upsertNetworkPolicy (key : String) (obj : NetworkPolicyInfo) (t : Time)
  | removeNetworkPolicy (key : String) (t : Time)
  | upsertSecret (key : String) (obj : SecretInfo) (t : Time)
  | removeSecret (key : String) (t : Time)
  | upsertConfigmap (key : String) (obj : ConfigMapInfo) (t : Time)
  | removeConfigmap (key : String) (t : Time)
  | upsertOrphanedPv (key : String) (obj : OrphanedPvInfo) (t : Time)
  | removeOrphanedPv (key : String) (t : Time)
  | addEvent (obj : EventInfo) (t : Time)
  | recordNodeSample (node : String) (sample : Obj) (tr t : Time)
  | recordPodSample (key : String) (sample : Obj) (tr t : Time)
  | recordHardware (node : String) (data : Obj) (th tr t : Time)
  | setFluxKustomizations (items : Dict String FluxKustomization) (t : Time)
  | setFluxGitRepositories (items : Dict String FluxGitRepository) (t : Time)
  | setFluxImagePolicies (items : Dict String FluxImagePolicy) (t : Time)
  | setFluxImageAutomations (items : Dict String FluxImageAutomation) (t : Time)
  | setPvcs (items : Dict String PvcInfo) (t : Time)
  | setGateways (items : Dict String GatewayInfo) (t : Time)
  | setHttpRoutes (items : Dict String HttpRouteInfo) (t : Time)
  | setRateLimitPolicies (items : Dict String RateLimitPolicyInfo) (t : Time)
  | recordCheck (name : String) (config : Obj) (ok : Bool) (latencyMs : Option ℚ)
      (detail : String) (tr t : Time)
  | removeCheck (name : String) (t : Time)

namespace ClusterState

/-- Run one call. -/
def exec (s : ClusterState) : Op → Published
  | .upsertNode name obj t => s.upsertNode name obj t
  | .removeNode name t => s.removeNode name t
  | .upsertPod key obj t => s.upsertPod key obj t
  | .removePod key t => s.removePod key t
  | .upsertDeployment key obj t => s.upsertDeployment key obj t
  | .removeDeployment key t => s.removeDeployment key t
  | .upsertStatefulset key obj t => s.upsertStatefulset key obj t
  | .removeStatefulset key t => s.removeStatefulset key t
  | .upsertDaemonset key obj t => s.upsertDaemonset key obj t
  | .removeDaemonset key t => s.removeDaemonset key t
  | .upsertService key obj t => s.upsertService key obj t
  | .removeService key t => s.removeService key t
  | .upsertHpa key obj t => s.upsertHpa key obj t
  | .removeHpa key t => s.removeHpa key t
  | .upsertNetworkPolicy key obj t => s.upsertNetworkPolicy key obj t
  | .removeNetworkPolicy key t => s.removeNetworkPolicy key t
  | .upsertSecret key obj t => s.upsertSecret key obj t
  | .removeSecret key t => s.removeSecret key t
  | .upsertConfigmap key obj t => s.upsertConfigmap key obj t
  | .removeConfigmap key t => s.removeConfigmap key t
  | .upsertOrphanedPv key obj t => s.upsertOrphanedPv key obj t
  | .removeOrphanedPv key t => s.removeOrphanedPv key t
  | .addEvent obj t => s.addEvent obj t
  | .recordNodeSample node sample tr t => s.recordNodeSample node sample tr t
  | .recordPodSample key sample tr t => s.recordPodSample key sample tr t
  | .recordHardware node data th tr t => s.recordHardware node data th tr t
  | .setFluxKustomizations items t => s.setFluxKustomizations items t
  | .setFluxGitRepositories items t => s.setFluxGitRepositories items t
  | .setFluxImagePolicies items t => s.setFluxImagePolicies items t
  | .setFluxImageAutomations items t => s.setFluxImageAutomations items t
  | .setPvcs items t => s.setPvcs items t
  | .setGateways items t => s.setGateways items t
  | .setHttpRoutes items t => s.setHttpRoutes items t
  | .setRateLimitPolicies items t => s.setRateLimitPolicies items t
  | .recordCheck name config ok latencyMs detail tr t =>
    s.recordCheck name config ok latencyMs detail tr t
  | .removeCheck name t => s.removeCheck name t

/-- The state after one call. -/
def step (s : ClusterState) (op : Op) : ClusterState := (s.exec op).1

/-- The messages a sequence of calls publishes, in publication order. -/
def published : ClusterState → List Op → List Msg := outputs step fun s op => (s.exec op).2

end ClusterState

/-- What every caller guarantees: objects are stored under their own name or key, and no
sample brings the field its message adds. -/
def Op.WellKeyed : Op → Prop
  | .upsertNode name obj _ => name = obj.name
  | .upsertPod key obj _ => key = obj.key
  | .upsertDeployment key obj _ => key = obj.key
  | .upsertStatefulset key obj _ => key = obj.key
  | .upsertDaemonset key obj _ => key = obj.key
  | .upsertService key obj _ => key = obj.key
  | .upsertHpa key obj _ => key = obj.key
  | .upsertNetworkPolicy key obj _ => key = obj.key
  | .upsertSecret key obj _ => key = obj.key
  | .upsertConfigmap key obj _ => key = obj.key
  | .upsertOrphanedPv key obj _ => key = obj.key
  | .recordNodeSample _ sample _ _ => "node" ∉ sample
  | .recordPodSample _ sample _ _ => "key" ∉ sample
  | .recordHardware _ data _ _ _ => "node" ∉ data
  | _ => True

/-- The states such calls reach from a fresh `ClusterState` and the history reloaded into it
at startup. -/
def ClusterState.Reachable (s : ClusterState) : Prop :=
  ∃ t hist ops, (∀ op ∈ ops, Op.WellKeyed op) ∧
    s = runFrom ClusterState.step { ClusterState.init t with nodeHistory := hist } ops

theorem reachable_step {s : ClusterState} (h : s.Reachable) {op : Op}
    (hk : op.WellKeyed) : (s.step op).Reachable := by
  obtain ⟨t, hist, ops, hops, rfl⟩ := h
  refine ⟨t, hist, ops ++ [op], ?_, ?_⟩
  · exact List.forall_mem_append.mpr ⟨hops, List.forall_mem_singleton.mpr hk⟩
  · rw [runFrom_append]
    rfl

end PiWatch
