import Mathlib.Algebra.GroupWithZero.Nat
import PiWatch.Backend.ApiObjects
import PiWatch.Framework.Separator

/-!
# Watched kinds and their mappers

Each mapper turns one API object into its slim form. `ObjectKind` collects the eleven
kinds whose objects are stored under a key; events have no key and are handled apart.
-/

namespace PiWatch

private def orNil {α : Type*} (xs : Option (List α)) : List α := xs.getD []

/-- `s.split("/", 1)[1]`: the text after the first slash. -/
def afterSlash (s : String) : String :=
  String.ofList ((s.toList.dropWhile (· ≠ '/')).drop 1)

def conditionMap (cs : Option (List Condition)) : Dict String String :=
  Dict.ofList ((orNil cs).map fun c => (c.type, c.status))

def mapNode (n : V1Node) : NodeInfo :=
  let conditions := conditionMap n.conditions
  let labels := (n.labels.map Dict.keys).getD []
  let roles := (labels.filter (·.startsWith "node-role.kubernetes.io/")).map afterSlash
  let addrs := Dict.ofList ((orNil n.addresses).map fun a => (a.type, a.address))
  let capacity := n.capacity.getD ∅
  { name := n.metadata.name.text
    ready := conditions.get? "Ready" = some "True"
    conditions := conditions
    roles := if roles = [] then ["worker"] else roles
    arch := n.nodeInfo.map (·.architecture)
    kubelet := n.nodeInfo.map (·.kubeletVersion)
    osImage := n.nodeInfo.map (·.osImage)
    internalIp := addrs.get? "InternalIP"
    cpuCapacity := capacity.get? "cpu"
    memCapacity := capacity.get? "memory"
    unschedulable := n.unschedulable.getD false
    taints := orNil n.taints
    created := n.metadata.creationTimestamp }

def terminated (state : Option ContainerState) : Option ContainerStateTerminated :=
  state.bind (·.terminated)

def terminatedReason (state : Option ContainerState) : Option String :=
  (terminated state).bind (·.reason)

/-- The current termination takes priority over the last one. -/
def lastTermination (state lastState : Option ContainerState) : Option String × Option ℤ :=
  match (terminated state).or (terminated lastState) with
  | some term => (term.reason, some term.exitCode)
  | none => (none, none)

def initCompleted (s : ContainerStatus) : Bool :=
  match terminated s.state with
  | some term => term.exitCode = 0
  | none => false

/-- The loop of `_init_container_status`: the first container that waits or failed. -/
def initReason : List ContainerStatus → Option String
  | [] => none
  | s :: rest =>
    match s.state.bind (·.waiting) with
    | some waiting => waiting.reason
    | none =>
      match terminated s.state with
      | some term =>
        if term.exitCode ≠ 0 then pyOr term.reason (some s!"Error (exit {term.exitCode})")
        else initReason rest
      | none => initReason rest

def initContainerStatus (p : V1Pod) : Option String × Option String :=
  let statuses := orNil p.initContainerStatuses
  let completed := statuses.countP initCompleted
  if statuses = [] then (none, none)
  else if completed = statuses.length then (none, none)
  else (some s!"{completed}/{statuses.length}", initReason statuses)

/-- What the container loop of `map_pod` accumulates. -/
structure ContainerScan where
  waitingReason : Option String
  oomKilled : Bool
  lastExitReason : Option String
  lastExitCode : Option ℤ
  deriving DecidableEq

def scanContainer (acc : ContainerScan) (s : ContainerStatus) : ContainerScan :=
  let exit := if acc.lastExitReason = none then lastTermination s.state s.lastState
    else (acc.lastExitReason, acc.lastExitCode)
  { waitingReason := match s.state.bind (·.waiting) with
      | some waiting => waiting.reason
      | none => acc.waitingReason
    oomKilled := acc.oomKilled || terminatedReason s.state = some "OOMKilled" ||
      terminatedReason s.lastState = some "OOMKilled"
    lastExitReason := exit.1
    lastExitCode := exit.2 }

def mapPod (p : V1Pod) : PodInfo :=
  let statuses := orNil p.containerStatuses
  let init := initContainerStatus p
  let scan := statuses.foldl scanContainer ⟨none, false, none, none⟩
  { key := p.metadata.key
    name := p.metadata.name.text
    ns := p.metadata.ns.text
    node := p.nodeName
    phase := p.phase
    reason := pyOr scan.waitingReason p.reason
    ready := if statuses = [] then "0/0"
      else s!"{statuses.countP (·.ready)}/{statuses.length}"
    restarts := (statuses.map (·.restartCount)).sum
    containers := (orNil p.containers).map (·.name)
    images := (orNil p.containers).map (·.image)
    oomKilled := scan.oomKilled
    lastExitReason := scan.lastExitReason
    lastExitCode := scan.lastExitCode
    initProgress := init.1
    initReason := init.2
    created := p.metadata.creationTimestamp }

def mapDeployment (d : V1Deployment) : DeploymentInfo where
  key := d.metadata.key
  name := d.metadata.name.text
  ns := d.metadata.ns.text
  replicas := d.replicas.getD 0
  ready := d.readyReplicas.getD 0
  available := d.availableReplicas.getD 0
  updated := d.updatedReplicas.getD 0
  images := d.templateContainers.map (·.image)

def mapStatefulset (s : V1StatefulSet) : StatefulSetInfo where
  key := s.metadata.key
  name := s.metadata.name.text
  ns := s.metadata.ns.text
  replicas := s.replicas.getD 0
  ready := s.readyReplicas.getD 0
  updated := s.updatedReplicas.getD 0
  images := s.templateContainers.map (·.image)

def mapDaemonset (d : V1DaemonSet) : DaemonSetInfo where
  key := d.metadata.key
  name := d.metadata.name.text
  ns := d.metadata.ns.text
  desired := d.desiredNumberScheduled.getD 0
  ready := d.numberReady.getD 0
  updated := d.updatedNumberScheduled.getD 0
  images := d.templateContainers.map (·.image)

def mapService (s : V1Service) : ServiceInfo :=
  let lb := s.status.bind (·.loadBalancer)
  let ingress := orNil (lb.bind (·.ingress))
  { key := s.metadata.key
    name := s.metadata.name.text
    ns := s.metadata.ns.text
    type := s.type
    clusterIp := s.clusterIp
    externalIps := (ingress.filterMap fun i => pyOr i.ip i.hostname).filter (· ≠ "")
    ports := orNil s.ports }

/-- Only resource metrics with a scalar value are summarized. -/
def resourceMetrics (metrics : Option (List MetricEntry)) : List HpaMetric :=
  (orNil metrics).filterMap fun m =>
    if m.type = "Resource" then
      m.resource.bind fun r => r.value.map fun v => ⟨r.name, v.averageUtilization⟩
    else none

def mapHpa (h : V2Hpa) : HpaInfo :=
  let conditions := conditionMap h.conditions
  { key := h.metadata.key
    name := h.metadata.name.text
    ns := h.metadata.ns.text
    targetKind := h.scaleTargetRef.map (·.kind)
    targetName := h.scaleTargetRef.map (·.name)
    minReplicas := h.minReplicas
    maxReplicas := h.maxReplicas
    currentReplicas := h.currentReplicas.getD 0
    desiredReplicas := h.desiredReplicas.getD 0
    metrics := resourceMetrics h.metrics
    currentMetrics := resourceMetrics h.currentMetrics
    ableToScale := conditions.get? "AbleToScale"
    scalingActive := conditions.get? "ScalingActive"
    scalingLimited := conditions.get? "ScalingLimited" }

def mapPv (v : V1PersistentVolume) : OrphanedPvInfo where
  key := v.metadata.name.text
  name := v.metadata.name.text
  phase := v.status.bind (·.phase)
  capacity := (v.capacity.getD ∅).get? "storage"
  storageClass := v.storageClassName
  reclaimPolicy := v.persistentVolumeReclaimPolicy
  claimNamespace := v.claimRef.bind (·.ns)
  claimName := v.claimRef.bind (·.name)

def mapNetworkPolicy (np : V1NetworkPolicy) : NetworkPolicyInfo :=
  let matchLabels := (np.podSelector.bind (·.matchLabels)).getD ∅
  let podSelector := ", ".intercalate (matchLabels.entries.map fun e => s!"{e.1}={e.2}")
  { key := np.metadata.key
    name := np.metadata.name.text
    ns := np.metadata.ns.text
    podSelector := if podSelector = "" then "(all pods)" else podSelector
    policyTypes := orNil np.policyTypes
    ingressRules := (orNil np.ingress).length
    egressRules := (orNil np.egress).length }

def mapSecret (s : V1Secret) : SecretInfo where
  key := s.metadata.key
  name := s.metadata.name.text
  ns := s.metadata.ns.text
  type := s.type
  keyCount := (s.data.getD ∅).entries.length
  isImmutable := s.isImmutable.getD false
  created := s.metadata.creationTimestamp

def mapConfigmap (cm : V1ConfigMap) : ConfigMapInfo where
  key := cm.metadata.key
  name := cm.metadata.name.text
  ns := cm.metadata.ns.text
  keyCount := (cm.data.getD ∅).entries.length + (cm.binaryData.getD ∅).entries.length
  isImmutable := cm.isImmutable.getD false
  created := cm.metadata.creationTimestamp

def mapEvent (e : CoreV1Event) : EventInfo where
  uid := e.uid
  type := e.type
  reason := e.reason
  message := e.message
  object := s!"{e.involvedObject.kind}/{e.involvedObject.name}"
  ns := e.involvedObject.ns
  -- a count of 0 is falsy
  count := if e.count.getD 0 = 0 then 1 else e.count.getD 0
  t := (e.lastTimestamp.or e.eventTime).or e.creationTimestamp

/-! ## Kinds stored under a key -/

inductive ObjectKind
  | nodes
  | pods
  | deployments
  | statefulsets
  | daemonsets
  | services
  | hpas
  | networkpolicies
  | secrets
  | configmaps
  | persistentvolumes
  deriving DecidableEq

namespace ObjectKind

/-- What the list and watch calls of a kind return. -/
abbrev Raw : ObjectKind → Type
  | nodes => V1Node
  | pods => V1Pod
  | deployments => V1Deployment
  | statefulsets => V1StatefulSet
  | daemonsets => V1DaemonSet
  | services => V1Service
  | hpas => V2Hpa
  | networkpolicies => V1NetworkPolicy
  | secrets => V1Secret
  | configmaps => V1ConfigMap
  | persistentvolumes => V1PersistentVolume

/-- What the state stores for a kind. -/
abbrev Slim : ObjectKind → Type
  | nodes => NodeInfo
  | pods => PodInfo
  | deployments => DeploymentInfo
  | statefulsets => StatefulSetInfo
  | daemonsets => DaemonSetInfo
  | services => ServiceInfo
  | hpas => HpaInfo
  | networkpolicies => NetworkPolicyInfo
  | secrets => SecretInfo
  | configmaps => ConfigMapInfo
  | persistentvolumes => OrphanedPvInfo

def mapper : (k : ObjectKind) → k.Raw → k.Slim
  | nodes => mapNode
  | pods => mapPod
  | deployments => mapDeployment
  | statefulsets => mapStatefulset
  | daemonsets => mapDaemonset
  | services => mapService
  | hpas => mapHpa
  | networkpolicies => mapNetworkPolicy
  | secrets => mapSecret
  | configmaps => mapConfigmap
  | persistentvolumes => mapPv

/-- The key an object is stored under: `obj["name"]` for nodes, `obj["key"]` otherwise. -/
def objKey : (k : ObjectKind) → k.Slim → String
  | nodes => NodeInfo.name
  | pods => PodInfo.key
  | deployments => DeploymentInfo.key
  | statefulsets => StatefulSetInfo.key
  | daemonsets => DaemonSetInfo.key
  | services => ServiceInfo.key
  | hpas => HpaInfo.key
  | networkpolicies => NetworkPolicyInfo.key
  | secrets => SecretInfo.key
  | configmaps => ConfigMapInfo.key
  | persistentvolumes => OrphanedPvInfo.key

/-- What the API server identifies an object of the kind by. -/
def identity : (k : ObjectKind) → k.Raw → Option SegmentName × SegmentName
  | nodes, r => (none, r.metadata.name)
  | pods, r => (some r.metadata.ns, r.metadata.name)
  | deployments, r => (some r.metadata.ns, r.metadata.name)
  | statefulsets, r => (some r.metadata.ns, r.metadata.name)
  | daemonsets, r => (some r.metadata.ns, r.metadata.name)
  | services, r => (some r.metadata.ns, r.metadata.name)
  | hpas, r => (some r.metadata.ns, r.metadata.name)
  | networkpolicies, r => (some r.metadata.ns, r.metadata.name)
  | secrets, r => (some r.metadata.ns, r.metadata.name)
  | configmaps, r => (some r.metadata.ns, r.metadata.name)
  | persistentvolumes, r => (none, r.metadata.name)

end ObjectKind

/-- The key text of an identity. -/
def identityKey : Option SegmentName × SegmentName → String
  | (none, name) => name.text
  | (some ns, name) => s!"{ns.text}/{name.text}"

theorem objKey_mapper (k : ObjectKind) (r : k.Raw) :
    k.objKey (k.mapper r) = identityKey (k.identity r) := by
  cases k <;> rfl

/-- Namespaces hold no slash, so within one scope the key determines the object. -/
theorem identityKey_inj {i j : Option SegmentName × SegmentName}
    (hscope : i.1.isSome = j.1.isSome) (h : identityKey i = identityKey j) : i = j := by
  obtain ⟨ins, iname⟩ := i
  obtain ⟨jns, jname⟩ := j
  cases ins with
  | none =>
    cases jns with
    | none =>
      cases iname
      cases jname
      simpa [identityKey] using h
    | some jns => simp at hscope
  | some ins =>
    cases jns with
    | none => simp at hscope
    | some jns =>
      have hchars : ins.text.toList ++ '/' :: iname.text.toList =
          jns.text.toList ++ '/' :: jname.text.toList := by
        simpa [identityKey, String.toList_append, toString] using congrArg String.toList h
      obtain ⟨hns, hname⟩ := sep_append_inj ins.noSlash jns.noSlash hchars
      cases ins
      cases jns
      cases iname
      cases jname
      simp_all [String.toList_inj]

theorem identity_scope (k : ObjectKind) (r r' : k.Raw) :
    (k.identity r).1.isSome = (k.identity r').1.isSome := by
  cases k <;> rfl

end PiWatch
