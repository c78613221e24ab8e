import PiWatch.Backend.Json

/-!
# API objects and their slim forms

The first half holds what the mappers read of the objects the Kubernetes client returns,
`Option` where the client returns `None`; the second half the slim dictionaries the
mappers build, which are what the state stores and the browser receives.
-/

namespace PiWatch

/-! ## Objects of the Kubernetes API -/

/-- A name or a namespace. Both are path segments, so neither contains a slash. -/
structure SegmentName where
  text : String
  noSlash : '/' ∉ text.toList
  deriving DecidableEq

structure ClusterMeta where
  name : SegmentName
  creationTimestamp : Option Time
  deriving DecidableEq

structure ObjectMeta extends ClusterMeta where
  ns : SegmentName
  deriving DecidableEq

/-- The key `f"{namespace}/{name}"`. -/
def ObjectMeta.key (m : ObjectMeta) : String := s!"{m.ns.text}/{m.name.text}"

structure Condition where
  type : String
  status : String
  deriving DecidableEq

structure NodeAddress where
  type : String
  address : String
  deriving DecidableEq

structure NodeSystemInfo where
  architecture : String
  kubeletVersion : String
  osImage : String
  deriving DecidableEq

structure NodeTaint where
  key : String
  value : Option String
  effect : String
  deriving DecidableEq

structure V1Node where
  metadata : ClusterMeta
  labels : Option (Dict String String)
  unschedulable : Option Bool
  taints : Option (List NodeTaint)
  conditions : Option (List Condition)
  addresses : Option (List NodeAddress)
  nodeInfo : Option NodeSystemInfo
  capacity : Option (Dict String String)
  deriving DecidableEq

structure ContainerStateWaiting where
  reason : Option String
  deriving DecidableEq

structure ContainerStateTerminated where
  reason : Option String
  exitCode : ℤ
  deriving DecidableEq

/-- A running container is neither waiting nor terminated. -/
structure ContainerState where
  waiting : Option ContainerStateWaiting
  terminated : Option ContainerStateTerminated
  deriving DecidableEq

structure ContainerStatus where
  ready : Bool
  restartCount : ℕ
  state : Option ContainerState
  lastState : Option ContainerState
  deriving DecidableEq

structure Container where
  name : String
  image : Option String
  deriving DecidableEq

structure V1Pod where
  metadata : ObjectMeta
  nodeName : Option String
  containers : Option (List Container)
  phase : Option String
  reason : Option String
  containerStatuses : Option (List ContainerStatus)
  initContainerStatuses : Option (List ContainerStatus)
  deriving DecidableEq

structure V1Deployment where
  metadata : ObjectMeta
  replicas : Option ℕ
  templateContainers : List Container
  readyReplicas : Option ℕ
  availableReplicas : Option ℕ
  updatedReplicas : Option ℕ
  deriving DecidableEq

structure V1StatefulSet where
  metadata : ObjectMeta
  replicas : Option ℕ
  templateContainers : List Container
  readyReplicas : Option ℕ
  updatedReplicas : Option ℕ
  deriving DecidableEq

structure V1DaemonSet where
  metadata : ObjectMeta
  templateContainers : List Container
  desiredNumberScheduled : Option ℕ
  numberReady : Option ℕ
  updatedNumberScheduled : Option ℕ
  deriving DecidableEq

structure LoadBalancerIngress where
  ip : Option String
  hostname : Option String
  deriving DecidableEq

structure LoadBalancerStatus where
  ingress : Option (List LoadBalancerIngress)
  deriving DecidableEq

structure ServiceStatus where
  loadBalancer : Option LoadBalancerStatus
  deriving DecidableEq

structure ServicePort where
  port : ℕ
  protocol : Option String
  name : Option String
  deriving DecidableEq

structure V1Service where
  metadata : ObjectMeta
  type : Option String
  clusterIp : Option String
  ports : Option (List ServicePort)
  status : Option ServiceStatus
  deriving DecidableEq

structure CrossVersionObjectReference where
  kind : String
  name : String
  deriving DecidableEq

structure MetricValue where
  averageUtilization : Option ℕ
  deriving DecidableEq

/-- `target` of a metric specification, `current` of a metric status. -/
structure ResourceMetric where
  name : String
  value : Option MetricValue
  deriving DecidableEq

structure MetricEntry where
  type : String
  resource : Option ResourceMetric
  deriving DecidableEq

structure V2Hpa where
  metadata : ObjectMeta
  scaleTargetRef : Option CrossVersionObjectReference
  minReplicas : Option ℕ
  maxReplicas : Option ℕ
  metrics : Option (List MetricEntry)
  conditions : Option (List Condition)
  currentReplicas : Option ℕ
  desiredReplicas : Option ℕ
  currentMetrics : Option (List MetricEntry)
  deriving DecidableEq

structure ClaimRef where
  ns : Option String
  name : Option String
  deriving DecidableEq

structure VolumeStatus where
  phase : Option String
  deriving DecidableEq

structure V1PersistentVolume where
  metadata : ClusterMeta
  capacity : Option (Dict String String)
  storageClassName : Option String
  persistentVolumeReclaimPolicy : Option String
  claimRef : Option ClaimRef
  status : Option VolumeStatus
  deriving DecidableEq

structure LabelSelector where
  matchLabels : Option (Dict String String)
  deriving DecidableEq

/-- The rules are only counted. -/
structure V1NetworkPolicy where
  metadata : ObjectMeta
  podSelector : Option LabelSelector
  policyTypes : Option (List String)
  ingress : Option (List Json)
  egress : Option (List Json)
  deriving DecidableEq

structure V1Secret where
  metadata : ObjectMeta
  type : Option String
  data : Option (Dict String String)
  isImmutable : Option Bool
  deriving DecidableEq

structure V1ConfigMap where
  metadata : ObjectMeta
  data : Option (Dict String String)
  binaryData : Option (Dict String String)
  isImmutable : Option Bool
  deriving DecidableEq

structure InvolvedObject where
  kind : String
  name : String
  ns : Option String
  deriving DecidableEq

structure CoreV1Event where
  uid : String
  type : Option String
  reason : Option String
  message : Option String
  involvedObject : InvolvedObject
  count : Option ℕ
  lastTimestamp : Option Time
  eventTime : Option Time
  creationTimestamp : Option Time
  deriving DecidableEq

/-! ## Slim objects -/

structure NodeInfo where
  name : String
  ready : Bool
  conditions : Dict String String
  roles : List String
  arch : Option String
  kubelet : Option String
  osImage : Option String
  internalIp : Option String
  cpuCapacity : Option String
  memCapacity : Option String
  unschedulable : Bool
  taints : List NodeTaint
  created : Option Time
  deriving DecidableEq

structure PodInfo where
  key : String
  name : String
  ns : String
  node : Option String
  phase : Option String
  reason : Option String
  ready : String
  restarts : ℕ
  containers : List String
  images : List (Option String)
  oomKilled : Bool
  lastExitReason : Option String
  lastExitCode : Option ℤ
  initProgress : Option String
  initReason : Option String
  created : Option Time
  deriving DecidableEq

structure DeploymentInfo where
  key : String
  name : String
  ns : String
  replicas : ℕ
  ready : ℕ
  available : ℕ
  updated : ℕ
  images : List (Option String)
  deriving DecidableEq

structure StatefulSetInfo where
  key : String
  name : String
  ns : String
  replicas : ℕ
  ready : ℕ
  updated : ℕ
  images : List (Option String)
  deriving DecidableEq

structure DaemonSetInfo where
  key : String
  name : String
  ns : String
  desired : ℕ
  ready : ℕ
  updated : ℕ
  images : List (Option String)
  deriving DecidableEq

structure ServiceInfo where
  key : String
  name : String
  ns : String
  type : Option String
  clusterIp : Option String
  externalIps : List String
  ports : List ServicePort
  deriving DecidableEq

/-- `target_pct` of a target metric, `current_pct` of a current one. -/
structure HpaMetric where
  name : String
  pct : Option ℕ
  deriving DecidableEq

structure HpaInfo where
  key : String
  name : String
  ns : String
  targetKind : Option String
  targetName : Option String
  minReplicas : Option ℕ
  maxReplicas : Option ℕ
  currentReplicas : ℕ
  desiredReplicas : ℕ
  metrics : List HpaMetric
  currentMetrics : List HpaMetric
  ableToScale : Option String
  scalingActive : Option String
  scalingLimited : Option String
  deriving DecidableEq

structure NetworkPolicyInfo where
  key : String
  name : String
  ns : String
  podSelector : String
  policyTypes : List String
  ingressRules : ℕ
  egressRules : ℕ
  deriving DecidableEq

structure SecretInfo where
  key : String
  name : String
  ns : String
  type : Option String
  keyCount : ℕ
  isImmutable : Bool
  created : Option Time
  deriving DecidableEq

structure ConfigMapInfo where
  key : String
  name : String
  ns : String
  keyCount : ℕ
  isImmutable : Bool
  created : Option Time
  deriving DecidableEq

structure OrphanedPvInfo where
  key : String
  name : String
  phase : Option String
  capacity : Option String
  storageClass : Option String
  reclaimPolicy : Option String
  claimNamespace : Option String
  claimName : Option String
  deriving DecidableEq

structure EventInfo where
  uid : String
  type : Option String
  reason : Option String
  message : Option String
  object : String
  ns : Option String
  count : ℕ
  t : Option Time
  deriving DecidableEq

end PiWatch
