import PiWatch.Backend.Json

/-!
# Polled objects

The slim forms of the Flux, Gateway API and volume claim resources. They are polled, not
watched, and every poll replaces the whole map of its kind.
-/

namespace PiWatch

structure FluxKustomization where
  key : String
  name : String
  ns : String
  ready : Bool
  reason : Option String
  message : Option String
  lastAppliedRevision : Option String
  lastTransitionTime : Option String
  nextReconcileT : Option PyFloat
  managedResourceCount : ℕ
  applyPending : Bool
  sourceKind : Option String
  sourceName : Option String
  sourceNamespace : Option String
  deriving DecidableEq

structure FluxGitRepository where
  key : String
  name : String
  ns : String
  ready : Bool
  reason : Option String
  message : Option String
  url : Option String
  ref : Option String
  revision : Option String
  lastUpdateTime : Option String
  deriving DecidableEq

structure FluxImagePolicy where
  key : String
  name : String
  ns : String
  ready : Bool
  image : Option String
  latestTag : Option String
  previousTag : Option String
  tagCount : Option ℕ
  lastScanTime : Option String
  deriving DecidableEq

structure FluxImageAutomation where
  key : String
  name : String
  ns : String
  ready : Bool
  reason : Option String
  message : Option String
  lastAutomationRunTime : Option String
  lastPushCommit : Option String
  lastPushTime : Option String
  deriving DecidableEq

structure PvcInfo where
  key : String
  name : String
  ns : String
  phase : Option String
  storageClass : Option String
  accessModes : List String
  volumeName : Option String
  requestedBytes : Option PyFloat
  capacityBytes : Option PyFloat
  usageBytes : Option PyFloat
  usagePct : Option PyFloat
  deriving DecidableEq

structure Listener where
  name : Option String
  hostname : Option String
  port : Option ℕ
  protocol : Option String
  deriving DecidableEq

structure GatewayInfo where
  key : String
  name : String
  ns : String
  gatewayClassName : Option String
  ready : Bool
  reason : Option String
  message : Option String
  addresses : List String
  listenerCount : ℕ
  listenersReady : ℕ
  attachedRoutes : ℕ
  listeners : List Listener
  deriving DecidableEq

structure HttpRouteInfo where
  key : String
  name : String
  ns : String
  hostnames : List String
  parentNames : List String
  parentNamespaces : List String
  backendNames : List String
  accepted : Bool
  resolvedRefs : Bool
  reason : Option String
  message : Option String
  deriving DecidableEq

structure RateLimitPolicyInfo where
  key : String
  name : String
  ns : String
  targets : List String
  rules : List String
  rejectCode : Option ℕ
  accepted : Bool
  reason : Option String
  message : Option String
  deriving DecidableEq

end PiWatch
