import Mathlib.Data.List.Dedup
import Mathlib.Algebra.GroupWithZero.Nat
import PiWatch.Collectors.Flux

/-!
# The Gateway API poll

Gateways, their routes and the rate limits of NGINX Gateway Fabric, each in a guarded
section of its own.
-/

namespace PiWatch

namespace Gateway

open Flux (CustomMeta CustomCondition)

/-! ## Resources -/

structure ListenerStatus where
  conditions : Option (List CustomCondition)
  attachedRoutes : Field ℕ

structure GatewaySpec where
  gatewayClassName : Option String
  listeners : Option (List Listener)

structure GatewayStatus where
  conditions : Option (List CustomCondition)
  listeners : Option (List ListenerStatus)
  addresses : Option (List (Option String))

structure GatewayResource where
  metadata : Field CustomMeta
  spec : Field GatewaySpec
  status : Field GatewayStatus

structure ParentRef where
  name : Option String
  ns : Option String

structure RouteRule where
  backendRefs : Option (List (Option String))

structure HttpRouteSpec where
  hostnames : Option (List String)
  parentRefs : Option (List ParentRef)
  rules : Option (List RouteRule)

/-- The conditions a parent Gateway, or an ancestor of a policy, reports. -/
structure ParentStatus where
  conditions : Option (List CustomCondition)

structure HttpRouteStatus where
  parents : Option (List ParentStatus)

structure HttpRoute where
  metadata : Field CustomMeta
  spec : Field HttpRouteSpec
  status : Field HttpRouteStatus

structure TargetRef where
  kind : Option String
  name : Option String

structure RateLimitRule where
  rate : Option String
  burst : Option ℕ

structure RateLimitLocal where
  rules : Option (List RateLimitRule)

structure RateLimit where
  localLimit : Option RateLimitLocal
  rejectCode : Option ℕ

structure RateLimitPolicySpec where
  targetRefs : Option (List TargetRef)
  rateLimit : Option RateLimit

structure RateLimitPolicyStatus where
  ancestors : Option (List ParentStatus)

structure RateLimitPolicy where
  metadata : Field CustomMeta
  spec : Field RateLimitPolicySpec
  status : Field RateLimitPolicyStatus

/-! ## Mappers -/

def condition (conditions : Option (List CustomCondition)) (type : String) : CustomCondition :=
  ((conditions.getD []).find? (·.type = some type)).getD .empty

/-- The entries that are neither missing nor empty. -/
private def nonempty (xs : List (Option String)) : List String :=
  xs.filterMap fun x => pyOr x none

def mapGateway (item : GatewayResource) : Option GatewayInfo := do
  let m ← item.metadata.getOr .empty
  let spec ← item.spec.getOr ⟨none, none⟩
  let status ← item.status.getOr ⟨none, none, none⟩
  let (key, name, ns) := m.keyed
  let programmed := condition status.conditions "Programmed"
  let listenersStatus := status.listeners.getD []
  let ready := listenersStatus.countP fun l =>
    (condition l.conditions "Programmed").status = some "True"
  let attached ← listenersStatus.mapM fun l => l.attachedRoutes.getOr 0
  return {
    key := key
    name := name
    ns := ns
    gatewayClassName := spec.gatewayClassName
    ready := programmed.status = some "True"
    reason := programmed.reason
    message := programmed.message
    addresses := nonempty (status.addresses.getD [])
    listenerCount := (spec.listeners.getD []).length
    listenersReady := ready
    attachedRoutes := attached.sum
    listeners := spec.listeners.getD [] }

/-- What the parents of a route or the ancestors of a policy say together. -/
structure Verdict where
  holds : Bool
  reason : Option String
  message : Option String

/-- A condition that is not true counts; the first reason and message are kept. -/
def Verdict.and (v : Verdict) (c : CustomCondition) : Verdict :=
  if c.status = some "True" then v
  else ⟨false, pyOr v.reason c.reason, pyOr v.message c.message⟩

/-- The loop of `_map_http_route`: accepted, references resolved, reason and message. -/
def parentsVerdict (parents : List ParentStatus) : Bool × Verdict :=
  parents.foldl (fun acc parent =>
    let accepted := { acc.2 with holds := acc.1 }.and (condition parent.conditions "Accepted")
    (accepted.holds, { accepted with holds := acc.2.holds }.and
      (condition parent.conditions "ResolvedRefs"))) (true, ⟨true, none, none⟩)

def mapHttpRoute (item : HttpRoute) : Option HttpRouteInfo := do
  let m ← item.metadata.getOr .empty
  let spec ← item.spec.getOr ⟨none, none, none⟩
  let status ← item.status.getOr ⟨none⟩
  let (key, name, ns) := m.keyed
  let parentRefs := (spec.parentRefs.getD []).filter fun p => (pyOr p.name none).isSome
  let backends := (spec.rules.getD []).flatMap fun rule => nonempty (rule.backendRefs.getD [])
  let parents := status.parents.getD []
  let (accepted, resolved) := parentsVerdict parents
  return {
    key := key
    name := name
    ns := ns
    hostnames := spec.hostnames.getD []
    parentNames := parentRefs.filterMap (·.name)
    parentNamespaces := parentRefs.map fun p => (pyOr p.ns none).getD ns
    backendNames := backends.dedup.mergeSort
    accepted := accepted && !parents.isEmpty
    resolvedRefs := resolved.holds
    reason := resolved.reason
    message := resolved.message }

/-- `f"{x}"` of an optional text. -/
private def shown (x : Option String) : String := x.getD "None"

/-- The summary of a rule that names a rate. -/
def ruleSummary (rule : RateLimitRule) : Option String :=
  (pyOr rule.rate none).map fun rate =>
    match rule.burst with
    | none | some 0 => rate
    | some burst => s!"{rate} (burst {burst})"

def mapRateLimitPolicy (item : RateLimitPolicy) : Option RateLimitPolicyInfo := do
  let m ← item.metadata.getOr .empty
  let spec ← item.spec.getOr ⟨none, none⟩
  let status ← item.status.getOr ⟨none⟩
  let (key, name, ns) := m.keyed
  let targets := (spec.targetRefs.getD []).filter fun target => (pyOr target.name none).isSome
  let rules := ((spec.rateLimit.bind (·.localLimit)).bind (·.rules)).getD []
  let ancestors := status.ancestors.getD []
  let accepted := ancestors.foldl (fun (v : Verdict) ancestor =>
    v.and (condition ancestor.conditions "Accepted")) ⟨true, none, none⟩
  return {
    key := key
    name := name
    ns := ns
    targets := targets.map fun target => s!"{shown target.kind}/{shown target.name}"
    rules := rules.filterMap ruleSummary
    rejectCode := spec.rateLimit.bind (·.rejectCode)
    accepted := accepted.holds && !ancestors.isEmpty
    reason := accepted.reason
    message := accepted.message }

/-! ## One cycle -/

/-- What the three list calls of a cycle return; without a value a call raised. -/
structure Responses where
  gateways : Option (List GatewayResource)
  httpRoutes : Option (List HttpRoute)
  rateLimitPolicies : Option (List RateLimitPolicy)

/-- The calls one cycle of `run` makes. -/
def cycle (r : Responses) (t : Time) : List Op :=
  PolledKind.section? .gateways (refresh mapGateway GatewayInfo.key r.gateways) t ++
  PolledKind.section? .httpRoutes (refresh mapHttpRoute HttpRouteInfo.key r.httpRoutes) t ++
  PolledKind.section? .rateLimitPolicies
    (refresh mapRateLimitPolicy RateLimitPolicyInfo.key r.rateLimitPolicies) t

end Gateway

end PiWatch
