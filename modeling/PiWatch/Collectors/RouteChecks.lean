import PiWatch.Collectors.Autochecks
import PiWatch.Collectors.K8sWatch

/-!
# The checks that are derived

A check of a route is found by four lookups: the route's parent, its Gateway, the Service that
has the Gateway's address, and a listener. The checks of the Services are one for each port
number.
-/

namespace PiWatch

open ClusterState

namespace Autochecks

/-! ## Gateways -/

/-- A Gateway and a Service have an external address in common. -/
def SharesAddress (gateway : GatewayInfo) (svc : ServiceInfo) : Prop :=
  ∃ address ∈ gateway.addresses, address ∈ svc.externalIps

/-- The first Service that shares an address with the Gateway. -/
def Fronts (services : Dict String ServiceInfo) (gateway : GatewayInfo) (svc : ServiceInfo) :
    Prop :=
  ∃ before after, services.values = before ++ svc :: after ∧ SharesAddress gateway svc ∧
    ∀ other ∈ before, ¬ SharesAddress gateway other

theorem gatewayClusterIp_eq_some_iff {gateway : GatewayInfo} {services : Dict String ServiceInfo}
    {clusterIp : String} :
    gatewayClusterIp gateway services = some clusterIp ↔
      ∃ svc, Fronts services gateway svc ∧ svc.clusterIp = some clusterIp := by
  have hshares : ∀ svc : ServiceInfo,
      gateway.addresses.any (· ∈ svc.externalIps) ↔ SharesAddress gateway svc := by
    simp [SharesAddress]
  have hfind : ∀ svc, services.values.find? (fun svc =>
      gateway.addresses.any (· ∈ svc.externalIps)) = some svc ↔ Fronts services gateway svc := by
    intro svc
    rw [List.find?_eq_some_iff_append, hshares, Fronts]
    constructor
    · intro h
      obtain ⟨hsvc, before, after, hvalues, hbefore⟩ := h
      refine ⟨before, after, hvalues, hsvc, fun other hother => ?_⟩
      rw [← hshares]
      simpa using hbefore other hother
    · intro h
      obtain ⟨before, after, hvalues, hsvc, hbefore⟩ := h
      refine ⟨hsvc, before, after, hvalues, fun other hother => ?_⟩
      have hother' := hbefore other hother
      rw [← hshares] at hother'
      simpa using hother'
  unfold gatewayClusterIp
  split_ifs with hempty
  · have hnone : ∀ svc, ¬ Fronts services gateway svc := by
      rintro svc ⟨-, -, -, ⟨address, haddress, -⟩, -⟩
      rw [hempty] at haddress
      cases haddress
    simp [hnone]
  · simp only [← hfind]
    split
    · rename_i svc hsvc
      simp [hsvc]
    · rename_i hnone
      simp [hnone]

/-! ## Listeners -/

/-- The listener declares no hostname. -/
def CatchAll (listener : Listener) : Prop :=
  listener.hostname = none ∨ listener.hostname = some ""

/-- A listener found for a hostname speaks HTTP or HTTPS and is of that hostname or of none. -/
theorem serves_of_findListener {gateway : GatewayInfo} {hostname : String} {listener : Listener}
    (h : findListener gateway hostname = some listener) :
    listener ∈ gateway.listeners ∧ servesHttp listener ∧
      (listener.hostname = some hostname ∨ CatchAll listener) := by
  rw [findListener, Option.or_eq_some_iff] at h
  rcases h with hexact | ⟨-, hcatch⟩
  · have hfound := List.find?_some hexact
    rw [decide_eq_true_eq] at hfound
    exact ⟨List.mem_of_find?_eq_some hexact, hfound.2, Or.inl hfound.1⟩
  · have hfound := List.find?_some hcatch
    rw [decide_eq_true_eq] at hfound
    exact ⟨List.mem_of_find?_eq_some hcatch, hfound.2, Or.inr hfound.1⟩

/-- A listener of the hostname goes before those of none, wherever it stands. -/
theorem hostname_of_findListener {gateway : GatewayInfo} {hostname : String}
    {listener other : Listener} (h : findListener gateway hostname = some listener)
    (hother : other ∈ gateway.listeners) (hserves : servesHttp other)
    (hhostname : other.hostname = some hostname) : listener.hostname = some hostname := by
  rw [findListener, Option.or_eq_some_iff] at h
  rcases h with hexact | ⟨hnone, -⟩
  · have hfound := List.find?_some hexact
    rw [decide_eq_true_eq] at hfound
    exact hfound.1
  · have habsent := List.find?_eq_none.mp hnone other hother
    simp [hhostname, hserves] at habsent

theorem routeCheck_eq_some_iff {gateway : GatewayInfo} {clusterIp hostname name : String}
    {check : Check} :
    routeCheck gateway clusterIp hostname = some (name, check) ↔ name = hostname ∧
      ∃ listener port, findListener gateway hostname = some listener ∧
        listener.port = some port ∧ port ≠ 0 ∧
        check = .route clusterIp port (listener.protocol = some "HTTPS") hostname := by
  unfold routeCheck
  cases hfind : findListener gateway hostname with
  | none => simp
  | some listener =>
    cases hport : listener.port with
    | none => simp [hport]
    | some port =>
      cases port with
      | zero => simp [hport]
      | succ port => simp [hport, eq_comm]

/-! ## Routes -/

/-- A route with one of its parents. -/
structure Attachment where
  route : HttpRouteInfo
  parentName : String
  parentNamespace : String

/-- The parents of all routes, in the order they are gone through. -/
def attachments (s : ClusterState) : List Attachment :=
  s.httpRoutes.values.flatMap fun route =>
    (route.parentNames.zip route.parentNamespaces).map fun (parentName, parentNamespace) =>
      ⟨route, parentName, parentNamespace⟩

/-- The route of the attachment lists the hostname, and its Gateway can be reached. -/
structure Reaches (s : ClusterState) (a : Attachment) (hostname : String) (gateway : GatewayInfo)
    (svc : ServiceInfo) (clusterIp : String) : Prop where
  accepted : a.route.accepted
  resolvedRefs : a.route.resolvedRefs
  listed : hostname ∈ a.route.hostnames
  known : s.gateways.get? (a.parentNamespace ++ "/" ++ a.parentName) = some gateway
  fronted : Fronts s.services gateway svc
  hasIp : svc.clusterIp = some clusterIp
  ip_ne : clusterIp ≠ ""

/-- The Gateway has a listener with a port for the hostname. -/
structure Listens (gateway : GatewayInfo) (hostname : String) (listener : Listener) (port : ℕ) :
    Prop where
  found : findListener gateway hostname = some listener
  hasPort : listener.port = some port
  port_ne : port ≠ 0

/-- The check an attachment adds for a hostname. -/
def Adds (s : ClusterState) (a : Attachment) (hostname : String) (check : Check) : Prop :=
  ∃ gateway svc clusterIp listener port, Reaches s a hostname gateway svc clusterIp ∧
    Listens gateway hostname listener port ∧
    check = .route clusterIp port (listener.protocol = some "HTTPS") hostname

/-- The checks of one attachment. -/
def checksOfAttachment (s : ClusterState) (a : Attachment) : List (String × Check) :=
  if a.route.accepted && a.route.resolvedRefs then
    match s.gateways.get? (a.parentNamespace ++ "/" ++ a.parentName) with
    | none => []
    | some gateway =>
      match gatewayClusterIp gateway s.services with
      | none | some "" => []
      | some clusterIp => a.route.hostnames.filterMap (routeCheck gateway clusterIp)
  else []

theorem routeChecks_eq (s : ClusterState) :
    routeChecks s = Dict.ofList ((attachments s).flatMap (checksOfAttachment s)) := by
  rw [routeChecks, attachments, List.flatMap_assoc]
  congr 2
  funext route
  rw [List.flatMap_map, checksOfRoute]
  split_ifs with hroute
  · congr 1
    funext parent
    exact (if_pos hroute).symm
  · symm
    rw [List.flatMap_eq_nil_iff]
    intro parent _
    rw [checksOfAttachment, if_neg hroute]

theorem mem_checksOfAttachment_iff {s : ClusterState} {a : Attachment} {name : String}
    {check : Check} : (name, check) ∈ checksOfAttachment s a ↔ Adds s a name check := by
  constructor
  · intro h
    unfold checksOfAttachment at h
    split at h
    · rename_i hroute
      rw [Bool.and_eq_true] at hroute
      split at h
      · cases h
      · rename_i gateway hknown
        split at h
        · cases h
        · cases h
        · rename_i clusterIp hne hip
          obtain ⟨svc, hfronts, hclusterIp⟩ := gatewayClusterIp_eq_some_iff.mp hip
          obtain ⟨hostname, hlisted, hcheck⟩ := List.mem_filterMap.mp h
          obtain ⟨rfl, listener, port, hfound, hport, hport0, rfl⟩ :=
            routeCheck_eq_some_iff.mp hcheck
          refine ⟨gateway, svc, clusterIp, listener, port, ?_, ⟨hfound, hport, hport0⟩, rfl⟩
          exact ⟨hroute.1, hroute.2, hlisted, hknown, hfronts, hclusterIp, hne⟩
    · cases h
  · rintro ⟨gateway, svc, clusterIp, listener, port, hreaches, hlistens, rfl⟩
    have hip : gatewayClusterIp gateway s.services = some clusterIp :=
      gatewayClusterIp_eq_some_iff.mpr ⟨svc, hreaches.fronted, hreaches.hasIp⟩
    rw [checksOfAttachment, if_pos (by rw [hreaches.accepted, hreaches.resolvedRefs]; rfl),
      hreaches.known]
    dsimp only
    rw [hip]
    split
    · rename_i h
      cases h
    · rename_i h
      exact absurd (Option.some.inj h) hreaches.ip_ne
    · rename_i ip _ h
      obtain rfl := Option.some.inj h
      exact List.mem_filterMap.mpr ⟨name, hreaches.listed, routeCheck_eq_some_iff.mpr
        ⟨rfl, listener, port, hlistens.found, hlistens.hasPort, hlistens.port_ne, rfl⟩⟩

/-- An attachment adds one check for a hostname at most. -/
theorem Adds.unique {s : ClusterState} {a : Attachment} {hostname : String}
    {check check' : Check} (h : Adds s a hostname check) (h' : Adds s a hostname check') :
    check = check' := by
  obtain ⟨gateway, svc, clusterIp, listener, port, hreaches, hlistens, rfl⟩ := h
  obtain ⟨gateway', svc', clusterIp', listener', port', hreaches', hlistens', rfl⟩ := h'
  have hgateway := hreaches.known.symm.trans hreaches'.known
  obtain rfl := Option.some.inj hgateway
  have hip := (gatewayClusterIp_eq_some_iff.mpr ⟨svc, hreaches.fronted, hreaches.hasIp⟩).symm.trans
    (gatewayClusterIp_eq_some_iff.mpr ⟨svc', hreaches'.fronted, hreaches'.hasIp⟩)
  obtain rfl := Option.some.inj hip
  have hlistener := hlistens.found.symm.trans hlistens'.found
  obtain rfl := Option.some.inj hlistener
  obtain rfl := Option.some.inj (hlistens.hasPort.symm.trans hlistens'.hasPort)
  rfl

theorem get?_checksOfAttachment {s : ClusterState} {a : Attachment} {hostname : String}
    {check : Check} :
    (Dict.ofList (checksOfAttachment s a)).get? hostname = some check ↔
      Adds s a hostname check := by
  constructor
  · intro h
    exact mem_checksOfAttachment_iff.mp (Dict.mem_of_get?_ofList h)
  · intro h
    have hmem : hostname ∈ Dict.ofList (checksOfAttachment s a) :=
      Dict.mem_ofList.mpr (List.mem_map.mpr ⟨_, mem_checksOfAttachment_iff.mpr h, rfl⟩)
    obtain ⟨check', hcheck'⟩ := Option.isSome_iff_exists.mp hmem
    have hadds := mem_checksOfAttachment_iff.mp (Dict.mem_of_get?_ofList hcheck')
    rw [hcheck', hadds.unique h]

/-- The check of a hostname is the one the last attachment added that adds one. -/
theorem get?_routeChecks {s : ClusterState} {hostname : String} {check : Check} :
    (routeChecks s).get? hostname = some check ↔
      ∃ before a after, attachments s = before ++ a :: after ∧ Adds s a hostname check ∧
        ∀ b ∈ after, ∀ other, ¬ Adds s b hostname other := by
  have hmem : ∀ b, hostname ∉ Dict.ofList (checksOfAttachment s b) ↔
      ∀ other, ¬ Adds s b hostname other := by
    intro b
    rw [Dict.mem_def, Option.isSome_iff_exists, not_exists]
    simp only [get?_checksOfAttachment]
  rw [routeChecks_eq, Dict.get?_ofList_flatMap]
  simp only [get?_checksOfAttachment, hmem]

theorem mem_routeChecks {s : ClusterState} {hostname : String} :
    hostname ∈ routeChecks s ↔ ∃ a ∈ attachments s, ∃ check, Adds s a hostname check := by
  rw [routeChecks_eq, Dict.mem_ofList]
  simp only [List.mem_map, List.mem_flatMap, Prod.exists, exists_and_right, exists_eq_right]
  constructor
  · intro h
    obtain ⟨check, a, ha, hcheck⟩ := h
    exact ⟨a, ha, check, mem_checksOfAttachment_iff.mp hcheck⟩
  · intro h
    obtain ⟨a, ha, check, hadds⟩ := h
    exact ⟨check, a, ha, mem_checksOfAttachment_iff.mpr hadds⟩

end Autochecks

end PiWatch
