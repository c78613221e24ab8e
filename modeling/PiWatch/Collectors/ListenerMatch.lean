import PiWatch.Collectors.RouteChecks

/-!
# Wildcard listeners

A Gateway serves a hostname through a listener of that hostname, of a wildcard that covers it,
or of no hostname. The search for a listener passes over the wildcards.
-/

namespace PiWatch

open ClusterState

namespace Autochecks

/-! ## What serves a hostname -/

/-- How a listener comes to serve a hostname. -/
inductive Specificity
  | catchAll
  | wildcard
  | exact
  deriving DecidableEq

def Specificity.rank : Specificity → ℕ
  | catchAll => 0
  | wildcard => 1
  | exact => 2

/-- A pattern `*.s` covers the hostnames that end in `.s`. -/
def coversWildcard (pattern hostname : String) : Bool :=
  match pattern.toList with
  | '*' :: '.' :: rest => ('.' :: rest).isSuffixOf hostname.toList
  | _ => false

/-- How a listener serves a hostname, by the rules of the Gateway API. -/
def listenerMatch (listener : Listener) (hostname : String) : Option Specificity :=
  if servesHttp listener then
    match listener.hostname with
    | none => some .catchAll
    | some pattern =>
      if pattern = hostname then some .exact
      else if pattern = "" then some .catchAll
      else if coversWildcard pattern hostname then some .wildcard
      else none
  else none

/-- No listener of the Gateway serves the hostname more specifically. -/
def MostSpecific (gateway : GatewayInfo) (hostname : String) (listener : Listener) : Prop :=
  listener ∈ gateway.listeners ∧ ∃ how, listenerMatch listener hostname = some how ∧
    ∀ other ∈ gateway.listeners, ∀ how', listenerMatch other hostname = some how' →
      how'.rank ≤ how.rank

/-- The hostname belongs to a route whose Gateway can be reached and serves it. -/
def Servable (s : ClusterState) (hostname : String) : Prop :=
  ∃ a ∈ attachments s, ∃ gateway svc clusterIp, Reaches s a hostname gateway svc clusterIp ∧
    ∃ listener ∈ gateway.listeners, (listenerMatch listener hostname).isSome

/-- The attachment whose check of the hostname is kept, the last that adds one. -/
def Keeps (s : ClusterState) (a : Attachment) (hostname : String) (check : Check) : Prop :=
  ∃ before after, attachments s = before ++ a :: after ∧ Adds s a hostname check ∧
    ∀ b ∈ after, ∀ other, ¬ Adds s b hostname other

/-- The Gateway of the attachment serves the hostname most specifically at this address. -/
def ServedAt (s : ClusterState) (a : Attachment) (hostname clusterIp : String) (port : ℕ)
    (tls : Bool) : Prop :=
  ∃ gateway svc listener, Reaches s a hostname gateway svc clusterIp ∧
    MostSpecific gateway hostname listener ∧ listener.port = some port ∧
    tls = decide (listener.protocol = some "HTTPS")

/-- A hostname that is served is checked where the Gateway of its check serves it. -/
def Covered (s : ClusterState) (hostname : String) : Prop :=
  Servable s hostname → ∃ a clusterIp port tls,
    (routeChecks s).get? hostname = some (.route clusterIp port tls hostname) ∧
      Keeps s a hostname (.route clusterIp port tls hostname) ∧
      ServedAt s a hostname clusterIp port tls

/-! ## What the search finds -/

def exactListener (gateway : GatewayInfo) (hostname : String) : Option Listener :=
  gateway.listeners.find? fun l => l.hostname = some hostname ∧ servesHttp l

def catchAllListener (gateway : GatewayInfo) : Option Listener :=
  gateway.listeners.find? fun l => (l.hostname = none ∨ l.hostname = some "") ∧ servesHttp l

theorem listenerMatch_eq_exact_iff {listener : Listener} {hostname : String} :
    listenerMatch listener hostname = some .exact ↔
      servesHttp listener ∧ listener.hostname = some hostname := by
  unfold listenerMatch
  split_ifs with hserves
  · cases hhost : listener.hostname with
    | none => simp
    | some pattern =>
      by_cases hpattern : pattern = hostname
      · simp [hpattern, hserves]
      · simp only [hserves, true_and, Option.some.injEq, hpattern, iff_false, if_false]
        split_ifs <;> simp
  · simp [hserves]

/-- A listener without a hostname serves every hostname, if it speaks HTTP. -/
theorem listenerMatch_of_catchAll {listener : Listener} (hserves : servesHttp listener)
    (hcatch : CatchAll listener) (hostname : String) :
    ∃ how, listenerMatch listener hostname = some how := by
  unfold listenerMatch
  rw [if_pos hserves]
  rcases hcatch with hnone | hempty
  · rw [hnone]
    exact ⟨_, rfl⟩
  · rw [hempty]
    by_cases hhost : "" = hostname
    · exact ⟨_, if_pos hhost⟩
    · exact ⟨_, (if_neg hhost).trans (if_pos rfl)⟩

theorem mostSpecific_of_exact {gateway : GatewayInfo} {hostname : String} {listener : Listener}
    (h : exactListener gateway hostname = some listener) :
    MostSpecific gateway hostname listener := by
  have hfound := List.find?_some h
  rw [decide_eq_true_eq] at hfound
  refine ⟨List.mem_of_find?_eq_some h, .exact,
    listenerMatch_eq_exact_iff.mpr ⟨hfound.2, hfound.1⟩, fun other _ how' _ => ?_⟩
  cases how' <;> decide

theorem ne_exact_of_exactListener {gateway : GatewayInfo} {hostname : String} {other : Listener}
    (h : exactListener gateway hostname = none) (hother : other ∈ gateway.listeners) :
    listenerMatch other hostname ≠ some .exact := by
  intro hexact
  obtain ⟨hserves, hhost⟩ := listenerMatch_eq_exact_iff.mp hexact
  have habsent := List.find?_eq_none.mp h other hother
  simp [hserves, hhost] at habsent

/-- Without an exact listener the wildcards are the most specific ones. -/
theorem mostSpecific_of_wildcard {gateway : GatewayInfo} {hostname : String} {listener : Listener}
    (hexact : exactListener gateway hostname = none) (hmem : listener ∈ gateway.listeners)
    (h : listenerMatch listener hostname = some .wildcard) :
    MostSpecific gateway hostname listener := by
  refine ⟨hmem, .wildcard, h, fun other hother how' hhow' => ?_⟩
  cases how' with
  | catchAll => exact Nat.zero_le _
  | wildcard => exact le_rfl
  | exact => exact absurd hhow' (ne_exact_of_exactListener hexact hother)

/-- Without an exact listener and without wildcards only the catch-all ones are left. -/
theorem mostSpecific_of_catchAll {gateway : GatewayInfo} {hostname : String}
    {listener : Listener} (hexact : exactListener gateway hostname = none)
    (h : catchAllListener gateway = some listener)
    (hwild : ∀ other ∈ gateway.listeners, listenerMatch other hostname ≠ some .wildcard) :
    MostSpecific gateway hostname listener := by
  have hfound := List.find?_some h
  rw [decide_eq_true_eq] at hfound
  obtain ⟨how, hhow⟩ := listenerMatch_of_catchAll hfound.2 hfound.1 hostname
  refine ⟨List.mem_of_find?_eq_some h, how, hhow, fun other hother how' hhow' => ?_⟩
  cases how' with
  | catchAll => exact Nat.zero_le _
  | wildcard => exact absurd hhow' (hwild other hother)
  | exact => exact absurd hhow' (ne_exact_of_exactListener hexact hother)

/-! ## Coverage -/

/-- The route's Gateway can be reached, and has an exact listener, or else a catch-all one, with
a port. -/
def Checkable (s : ClusterState) (a : Attachment) (hostname : String) (gateway : GatewayInfo)
    (clusterIp : String) (listener : Listener) (port : ℕ) : Prop :=
  (∃ svc, Reaches s a hostname gateway svc clusterIp) ∧
    (exactListener gateway hostname).or (catchAllListener gateway) = some listener ∧
    listener.port = some port ∧ port ≠ 0

/-- The last attachment that is checkable, and in its Gateway: the listener is exact, no wildcard
covers the hostname, or one that does has the port and the scheme of the listener. -/
def RightlyRead (s : ClusterState) (hostname : String) : Prop :=
  ∃ before a after gateway clusterIp listener port, attachments s = before ++ a :: after ∧
    Checkable s a hostname gateway clusterIp listener port ∧
    (∀ b ∈ after, ∀ gateway' clusterIp' listener' port',
      ¬ Checkable s b hostname gateway' clusterIp' listener' port') ∧
    (exactListener gateway hostname = some listener ∨
      (∀ other ∈ gateway.listeners, listenerMatch other hostname ≠ some .wildcard) ∨
      ∃ other ∈ gateway.listeners, listenerMatch other hostname = some .wildcard ∧
        other.port = listener.port ∧
        (other.protocol = some "HTTPS" ↔ listener.protocol = some "HTTPS"))

theorem adds_iff_checkable {s : ClusterState} {a : Attachment} {hostname : String}
    {check : Check} : Adds s a hostname check ↔ ∃ gateway clusterIp listener port,
      Checkable s a hostname gateway clusterIp listener port ∧
        check = .route clusterIp port (listener.protocol = some "HTTPS") hostname := by
  constructor
  · rintro ⟨gateway, svc, clusterIp, listener, port, hreaches, hlistens, rfl⟩
    exact ⟨gateway, clusterIp, listener, port, ⟨⟨svc, hreaches⟩, hlistens.found,
      hlistens.hasPort, hlistens.port_ne⟩, rfl⟩
  · rintro ⟨gateway, clusterIp, listener, port, ⟨⟨svc, hreaches⟩, hfound, hport, hne⟩, rfl⟩
    exact ⟨gateway, svc, clusterIp, listener, port, hreaches, ⟨hfound, hport, hne⟩, rfl⟩

/-- Where the check is kept, the listener that was found is a most specific one, or a wildcard with
its port and scheme is. -/
theorem servedAt_iff {s : ClusterState} {a : Attachment} {hostname clusterIp : String}
    {gateway : GatewayInfo} {listener : Listener} {port : ℕ}
    (h : Checkable s a hostname gateway clusterIp listener port) :
    ServedAt s a hostname clusterIp port (listener.protocol = some "HTTPS") ↔
      exactListener gateway hostname = some listener ∨
      (∀ other ∈ gateway.listeners, listenerMatch other hostname ≠ some .wildcard) ∨
      ∃ other ∈ gateway.listeners, listenerMatch other hostname = some .wildcard ∧
        other.port = listener.port ∧
        (other.protocol = some "HTTPS" ↔ listener.protocol = some "HTTPS") := by
  obtain ⟨⟨svc, hreaches⟩, hfound, hport, -⟩ := h
  cases hexact : exactListener gateway hostname with
  | some exact' =>
    rw [hexact, Option.some_or] at hfound
    obtain rfl := Option.some.inj hfound
    exact iff_of_true ⟨gateway, svc, _, hreaches, mostSpecific_of_exact hexact, hport, rfl⟩
      (Or.inl rfl)
  | none =>
    rw [hexact, Option.none_or] at hfound
    constructor
    · rintro ⟨gateway', svc', served, hreaches', ⟨hmem, how, hhow, hmax⟩, hport', htls⟩
      obtain rfl := Option.some.inj (hreaches.known.symm.trans hreaches'.known)
      rw [or_iff_right (by simp)]
      by_cases hwild : ∀ other ∈ gateway.listeners, listenerMatch other hostname ≠ some .wildcard
      · exact Or.inl hwild
      · -- a wildcard outranks the listener without a hostname, so one of them is meant
        push Not at hwild
        obtain ⟨wild, hwildMem, hwildMatch⟩ := hwild
        have hrank := hmax wild hwildMem .wildcard hwildMatch
        refine Or.inr ⟨served, hmem, ?_, hport'.trans hport.symm, ?_⟩
        · cases how with
          | catchAll => exact absurd hrank (by decide)
          | wildcard => exact hhow
          | exact => exact absurd hhow (ne_exact_of_exactListener hexact hmem)
        · exact (decide_eq_decide.mp htls).symm
    · rintro (hnone | hwild | ⟨other, hother, hmatch, hsame, htls⟩)
      · cases hnone
      · exact ⟨gateway, svc, listener, hreaches, mostSpecific_of_catchAll hexact hfound hwild,
          hport, rfl⟩
      · exact ⟨gateway, svc, other, hreaches, mostSpecific_of_wildcard hexact hother hmatch,
          hsame.trans hport, decide_eq_decide.mpr htls.symm⟩

/-- The state once a Gateway with some listeners, its Service and a route are discovered. -/
def behindGateway (listeners : List Listener) : ClusterState :=
  [.upsertService "nginx-gateway/gw1-nginx" ⟨"nginx-gateway/gw1-nginx", "gw1-nginx",
      "nginx-gateway", some "LoadBalancer", some "10.43.9.1", ["192.168.1.50"], []⟩ 0,
    .setGateways (Dict.ofList [("nginx-gateway/gw1", ⟨"nginx-gateway/gw1", "gw1",
      "nginx-gateway", some "nginx", true, none, none, ["192.168.1.50"], listeners.length,
      listeners.length, 1, listeners⟩)]) 0,
    .setHttpRoutes (Dict.ofList [("home/route1", ⟨"home/route1", "route1", "home",
      ["app.heim.lan"], ["gw1"], ["nginx-gateway"], ["app"], true, true, none, none⟩)]) 0].foldl
    ClusterState.step (ClusterState.init 0)

def wildcardTls : Listener := ⟨some "https", some "*.heim.lan", some 443, some "HTTPS"⟩

def plainHttp : Listener := ⟨some "http", none, some 80, some "HTTP"⟩

end Autochecks

end PiWatch
