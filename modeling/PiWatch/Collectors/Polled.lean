import PiWatch.Framework.Refresh
import PiWatch.Backend.State

/-!
# Polled kinds

Each polled kind has one slot in the state, which its loop replaces as a whole and publishes.
-/

namespace PiWatch

open ClusterState

inductive PolledKind
  | fluxKustomizations
  | fluxGitRepositories
  | fluxImagePolicies
  | fluxImageAutomations
  | pvcs
  | gateways
  | httpRoutes
  | rateLimitPolicies
  deriving DecidableEq

namespace PolledKind

abbrev Info : PolledKind → Type
  | fluxKustomizations => FluxKustomization
  | fluxGitRepositories => FluxGitRepository
  | fluxImagePolicies => FluxImagePolicy
  | fluxImageAutomations => FluxImageAutomation
  | pvcs => PvcInfo
  | gateways => GatewayInfo
  | httpRoutes => HttpRouteInfo
  | rateLimitPolicies => RateLimitPolicyInfo

def key : (k : PolledKind) → k.Info → String
  | fluxKustomizations => FluxKustomization.key
  | fluxGitRepositories => FluxGitRepository.key
  | fluxImagePolicies => FluxImagePolicy.key
  | fluxImageAutomations => FluxImageAutomation.key
  | pvcs => PvcInfo.key
  | gateways => GatewayInfo.key
  | httpRoutes => HttpRouteInfo.key
  | rateLimitPolicies => RateLimitPolicyInfo.key

/-- The published slot of a kind. -/
def slot (s : ClusterState) : (k : PolledKind) → Dict String k.Info
  | fluxKustomizations => s.fluxKustomizations
  | fluxGitRepositories => s.fluxGitRepositories
  | fluxImagePolicies => s.fluxImagePolicies
  | fluxImageAutomations => s.fluxImageAutomations
  | pvcs => s.pvcs
  | gateways => s.gateways
  | httpRoutes => s.httpRoutes
  | rateLimitPolicies => s.rateLimitPolicies

/-- The call that replaces a slot. -/
def setOp : (k : PolledKind) → Dict String k.Info → Time → Op
  | fluxKustomizations => .setFluxKustomizations
  | fluxGitRepositories => .setFluxGitRepositories
  | fluxImagePolicies => .setFluxImagePolicies
  | fluxImageAutomations => .setFluxImageAutomations
  | pvcs => .setPvcs
  | gateways => .setGateways
  | httpRoutes => .setHttpRoutes
  | rateLimitPolicies => .setRateLimitPolicies

/-- What a call puts into a slot. -/
def assigned : (k : PolledKind) → Op → Option (Dict String k.Info)
  | fluxKustomizations, .setFluxKustomizations items _ => some items
  | fluxGitRepositories, .setFluxGitRepositories items _ => some items
  | fluxImagePolicies, .setFluxImagePolicies items _ => some items
  | fluxImageAutomations, .setFluxImageAutomations items _ => some items
  | pvcs, .setPvcs items _ => some items
  | gateways, .setGateways items _ => some items
  | httpRoutes, .setHttpRoutes items _ => some items
  | rateLimitPolicies, .setRateLimitPolicies items _ => some items
  | _, _ => none

/-- What a message says about a slot. -/
def payload : (k : PolledKind) → Body → Option (Dict String k.Info)
  | fluxKustomizations, .fluxKustomizations d => some d
  | fluxGitRepositories, .fluxGitRepositories d => some d
  | fluxImagePolicies, .fluxImagePolicies d => some d
  | fluxImageAutomations, .fluxImageAutomations d => some d
  | pvcs, .pvcs d => some d
  | gateways, .gateways d => some d
  | httpRoutes, .httpRoutes d => some d
  | rateLimitPolicies, .rateLimitPolicies d => some d
  | _, _ => none

/-- The published values of a slot among some messages. -/
def payloads (k : PolledKind) (msgs : List Msg) : List (Dict String k.Info) :=
  msgs.filterMap fun msg => k.payload msg.body

theorem slot_step (k : PolledKind) (s : ClusterState) (op : Op) :
    k.slot (s.step op) = (k.assigned op).getD (k.slot s) := by
  cases k <;> cases op <;> rfl

theorem payloads_exec (k : PolledKind) (s : ClusterState) (op : Op) :
    k.payloads (s.exec op).2 = (k.assigned op).toList := by
  cases op with
  | removeCheck name t =>
    simp only [exec, removeCheck]
    cases k <;> split <;> rfl
  | _ => cases k <;> rfl

/-- After a sequence of calls, a slot holds the last thing put into it. -/
theorem slot_run (k : PolledKind) (s : ClusterState) (calls : List Op) :
    k.slot (runFrom ClusterState.step s calls) =
      ((calls.filterMap k.assigned).getLast?).getD (k.slot s) := by
  induction calls generalizing s with
  | nil => rfl
  | cons op calls ih =>
    rw [runFrom_cons, ih, slot_step, List.filterMap_cons]
    cases k.assigned op with
    | none => rfl
    | some d => rw [List.getLast?_cons, Option.getD_some, Option.getD_some]

/-- Everything put into a slot is published, in order. -/
theorem payloads_published (k : PolledKind) (s : ClusterState) (calls : List Op) :
    k.payloads (s.published calls) = calls.filterMap k.assigned := by
  induction calls generalizing s with
  | nil => rfl
  | cons op calls ih =>
    have htail := ih (s.step op)
    have hhead := payloads_exec k s op
    rw [ClusterState.published] at htail ⊢
    rw [outputs, payloads, List.filterMap_append]
    rw [payloads] at htail hhead
    rw [htail, hhead, List.filterMap_cons]
    cases k.assigned op <;> rfl

/-- The calls of one guarded section: its slot is set if the refresh yielded a map. -/
def section? (k : PolledKind) (d : Option (Dict String k.Info)) (t : Time) : List Op :=
  (d.map fun items => k.setOp items t).toList

theorem filterMap_section_self (k : PolledKind) (d : Option (Dict String k.Info)) (t : Time) :
    (k.section? d t).filterMap k.assigned = d.toList := by
  cases d with
  | none => rfl
  | some items => cases k <;> rfl

theorem filterMap_section_of_ne {k k' : PolledKind} (h : k ≠ k')
    (d : Option (Dict String k'.Info)) (t : Time) :
    (k'.section? d t).filterMap k.assigned = [] := by
  cases d with
  | none => rfl
  | some items =>
    cases k <;> cases k' <;> first
      | exact absurd rfl h
      | rfl

/-- A slot after some calls: replaced by the map over a complete response and published once, or
left as it was and not published. -/
def AllOrNothing {ρ : Type} (k : PolledKind) (s : ClusterState) (calls : List Op)
    (map : ρ → Option k.Info) (response : Option (List ρ)) : Prop :=
  (∃ d, IsComplete map k.key response d ∧ k.slot (runFrom ClusterState.step s calls) = d ∧
    k.payloads (s.published calls) = [d]) ∨
  ((∀ d, ¬ IsComplete map k.key response d) ∧
    k.slot (runFrom ClusterState.step s calls) = k.slot s ∧ k.payloads (s.published calls) = [])

/-- Calls that put nothing else into a slot than a refresh leave it replaced or unchanged. -/
theorem allOrNothing_of_assigned {ρ : Type} {k : PolledKind} (s : ClusterState)
    {calls : List Op} {map : ρ → Option k.Info} {response : Option (List ρ)}
    (h : calls.filterMap k.assigned = (refresh map k.key response).toList) :
    AllOrNothing k s calls map response := by
  unfold AllOrNothing
  rw [slot_run, payloads_published, h]
  cases hd : refresh map k.key response with
  | none =>
    refine Or.inr ⟨fun d hcomplete => ?_, rfl, rfl⟩
    rw [← refresh_eq_some_iff, hd] at hcomplete
    cases hcomplete
  | some d => exact Or.inl ⟨d, refresh_eq_some_iff.mp hd, rfl, rfl⟩

end PolledKind

end PiWatch
