import PiWatch.Collectors.Gateway
import PiWatch.Collectors.Pvc

/-!
# Poll cycles

One cycle of the Flux loop, one of the Gateway API loop and one poll of the volume claims,
in any interleaving with the calls of the other collectors.
-/

namespace PiWatch

namespace PollCycles

/-- What the three loops meet in a cycle. -/
structure Inputs where
  fromIso : String → Option PyFloat
  flux : Flux.Responses
  gateway : Gateway.Responses
  pvc : Pvc.Poll

/-- The calls of the three cycles. -/
def ownCalls (i : Inputs) (t : Time) : List Op :=
  Flux.cycle i.fromIso i.flux t ++ Gateway.cycle i.gateway t ++ (Pvc.poll i.pvc t).calls

/-- A sequence of calls that puts into every slot what the three cycles put there, in their
order: the cycles interleaved with calls that write no polled slot. -/
def Interleaves (calls : List Op) (i : Inputs) (t : Time) : Prop :=
  ∀ k : PolledKind, calls.filterMap k.assigned = (ownCalls i t).filterMap k.assigned

/-- A poll puts at most one map into its slot, and nothing into the other ones. -/
theorem assigned_poll (p : Pvc.Poll) (t : Time) {k : PolledKind} (h : k ≠ .pvcs) :
    (Pvc.poll p t).calls.filterMap k.assigned = [] := by
  have hset : ∀ items, k.assigned (.setPvcs items t) = none := by
    intro items
    cases k <;> first
      | exact absurd rfl h
      | rfl
  unfold Pvc.poll
  split
  · rfl
  · split
    · split
      · simp [hset]
      · split <;> simp [hset]
    · simp [hset]

/-- What the guarded section of a kind yields. Volume claims have no section. -/
def refreshed (i : Inputs) : (k : PolledKind) → Option (Dict String k.Info)
  | .fluxKustomizations =>
    refresh (Flux.mapKustomization i.fromIso) FluxKustomization.key i.flux.kustomizations
  | .fluxGitRepositories =>
    refresh Flux.mapGitRepository FluxGitRepository.key i.flux.gitRepositories
  | .fluxImagePolicies =>
    refresh (Flux.mapImagePolicy (Flux.scanByRepo i.flux.imageRepositories)) FluxImagePolicy.key
      i.flux.imagePolicies
  | .fluxImageAutomations =>
    refresh Flux.mapImageUpdateAutomation FluxImageAutomation.key i.flux.imageUpdateAutomations
  | .gateways => refresh Gateway.mapGateway GatewayInfo.key i.gateway.gateways
  | .httpRoutes => refresh Gateway.mapHttpRoute HttpRouteInfo.key i.gateway.httpRoutes
  | .rateLimitPolicies =>
    refresh Gateway.mapRateLimitPolicy RateLimitPolicyInfo.key i.gateway.rateLimitPolicies
  | .pvcs => none

/-- The cycles put into a slot what its own section yields. -/
theorem assigned_ownCalls (i : Inputs) (t : Time) {k : PolledKind} (h : k ≠ .pvcs) :
    (ownCalls i t).filterMap k.assigned = (refreshed i k).toList := by
  have hother : ∀ {k' : PolledKind}, k ≠ k' → ∀ d,
      (k'.section? d t).filterMap k.assigned = [] :=
    fun hne d => PolledKind.filterMap_section_of_ne hne d t
  have hpoll := assigned_poll i.pvc t h
  have hown := PolledKind.filterMap_section_self k (refreshed i k) t
  rw [ownCalls, List.filterMap_append, hpoll, List.append_nil, ← hown]
  unfold refreshed at hown ⊢
  cases k <;> first
    | exact absurd rfl h
    | simp [Flux.cycle, Gateway.cycle, hother]

/-- A failing query leaves a poll with the listed claims, none of which shows usage. -/
theorem poll_of_queryFailed {p : Pvc.Poll} {t : Time} (h : (Pvc.poll p t).queryFailed = true) :
    ∃ d, IsComplete Pvc.mapPvc PvcInfo.key p.listing d ∧
      (Pvc.poll p t).calls = [.setPvcs d t] := by
  unfold Pvc.poll at h ⊢
  cases hd : refresh Pvc.mapPvc PvcInfo.key p.listing with
  | none => simp [hd] at h
  | some d =>
    refine ⟨d, refresh_eq_some_iff.mp hd, ?_⟩
    simp only [hd] at h ⊢
    split
    · rename_i hprom
      rw [if_pos hprom] at h
      split
      · rfl
      · rename_i used hused
        simp only [hused] at h
        split
        · rfl
        · rename_i capacity hcapacity
          simp [hcapacity] at h
    · rename_i hprom
      simp [hprom] at h

/-- The map over complete image policies does not depend on the repositories but for the two
scan fields, and whether there is one does not depend on them at all. -/
theorem isComplete_imagePolicies {repos repos' : Option (List Flux.ImageRepository)}
    {response : Option (List Flux.ImagePolicy)} {d : Dict String FluxImagePolicy}
    (h : IsComplete (Flux.mapImagePolicy (Flux.scanByRepo repos)) FluxImagePolicy.key
      response d) :
    ∃ d', IsComplete (Flux.mapImagePolicy (Flux.scanByRepo repos')) FluxImagePolicy.key
      response d' ∧ d'.mapValues Flux.withoutScan = d.mapValues Flux.withoutScan := by
  have hsame := Flux.imagePolicies_withoutScan (Flux.scanByRepo repos)
    (Flux.scanByRepo repos') response
  rw [refresh_eq_some_iff.mpr h, Option.map_some] at hsame
  obtain ⟨d', hd', heq⟩ := Option.map_eq_some_iff.mp hsame.symm
  exact ⟨d', refresh_eq_some_iff.mp hd', heq⟩

/-- Every image policy of a complete map shows the scan of the repository it refers to. -/
theorem scannedIn_of_isComplete {repos : Option (List Flux.ImageRepository)}
    {response : Option (List Flux.ImagePolicy)} {d : Dict String FluxImagePolicy}
    (h : IsComplete (Flux.mapImagePolicy (Flux.scanByRepo repos)) FluxImagePolicy.key response d)
    {key : String} {info : FluxImagePolicy} (hinfo : d.get? key = some info) :
    ∃ policy ∈ response.getD [], Flux.mapImagePolicy (Flux.scanByRepo repos) policy = some info ∧
      Flux.ScannedIn repos policy info := by
  obtain ⟨items, ms, rfl, hms, rfl⟩ := h
  obtain ⟨hmem, -⟩ := mem_of_get?_mapOf hinfo
  obtain ⟨policy, hpolicy, hmap⟩ := exists_of_forall₂ hms hmem
  exact ⟨policy, hpolicy, hmap, Flux.scannedIn_of_mapImagePolicy hmap⟩

/-- Every listed claim of a complete map is without usage. -/
theorem usage_of_isComplete {response : Option (List Pvc.PersistentVolumeClaim)}
    {d : Dict String PvcInfo} (h : IsComplete Pvc.mapPvc PvcInfo.key response d) {key : String}
    {info : PvcInfo} (hinfo : d.get? key = some info) :
    info.usageBytes = none ∧ info.usagePct = none := by
  obtain ⟨items, ms, -, hms, rfl⟩ := h
  obtain ⟨hmem, -⟩ := mem_of_get?_mapOf hinfo
  obtain ⟨item, -, hitem⟩ := exists_of_forall₂ hms hmem
  exact (Pvc.mapPvc_eq_some hitem).2

/-- Every cycle, in any interleaving: each slot is replaced by the map over the complete
response of its own kind and published once, or unchanged and not published; image policies
take two fields from the cycle's image repositories, from the one they refer to, and nothing
else; and a claim whose usage could not be queried shows none. -/
theorem pollCycles_allOrNothing (i : Inputs) (t : Time) (s : ClusterState) (calls : List Op)
    (h : Interleaves calls i t) :
    PolledKind.AllOrNothing .fluxKustomizations s calls (Flux.mapKustomization i.fromIso)
      i.flux.kustomizations ∧
    PolledKind.AllOrNothing .fluxGitRepositories s calls Flux.mapGitRepository
      i.flux.gitRepositories ∧
    PolledKind.AllOrNothing .fluxImagePolicies s calls
      (Flux.mapImagePolicy (Flux.scanByRepo i.flux.imageRepositories)) i.flux.imagePolicies ∧
    PolledKind.AllOrNothing .fluxImageAutomations s calls Flux.mapImageUpdateAutomation
      i.flux.imageUpdateAutomations ∧
    PolledKind.AllOrNothing .gateways s calls Gateway.mapGateway i.gateway.gateways ∧
    PolledKind.AllOrNothing .httpRoutes s calls Gateway.mapHttpRoute i.gateway.httpRoutes ∧
    PolledKind.AllOrNothing .rateLimitPolicies s calls Gateway.mapRateLimitPolicy
      i.gateway.rateLimitPolicies ∧
    (∀ repos repos' d, IsComplete (Flux.mapImagePolicy (Flux.scanByRepo repos))
        FluxImagePolicy.key i.flux.imagePolicies d →
      ∃ d', IsComplete (Flux.mapImagePolicy (Flux.scanByRepo repos')) FluxImagePolicy.key
        i.flux.imagePolicies d' ∧
        d'.mapValues Flux.withoutScan = d.mapValues Flux.withoutScan) ∧
    (∀ d, IsComplete (Flux.mapImagePolicy (Flux.scanByRepo i.flux.imageRepositories))
        FluxImagePolicy.key i.flux.imagePolicies d → ∀ key info, d.get? key = some info →
      ∃ policy ∈ i.flux.imagePolicies.getD [],
        Flux.mapImagePolicy (Flux.scanByRepo i.flux.imageRepositories) policy = some info ∧
        Flux.ScannedIn i.flux.imageRepositories policy info) ∧
    ((Pvc.poll i.pvc t).queryFailed = true →
      ∃ d, IsComplete Pvc.mapPvc PvcInfo.key i.pvc.listing d ∧
        PolledKind.slot (runFrom ClusterState.step s calls) .pvcs = d ∧
        PolledKind.payloads .pvcs (s.published calls) = [d] ∧
        ∀ key info, d.get? key = some info → info.usageBytes = none ∧ info.usagePct = none) := by
  have hassigned : ∀ {ρ : Type} {k : PolledKind} {map : ρ → Option k.Info}
      {response : Option (List ρ)}, k ≠ .pvcs → refreshed i k = refresh map k.key response →
      PolledKind.AllOrNothing k s calls map response := by
    intro ρ k map response hk hmap
    apply PolledKind.allOrNothing_of_assigned
    rw [h k, assigned_ownCalls i t hk, hmap]
  refine ⟨hassigned (by decide) rfl, hassigned (by decide) rfl, hassigned (by decide) rfl,
    hassigned (by decide) rfl, hassigned (by decide) rfl, hassigned (by decide) rfl,
    hassigned (by decide) rfl, fun _ _ _ hd => isComplete_imagePolicies hd,
    fun _ hd _ _ hinfo => scannedIn_of_isComplete hd hinfo, ?_⟩
  · intro hfailed
    obtain ⟨d, hcomplete, hcalls⟩ := poll_of_queryFailed hfailed
    have hpvcs : calls.filterMap (PolledKind.assigned .pvcs) = [d] := by
      have hother : ∀ {k' : PolledKind}, .pvcs ≠ k' → ∀ d,
          (k'.section? d t).filterMap (PolledKind.assigned .pvcs) = [] :=
        fun hne d => PolledKind.filterMap_section_of_ne hne d t
      rw [h .pvcs, ownCalls, hcalls]
      simp [Flux.cycle, Gateway.cycle, hother]
      rfl
    refine ⟨d, hcomplete, ?_, ?_, fun key info => usage_of_isComplete hcomplete⟩
    · rw [PolledKind.slot_run, hpvcs]
      rfl
    · rw [PolledKind.payloads_published, hpvcs]

private def claim (name : String) (h : '/' ∉ name.toList) : Pvc.PersistentVolumeClaim where
  ns := ⟨"default", by decide⟩
  name := ⟨name, h⟩
  resources := none
  storageClassName := none
  accessModes := none
  volumeName := none
  phase := some "Bound"
  capacity := none

private def claims : List Pvc.PersistentVolumeClaim :=
  [claim "data" (by decide), claim "music" (by decide)]

/-- Two repositories of one name, the later scan of which counts, and a third namespace's. -/
private def repositories : List Flux.ImageRepository :=
  let scanned := fun ns tagCount scanTime =>
    ⟨.val ⟨some ns, some "web"⟩, .val ⟨some ⟨some tagCount, some scanTime⟩⟩⟩
  [scanned "apps" 7 "10:00", scanned "media" 99 "11:00", scanned "apps" 12 "12:00"]

private def policy : Flux.ImagePolicy where
  metadata := .val ⟨some "apps", some "web"⟩
  spec := .val ⟨some "web"⟩
  status := .absent

/-- A cycle in which some lists fail, one automation cannot be read, and neither can the usage of
the claims. -/
private def outage : Inputs where
  fromIso _ := none
  flux :=
    { kustomizations := none
      gitRepositories := some [⟨.val ⟨some "flux-system", some "fleet"⟩, .absent, .absent⟩]
      imageRepositories := some repositories
      imagePolicies := some [policy]
      imageUpdateAutomations := some [⟨.absent, .absent⟩, ⟨.null, .absent⟩] }
  gateway :=
    { gateways := some [⟨.val ⟨some "edge", some "public"⟩, .absent, .absent⟩]
      httpRoutes := none
      rateLimitPolicies := some [] }
  pvc := ⟨some claims, true, none, none⟩

theorem pollCycles_allOrNothing_outage :
    let after := runFrom ClusterState.step (ClusterState.init 0) (ownCalls outage 1)
    let published := (ClusterState.init 0).published (ownCalls outage 1)
    (∃ d info, PolledKind.slot after .fluxImagePolicies = d ∧
      PolledKind.payloads .fluxImagePolicies published = [d] ∧ d.get? "apps/web" = some info ∧
      info.tagCount = some 12 ∧ info.lastScanTime = some "12:00") ∧
    (∃ d, IsComplete Gateway.mapGateway GatewayInfo.key outage.gateway.gateways d ∧
      PolledKind.slot after .gateways = d ∧ PolledKind.payloads .gateways published = [d]) ∧
    (PolledKind.slot after .fluxImageAutomations = ∅ ∧
      PolledKind.payloads .fluxImageAutomations published = []) ∧
    ∃ d, IsComplete Pvc.mapPvc PvcInfo.key (some claims) d ∧ PolledKind.slot after .pvcs = d ∧
      PolledKind.payloads .pvcs published = [d] ∧
      ∀ key info, d.get? key = some info → info.usageBytes = none ∧ info.usagePct = none := by
  obtain ⟨-, -, hpolicies, hautomations, hgateways, -, -, -, hscanned, husage⟩ :=
    pollCycles_allOrNothing outage 1 (ClusterState.init 0) (ownCalls outage 1) fun _ => rfl
  refine ⟨?_, ?_, ?_, husage rfl⟩
  · rcases hpolicies with ⟨d, hcomplete, hslot, hpublished⟩ | ⟨hnone, -⟩
    · have hd := refresh_eq_some_iff.mpr hcomplete
      obtain rfl := Option.some.inj (hd.symm.trans rfl)
      obtain ⟨policy', hpolicy, -, htags, htime⟩ := hscanned _ hcomplete "apps/web" _ rfl
      obtain rfl : policy' = policy := by simpa [outage] using hpolicy
      exact ⟨_, _, hslot, hpublished, rfl, htags, htime⟩
    · exact absurd (refresh_eq_some_iff.mp rfl) (hnone _)
  · exact hgateways.resolve_right fun hnone => hnone.1 _ (refresh_eq_some_iff.mp rfl)
  · rcases hautomations with ⟨d, hcomplete, -⟩ | ⟨-, hunchanged⟩
    · cases refresh_eq_some_iff.mpr hcomplete
    · exact hunchanged

end PollCycles

end PiWatch
