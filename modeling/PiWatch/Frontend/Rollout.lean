import Mathlib.Data.Set.Function
import PiWatch.Framework.Separator
import PiWatch.Backend.ApiObjects

/-!
# Rollout drift

The browser has no owner references: which pods a Deployment owns is told from their names.
Pods of a DaemonSet or StatefulSet can have such a name too.
-/

namespace PiWatch

namespace Rollout

/-- The ownership test of `rolloutDrift`: two segments follow the name and a hyphen. -/
def owns (dep : DeploymentInfo) (p : PodInfo) : Bool :=
  let stem := (dep.name ++ "-").toList
  p.ns = dep.ns && stem.isPrefixOf p.name.toList &&
    ((p.name.toList.drop stem.length).splitOn '-').length = 2

/-- `rolloutDrift`. A missing image joins as the empty text. -/
def rolloutDrift (dep : DeploymentInfo) (pods : List PodInfo) : Option String :=
  if dep.updated < dep.replicas then
    some (toString dep.updated ++ "/" ++ toString dep.replicas ++
      " replicas updated to the current revision")
  else
    let images := ((pods.filter (owns dep)).flatMap (·.images)).eraseDups
    if 1 < images.length then
      some ("replicas running different image tags: " ++
        ", ".intercalate (images.map (·.getD "")))
    else none

/-! ## Workloads and the names of their pods -/

inductive OwnerKind
  | deployment
  | daemonSet
  | statefulSet
  deriving DecidableEq

structure Owner where
  kind : OwnerKind
  ns : String
  name : String
  deriving DecidableEq

def HyphenFree (s : String) : Prop := '-' ∉ s.toList

/-- The standard naming: a Deployment's pod has a template hash and a suffix, a DaemonSet's a
suffix, a StatefulSet's an ordinal. -/
def NamedAfter (o : Owner) (p : PodInfo) : Prop :=
  p.ns = o.ns ∧
    match o.kind with
    | .deployment => ∃ hash suffix, HyphenFree hash ∧ HyphenFree suffix ∧
        p.name = o.name ++ "-" ++ hash ++ "-" ++ suffix
    | .daemonSet | .statefulSet => ∃ suffix, HyphenFree suffix ∧ p.name = o.name ++ "-" ++ suffix

/-- A Deployment as an owner. -/
def ownerOf (dep : DeploymentInfo) : Owner := ⟨.deployment, dep.ns, dep.name⟩

/-- A pod with the workload that created it. -/
structure OwnedPod where
  owner : Owner
  pod : PodInfo
  named : NamedAfter owner pod

/-- A DaemonSet or StatefulSet next to the Deployment, whose name has one segment more. -/
def LooksLike (dep : DeploymentInfo) (o : Owner) : Prop :=
  o.kind ≠ .deployment ∧ o.ns = dep.ns ∧ ∃ extra, HyphenFree extra ∧
    o.name = dep.name ++ "-" ++ extra

/-! ## Who is taken for an owner -/

private theorem toList_join (a b : String) :
    (a ++ "-" ++ b).toList = a.toList ++ '-' :: b.toList := by
  simp [String.toList_append]

theorem hyphen_append_inj {a b c d : String} (hb : HyphenFree b) (hd : HyphenFree d)
    (h : a ++ "-" ++ b = c ++ "-" ++ d) : a = c ∧ b = d := by
  have hchars := congrArg String.toList h
  rw [toList_join, toList_join] at hchars
  obtain ⟨hac, hbd⟩ := append_sep_inj hb hd hchars
  exact ⟨String.toList_inj.mp hac, String.toList_inj.mp hbd⟩

theorem owns_iff (dep : DeploymentInfo) (p : PodInfo) :
    owns dep p ↔ NamedAfter (ownerOf dep) p := by
  have hstem : (dep.name ++ "-").toList = dep.name.toList ++ ['-'] := by
    simp [String.toList_append]
  unfold owns NamedAfter ownerOf
  simp only [Bool.and_eq_true, decide_eq_true_eq, List.isPrefixOf_iff_prefix,
    length_splitOn_eq_two_iff, hstem, and_assoc]
  refine and_congr_right fun _ => ?_
  constructor
  · intro h
    obtain ⟨⟨rest, hname⟩, hash, suffix, hhash, hsuffix, hrest⟩ := h
    rw [← hname, List.drop_left] at hrest
    refine ⟨String.ofList hash, String.ofList suffix, by simpa [HyphenFree] using hhash,
      by simpa [HyphenFree] using hsuffix, ?_⟩
    rw [← String.toList_inj, ← hname, hrest]
    simp [String.toList_append]
  · intro h
    obtain ⟨hash, suffix, hhash, hsuffix, hname⟩ := h
    have hchars : p.name.toList =
        (dep.name.toList ++ ['-']) ++ (hash.toList ++ '-' :: suffix.toList) := by
      rw [hname]
      simp [String.toList_append]
    refine ⟨⟨_, hchars.symm⟩, hash.toList, suffix.toList, hhash, hsuffix, ?_⟩
    rw [hchars, List.drop_left]

/-- A Deployment's pod is taken for a pod of that Deployment only. -/
theorem owns_of_deployment {dep : DeploymentInfo} {o : Owner} {p : PodInfo}
    (hkind : o.kind = .deployment) (hnamed : NamedAfter o p) :
    owns dep p ↔ o = ownerOf dep := by
  obtain ⟨kind, ns, name⟩ := o
  obtain rfl : kind = .deployment := hkind
  rw [owns_iff]
  constructor
  · intro howns
    obtain ⟨hns, hash, suffix, hhash, hsuffix, hname⟩ := hnamed
    obtain ⟨hns', hash', suffix', hhash', hsuffix', hname'⟩ := howns
    have hlast := hyphen_append_inj hsuffix hsuffix' (hname.symm.trans hname')
    have hfirst := hyphen_append_inj hhash hhash' hlast.1
    rw [ownerOf, Owner.mk.injEq]
    exact ⟨rfl, hns.symm.trans hns', hfirst.1⟩
  · intro heq
    exact heq ▸ hnamed

/-- A pod of another kind is taken for the Deployment's if its workload looks like one of its
replica sets. -/
theorem owns_of_other {dep : DeploymentInfo} {o : Owner} {p : PodInfo}
    (hkind : o.kind ≠ .deployment) (hnamed : NamedAfter o p) :
    owns dep p ↔ LooksLike dep o := by
  have hparts : p.ns = o.ns ∧ ∃ suffix, HyphenFree suffix ∧ p.name = o.name ++ "-" ++ suffix := by
    obtain ⟨hns, hname⟩ := hnamed
    refine ⟨hns, ?_⟩
    split at hname
    · rename_i hdeployment
      exact absurd hdeployment hkind
    all_goals exact hname
  obtain ⟨hns, suffix, hsuffix, hname⟩ := hparts
  rw [owns_iff]
  constructor
  · intro howns
    obtain ⟨hns', hash, suffix', hhash, hsuffix', hname'⟩ := howns
    have hlast := hyphen_append_inj hsuffix hsuffix' (hname.symm.trans hname')
    exact ⟨hkind, hns.symm.trans hns', hash, hhash, hlast.1⟩
  · intro hlooks
    obtain ⟨-, hns', extra, hextra, hname'⟩ := hlooks
    exact ⟨hns.trans hns', extra, suffix, hextra, hsuffix, by rw [hname, hname']; rfl⟩

/-- Among Deployments of distinct names a pod of one is counted for that one and no other. -/
theorem owns_unique (deps : Set DeploymentInfo) (hnames : Set.InjOn DeploymentInfo.name deps)
    (dep : DeploymentInfo) (hdep : dep ∈ deps) (p : PodInfo)
    (hnamed : NamedAfter (ownerOf dep) p) :
    (∀ dep' ∈ deps, owns dep' p ↔ dep' = dep) ∧ ∃! dep', dep' ∈ deps ∧ owns dep' p := by
  have howns : ∀ dep' ∈ deps, owns dep' p ↔ dep' = dep := by
    intro dep' hdep'
    rw [owns_of_deployment rfl hnamed]
    constructor
    · intro heq
      exact (hnames hdep hdep' (congrArg Owner.name heq)).symm
    · intro heq
      rw [heq]
  refine ⟨howns, dep, ⟨hdep, (howns dep hdep).mpr rfl⟩, fun dep' h => ?_⟩
  exact (howns dep' h.1).mp h.2

private def deployment (name : String) : DeploymentInfo where
  key := "default/" ++ name
  name := name
  ns := "default"
  replicas := 2
  ready := 2
  available := 2
  updated := 2
  images := [some "nginx:1.27"]

private def running (name : String) (images : List (Option String)) : PodInfo where
  key := "default/" ++ name
  name := name
  ns := "default"
  node := none
  phase := some "Running"
  reason := none
  ready := "1/1"
  restarts := 0
  containers := ["main"]
  images := images
  oomKilled := false
  lastExitReason := none
  lastExitCode := none
  initProgress := none
  initReason := none
  created := none

/-- Of two Deployments one of whose names begins with the other's, the longer one owns the pod. -/
theorem owns_unique_webhook :
    (∀ dep ∈ ({deployment "cert-manager", deployment "cert-manager-webhook"} : Set _),
      owns dep (running "cert-manager-webhook-5d8fb-x7k2p" []) ↔
        dep = deployment "cert-manager-webhook") ∧
    ∃! dep, dep ∈ ({deployment "cert-manager", deployment "cert-manager-webhook"} : Set _) ∧
      owns dep (running "cert-manager-webhook-5d8fb-x7k2p" []) := by
  refine owns_unique {deployment "cert-manager", deployment "cert-manager-webhook"} ?_
    (deployment "cert-manager-webhook") (Or.inr rfl) _ ?_
  · rintro dep (rfl | rfl) dep' (rfl | rfl) h
    · rfl
    · simp [deployment] at h
    · simp [deployment] at h
    · rfl
  · exact ⟨rfl, "5d8fb", "x7k2p", by simp [HyphenFree], by simp [HyphenFree], rfl⟩

/-! ## Drift -/

theorem length_eraseDups_le_one_iff {α : Type*} [BEq α] [LawfulBEq α] {l : List α} :
    l.eraseDups.length ≤ 1 ↔ ∀ x ∈ l, ∀ y ∈ l, x = y := by
  cases l with
  | nil => simp
  | cons a l =>
    have hnil : ∀ m : List α, m.eraseDups.length = 0 ↔ m = [] := by
      intro m
      cases m <;> simp [List.eraseDups_cons]
    have hone : (a :: l).eraseDups.length ≤ 1 ↔ (l.filter fun b => !b == a) = [] := by
      rw [List.eraseDups_cons, List.length_cons, ← hnil]
      omega
    rw [hone, List.filter_eq_nil_iff]
    constructor
    · intro h x hx y hy
      have hall : ∀ z ∈ a :: l, z = a := by
        intro z hz
        rcases List.mem_cons.mp hz with rfl | hz
        · rfl
        · simpa using h z hz
      rw [hall x hx, hall y hy]
    · intro h x hx
      simp [h x (List.mem_cons_of_mem a hx) a List.mem_cons_self]

/-- The images of the pods taken for the Deployment's are all the same. -/
theorem rolloutDrift_eq_none_iff {dep : DeploymentInfo} (hupdated : dep.replicas ≤ dep.updated)
    (pods : List PodInfo) :
    rolloutDrift dep pods = none ↔
      ∀ p ∈ pods, owns dep p → ∀ q ∈ pods, owns dep q →
        ∀ image ∈ p.images, ∀ image' ∈ q.images, image = image' := by
  have hpooled : rolloutDrift dep pods = none ↔
      ((pods.filter (owns dep)).flatMap (·.images)).eraseDups.length ≤ 1 := by
    rw [rolloutDrift, if_neg (Nat.not_lt.mpr hupdated)]
    dsimp only
    rw [ite_eq_right_iff, ← Nat.not_lt]
    simp
  rw [hpooled, length_eraseDups_le_one_iff]
  simp only [List.mem_flatMap, List.mem_filter, forall_exists_index, and_imp]
  constructor
  · intro h p hp howns q hq howns' image himage image' himage'
    exact h image p hp howns himage image' q hq howns' himage'
  · intro h image p hp howns himage image' q hq howns' himage'
    exact h p hp howns q hq howns' image himage image' himage'

/-- The pod counts for the Deployment: it is its own, or its workload looks like a replica set. -/
def OwnedPod.Counts (dep : DeploymentInfo) (p : OwnedPod) : Prop :=
  p.owner = ownerOf dep ∨ LooksLike dep p.owner

theorem OwnedPod.owns_iff_counts (dep : DeploymentInfo) (p : OwnedPod) :
    owns dep p.pod ↔ p.Counts dep := by
  by_cases hkind : p.owner.kind = .deployment
  · rw [owns_of_deployment hkind p.named, Counts, or_iff_left]
    intro hlooks
    exact hlooks.1 hkind
  · rw [owns_of_other hkind p.named, Counts, or_iff_right]
    intro heq
    exact hkind (by rw [heq]; rfl)

/-- A Deployment whose pods run a single image is reported to drift exactly if a pod taken for
its own by mistake runs another one. -/
theorem rolloutDrift_single_image (dep : DeploymentInfo) (hupdated : dep.replicas ≤ dep.updated)
    (pods : List OwnedPod) (image : Option String)
    (hown : ∀ p ∈ pods, p.owner = ownerOf dep → ∀ i ∈ p.pod.images, i = image) :
    rolloutDrift dep (pods.map OwnedPod.pod) = none ↔
      ∀ p ∈ pods, LooksLike dep p.owner → ∀ q ∈ pods, q.Counts dep →
        ∀ i ∈ p.pod.images, ∀ j ∈ q.pod.images, i = j := by
  rw [rolloutDrift_eq_none_iff hupdated]
  simp only [List.forall_mem_map, OwnedPod.owns_iff_counts]
  constructor
  · intro h p hp hlooks q hq hcounts
    exact h p hp (Or.inr hlooks) q hq hcounts
  · intro h p hp hcounts q hq hcounts' i hi j hj
    rcases hcounts with heq | hlooks
    · rcases hcounts' with heq' | hlooks'
      · rw [hown p hp heq i hi, hown q hq heq' j hj]
      · exact (h q hq hlooks' p hp (Or.inl heq) j hj i hi).symm
    · exact h p hp hlooks q hq hcounts' i hi j hj

/-- A pod of the Deployment "web". -/
private def webPod (suffix : String) (hfree : HyphenFree suffix) (images : List (Option String)) :
    OwnedPod where
  owner := ownerOf (deployment "web")
  pod := running ("web-5d8fb-" ++ suffix) images
  named := ⟨rfl, "5d8fb", suffix, by simp [HyphenFree], hfree, by
    rw [running, ownerOf, deployment, ← String.toList_inj]
    simp [String.toList_append]⟩

/-- A pod of the DaemonSet "web-agent". -/
private def agentPod : OwnedPod where
  owner := ⟨.daemonSet, "default", "web-agent"⟩
  pod := running "web-agent-q8z4m" [some "agent:2.0"]
  named := ⟨rfl, "q8z4m", by simp [HyphenFree], rfl⟩

private theorem hyphenFree_x7k2p : HyphenFree "x7k2p" := by simp [HyphenFree]

private theorem hyphenFree_b9c4d : HyphenFree "b9c4d" := by simp [HyphenFree]

/-- A pod of the DaemonSet "web-proxy", which runs the image of the Deployment as well. -/
private def proxyPod : OwnedPod where
  owner := ⟨.daemonSet, "default", "web-proxy"⟩
  pod := running "web-proxy-w2k9d" [some "nginx:1.27"]
  named := ⟨rfl, "w2k9d", by simp [HyphenFree], rfl⟩

private theorem looksLike_proxyPod : LooksLike (deployment "web") proxyPod.owner := by
  refine ⟨by decide, rfl, "proxy", by simp [HyphenFree], ?_⟩
  rw [proxyPod, deployment, ← String.toList_inj]
  simp

/-- Two pods of one image each, next to a DaemonSet's pod that is taken for theirs. -/
theorem rolloutDrift_single_image_web :
    LooksLike (deployment "web") proxyPod.owner ∧
      rolloutDrift (deployment "web")
        ([webPod "x7k2p" hyphenFree_x7k2p [some "nginx:1.27"],
          webPod "b9c4d" hyphenFree_b9c4d [some "nginx:1.27"], proxyPod].map OwnedPod.pod) =
        none := by
  refine ⟨looksLike_proxyPod, (rolloutDrift_single_image (deployment "web") (Nat.le_refl 2)
    [webPod "x7k2p" hyphenFree_x7k2p [some "nginx:1.27"],
      webPod "b9c4d" hyphenFree_b9c4d [some "nginx:1.27"], proxyPod] (some "nginx:1.27") ?_).mpr ?_⟩
  · simp [webPod, proxyPod, running]
  · simp [webPod, proxyPod, running]

/-- Pods of one and the same list of images, reported as drift: once because of the pod of a
DaemonSet "web-agent", once because each pod has two containers. -/
theorem rolloutDrift_false_alarms :
    (∃ pods : List OwnedPod,
      (∀ p ∈ pods, p.owner = ownerOf (deployment "web") → p.pod.images = [some "nginx:1.27"]) ∧
      rolloutDrift (deployment "web") (pods.map OwnedPod.pod) =
        some "replicas running different image tags: nginx:1.27, agent:2.0") ∧
    ∃ pods : List OwnedPod,
      (∀ p ∈ pods, p.owner = ownerOf (deployment "web") →
        p.pod.images = [some "nginx:1.27", some "exporter:1.4"]) ∧
      rolloutDrift (deployment "web") (pods.map OwnedPod.pod) =
        some "replicas running different image tags: nginx:1.27, exporter:1.4" := by
  constructor
  · refine ⟨[webPod "x7k2p" hyphenFree_x7k2p [some "nginx:1.27"], agentPod], ?_, by decide +kernel⟩
    simp [webPod, agentPod, running, ownerOf]
  · refine ⟨[webPod "x7k2p" hyphenFree_x7k2p [some "nginx:1.27", some "exporter:1.4"],
      webPod "b9c4d" hyphenFree_b9c4d [some "nginx:1.27", some "exporter:1.4"]], ?_,
      by decide +kernel⟩
    simp [webPod, running]

end Rollout

end PiWatch
