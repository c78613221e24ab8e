import PiWatch.Collectors.Metrics

/-!
# Which polls record every item

A raising node item loses the node items after it and every pod item, a raising pod item the
pod items after it.
-/

namespace PiWatch

namespace Metrics

/-- The items of a response. -/
def itemsOf {α : Type} (response : Field (List α)) : List α := response.get.getD []

/-- What a poll records of a node item that is the only one. -/
def nodeAlone (nodes : Dict String NodeInfo) (item : NodeMetrics) : List Sample :=
  poll nodes ⟨some (.val [item]), some .absent⟩

/-- What a poll records of a pod item that is the only one. -/
def podAlone (nodes : Dict String NodeInfo) (item : PodMetrics) : List Sample :=
  poll nodes ⟨some .absent, some (.val [item])⟩

/-- The poll records of every item what it records of that item alone. -/
def Isolated (nodes : Dict String NodeInfo) (ns : Field (List NodeMetrics))
    (ps : Field (List PodMetrics)) : Prop :=
  poll nodes ⟨some ns, some ps⟩ =
    (itemsOf ns).flatMap (nodeAlone nodes) ++ (itemsOf ps).flatMap (podAlone nodes)

/-- No item that would be recorded comes after one that ends the poll. -/
structure NothingLost (nodes : Dict String NodeInfo) (ns : Field (List NodeMetrics))
    (ps : Field (List PodMetrics)) : Prop where
  nodeItems : ∀ pre item post, itemsOf ns = pre ++ item :: post → item.Raises nodes →
    ∀ later ∈ post, ¬ later.Recorded nodes
  podItems : ∀ pre item post, itemsOf ps = pre ++ item :: post → item.Raises →
    ∀ later ∈ post, ¬ later.Recorded
  afterNodes : ns = .null ∨ (∃ item ∈ itemsOf ns, item.Raises nodes) →
    ∀ pod ∈ itemsOf ps, ¬ pod.Recorded

theorem pollPods_eq (ps : Field (List PodMetrics)) :
    pollPods (some ps) = (runItems recordPod (itemsOf ps)).1 := by
  cases ps <;> rfl

theorem poll_eq (nodes : Dict String NodeInfo) {ns : Field (List NodeMetrics)}
    (ps : Field (List PodMetrics)) (h : ns ≠ .null) :
    poll nodes ⟨some ns, some ps⟩ =
      runBoth (recordNode nodes) (itemsOf ns) recordPod (itemsOf ps) := by
  rw [runBoth, ← pollPods_eq]
  cases ns with
  | null => exact absurd rfl h
  | absent => rfl
  | val items =>
    have hitems : itemsOf (.val items) = items := rfl
    rw [hitems, poll]
    simp only [Option.bind_some, Field.getOr]
    obtain ⟨made, _ | e⟩ := runItems (recordNode nodes) items <;> rfl

theorem nodeAlone_eq (nodes : Dict String NodeInfo) (item : NodeMetrics) :
    nodeAlone nodes item = alone (recordNode nodes) item := by
  have hpods : (runItems recordPod (itemsOf .absent)).1 = [] := rfl
  rw [nodeAlone, poll_eq nodes _ (by simp), alone, runBoth, hpods]
  split <;> simp_all [itemsOf, Field.get]

theorem podAlone_eq (nodes : Dict String NodeInfo) (item : PodMetrics) :
    podAlone nodes item = alone recordPod item := by
  rw [podAlone, poll_eq nodes _ (by simp)]
  rfl

private theorem nodeItems_iff (nodes : Dict String NodeInfo) (items : List NodeMetrics) :
    (runItems (recordNode nodes) items).1 = items.flatMap (alone (recordNode nodes)) ↔
      ∀ pre item post, items = pre ++ item :: post → item.Raises nodes →
        ∀ later ∈ post, ¬ later.Recorded nodes := by
  simp only [runItems_eq_flatMap_iff, recordNode_raises_iff, alone_recordNode_iff]

private theorem podItems_iff (items : List PodMetrics) :
    (runItems recordPod items).1 = items.flatMap (alone recordPod) ↔
      ∀ pre item post, items = pre ++ item :: post → item.Raises →
        ∀ later ∈ post, ¬ later.Recorded := by
  simp only [runItems_eq_flatMap_iff, recordPod_raises_iff, alone_recordPod_iff]

/-- A poll records of every item what it records of it alone exactly if no item that would be
recorded comes after one that ends the poll. -/
theorem poll_isolated_iff (nodes : Dict String NodeInfo) (ns : Field (List NodeMetrics))
    (ps : Field (List PodMetrics)) : Isolated nodes ns ps ↔ NothingLost nodes ns ps := by
  have hnodeAlone : nodeAlone nodes = alone (recordNode nodes) := funext (nodeAlone_eq nodes)
  have hpodAlone : podAlone nodes = alone recordPod := funext (podAlone_eq nodes)
  unfold Isolated
  rw [hnodeAlone, hpodAlone]
  by_cases hnull : ns = .null
  · subst hnull
    have hpoll : poll nodes ⟨some .null, some ps⟩ = [] := rfl
    have hitems : itemsOf (.null : Field (List NodeMetrics)) = [] := rfl
    rw [hpoll, hitems, List.flatMap_nil, List.nil_append, eq_comm, List.flatMap_eq_nil_iff]
    simp only [alone_recordPod_iff]
    constructor
    · intro hnone
      refine ⟨by simp [hitems], ?_, fun _ => hnone⟩
      intro pre item post heq _ later hlater
      exact hnone later (by simp [heq, hlater])
    · intro hlost
      exact hlost.afterNodes (Or.inl rfl)
  · rw [poll_eq nodes ps hnull, runBoth_eq_flatMap_iff, nodeItems_iff, podItems_iff]
    simp only [recordNode_raises_iff, alone_recordPod_iff]
    constructor
    · intro h
      exact ⟨h.1.1, h.1.2, fun hraise => h.2 (hraise.resolve_left hnull)⟩
    · intro h
      exact ⟨⟨h.nodeItems, h.podItems⟩, fun hraise => h.afterNodes (Or.inr hraise)⟩

private def item (name : String) : NodeMetrics where
  metadata := .val ⟨none, some name⟩
  usage := .val ⟨.val "250m", .val "512Mi"⟩

private def noCapacity : NodeInfo where
  name := "rpi-1"
  ready := true
  conditions := ∅
  roles := []
  arch := none
  kubelet := none
  osImage := none
  internalIp := none
  cpuCapacity := some "0"
  memCapacity := some "8Gi"
  unschedulable := false
  taints := []
  created := none

/-- A node without CPU keeps a poll from recording the node after it. -/
theorem poll_loses_nodes :
    ¬ Isolated (Dict.ofList [("rpi-1", noCapacity)]) (.val [item "rpi-1", item "rpi-2"])
      (.val []) := by
  unfold Isolated
  decide +kernel

end Metrics

end PiWatch
