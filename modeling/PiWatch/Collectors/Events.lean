import Mathlib.Data.List.Dedup
import PiWatch.Collectors.K8sWatch

/-!
# The events watch

Events are appended to a ring and nothing looks at what is already in it, while every list
hands the session all events the API server still has.
-/

namespace PiWatch

open ClusterState

namespace Events

/-- What tells two event objects apart: the uid, and the count of a repeated event. -/
def version (e : EventInfo) : String × ℕ := (e.uid, e.count)

/-- A call that stores an event. -/
def StoresEvent : Op → Prop
  | .addEvent .. => True
  | _ => False

/-- The state, with what the loop published and the versions it was handed so far. -/
structure Store where
  state : ClusterState
  published : List Body
  delivered : List (String × ℕ)

def Store.run (s : Store) (p : Published) (handed : List (String × ℕ)) : Store where
  state := p.1
  published := s.published ++ p.2.map (·.body)
  delivered := s.delivered ++ handed

def versionOf (ev : EvType) (r : CoreV1Event) : List (String × ℕ) :=
  if ev = .deleted then [] else [version (mapEvent r)]

/-- The state as the store of the events loop, next to calls of everything else. -/
def follower : Follower CoreV1Event.uid Store {op : Op // ¬ StoresEvent op} Unit where
  apply s ev r := s.run (K8sWatch.applyEvent s.state ev (mapEvent r) 0) (versionOf ev r)
  other s op := s.run (s.state.exec op.1) []
  view _ _ := none
  shown _ := none
  view_apply := by simp
  view_other := by simp

/-- Before the first list: any cluster, and a fresh state with its reloaded history. -/
def start (src : Source CoreV1Event.uid) (t : Time)
    (hist : Dict String (Ring historyLen Obj)) : Session CoreV1Event.uid Store where
  source := src
  phase := .idle
  pending := []
  seen := ∅
  store := ⟨{ ClusterState.init t with nodeHistory := hist }, [], []⟩

def publishedVersion : Body → Option (String × ℕ)
  | .event e => some (version e)
  | _ => none

/-- No event version is stored or published twice, and there are no more warnings than
versions delivered. -/
structure NoDuplicates (s : Store) : Prop where
  entries : s.state.events.items.Pairwise fun a b => a.uid ≠ b.uid ∨ a.count ≠ b.count
  published : (s.published.filterMap publishedVersion).Nodup
  warnings : s.state.events.items.countP (fun e => e.type = some "Warning") ≤
    s.delivered.dedup.length

/-- Nothing handed over has been handed over before with the same count. -/
def FreshVersions (sys : Session CoreV1Event.uid Store)
    (a : ListWatchAction String CoreV1Event {op : Op // ¬ StoresEvent op}) : Prop :=
  ∀ e ∈ sys.handed a, e.1 ≠ .deleted → version (mapEvent e.2) ∉ sys.store.delivered

/-! ## What the loop stores and publishes -/

/-- The loop stores and publishes every version it is handed. -/
structure Linked (s : Store) : Prop where
  published : s.published.filterMap publishedVersion = s.delivered
  entries : s.state.events.items.map version = s.delivered.rtake eventsLen

theorem linked_start (src : Source CoreV1Event.uid) (t : Time)
    (hist : Dict String (Ring historyLen Obj)) : Linked (start src t hist).store where
  published := rfl
  entries := (rtake_of_length_le (Nat.zero_le _)).symm

theorem linked_apply {s : Store} (h : Linked s) (ev : EvType) (r : CoreV1Event) :
    Linked (follower.apply s ev r) := by
  have hpub := h.published
  have hent := h.entries
  change Linked (s.run (K8sWatch.applyEvent s.state ev (mapEvent r) 0) (versionOf ev r))
  by_cases hev : ev = .deleted
  · rw [K8sWatch.applyEvent, versionOf, if_pos hev, if_pos hev]
    constructor
    · simpa [Store.run] using hpub
    · simpa [Store.run] using hent
  · rw [K8sWatch.applyEvent, versionOf, if_neg hev, if_neg hev]
    constructor
    · simp [Store.run, addEvent, hpub, publishedVersion]
    · simp only [Store.run, addEvent]
      rw [Ring.items_push, map_rtake, List.map_append, hent, rtake_rtake_append]
      rfl

private theorem publishedVersion_exec {s : ClusterState} {op : Op} (h : ¬ StoresEvent op) :
    ((s.exec op).2.map (·.body)).filterMap publishedVersion = [] := by
  cases op with
  | addEvent obj t => exact absurd trivial h
  | removeCheck name t =>
    simp only [exec, removeCheck]
    split <;> rfl
  | _ => rfl

private theorem events_step {s : ClusterState} {op : Op} (h : ¬ StoresEvent op) :
    (s.exec op).1.events = s.events := by
  cases op with
  | addEvent obj t => exact absurd trivial h
  | _ => rfl

theorem linked_other {s : Store} (h : Linked s) (op : {op : Op // ¬ StoresEvent op}) :
    Linked (follower.other s op) := by
  constructor
  · change (s.published ++ (s.state.exec op.1).2.map (·.body)).filterMap publishedVersion =
      s.delivered ++ []
    rw [List.filterMap_append, publishedVersion_exec op.2, List.append_nil, List.append_nil,
      h.published]
  · change (s.state.exec op.1).1.events.items.map version = (s.delivered ++ []).rtake eventsLen
    rw [events_step op.2, List.append_nil, h.entries]

private theorem linked_foldl {s : Store} (h : Linked s) (es : List (EvType × CoreV1Event)) :
    Linked (es.foldl (fun s e => follower.apply s e.1 e.2) s) := by
  induction es generalizing s with
  | nil => exact h
  | cons e es ih => exact ih (linked_apply h e.1 e.2)

theorem linked_step {sys : Session CoreV1Event.uid Store} (h : Linked sys.store)
    (a : ListWatchAction String CoreV1Event {op : Op // ¬ StoresEvent op}) :
    Linked (follower.step sys a).store := by
  rw [Follower.store_step]
  cases a with
  | other op => exact linked_other h op
  | _ => exact linked_foldl h _

private theorem delivered_foldl (s : Store) (es : List (EvType × CoreV1Event)) :
    (es.foldl (fun s e => follower.apply s e.1 e.2) s).delivered =
      s.delivered ++ es.flatMap fun e => versionOf e.1 e.2 := by
  induction es generalizing s with
  | nil => exact (List.append_nil _).symm
  | cons e es ih =>
    rw [List.foldl_cons, ih, List.flatMap_cons, ← List.append_assoc]
    rfl

/-- A step delivers the versions it hands over. -/
theorem delivered_step (sys : Session CoreV1Event.uid Store)
    (a : ListWatchAction String CoreV1Event {op : Op // ¬ StoresEvent op}) :
    (follower.step sys a).store.delivered =
      sys.store.delivered ++ (sys.handed a).flatMap fun e => versionOf e.1 e.2 := by
  rw [Follower.store_step]
  cases a with
  | other op => rfl
  | _ => exact delivered_foldl _ _

/-- Objects listed together have different uids. -/
private theorem nodup_handed (sys : Session CoreV1Event.uid Store)
    (a : ListWatchAction String CoreV1Event {op : Op // ¬ StoresEvent op}) :
    ((sys.handed a).flatMap fun e => versionOf e.1 e.2).Nodup := by
  cases a with
  | seed =>
    simp only [Session.handed]
    split
    · rename_i src _
      have hkeys : src.items.map CoreV1Event.uid = src.objects.keys := by
        rw [Source.items, Dict.values, Dict.keys, List.map_map]
        apply List.map_congr_left
        intro e he
        exact src.named e.1 e.2 (Dict.get?_eq_some_iff.mpr he)
      have huids : (src.items.map CoreV1Event.uid).Nodup := by
        rw [hkeys]
        exact src.objects.nodup
      have hflat : ((src.items.map fun r => (EvType.added, r)).flatMap
          fun e => versionOf e.1 e.2) = src.items.map fun r => version (mapEvent r) := by
        rw [List.flatMap_map, ← List.flatMap_pure_eq_map]
        rfl
      rw [hflat]
      exact List.Nodup.of_map Prod.fst (by rwa [List.map_map])
    · exact List.nodup_nil
  | deliver =>
    simp only [Session.handed]
    split
    · rename_i e _ _ _
      rw [List.flatMap_singleton, versionOf]
      split
      · exact List.nodup_nil
      · exact List.nodup_singleton _
    · exact List.nodup_nil
  | _ => exact List.nodup_nil

theorem nodup_delivered_step {sys : Session CoreV1Event.uid Store}
    (h : sys.store.delivered.Nodup)
    (a : ListWatchAction String CoreV1Event {op : Op // ¬ StoresEvent op}) :
    (follower.step sys a).store.delivered.Nodup ↔ FreshVersions sys a := by
  rw [delivered_step, List.nodup_append']
  constructor
  · intro hnodup e he hev hmem
    refine hnodup.2.2 hmem (List.mem_flatMap.mpr ⟨e, he, ?_⟩)
    rw [versionOf, if_neg hev]
    exact List.mem_singleton_self _
  · intro hfresh
    refine ⟨h, nodup_handed sys a, ?_⟩
    intro v hv hmem
    obtain ⟨e, he, hve⟩ := List.mem_flatMap.mp hmem
    rw [versionOf] at hve
    split at hve
    · cases hve
    · rename_i hev
      exact hfresh e he hev (List.mem_singleton.mp hve ▸ hv)

/-- There are duplicates exactly when some version was delivered twice. -/
theorem noDuplicates_iff {s : Store} (h : Linked s) :
    NoDuplicates s ↔ s.delivered.Nodup := by
  constructor
  · intro hnone
    have hpublished := hnone.published
    rwa [h.published] at hpublished
  · intro hnodup
    have hentries : (s.state.events.items.map version).Nodup := by
      rw [h.entries]
      exact hnodup.sublist (rtake_suffix _ _).sublist
    refine ⟨?_, ?_, ?_⟩
    · rw [List.Nodup, List.pairwise_map] at hentries
      refine hentries.imp fun hne => ?_
      rw [← not_and_or]
      intro heq
      exact hne (Prod.ext heq.1 heq.2)
    · rwa [h.published]
    · have hlen := congrArg List.length h.entries
      have hsub := (rtake_suffix s.delivered eventsLen).length_le
      rw [List.length_map] at hlen
      calc s.state.events.items.countP (fun e => e.type = some "Warning")
          ≤ s.state.events.items.length := List.countP_le_length
        _ ≤ s.delivered.length := hlen.trans_le hsub
        _ = s.delivered.dedup.length := by rw [List.dedup_eq_self.mpr hnodup]

/-- In every run of the loop there are never duplicates, exactly when no event is handed over
again with the count it had before. -/
theorem eventsWatch_noDuplicates_iff (src : Source CoreV1Event.uid) (t : Time)
    (hist : Dict String (Ring historyLen Obj))
    (as : List (ListWatchAction String CoreV1Event {op : Op // ¬ StoresEvent op})) :
    AlongRun follower.step (fun sys a => NoDuplicates (follower.step sys a).store)
      (start src t hist) as ↔
    AlongRun follower.step FreshVersions (start src t hist) as := by
  let Inv (sys : Session CoreV1Event.uid Store) := Linked sys.store ∧ sys.store.delivered.Nodup
  have hiff : ∀ sys a, Inv sys →
      (NoDuplicates (follower.step sys a).store ↔ FreshVersions sys a) := by
    intro sys a h
    rw [noDuplicates_iff (linked_step h.1 a), nodup_delivered_step h.2]
  have hstep : ∀ sys a, Inv sys → FreshVersions sys a → Inv (follower.step sys a) :=
    fun sys a h hfresh => ⟨linked_step h.1 a, (nodup_delivered_step h.2 a).mpr hfresh⟩
  exact alongRun_congr hiff hstep ⟨linked_start src t hist, List.nodup_nil⟩ as

private def backOff : CoreV1Event where
  uid := "e1"
  type := some "Warning"
  reason := some "BackOff"
  message := none
  involvedObject := ⟨"Pod", "web", some "default"⟩
  count := some 3
  lastTimestamp := none
  eventTime := none
  creationTimestamp := none

/-- One event, listed again unchanged after the watch has ended. -/
theorem eventsWatch_duplicates :
    ¬ ∀ (src : Source CoreV1Event.uid) (t : Time) (hist : Dict String (Ring historyLen Obj))
      (as : List (ListWatchAction String CoreV1Event {op : Op // ¬ StoresEvent op})),
      AlongRun follower.step (fun sys a => NoDuplicates (follower.step sys a).store)
        (start src t hist) as := by
  intro h
  obtain ⟨-, -, -, -, -, hlast, -⟩ := h ⟨∅, by simp⟩ 0 ∅
    [.put backOff, .list, .seed, .stop, .list, .seed]
  have hpublished := hlast.published
  exact absurd hpublished (by decide)

end Events

end PiWatch
