import PiWatch.Framework.LastWrite
import PiWatch.Collectors.K8sWatch

/-!
# Sequences of `_apply` calls

The watch loops of the twelve kinds call `_apply` on one state in any order. Each kind's
calls are writes to its own collection, and the calls of one kind, in their order, fix what
it holds.
-/

namespace PiWatch

open ClusterState

namespace K8sWatch

/-- One call of `_apply`, with its clock reading. -/
inductive Call
  | object (k : ObjectKind) (ev : EvType) (obj : k.Slim) (t : Time)
  | event (ev : EvType) (obj : EventInfo) (t : Time)

namespace Call

def exec (s : ClusterState) : Call → Published
  | .object k ev obj t => apply s k ev obj t
  | .event ev obj t => applyEvent s ev obj t

/-- The state after one call. -/
def step (s : ClusterState) (c : Call) : ClusterState := (c.exec s).1

/-- The event type and object of a call for one kind. -/
def ofKind (k : ObjectKind) : Call → Option (EvType × k.Slim)
  | .object k' ev obj _ => if h : k' = k then some (ev, h ▸ obj) else none
  | .event .. => none

/-- The event object of a call that stores one. -/
def storedEvent : Call → Option EventInfo
  | .event ev obj _ => if ev = .deleted then none else some obj
  | .object .. => none

@[simp] theorem ofKind_self (k : ObjectKind) (ev : EvType) (obj : k.Slim) (t : Time) :
    (object k ev obj t).ofKind k = some (ev, obj) := by
  simp [ofKind]

/-- The write a call makes to the collection of its kind. -/
def write (k : ObjectKind) (c : EvType × k.Slim) : Write String k.Slim :=
  (k.objKey c.2, if c.1 = .deleted ∨ ¬ surfaced k c.2 then none else some c.2)

theorem collection_step_of_ofKind {k : ObjectKind} {s : ClusterState} {c : Call}
    {x : EvType × k.Slim} (h : c.ofKind k = some x) :
    k.collection (step s c) = (k.collection s).write (write k x) := by
  cases c with
  | event ev obj t => cases h
  | object k' ev obj t =>
    by_cases hk : k' = k
    · subst hk
      rw [ofKind_self, Option.some.injEq] at h
      subst h
      rw [step, exec, collection_apply, write, Dict.write]
      dsimp only
      split_ifs <;> rfl
    · rw [ofKind, dif_neg hk] at h
      cases h

/-- A call for one kind changes no other kind's collection. -/
theorem collection_step_of_ne {k : ObjectKind} {s : ClusterState} {c : Call}
    (h : c.ofKind k = none) : k.collection (step s c) = k.collection s := by
  cases c with
  | event ev obj t =>
    rw [step, exec, applyEvent]
    split_ifs <;> cases k <;> rfl
  | object k' ev obj t =>
    have hk : k' ≠ k := by
      intro heq
      subst heq
      rw [ofKind_self] at h
      cases h
    cases k' <;> cases k <;> first
      | exact absurd rfl hk
      | (simp only [step, exec, apply]; split_ifs <;> rfl)

theorem events_step (s : ClusterState) (c : Call) :
    (step s c).events = match c.storedEvent with
      | none => s.events
      | some obj => s.events.push obj := by
  cases c with
  | object k ev obj t => cases k <;> simp only [step, exec, apply] <;> split_ifs <;> rfl
  | event ev obj t =>
    rw [step, exec, applyEvent, storedEvent]
    split_ifs <;> rfl

/-- Only removing a pod touches the pod metrics, and then only that pod's entry. -/
theorem podMetrics_step (s : ClusterState) (c : Call) :
    (step s c).podMetrics = match c.ofKind .pods with
      | some (.deleted, obj) => s.podMetrics.erase obj.key
      | _ => s.podMetrics := by
  cases c with
  | event ev obj t =>
    rw [step, exec, applyEvent]
    split_ifs <;> rfl
  | object k ev obj t =>
    cases k <;> cases ev <;> simp only [step, exec, apply] <;> first
      | rfl
      | (split_ifs <;> rfl)

end Call

/-! ## What a sequence of calls leaves -/

/-- The calls for one kind, in order. -/
def callsOf (k : ObjectKind) (calls : List Call) : List (EvType × k.Slim) :=
  calls.filterMap (Call.ofKind k)

/-- The last call for a kind and key. -/
def lastCall (k : ObjectKind) (key : String) (calls : List Call) : Option (EvType × k.Slim) :=
  ((callsOf k calls).filter fun c => k.objKey c.2 = key).getLast?

theorem lastCall_concat (k : ObjectKind) (key : String) (calls : List Call) (c : Call) :
    lastCall k key (calls ++ [c]) = match c.ofKind k with
      | some x => if k.objKey x.2 = key then some x else lastCall k key calls
      | none => lastCall k key calls := by
  rw [lastCall, lastCall, callsOf, callsOf, List.filterMap_append, List.filter_append]
  cases hc : c.ofKind k with
  | none => simp [hc]
  | some x => by_cases hkey : k.objKey x.2 = key <;> simp [hc, hkey]

/-- The event objects stored by a sequence of calls, in call order. -/
def storedEvents (calls : List Call) : List EventInfo := calls.filterMap Call.storedEvent

/-- A kind's calls alone fix its collection, in their order and whatever lies in between. -/
theorem collection_run (k : ObjectKind) (s : ClusterState) (calls : List Call) :
    k.collection (runFrom Call.step s calls) =
      runFrom Dict.write (k.collection s) ((callsOf k calls).map (Call.write k)) := by
  induction calls generalizing s with
  | nil => rfl
  | cons c calls ih =>
    rw [runFrom_cons, ih, callsOf, callsOf, List.filterMap_cons]
    cases hc : c.ofKind k with
    | none => rw [Call.collection_step_of_ne hc]
    | some x => rw [Call.collection_step_of_ofKind hc, List.map_cons, runFrom_cons]

theorem events_run (s : ClusterState) (calls : List Call) :
    (runFrom Call.step s calls).events = s.events.extend (storedEvents calls) := by
  induction calls generalizing s with
  | nil => rfl
  | cons c calls ih =>
    rw [runFrom_cons, ih, Call.events_step, storedEvents, storedEvents, List.filterMap_cons]
    cases c.storedEvent <;> rfl

theorem lastWrite_callsOf (k : ObjectKind) (key : String) (calls : List Call) :
    lastWrite ((callsOf k calls).map (Call.write k)) key =
      (lastCall k key calls).map fun c => (Call.write k c).2 := by
  rw [lastWrite, lastCall, List.filter_map, List.getLast?_map, Option.map_map]
  rfl

/-- From an empty state, a key holds the object of its last call, if that call was no
deletion and its object passes the kind's filter. -/
theorem get?_collection_run {k : ObjectKind} {s : ClusterState} (h : k.collection s = ∅)
    (calls : List Call) (key : String) (obj : k.Slim) :
    (k.collection (runFrom Call.step s calls)).get? key = some obj ↔
      ∃ ev, lastCall k key calls = some (ev, obj) ∧ ev ≠ .deleted ∧ surfaced k obj := by
  rw [collection_run, get?_runFrom_write, lastWrite_callsOf, h, Dict.get?_empty]
  cases hlast : lastCall k key calls with
  | none => simp
  | some c =>
    obtain ⟨ev, last⟩ := c
    simp only [Option.map_some, Option.getD_some, Call.write]
    split_ifs with hgone
    · simp only [false_iff, not_exists, not_and]
      intro ev' heq hev
      obtain ⟨rfl, rfl⟩ := Prod.mk.inj (Option.some.inj heq)
      exact (hgone.resolve_left hev)
    · rw [not_or, not_not] at hgone
      constructor
      · intro hobj
        obtain rfl := Option.some.inj hobj
        exact ⟨ev, rfl, hgone.1, hgone.2⟩
      · intro hcall
        obtain ⟨ev', heq, -, -⟩ := hcall
        exact congrArg some (Prod.mk.inj (Option.some.inj heq)).2

private theorem collection_init (k : ObjectKind) (t : Time) :
    k.collection (ClusterState.init t) = ∅ := by
  cases k <;> rfl

/-- Every interleaving of `_apply` calls from an empty state: each collection holds exactly the
surfaced objects of the last calls, the events are the last 200 stored ones, each call
leaves the other kinds alone, and the order of calls of different kinds does not matter. -/
theorem apply_run (t : Time) (calls : List Call) :
    (∀ (k : ObjectKind) key, key ∈ k.collection (runFrom Call.step (ClusterState.init t) calls) ↔
      ∃ ev obj, lastCall k key calls = some (ev, obj) ∧ ev ≠ .deleted ∧ surfaced k obj) ∧
    (∀ (k : ObjectKind) key obj,
      (k.collection (runFrom Call.step (ClusterState.init t) calls)).get? key = some obj →
      ∃ ev, lastCall k key calls = some (ev, obj)) ∧
    (runFrom Call.step (ClusterState.init t) calls).events.items =
      (storedEvents calls).rtake 200 ∧
    (∀ s (c : Call) k, c.ofKind k = none → k.collection (Call.step s c) = k.collection s) ∧
    (∀ s (c : Call), c.storedEvent = none → (Call.step s c).events = s.events) ∧
    (∀ s (c : Call), (Call.step s c).podMetrics = match c.ofKind .pods with
      | some (.deleted, obj) => s.podMetrics.erase obj.key
      | _ => s.podMetrics) ∧
    (∀ calls', (∀ k key, lastCall k key calls' = lastCall k key calls) → ∀ k : ObjectKind,
      (k.collection (runFrom Call.step (ClusterState.init t) calls')).SameMap
        (k.collection (runFrom Call.step (ClusterState.init t) calls))) ∧
    (∀ calls', (∀ k : ObjectKind, callsOf k calls' = callsOf k calls) →
      storedEvents calls' = storedEvents calls →
      (∀ k : ObjectKind, k.collection (runFrom Call.step (ClusterState.init t) calls') =
        k.collection (runFrom Call.step (ClusterState.init t) calls)) ∧
      (runFrom Call.step (ClusterState.init t) calls').events =
        (runFrom Call.step (ClusterState.init t) calls).events) := by
  have hvalue : ∀ cs (k : ObjectKind) key obj,
      (k.collection (runFrom Call.step (ClusterState.init t) cs)).get? key = some obj ↔
        ∃ ev, lastCall k key cs = some (ev, obj) ∧ ev ≠ .deleted ∧ surfaced k obj :=
    fun cs k key obj => get?_collection_run (collection_init k t) cs key obj
  refine ⟨?_, ?_, ?_, fun _ _ _ h => Call.collection_step_of_ne h, ?_, Call.podMetrics_step,
    ?_, ?_⟩
  · intro k key
    rw [Dict.mem_def, Option.isSome_iff_exists]
    constructor
    · intro hmem
      obtain ⟨obj, hobj⟩ := hmem
      obtain ⟨ev, hcall⟩ := (hvalue calls k key obj).mp hobj
      exact ⟨ev, obj, hcall⟩
    · intro hcall
      obtain ⟨ev, obj, hlast⟩ := hcall
      exact ⟨obj, (hvalue calls k key obj).mpr ⟨ev, hlast⟩⟩
  · intro k key obj hobj
    obtain ⟨ev, hlast, -⟩ := (hvalue calls k key obj).mp hobj
    exact ⟨ev, hlast⟩
  · rw [events_run, Ring.items_extend]
    rfl
  · intro s c hc
    rw [Call.events_step, hc]
  · intro calls' hlast k key
    apply Option.ext
    intro obj
    rw [hvalue, hvalue, hlast]
  · intro calls' hcalls hevents
    constructor
    · intro k
      rw [collection_run, collection_run, hcalls]
    · rw [events_run, events_run, hevents]

end K8sWatch

end PiWatch
