import PiWatch.Backend.Mappers
import PiWatch.Backend.Quantity
import PiWatch.Collectors.Polled

/-!
# The volume claim poll

The claims come from the Kubernetes API. If Prometheus is configured, two queries add how
full the volumes are; a failing query leaves the claims without usage.
-/

namespace PiWatch

namespace Pvc

structure ResourceRequirements where
  requests : Option (Dict String String)

structure PersistentVolumeClaim where
  ns : SegmentName
  name : SegmentName
  resources : Option ResourceRequirements
  storageClassName : Option String
  accessModes : Option (List String)
  volumeName : Option String
  phase : Option String
  capacity : Option (Dict String String)

/-- `f"{namespace}/{name}"`. -/
def PersistentVolumeClaim.key (p : PersistentVolumeClaim) : String :=
  identityKey (some p.ns, p.name)

/-- `parse_mem(q) if q else None`; without a value it raises. -/
def quantityBytes (q : Option String) : Option (Option PyFloat) :=
  match pyOr q none with
  | none => some none
  | some text => (parseMem text).map some

def requestedStorage (p : PersistentVolumeClaim) : Option String :=
  p.resources.bind fun r => (r.requests.getD ∅).get? "storage"

def declaredCapacity (p : PersistentVolumeClaim) : Option String :=
  p.capacity.bind fun c => c.get? "storage"

def mapPvc (p : PersistentVolumeClaim) : Option PvcInfo := do
  let requested ← quantityBytes (requestedStorage p)
  let capacity ← quantityBytes (declaredCapacity p)
  return {
    key := p.key
    name := p.name.text
    ns := p.ns.text
    phase := p.phase
    storageClass := p.storageClassName
    accessModes := p.accessModes.getD []
    volumeName := p.volumeName
    requestedBytes := requested
    capacityBytes := capacity
    usageBytes := none
    usagePct := none }

/-! ## Usage -/

/-- One result of an instant query: two of its labels, and the pair of time and value. -/
structure PromResult where
  ns : Option String
  claim : Option String
  value : Option (List Json)

/-- `float(value)` of what stands in a response. -/
def toFloat : Json → Except PyError PyFloat
  | .str s =>
    match PyFloat.ofString s with
    | some x => .ok x
    | none => .error .valueError
  | .num (.finite q) =>
    if (PyFloat.ofRat q).isFinite then .ok (PyFloat.ofRat q) else .error .overflowError
  | .num x => .ok x
  | .bool b => .ok (.finite (if b then 1 else 0))
  | _ => .error .typeError

/-- One result added to the map of a query; without a value that raises. -/
def addResult (values : Dict String PyFloat) (r : PromResult) : Option (Dict String PyFloat) :=
  match pyOr r.ns none, pyOr r.claim none, r.value with
  | some ns, some claim, some [_, value] =>
    match toFloat value with
    | .ok x => some (values.insert s!"{ns}/{claim}" x)
    | .error .typeError | .error .valueError => some values
    | .error _ => none
  | _, _, _ => some values

/-- `_query_prometheus`. A failed request, or a response of another shape, is no response. -/
def queryPrometheus (response : Option (List PromResult)) : Option (Dict String PyFloat) :=
  response.bind fun results => results.foldlM addResult ∅

/-- `declared * 1.5`: what a volume of this capacity may report at most. -/
def slack (declared : PyFloat) : PyFloat := declared.mul (.finite (3 / 2))

/-- A claim's usage, merged if both samples are there and the reported capacity can be the
claim's own. Without a value it raises. -/
def mergeItem (used capacity : Dict String PyFloat) (key : String) (item : PvcInfo) :
    Option PvcInfo :=
  match used.get? key, capacity.get? key, item.capacityBytes with
  | some u, some c, some declared =>
    if ¬ c.truthy ∨ ¬ declared.truthy ∨ (slack declared).lt c then some item
    else (((PyFloat.finite 100).mul u).div? declared).map fun pct =>
      { item with usageBytes := some u, usagePct := some (pct.round 1) }
  | _, _, _ => some item

/-- The loop of `_merge_prometheus_usage`, in place. A raising claim leaves the ones before it
merged. -/
def mergeLoop (used capacity : Dict String PyFloat) :
    Dict String PvcInfo → List String → Dict String PvcInfo
  | items, [] => items
  | items, key :: keys =>
    match items.get? key with
    | none => mergeLoop used capacity items keys
    | some item =>
      match mergeItem used capacity key item with
      | some item' => mergeLoop used capacity (items.insert key item') keys
      | none => items

/-! ## One poll -/

/-- What a poll meets: the listed claims, whether Prometheus is configured and the responses to
the two queries. Without a value the call or the request failed. -/
structure Poll where
  listing : Option (List PersistentVolumeClaim)
  prometheus : Bool
  used : Option (List PromResult)
  capacity : Option (List PromResult)

structure PollResult where
  calls : List Op
  queryFailed : Bool

/-- The body of the loop of `run`: the calls it makes, and whether it met a failing query. -/
def poll (p : Poll) (t : Time) : PollResult :=
  match refresh mapPvc PvcInfo.key p.listing with
  | none => ⟨[], false⟩
  | some items =>
    if p.prometheus then
      match queryPrometheus p.used with
      | none => ⟨[.setPvcs items t], true⟩
      | some used =>
        match queryPrometheus p.capacity with
        | none => ⟨[.setPvcs items t], true⟩
        | some capacity => ⟨[.setPvcs (mergeLoop used capacity items items.keys) t], false⟩
    else ⟨[.setPvcs items t], false⟩

/-! ## What a poll publishes -/

theorem mapPvc_eq_some {p : PersistentVolumeClaim} {info : PvcInfo} (h : mapPvc p = some info) :
    info.key = p.key ∧ info.usageBytes = none ∧ info.usagePct = none := by
  unfold mapPvc at h
  cases hr : quantityBytes (requestedStorage p) with
  | none => simp [hr] at h
  | some requested =>
    cases hc : quantityBytes (declaredCapacity p) with
    | none => simp [hr, hc] at h
    | some capacity =>
      simp only [hr, hc, Option.bind_eq_bind, Option.bind_some, Option.pure_def,
        Option.some.injEq] at h
      subst h
      exact ⟨rfl, rfl, rfl⟩

/-- A claim with a capacity never divides by zero: merging does not raise. -/
theorem isSome_mergeItem (used capacity : Dict String PyFloat) (key : String) (item : PvcInfo) :
    (mergeItem used capacity key item).isSome := by
  unfold mergeItem
  split
  · split
    · rfl
    · rename_i declared _ _ _ hguard
      rw [not_or, not_or, not_not, not_not] at hguard
      have hdeclared : declared ≠ .finite 0 := of_decide_eq_true hguard.2.1
      rw [Option.isSome_map]
      unfold PyFloat.div?
      split <;> first
        | rfl
        | exact absurd rfl hdeclared
  · rfl

/-- A claim after the merge. -/
def merged (used capacity : Dict String PyFloat) (key : String) (item : PvcInfo) : PvcInfo :=
  (mergeItem used capacity key item).getD item

theorem mergeItem_eq_some (used capacity : Dict String PyFloat) (key : String)
    (item : PvcInfo) :
    mergeItem used capacity key item = some (merged used capacity key item) := by
  obtain ⟨item', hitem'⟩ := Option.isSome_iff_exists.mp (isSome_mergeItem used capacity key item)
  rw [merged, hitem', Option.getD_some]

/-- The loop merges every claim it visits, and moves none. -/
theorem mergeLoop_spec (used capacity : Dict String PyFloat) {keys : List String}
    (hnodup : keys.Nodup) (items : Dict String PvcInfo) :
    (mergeLoop used capacity items keys).keys = items.keys ∧
    ∀ key, (mergeLoop used capacity items keys).get? key =
      if key ∈ keys then (items.get? key).map (merged used capacity key) else items.get? key := by
  induction keys generalizing items with
  | nil => simp [mergeLoop]
  | cons first keys ih =>
    rw [List.nodup_cons] at hnodup
    cases hfirst : items.get? first with
    | none =>
      obtain ⟨hkeys, hget⟩ := ih hnodup.2 items
      simp only [mergeLoop, hfirst]
      refine ⟨hkeys, fun key => ?_⟩
      rw [hget]
      by_cases hkey : key = first
      · simp [hkey, hnodup.1, hfirst]
      · simp [hkey]
    | some item =>
      obtain ⟨hkeys, hget⟩ :=
        ih hnodup.2 (items.insert first (merged used capacity first item))
      simp only [mergeLoop, hfirst, mergeItem_eq_some]
      refine ⟨?_, fun key => ?_⟩
      · rw [hkeys]
        have hmem : first ∈ items := by simp [Dict.mem_def, hfirst]
        exact Dict.keys_insert_of_mem _ _ (Dict.mem_iff_mem_keys.mp hmem)
      · rw [hget, Dict.get?_insert]
        by_cases hkey : key = first
        · simp [hkey, hnodup.1, hfirst]
        · simp [hkey]

end Pvc

end PiWatch
