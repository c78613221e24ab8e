import PiWatch.Backend.FiniteState
import PiWatch.Collectors.Pvc
import PiWatch.Framework.LastWrite

/-!
# What a poll merges into the claims

A response may have several results for one claim, and results without a number. What a poll
publishes has only finite numbers exactly if every usage it merges is in range.
-/

namespace PiWatch

namespace Pvc

/-! ## Responses -/

/-- The claim a result names, and what `float` makes of its value. -/
def PromResult.reading (r : PromResult) : Option (String × Except PyError PyFloat) :=
  match pyOr r.ns none, pyOr r.claim none, r.value with
  | some ns, some claim, some [_, value] => some (s!"{ns}/{claim}", toFloat value)
  | _, _, _ => none

/-- A number no float can hold: a response with one fails as a whole. -/
def PromResult.Overflows (r : PromResult) : Prop :=
  ∃ key, r.reading = some (key, .error .overflowError)

/-- A result with a number, as a write to the map of its query. -/
def PromResult.write (r : PromResult) : Option (Write String PyFloat) :=
  match r.reading with
  | some (key, .ok x) => some (key, some x)
  | _ => none

/-- The last number a response has for a claim. -/
def lastSample (results : List PromResult) (key : String) : Option PyFloat :=
  (lastWrite (results.filterMap PromResult.write) key).getD none

private theorem toFloat_error {value : Json} {e : PyError} (h : toFloat value = .error e) :
    e = .valueError ∨ e = .overflowError ∨ e = .typeError := by
  unfold toFloat at h
  split at h
  · split at h
    · cases h
    · exact Or.inl (Except.error.inj h).symm
  · split at h
    · cases h
    · exact Or.inr (Or.inl (Except.error.inj h).symm)
  · cases h
  · cases h
  · exact Or.inr (Or.inr (Except.error.inj h).symm)

private theorem addResult_of_reading_none {r : PromResult} (h : r.reading = none)
    (values : Dict String PyFloat) : addResult values r = some values := by
  unfold addResult
  split
  · rename_i hns hclaim hvalue
    simp [PromResult.reading, hns, hclaim, hvalue] at h
  · rfl

/-- What a reading does to the map. -/
private def addReading (values : Dict String PyFloat) (key : String) :
    Except PyError PyFloat → Option (Dict String PyFloat)
  | .ok x => some (values.insert key x)
  | .error .typeError | .error .valueError => some values
  | .error _ => none

private theorem addResult_of_reading {r : PromResult} {key : String}
    {x : Except PyError PyFloat} (h : r.reading = some (key, x)) (values : Dict String PyFloat) :
    addResult values r = addReading values key x := by
  unfold PromResult.reading at h
  split at h
  · rename_i ns claim t value hns hclaim hvalue
    obtain ⟨rfl, rfl⟩ := Prod.mk.inj (Option.some.inj h)
    simp only [addResult, hns, hclaim, hvalue]
    rfl
  · cases h

private theorem toFloat_error_of_reading {r : PromResult} {key : String} {e : PyError}
    (h : r.reading = some (key, .error e)) :
    e = .valueError ∨ e = .overflowError ∨ e = .typeError := by
  unfold PromResult.reading at h
  split at h
  · exact toFloat_error (Prod.mk.inj (Option.some.inj h)).2
  · cases h

/-- A result is skipped, stops the query or writes its number. -/
private theorem addResult_eq (values : Dict String PyFloat) (r : PromResult) :
    (r.Overflows ∧ addResult values r = none) ∨
    (¬ r.Overflows ∧
      addResult values r = some (runFrom Dict.write values r.write.toList)) := by
  unfold PromResult.Overflows PromResult.write
  cases hr : r.reading with
  | none => exact Or.inr ⟨by simp, addResult_of_reading_none hr values⟩
  | some reading =>
    obtain ⟨key, x⟩ := reading
    rw [addResult_of_reading hr]
    cases x with
    | ok x => exact Or.inr ⟨by simp, rfl⟩
    | error e =>
      rcases toFloat_error_of_reading hr with rfl | rfl | rfl
      · exact Or.inr ⟨by simp, rfl⟩
      · exact Or.inl ⟨⟨key, rfl⟩, rfl⟩
      · exact Or.inr ⟨by simp, rfl⟩

private theorem foldlM_addResult (results : List PromResult) (values d : Dict String PyFloat) :
    results.foldlM addResult values = some d ↔
      (∀ r ∈ results, ¬ r.Overflows) ∧
        d = runFrom Dict.write values (results.filterMap PromResult.write) := by
  induction results generalizing values with
  | nil => simp [eq_comm]
  | cons r results ih =>
    rw [List.foldlM_cons, List.forall_mem_cons]
    rcases addResult_eq values r with ⟨hover, hadd⟩ | ⟨hover, hadd⟩
    · simp [hadd, hover]
    · rw [hadd, Option.bind_eq_bind, Option.bind_some, ih, and_iff_right hover]
      cases hwrite : r.write with
      | none => simp [hwrite]
      | some w => simp [hwrite]

/-- A query yields a map if no result overflows, and the map has the last sample of each claim. -/
theorem queryPrometheus_eq_some {response : Option (List PromResult)} {d : Dict String PyFloat}
    (h : queryPrometheus response = some d) : ∃ results, response = some results ∧
      (∀ r ∈ results, ¬ r.Overflows) ∧ ∀ key, d.get? key = lastSample results key := by
  obtain ⟨results, rfl, hfold⟩ := Option.bind_eq_some_iff.mp h
  obtain ⟨hover, rfl⟩ := (foldlM_addResult results ∅ d).mp hfold
  refine ⟨results, rfl, hover, fun key => ?_⟩
  rw [get?_runFrom_write, Dict.get?_empty, lastSample]

theorem isSome_queryPrometheus {results : List PromResult}
    (h : ∀ r ∈ results, ¬ r.Overflows) : (queryPrometheus (some results)).isSome :=
  Option.isSome_iff_exists.mpr ⟨_, (foldlM_addResult results ∅ _).mpr ⟨h, rfl⟩⟩

/-! ## Merged claims -/

/-- The usage is finite and so is its percentage of the capacity: neither `100 * u` nor the
quotient rounds out of the range of a double. -/
def InRange (u declared : PyFloat) : Prop :=
  ∃ q d, u = .finite q ∧ declared = .finite d ∧ |100 * q| < PyFloat.overflowLimit ∧
    |PyFloat.nearest (100 * q) / d| < PyFloat.overflowLimit

private theorem isFinite_of_mapped {q : Option String} {o : Option PyFloat}
    (h : quantityBytes q = some o) : ∀ x ∈ o, x.isFinite := by
  unfold quantityBytes at h
  split at h
  · rw [← Option.some.inj h]
    simp
  · obtain ⟨x, hx, rfl⟩ := Option.map_eq_some_iff.mp h
    intro y hy
    rw [← Option.some.inj hy]
    exact isFinite_parseWith hx

theorem mapPvc_bytes {p : PersistentVolumeClaim} {info : PvcInfo} (h : mapPvc p = some info) :
    quantityBytes (requestedStorage p) = some info.requestedBytes ∧
    quantityBytes (declaredCapacity p) = some info.capacityBytes := by
  unfold mapPvc at h
  simp only [Option.bind_eq_bind, Option.bind_eq_some_iff] at h
  obtain ⟨requested, hrequested, capacity, hcapacity, h⟩ := h
  obtain rfl := Option.some.inj h
  exact ⟨hrequested, hcapacity⟩

theorem finite_mapPvc {p : PersistentVolumeClaim} {info : PvcInfo} (h : mapPvc p = some info) :
    info.Finite := by
  obtain ⟨hrequested, hcapacity⟩ := mapPvc_bytes h
  obtain ⟨-, husage, hpct⟩ := mapPvc_eq_some h
  refine ⟨isFinite_of_mapped hrequested, isFinite_of_mapped hcapacity, ?_, ?_⟩
  · simp [husage]
  · simp [hpct]

private theorem percent_eq {q d : ℚ} {pct : PyFloat}
    (hproduct : (PyFloat.ofRat (100 * q)).isFinite)
    (h : ((PyFloat.finite 100).mul (.finite q)).div? (.finite d) = some pct) :
    pct = PyFloat.ofRat (PyFloat.nearest (100 * q) / d) := by
  have hd : d ≠ 0 := by
    rintro rfl
    rw [PyFloat.div?_eq_none_iff.mpr rfl] at h
    cases h
  rw [PyFloat.mul, PyFloat.ofRat_eq, if_pos (PyFloat.isFinite_ofRat.mp hproduct),
    PyFloat.div?_finite hd] at h
  exact (Option.some.inj h).symm

/-- A merged usage and its percentage are finite exactly if they are in range. -/
private theorem inRange_iff {u declared pct : PyFloat} (hdeclared : declared.isFinite)
    (h : ((PyFloat.finite 100).mul u).div? declared = some pct) :
    InRange u declared ↔ u.isFinite ∧ (pct.round 1).isFinite := by
  constructor
  · intro hrange
    obtain ⟨q, d, rfl, rfl, hmul, hdiv⟩ := hrange
    have hproduct : (PyFloat.ofRat (100 * q)).isFinite := (PyFloat.isFinite_ofRat_iff _).mpr hmul
    rw [percent_eq hproduct h, PyFloat.isFinite_round_ofRat]
    exact ⟨rfl, (PyFloat.isFinite_ofRat_iff _).mpr hdiv⟩
  · intro hfinite
    obtain ⟨hu, hpct⟩ := hfinite
    cases declared with
    | finite d =>
      cases u with
      | finite q =>
        have hproduct : (PyFloat.ofRat (100 * q)).isFinite := by
          refine PyFloat.isFinite_left_of_div? rfl h ?_
          cases pct with
          | finite r => rfl
          | _ => cases hpct
        rw [percent_eq hproduct h, PyFloat.isFinite_round_ofRat] at hpct
        exact ⟨q, d, rfl, rfl, (PyFloat.isFinite_ofRat_iff _).mp hproduct,
          (PyFloat.isFinite_ofRat_iff _).mp hpct⟩
      | _ => cases hu
    | _ => cases hdeclared

/-- The samples and the capacity with which the usage is merged: the reported capacity counts
unless it is zero, and is not above one and a half times the declared one. -/
structure Counts (limit declared : PyFloat) : Prop where
  reported : limit.truthy
  nonzero : declared.truthy
  within : (slack declared).lt limit = false

private theorem not_guard_iff {limit declared : PyFloat} :
    ¬ (¬ limit.truthy ∨ ¬ declared.truthy ∨ (slack declared).lt limit) ↔
      Counts limit declared := by
  rw [not_or, not_or, not_not, not_not, Bool.not_eq_true]
  constructor
  · intro h
    exact ⟨h.1, h.2.1, h.2.2⟩
  · intro h
    exact ⟨h.reported, h.nonzero, h.within⟩

private theorem finite_withUsage_iff {item : PvcInfo} (hitem : item.Finite) (u pct : PyFloat) :
    { item with usageBytes := some u, usagePct := some pct }.Finite ↔
      u.isFinite ∧ pct.isFinite := by
  constructor
  · intro hfinite
    exact ⟨hfinite.usage u rfl, hfinite.pct pct rfl⟩
  · intro h
    refine ⟨hitem.requested, hitem.capacity, fun x hx => ?_, fun x hx => ?_⟩
    · rw [← Option.some.inj hx]
      exact h.1
    · rw [← Option.some.inj hx]
      exact h.2

/-- A mapped claim keeps its finite numbers exactly if a usage merged into it is in range. -/
private theorem finite_merged_iff (used capacity : Dict String PyFloat) (key : String)
    {item : PvcInfo} (hitem : item.Finite) :
    (merged used capacity key item).Finite ↔
      ∀ u limit declared, used.get? key = some u → capacity.get? key = some limit →
        item.capacityBytes = some declared → Counts limit declared → InRange u declared := by
  have hmerge := mergeItem_eq_some used capacity key item
  unfold mergeItem at hmerge
  split at hmerge
  · rename_i u limit declared hu hlimit hdeclared
    -- the samples are there, so the quantifiers are about them
    have hsamples : (∀ u' limit' declared', used.get? key = some u' →
        capacity.get? key = some limit' → item.capacityBytes = some declared' →
          Counts limit' declared' → InRange u' declared') ↔
        (Counts limit declared → InRange u declared) := by
      rw [hu, hlimit, hdeclared]
      constructor
      · intro h
        exact h u limit declared rfl rfl rfl
      · intro h u' limit' declared' hu' hlimit' hdeclared'
        obtain rfl := Option.some.inj hu'
        obtain rfl := Option.some.inj hlimit'
        obtain rfl := Option.some.inj hdeclared'
        exact h
    rw [hsamples]
    split at hmerge
    · rename_i hguard
      rw [← Option.some.inj hmerge]
      exact iff_of_true hitem fun hcounts => absurd hguard (not_guard_iff.mpr hcounts)
    · rename_i hguard
      obtain ⟨pct, hpct, hinfo⟩ := Option.map_eq_some_iff.mp hmerge
      rw [← hinfo, finite_withUsage_iff hitem, imp_iff_right (not_guard_iff.mp hguard),
        inRange_iff (hitem.capacity declared hdeclared) hpct]
  · rename_i hmissing
    rw [← Option.some.inj hmerge]
    refine iff_of_true hitem fun u limit declared hu hlimit hdeclared _ => ?_
    exact absurd hdeclared (hmissing u limit declared hu hlimit)

/-! ## One poll -/

/-- The last of the listed claims with a key. -/
def lastListed (claims : List PersistentVolumeClaim) (key : String) :
    Option PersistentVolumeClaim :=
  (claims.filter fun c => c.key = key).getLast?

/-- A poll that gets through its requests and merges the usage `u` into the claim `c`. -/
structure Poll.Merges (p : Poll) (c : PersistentVolumeClaim) (u declared : PyFloat) : Prop where
  prometheus : p.prometheus
  listed : ∃ claims, p.listing = some claims ∧ (∀ c ∈ claims, (mapPvc c).isSome) ∧
    lastListed claims c.key = some c
  used : ∃ results, p.used = some results ∧ (∀ r ∈ results, ¬ r.Overflows) ∧
    lastSample results c.key = some u
  capacity : ∃ results limit, p.capacity = some results ∧ (∀ r ∈ results, ¬ r.Overflows) ∧
    lastSample results c.key = some limit ∧ Counts limit declared
  declared : quantityBytes (declaredCapacity c) = some (some declared)

/-- Every usage a poll merges is in range. -/
def Poll.UsageInRange (p : Poll) : Prop :=
  ∀ c u declared, p.Merges c u declared → InRange u declared

private theorem listed_of_refresh {listing : Option (List PersistentVolumeClaim)}
    {items : Dict String PvcInfo} (h : refresh mapPvc PvcInfo.key listing = some items) :
    ∃ claims, listing = some claims ∧ (∀ c ∈ claims, (mapPvc c).isSome) ∧
      ∀ key, items.get? key = (lastListed claims key).bind mapPvc := by
  obtain ⟨claims, rfl, hmapped⟩ := isSome_refresh_iff.mp (Option.isSome_iff_exists.mpr ⟨items, h⟩)
  exact ⟨claims, rfl, hmapped,
    fun key => get?_refresh (fun _ _ hmap => (mapPvc_eq_some hmap).1) h key⟩

private theorem mem_of_lastListed {claims : List PersistentVolumeClaim} {key : String}
    {c : PersistentVolumeClaim} (h : lastListed claims key = some c) : c ∈ claims :=
  (List.mem_filter.mp (List.mem_of_getLast? h)).1

private theorem key_of_lastListed {claims : List PersistentVolumeClaim} {key : String}
    {c : PersistentVolumeClaim} (h : lastListed claims key = some c) : c.key = key := by
  have hmem := (List.mem_filter.mp (List.mem_of_getLast? h)).2
  exact of_decide_eq_true hmem

private theorem finite_items {claims : List PersistentVolumeClaim} {items : Dict String PvcInfo}
    (h : ∀ key, items.get? key = (lastListed claims key).bind mapPvc) :
    items.All PvcInfo.Finite := by
  intro key item hitem
  rw [h] at hitem
  obtain ⟨c, -, hmap⟩ := Option.bind_eq_some_iff.mp hitem
  exact finite_mapPvc hmap

private theorem finite_mergeLoop_iff {items : Dict String PvcInfo}
    (hitems : items.All PvcInfo.Finite) (used capacity : Dict String PyFloat) :
    (mergeLoop used capacity items items.keys).All PvcInfo.Finite ↔
      ∀ key item, items.get? key = some item →
        ∀ u limit declared, used.get? key = some u → capacity.get? key = some limit →
          item.capacityBytes = some declared → Counts limit declared → InRange u declared := by
  have hget : ∀ key, (mergeLoop used capacity items items.keys).get? key =
      (items.get? key).map (merged used capacity key) := by
    intro key
    have hnodup : items.keys.Nodup := items.nodup
    rw [(mergeLoop_spec used capacity hnodup items).2]
    split
    · rfl
    · rename_i hkey
      rw [← Dict.mem_iff_mem_keys, ← Dict.get?_eq_none_iff] at hkey
      rw [hkey, Option.map_none]
  constructor
  · intro h key item hitem
    refine (finite_merged_iff used capacity key (hitems key item hitem)).mp (h key _ ?_)
    rw [hget, hitem, Option.map_some]
  · intro h key info hinfo
    rw [hget] at hinfo
    obtain ⟨item, hitem, rfl⟩ := Option.map_eq_some_iff.mp hinfo
    exact (finite_merged_iff used capacity key (hitems key item hitem)).mpr (h key item hitem)

/-- A merging poll, by the maps it makes of the listing and the responses. -/
structure Poll.Reads (p : Poll) (c : PersistentVolumeClaim) (u declared : PyFloat)
    (items : Dict String PvcInfo) (used capacity : Dict String PyFloat) : Prop where
  prometheus : p.prometheus
  mapped : refresh mapPvc PvcInfo.key p.listing = some items
  listed : ∃ claims, p.listing = some claims ∧ lastListed claims c.key = some c
  item : ∃ info, items.get? c.key = some info ∧ info.capacityBytes = some declared
  usedMap : queryPrometheus p.used = some used
  sample : used.get? c.key = some u
  capacityMap : queryPrometheus p.capacity = some capacity
  limit : ∃ bytes, capacity.get? c.key = some bytes ∧ Counts bytes declared

private theorem exists_reads_of_merges {p : Poll} {c : PersistentVolumeClaim}
    {u declared : PyFloat} (h : p.Merges c u declared) :
    ∃ items used capacity, p.Reads c u declared items used capacity := by
  obtain ⟨claims, hlisting, hmapped, hlast⟩ := h.listed
  obtain ⟨useds, husedEq, husedOver, hu⟩ := h.used
  obtain ⟨caps, limit, hcapEq, hcapOver, hlimit, hcounts⟩ := h.capacity
  have hsome : (refresh mapPvc PvcInfo.key p.listing).isSome :=
    isSome_refresh_iff.mpr ⟨claims, hlisting, hmapped⟩
  obtain ⟨items, hitems⟩ := Option.isSome_iff_exists.mp hsome
  obtain ⟨used, hused⟩ := Option.isSome_iff_exists.mp (isSome_queryPrometheus husedOver)
  obtain ⟨capacity, hcapacity⟩ := Option.isSome_iff_exists.mp (isSome_queryPrometheus hcapOver)
  obtain ⟨item, hmap⟩ := Option.isSome_iff_exists.mp (hmapped c (mem_of_lastListed hlast))
  obtain ⟨_, hlisting', -, hget⟩ := listed_of_refresh hitems
  obtain rfl := Option.some.inj (hlisting.symm.trans hlisting')
  obtain ⟨_, heq, -, husedGet⟩ := queryPrometheus_eq_some hused
  obtain rfl := Option.some.inj heq
  obtain ⟨_, heq, -, hcapGet⟩ := queryPrometheus_eq_some hcapacity
  obtain rfl := Option.some.inj heq
  have hitem : items.get? c.key = some item := by rw [hget, hlast, Option.bind_some, hmap]
  have hdeclared := Option.some.inj ((mapPvc_bytes hmap).2.symm.trans h.declared)
  exact ⟨items, used, capacity, {
    prometheus := h.prometheus
    mapped := hitems
    listed := ⟨claims, hlisting, hlast⟩
    item := ⟨item, hitem, hdeclared⟩
    usedMap := husedEq ▸ hused
    sample := (husedGet c.key).trans hu
    capacityMap := hcapEq ▸ hcapacity
    limit := ⟨limit, (hcapGet c.key).trans hlimit, hcounts⟩ }⟩

private theorem merges_of_reads {p : Poll} {c : PersistentVolumeClaim} {u declared : PyFloat}
    {items : Dict String PvcInfo} {used capacity : Dict String PyFloat}
    (h : p.Reads c u declared items used capacity) : p.Merges c u declared := by
  obtain ⟨claims, hlisting, hlast⟩ := h.listed
  obtain ⟨item, hitem, hdeclared⟩ := h.item
  obtain ⟨limit, hlimit, hcounts⟩ := h.limit
  obtain ⟨_, hlisting', hmapped, hget⟩ := listed_of_refresh h.mapped
  obtain rfl := Option.some.inj (hlisting.symm.trans hlisting')
  obtain ⟨useds, husedEq, husedOver, husedGet⟩ := queryPrometheus_eq_some h.usedMap
  obtain ⟨caps, hcapEq, hcapOver, hcapGet⟩ := queryPrometheus_eq_some h.capacityMap
  rw [hget, hlast, Option.bind_some] at hitem
  refine ⟨h.prometheus, ⟨claims, hlisting, hmapped, hlast⟩,
    ⟨useds, husedEq, husedOver, husedGet c.key ▸ h.sample⟩,
    ⟨caps, limit, hcapEq, hcapOver, hcapGet c.key ▸ hlimit, hcounts⟩, ?_⟩
  rw [(mapPvc_bytes hitem).2, hdeclared]

/-- A poll that lacks the listing or a response merges nothing. -/
private theorem usageInRange_of_missing {p : Poll}
    (h : refresh mapPvc PvcInfo.key p.listing = none ∨ p.prometheus = false ∨
      queryPrometheus p.used = none ∨ queryPrometheus p.capacity = none) : p.UsageInRange := by
  intro c u declared hmerges
  obtain ⟨items, used, capacity, hreads⟩ := exists_reads_of_merges hmerges
  rcases h with h | h | h | h
  · cases h.symm.trans hreads.mapped
  · cases h.symm.trans hreads.prometheus
  · cases h.symm.trans hreads.usedMap
  · cases h.symm.trans hreads.capacityMap

/-- The calls of a poll bring finite numbers exactly if every usage it merges is in range. -/
theorem finite_poll_iff (p : Poll) (t : Time) :
    (∀ op ∈ (poll p t).calls, op.Finite) ↔ p.UsageInRange := by
  unfold poll
  cases hrefresh : refresh mapPvc PvcInfo.key p.listing with
  | none => exact iff_of_true (by simp) (usageInRange_of_missing (Or.inl hrefresh))
  | some items =>
    obtain ⟨claims, hlisting, -, hget⟩ := listed_of_refresh hrefresh
    have hitems := finite_items hget
    have hplain : ∀ op ∈ [Op.setPvcs items t], op.Finite := by
      rw [List.forall_mem_singleton]
      exact hitems
    dsimp only
    split
    · rename_i hprometheus
      cases hused : queryPrometheus p.used with
      | none => exact iff_of_true hplain (usageInRange_of_missing (.inr (.inr (.inl hused))))
      | some used =>
        cases hcapacity : queryPrometheus p.capacity with
        | none => exact iff_of_true hplain (usageInRange_of_missing (.inr (.inr (.inr hcapacity))))
        | some capacity =>
          dsimp only
          rw [List.forall_mem_singleton, Op.Finite, finite_mergeLoop_iff hitems]
          constructor
          · intro h c u declared hmerges
            obtain ⟨items', used', capacity', hreads⟩ := exists_reads_of_merges hmerges
            obtain rfl := Option.some.inj (hrefresh.symm.trans hreads.mapped)
            obtain rfl := Option.some.inj (hused.symm.trans hreads.usedMap)
            obtain rfl := Option.some.inj (hcapacity.symm.trans hreads.capacityMap)
            obtain ⟨item, hitem, hdeclared⟩ := hreads.item
            obtain ⟨limit, hlimit, hcounts⟩ := hreads.limit
            exact h c.key item hitem u limit declared hreads.sample hlimit hdeclared hcounts
          · intro h key item hitem u limit declared hu hlimit hdeclared hcounts
            have hlisted := hitem
            rw [hget] at hlisted
            obtain ⟨c, hlast, -⟩ := Option.bind_eq_some_iff.mp hlisted
            obtain rfl := key_of_lastListed hlast
            exact h c u declared (merges_of_reads ⟨hprometheus, hrefresh, ⟨claims, hlisting, hlast⟩,
              ⟨item, hitem, hdeclared⟩, hused, hu, hcapacity, ⟨limit, hlimit, hcounts⟩⟩)
    · rename_i hprometheus
      rw [Bool.not_eq_true] at hprometheus
      exact iff_of_true hplain (usageInRange_of_missing (.inr (.inl hprometheus)))

/-- A poll sets the claims at most once. -/
theorem poll_calls_cases (p : Poll) (t : Time) :
    (poll p t).calls = [] ∨ ∃ items, (poll p t).calls = [.setPvcs items t] := by
  unfold poll
  split
  · exact Or.inl rfl
  · split
    · split
      · exact Or.inr ⟨_, rfl⟩
      · split <;> exact Or.inr ⟨_, rfl⟩
    · exact Or.inr ⟨_, rfl⟩

end Pvc

end PiWatch
