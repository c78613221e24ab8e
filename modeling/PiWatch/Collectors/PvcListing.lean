import PiWatch.Backend.QuantityGrammar
import PiWatch.Collectors.Pvc

/-!
# Which polls list every claim

One claim whose quantity `parse_mem` does not read keeps the poll from publishing any of them.
-/

namespace PiWatch

namespace Pvc

/-- The quantities a claim shows: its request and its capacity. -/
def PersistentVolumeClaim.quantities (p : PersistentVolumeClaim) : List String :=
  (requestedStorage p).toList ++ (declaredCapacity p).toList

/-- A map with exactly one entry for each of the claims, under its key. -/
def OneEntryEach (claims : List PersistentVolumeClaim) (d : Dict String PvcInfo) : Prop :=
  ∀ key, d.keys.count key = if ∃ p ∈ claims, p.key = key then 1 else 0

/-- A poll that publishes all the claims of its listing. -/
def ListsAll (claims : List PersistentVolumeClaim) (r : PollResult) (t : Time) : Prop :=
  ∃ d, r.calls = [.setPvcs d t] ∧ OneEntryEach claims d

theorem isSome_quantityBytes {text : String} (h : text ≠ "") :
    (quantityBytes (some text)).isSome ↔ (parseMem text).isSome := by
  unfold quantityBytes pyOr
  dsimp only
  rw [if_neg h, Option.isSome_map]

private theorem isSome_quantity {q : Option String} (h : ∀ text ∈ q.toList, text ≠ "") :
    (quantityBytes q).isSome ↔ ∀ text ∈ q.toList, (parseMem text).isSome := by
  cases q with
  | none => simp [quantityBytes, pyOr]
  | some text =>
    rw [isSome_quantityBytes (h text (by simp))]
    simp

theorem isSome_mapPvc {p : PersistentVolumeClaim} (h : ∀ text ∈ p.quantities, text ≠ "") :
    (mapPvc p).isSome ↔ ∀ text ∈ p.quantities, (parseMem text).isSome := by
  unfold PersistentVolumeClaim.quantities at h ⊢
  rw [List.forall_mem_append] at h ⊢
  rw [← isSome_quantity h.1, ← isSome_quantity h.2]
  unfold mapPvc
  cases quantityBytes (requestedStorage p) <;> cases quantityBytes (declaredCapacity p) <;> simp

/-- A poll publishes the claims of its listing, merged with usage or not. -/
theorem exists_poll_calls {p : Poll} {items : Dict String PvcInfo} (t : Time)
    (h : refresh mapPvc PvcInfo.key p.listing = some items) :
    ∃ d, (poll p t).calls = [.setPvcs d t] ∧ d.keys = items.keys := by
  unfold poll
  simp only [h]
  split
  · split
    · exact ⟨items, rfl, rfl⟩
    · split
      · exact ⟨items, rfl, rfl⟩
      · exact ⟨_, rfl, (mergeLoop_spec _ _ items.nodup items).1⟩
  · exact ⟨items, rfl, rfl⟩

theorem oneEntryEach_of_refresh {claims : List PersistentVolumeClaim}
    {items d : Dict String PvcInfo}
    (h : refresh mapPvc PvcInfo.key (some claims) = some items) (hkeys : d.keys = items.keys) :
    OneEntryEach claims d := by
  intro key
  have hmem : key ∈ items.keys ↔ ∃ p ∈ claims, p.key = key := by
    obtain ⟨_, ms, heq, hms, rfl⟩ := refresh_eq_some_iff.mp h
    obtain rfl := Option.some.inj heq
    rw [← Dict.mem_iff_mem_keys, mem_mapOf]
    constructor
    · intro hkey
      obtain ⟨m, hm, hkey⟩ := hkey
      obtain ⟨p, hp, hmap⟩ := exists_of_forall₂ hms hm
      exact ⟨p, hp, (mapPvc_eq_some hmap).1.symm.trans hkey⟩
    · intro hkey
      obtain ⟨p, hp, hkey⟩ := hkey
      obtain ⟨m, hm, hmap⟩ := exists_of_forall₂ hms.flip hp
      exact ⟨m, hm, (mapPvc_eq_some hmap).1.trans hkey⟩
  have hnodup : items.keys.Nodup := items.nodup
  rw [hkeys, hnodup.count]
  simp only [hmem]

/-- A poll lists every claim exactly if it maps every claim. -/
theorem listsAll_poll_iff {p : Poll} (t : Time) {claims : List PersistentVolumeClaim}
    (hlisting : p.listing = some claims) :
    ListsAll claims (poll p t) t ↔ ∀ c ∈ claims, (mapPvc c).isSome := by
  have hsome : (refresh mapPvc PvcInfo.key p.listing).isSome ↔ _ := isSome_refresh_iff
  rw [hlisting] at hsome
  simp only [Option.some.injEq, exists_eq_left'] at hsome
  rw [← hsome]
  constructor
  · intro hlists
    obtain ⟨d, hcalls, -⟩ := hlists
    cases hitems : refresh mapPvc PvcInfo.key p.listing with
    | none =>
      unfold poll at hcalls
      simp [hitems] at hcalls
    | some items =>
      rw [hlisting] at hitems
      rw [hitems]
      rfl
  · intro hitems
    obtain ⟨items, hitems⟩ := Option.isSome_iff_exists.mp hitems
    obtain ⟨d, hcalls, hkeys⟩ := exists_poll_calls t (hlisting ▸ hitems)
    exact ⟨d, hcalls, oneEntryEach_of_refresh hitems hkeys⟩

/-- A poll lists every claim exactly if all their quantities are plain ones. -/
theorem poll_listsAll_iff (claims : List PersistentVolumeClaim) (prometheus : Bool)
    (used capacity : Option (List PromResult)) (t : Time)
    (hvalid : ∀ p ∈ claims, ∀ text ∈ p.quantities, IsQuantity text) :
    ListsAll claims (poll ⟨some claims, prometheus, used, capacity⟩ t) t ↔
      ∀ p ∈ claims, ∀ text ∈ p.quantities, IsPlainQuantity text := by
  rw [listsAll_poll_iff t rfl]
  refine forall₂_congr fun p hp => ?_
  rw [isSome_mapPvc fun text htext => ne_empty_of_isQuantity (hvalid p hp text htext)]
  exact forall₂_congr fun text htext => isSome_parseMem_iff (hvalid p hp text htext)

private theorem noSlash_ns : '/' ∉ "default".toList := by decide

private def claim (name : String) (hname : '/' ∉ name.toList) (size : String) :
    PersistentVolumeClaim where
  ns := ⟨"default", noSlash_ns⟩
  name := ⟨name, hname⟩
  resources := none
  storageClassName := none
  accessModes := none
  volumeName := none
  phase := some "Bound"
  capacity := some (Dict.ofList [("storage", size)])

private def eight : Quantity where
  sign := .none
  whole := [8]
  fraction := none
  suffix := .Gi
  hasDigit := by simp

private def pebibyte : Quantity where
  sign := .none
  whole := [1]
  fraction := none
  suffix := .Pi
  hasDigit := by simp

private def fiveHundred : Quantity where
  sign := .none
  whole := [5, 0, 0]
  fraction := none
  suffix := .Mi
  hasDigit := by simp

private theorem slashFree_data : '/' ∉ "data".toList := by decide

private theorem slashFree_logs : '/' ∉ "logs".toList := by decide

private theorem slashFree_backup : '/' ∉ "backup".toList := by decide

/-- A claim whose capacity is not known yet. -/
private def pendingClaim : PersistentVolumeClaim :=
  { claim "backup" slashFree_backup "8Gi" with
    phase := some "Pending"
    capacity := none }

private def threeClaims : List PersistentVolumeClaim :=
  [claim "data" slashFree_data "8Gi", claim "logs" slashFree_logs "500Mi", pendingClaim]

theorem poll_listsAll_eight :
    ListsAll threeClaims (poll ⟨some threeClaims, false, none, none⟩ 1) 1 ↔
      ∀ p ∈ threeClaims, ∀ text ∈ p.quantities, IsPlainQuantity text := by
  apply poll_listsAll_iff
  intro p hp text htext
  simp only [threeClaims, List.mem_cons, List.not_mem_nil, or_false] at hp
  rcases hp with rfl | rfl | rfl
  · obtain rfl := List.mem_singleton.mp htext
    exact ⟨eight, by decide⟩
  · obtain rfl := List.mem_singleton.mp htext
    exact ⟨fiveHundred, by decide⟩
  · cases htext

/-- A volume of one pebibyte hides the others. -/
theorem poll_pebibyte_hides :
    (∀ p ∈ [claim "data" (by decide) "8Gi", claim "archive" (by decide) "1Pi"],
      ∀ text ∈ p.quantities, IsQuantity text) ∧
    ¬ ListsAll [claim "data" (by decide) "8Gi", claim "archive" (by decide) "1Pi"]
      (poll ⟨some [claim "data" (by decide) "8Gi", claim "archive" (by decide) "1Pi"],
        false, none, none⟩ 1) 1 := by
  constructor
  · intro p hp text htext
    rcases List.mem_cons.mp hp with rfl | hp
    · obtain rfl := List.mem_singleton.mp htext
      exact ⟨eight, by decide⟩
    · obtain rfl := List.mem_singleton.mp hp
      obtain rfl := List.mem_singleton.mp htext
      exact ⟨pebibyte, by decide⟩
  · intro hlists
    rw [listsAll_poll_iff 1 rfl] at hlists
    have hmapped := hlists (claim "archive" (by decide) "1Pi") (by simp)
    have hunread : parseMem "1Pi" = none := by decide
    rw [isSome_mapPvc (by decide)] at hmapped
    have hread := hmapped "1Pi" (by decide)
    rw [hunread] at hread
    cases hread

end Pvc

end PiWatch
