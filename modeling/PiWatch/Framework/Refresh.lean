import Mathlib.Data.List.Induction
import PiWatch.Framework.Dict

/-!
# All-or-nothing refreshes

A poll lists the items of a kind, maps them one by one and only then replaces what it
published before. A raising list or mapping leaves the loop without a map.
-/

namespace PiWatch

variable {ρ α κ : Type*} [DecidableEq κ]

/-- The map from key to item; of two items with one key the later one counts. -/
def mapOf (key : α → κ) (ms : List α) : Dict κ α := Dict.ofList (ms.map fun m => (key m, m))

/-- The mapping loop. Without a value, a mapping raised. -/
def collect (map : ρ → Option α) (key : α → κ) (items : List ρ) : Option (Dict κ α) :=
  items.foldlM (fun mapped item => (map item).map fun m => mapped.insert (key m) m) ∅

/-- List, then map. The response has no value when the list call raised. -/
def refresh (map : ρ → Option α) (key : α → κ) (response : Option (List ρ)) :
    Option (Dict κ α) :=
  response.bind (collect map key)

/-- The map over a complete response, every item of which was mapped. -/
def IsComplete (map : ρ → Option α) (key : α → κ) (response : Option (List ρ))
    (d : Dict κ α) : Prop :=
  ∃ items ms, response = some items ∧ List.Forall₂ (fun r m => map r = some m) items ms ∧
    d = mapOf key ms

/-- Every mapped item comes from an item of the response. -/
theorem exists_of_forall₂ {R : ρ → α → Prop} {items : List ρ} {ms : List α}
    (h : List.Forall₂ R items ms) {m : α} (hm : m ∈ ms) : ∃ r ∈ items, R r m := by
  induction h with
  | nil => cases hm
  | cons hhead _ ih =>
    rcases List.mem_cons.mp hm with rfl | hm
    · exact ⟨_, List.mem_cons_self, hhead⟩
    · obtain ⟨r, hr, hrel⟩ := ih hm
      exact ⟨r, List.mem_cons_of_mem _ hr, hrel⟩

theorem mem_mapOf {key : α → κ} {ms : List α} {k : κ} :
    k ∈ mapOf key ms ↔ ∃ m ∈ ms, key m = k := by
  rw [mapOf, Dict.mem_ofList, List.map_map, List.mem_map]
  rfl

theorem mem_of_get?_mapOf {key : α → κ} {ms : List α} {k : κ} {m : α}
    (h : (mapOf key ms).get? k = some m) : m ∈ ms ∧ key m = k := by
  obtain ⟨m', hm, heq⟩ := List.mem_map.mp (Dict.mem_of_get?_ofList h)
  obtain ⟨rfl, rfl⟩ := Prod.mk.inj heq
  exact ⟨hm, rfl⟩

private theorem foldlM_eq_some_iff (map : ρ → Option α) (key : α → κ) (items : List ρ)
    (acc d : Dict κ α) :
    items.foldlM (fun mapped item => (map item).map fun m => mapped.insert (key m) m) acc =
        some d ↔
      ∃ ms, List.Forall₂ (fun r m => map r = some m) items ms ∧
        d = (ms.map fun m => (key m, m)).foldl (fun acc x => acc.insert x.1 x.2) acc := by
  induction items generalizing acc with
  | nil =>
    simp only [List.foldlM_nil, Option.pure_def, Option.some.injEq, List.forall₂_nil_left_iff,
      exists_eq_left, List.map_nil, List.foldl_nil]
    exact eq_comm
  | cons item items ih =>
    rw [List.foldlM_cons]
    cases hmap : map item with
    | none => simp [List.forall₂_cons_left_iff, hmap]
    | some m =>
      simp only [Option.map_some, Option.bind_eq_bind, Option.bind_some, ih,
        List.forall₂_cons_left_iff, hmap, Option.some.injEq]
      constructor
      · intro hrest
        obtain ⟨ms, hms, hd⟩ := hrest
        exact ⟨m :: ms, ⟨m, ms, rfl, hms, rfl⟩, hd⟩
      · intro hall
        obtain ⟨_, ⟨m', ms, rfl, hms, rfl⟩, hd⟩ := hall
        exact ⟨ms, hms, hd⟩

/-- A refresh yields the map over a complete response and nothing else. -/
theorem refresh_eq_some_iff {map : ρ → Option α} {key : α → κ} {response : Option (List ρ)}
    {d : Dict κ α} : refresh map key response = some d ↔ IsComplete map key response d := by
  unfold refresh IsComplete
  cases response with
  | none => simp
  | some items =>
    rw [Option.bind_some, collect, foldlM_eq_some_iff]
    simp [mapOf, Dict.ofList]

/-- A refresh succeeds when the list call and all mappings do. -/
theorem isSome_refresh_iff {map : ρ → Option α} {key : α → κ} {response : Option (List ρ)} :
    (refresh map key response).isSome ↔
      ∃ items, response = some items ∧ ∀ r ∈ items, (map r).isSome := by
  have hloop : ∀ (items : List ρ) (acc : Dict κ α),
      (items.foldlM (fun mapped item => (map item).map fun m => mapped.insert (key m) m)
        acc).isSome ↔ ∀ r ∈ items, (map r).isSome := by
    intro items
    induction items with
    | nil => simp
    | cons item items ih =>
      intro acc
      rw [List.foldlM_cons, List.forall_mem_cons]
      cases map item with
      | none => simp
      | some m => simp [ih]
  cases response with
  | none => simp [refresh]
  | some items => simp [refresh, collect, hloop]

/-- The map of a refresh shows under a key the last item with that key. -/
theorem get?_refresh {map : ρ → Option α} {key : α → κ} {keyOf : ρ → κ}
    (hkey : ∀ r m, map r = some m → key m = keyOf r) {items : List ρ} {d : Dict κ α}
    (h : refresh map key (some items) = some d) (k : κ) :
    d.get? k = ((items.filter fun r => keyOf r = k).getLast?).bind map := by
  rw [refresh, Option.bind_some, collect] at h
  induction items using List.reverseRecOn generalizing d with
  | nil =>
    rw [← Option.some.inj h]
    rfl
  | append_singleton items r ih =>
    rw [List.foldlM_append, Option.bind_eq_bind, Option.bind_eq_some_iff] at h
    obtain ⟨acc, hacc, hlast⟩ := h
    rw [List.foldlM_cons, Option.bind_eq_bind, Option.bind_eq_some_iff] at hlast
    obtain ⟨_, hstep, hd⟩ := hlast
    obtain ⟨m, hm, rfl⟩ := Option.map_eq_some_iff.mp hstep
    rw [← Option.some.inj hd, Dict.get?_insert, hkey r m hm, List.filter_append]
    by_cases hk : k = keyOf r
    · simp [hk, hm]
    · rw [if_neg hk, ih hacc]
      simp [Ne.symm hk]

/-- Changing the mapped items, but not their keys, changes the values of the map alone. -/
theorem map_refresh {β : Type*} {map : ρ → Option α} {key : α → κ} {key' : β → κ} {f : α → β}
    (hkey : ∀ m, key' (f m) = key m) (response : Option (List ρ)) :
    (refresh map key response).map (Dict.mapValues f) =
      refresh (fun r => (map r).map f) key' response := by
  have hloop : ∀ (items : List ρ) (acc : Dict κ α),
      (items.foldlM (fun mapped item => (map item).map fun m => mapped.insert (key m) m)
        acc).map (Dict.mapValues f) =
      items.foldlM (fun mapped item => ((map item).map f).map fun m =>
        mapped.insert (key' m) m) (acc.mapValues f) := by
    intro items
    induction items with
    | nil => exact fun _ => rfl
    | cons item items ih =>
      intro acc
      rw [List.foldlM_cons, List.foldlM_cons]
      cases map item with
      | none => rfl
      | some m =>
        simp only [Option.map_some, Option.bind_eq_bind, Option.bind_some, ih, hkey,
          Dict.mapValues_insert]
  cases response with
  | none => rfl
  | some items => exact hloop items ∅

end PiWatch
