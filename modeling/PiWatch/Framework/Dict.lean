import Mathlib.Data.List.Induction
import Mathlib.Data.List.Nodup
import Mathlib.Data.Option.Basic

/-!
# Insertion-ordered dictionaries

A dictionary keeps its entries in insertion order: writing to a present key replaces
the value where it stands, writing to a new key appends it. `AList` orders entries by
the last write instead, so the iteration order of a dictionary is not its order.
-/

namespace PiWatch

/-- Entries in insertion order, no key twice. -/
structure Dict (κ ν : Type*) where
  entries : List (κ × ν)
  nodup : (entries.map Prod.fst).Nodup

namespace Dict

variable {κ ν ω : Type*}

theorem ext {d e : Dict κ ν} (h : d.entries = e.entries) : d = e := by
  cases d
  cases e
  simpa using h

instance [DecidableEq κ] [DecidableEq ν] : DecidableEq (Dict κ ν) := fun d e =>
  decidable_of_iff (d.entries = e.entries) ⟨ext, congrArg entries⟩

def empty : Dict κ ν := ⟨[], List.nodup_nil⟩

instance : EmptyCollection (Dict κ ν) := ⟨empty⟩

instance : Inhabited (Dict κ ν) := ⟨empty⟩

def keys (d : Dict κ ν) : List κ := d.entries.map Prod.fst

def values (d : Dict κ ν) : List ν := d.entries.map Prod.snd

@[simp] theorem entries_empty : (∅ : Dict κ ν).entries = [] := rfl

/-- Apply a function to every value. -/
def mapValues (f : ν → ω) (d : Dict κ ν) : Dict κ ω where
  entries := d.entries.map fun e => (e.1, f e.2)
  nodup := by simpa [List.map_map, Function.comp_def] using d.nodup

theorem entries_mapValues (f : ν → ω) (d : Dict κ ν) :
    (d.mapValues f).entries = d.entries.map fun e => (e.1, f e.2) := rfl

variable [DecidableEq κ]

/-- The value under a key, if any. -/
def get? (d : Dict κ ν) (k : κ) : Option ν := d.entries.lookup k

instance : Membership κ (Dict κ ν) := ⟨fun d k => (d.get? k).isSome⟩

theorem mem_def {d : Dict κ ν} {k : κ} : k ∈ d ↔ (d.get? k).isSome := Iff.rfl

instance (d : Dict κ ν) (k : κ) : Decidable (k ∈ d) :=
  inferInstanceAs (Decidable ((d.get? k).isSome = true))

/-- `d[k] = v`. -/
def insert (d : Dict κ ν) (k : κ) (v : ν) : Dict κ ν where
  entries := if k ∈ d.keys then d.entries.map fun e => if e.1 = k then (k, v) else e
    else d.entries ++ [(k, v)]
  nodup := by
    split
    · have hkeys : (d.entries.map fun e => if e.1 = k then (k, v) else e).map Prod.fst =
          d.entries.map Prod.fst := by
        rw [List.map_map]
        apply List.map_congr_left
        intro e _
        by_cases he : e.1 = k <;> simp [he]
      rw [hkeys]
      exact d.nodup
    · rename_i hk
      rw [List.map_append, List.nodup_append]
      refine ⟨d.nodup, by simp, ?_⟩
      intro a ha b hb hab
      simp only [List.map_cons, List.map_nil, List.mem_singleton] at hb
      exact hk (hb ▸ hab ▸ ha)

/-- `d.pop(k, None)`, the rest of the dictionary. -/
def erase (d : Dict κ ν) (k : κ) : Dict κ ν where
  entries := d.entries.filter fun e => e.1 ≠ k
  nodup := d.nodup.sublist (List.filter_sublist.map Prod.fst)

/-- `d.setdefault(k, v)`. -/
def setDefault (d : Dict κ ν) (k : κ) (v : ν) : Dict κ ν :=
  if k ∈ d then d else d.insert k v

/-- Change the value under a key, if there is one. -/
def modify (d : Dict κ ν) (k : κ) (f : ν → ν) : Dict κ ν :=
  match d.get? k with
  | none => d
  | some v => d.insert k (f v)

/-- `{**d, **e}`. -/
def merge (d e : Dict κ ν) : Dict κ ν :=
  e.entries.foldl (fun acc x => acc.insert x.1 x.2) d

/-- A dictionary display: later items override earlier ones. -/
def ofList (items : List (κ × ν)) : Dict κ ν :=
  items.foldl (fun acc x => acc.insert x.1 x.2) ∅

@[simp] theorem get?_empty (k : κ) : (∅ : Dict κ ν).get? k = none := rfl

@[simp] theorem not_mem_empty (k : κ) : k ∉ (∅ : Dict κ ν) := by
  simp [mem_def]

theorem get?_eq_some_iff {d : Dict κ ν} {k : κ} {v : ν} :
    d.get? k = some v ↔ (k, v) ∈ d.entries := by
  have key : ∀ l : List (κ × ν), (l.map Prod.fst).Nodup →
      (l.lookup k = some v ↔ (k, v) ∈ l) := by
    intro l
    induction l with
    | nil => simp
    | cons e l ih =>
      obtain ⟨a, b⟩ := e
      intro hn
      rw [List.map_cons, List.nodup_cons] at hn
      by_cases ha : k = a
      · subst a
        have hk : (k, v) ∉ l := fun h => hn.1 (List.mem_map.mpr ⟨_, h, rfl⟩)
        simp [hk, eq_comm]
      · have hb : (k == a) = false := by simpa using ha
        rw [List.lookup_cons, hb]
        simp [ih hn.2, ha]
  exact key d.entries d.nodup

theorem mem_values_iff {d : Dict κ ν} {v : ν} : v ∈ d.values ↔ ∃ k, d.get? k = some v := by
  simp only [values, List.mem_map, Prod.exists, exists_eq_right, get?_eq_some_iff]

theorem mem_iff_mem_keys {d : Dict κ ν} {k : κ} : k ∈ d ↔ k ∈ d.keys := by
  rw [mem_def, Option.isSome_iff_exists]
  constructor
  · intro hsome
    obtain ⟨v, hv⟩ := hsome
    exact List.mem_map.mpr ⟨_, get?_eq_some_iff.mp hv, rfl⟩
  · intro hk
    obtain ⟨⟨a, v⟩, hmem, rfl⟩ := List.mem_map.mp hk
    exact ⟨v, get?_eq_some_iff.mpr hmem⟩

theorem get?_eq_none_iff {d : Dict κ ν} {k : κ} : d.get? k = none ↔ k ∉ d := by
  rw [mem_def, Bool.not_eq_true, Option.isSome_eq_false_iff, Option.isNone_iff_eq_none]

theorem get?_insert_self (d : Dict κ ν) (k : κ) (v : ν) : (d.insert k v).get? k = some v := by
  rw [get?_eq_some_iff]
  unfold insert
  split
  · rename_i hk
    obtain ⟨e, he, hek⟩ := List.mem_map.mp hk
    exact List.mem_map.mpr ⟨e, he, by simp [hek]⟩
  · simp

theorem get?_insert_of_ne (d : Dict κ ν) {k k' : κ} (v : ν) (h : k' ≠ k) :
    (d.insert k v).get? k' = d.get? k' := by
  apply Option.ext
  intro w
  rw [get?_eq_some_iff, get?_eq_some_iff]
  unfold insert
  split
  · simp only [List.mem_map]
    constructor
    · intro hentry
      obtain ⟨⟨a, b⟩, hmem, heq⟩ := hentry
      by_cases ha : a = k
      · rw [if_pos ha, Prod.mk.injEq] at heq
        exact absurd heq.1.symm h
      · rw [if_neg ha] at heq
        exact heq ▸ hmem
    · intro hmem
      exact ⟨(k', w), hmem, by simp [h]⟩
  · simp [h]

theorem get?_insert (d : Dict κ ν) (k k' : κ) (v : ν) :
    (d.insert k v).get? k' = if k' = k then some v else d.get? k' := by
  by_cases h : k' = k
  · rw [if_pos h, h, get?_insert_self]
  · rw [if_neg h, get?_insert_of_ne d v h]

theorem get?_erase (d : Dict κ ν) (k k' : κ) :
    (d.erase k).get? k' = if k' = k then none else d.get? k' := by
  apply Option.ext
  intro w
  rw [get?_eq_some_iff]
  by_cases h : k' = k
  · simp [erase, h]
  · simp [erase, h, get?_eq_some_iff]

@[simp] theorem get?_erase_self (d : Dict κ ν) (k : κ) : (d.erase k).get? k = none := by
  rw [get?_erase, if_pos rfl]

theorem get?_modify (d : Dict κ ν) (k k' : κ) (f : ν → ν) :
    (d.modify k f).get? k' = if k' = k then (d.get? k).map f else d.get? k' := by
  unfold modify
  split
  · rename_i hk
    by_cases h : k' = k <;> simp [h, hk]
  · rename_i v hk
    rw [get?_insert, hk, Option.map_some]

theorem mem_insert {d : Dict κ ν} {k k' : κ} {v : ν} :
    k' ∈ d.insert k v ↔ k' = k ∨ k' ∈ d := by
  rw [mem_def, get?_insert, mem_def]
  by_cases h : k' = k <;> simp [h]

theorem get?_setDefault (d : Dict κ ν) (k k' : κ) (v : ν) :
    (d.setDefault k v).get? k' =
      if k' = k then some ((d.get? k).getD v) else d.get? k' := by
  unfold setDefault
  split
  · rename_i hk
    obtain ⟨w, hw⟩ := Option.isSome_iff_exists.mp hk
    by_cases h : k' = k
    · simp [h, hw]
    · simp [h]
  · rename_i hk
    rw [get?_insert, get?_eq_none_iff.mpr hk]
    rfl

theorem get?_mapValues (f : ν → ω) (d : Dict κ ν) (k : κ) :
    (d.mapValues f).get? k = (d.get? k).map f := by
  apply Option.ext
  intro w
  rw [get?_eq_some_iff, Option.map_eq_some_iff]
  simp only [mapValues, List.mem_map, Prod.mk.injEq, Prod.exists]
  constructor
  · intro hentry
    obtain ⟨a, b, hmem, rfl, rfl⟩ := hentry
    exact ⟨b, get?_eq_some_iff.mpr hmem, rfl⟩
  · intro hvalue
    obtain ⟨v, hv, rfl⟩ := hvalue
    exact ⟨k, v, get?_eq_some_iff.mp hv, rfl, rfl⟩

theorem entries_insert_of_mem (d : Dict κ ν) {k : κ} (v : ν) (h : k ∈ d.keys) :
    (d.insert k v).entries = d.entries.map fun e => if e.1 = k then (k, v) else e := if_pos h

theorem entries_insert_of_notMem (d : Dict κ ν) {k : κ} (v : ν) (h : k ∉ d.keys) :
    (d.insert k v).entries = d.entries ++ [(k, v)] := if_neg h

theorem keys_insert_of_mem (d : Dict κ ν) {k : κ} (v : ν) (h : k ∈ d.keys) :
    (d.insert k v).keys = d.keys := by
  rw [keys, entries_insert_of_mem d v h, List.map_map]
  apply List.map_congr_left
  intro e _
  by_cases he : e.1 = k <;> simp [he]

theorem mapValues_insert (f : ν → ω) (d : Dict κ ν) (k : κ) (v : ν) :
    (d.insert k v).mapValues f = (d.mapValues f).insert k (f v) := by
  have hkeys : (d.mapValues f).keys = d.keys := by
    simp [keys, mapValues, List.map_map, Function.comp_def]
  apply ext
  rw [entries_mapValues]
  by_cases hk : k ∈ d.keys
  · rw [entries_insert_of_mem (d.mapValues f) _ (hkeys ▸ hk), entries_insert_of_mem d v hk,
      entries_mapValues, List.map_map, List.map_map]
    apply List.map_congr_left
    intro e _
    by_cases he : e.1 = k <;> simp [he]
  · rw [entries_insert_of_notMem (d.mapValues f) _ (hkeys ▸ hk), entries_insert_of_notMem d v hk,
      entries_mapValues, List.map_append]
    rfl

private theorem get?_foldl_insert (items : List (κ × ν)) (d : Dict κ ν) (k : κ) :
    (items.foldl (fun acc x => acc.insert x.1 x.2) d).get? k =
      (items.reverse.lookup k).or (d.get? k) := by
  induction items generalizing d with
  | nil => simp
  | cons x items ih =>
    obtain ⟨a, v⟩ := x
    rw [List.foldl_cons, ih, List.reverse_cons, List.lookup_append, get?_insert,
      Option.or_assoc, List.lookup_cons, List.lookup_nil]
    by_cases h : k = a
    · simp [h]
    · simp [h, beq_eq_false_iff_ne.mpr h]

theorem get?_ofList (items : List (κ × ν)) (k : κ) :
    (ofList items).get? k = items.reverse.lookup k := by
  rw [ofList, get?_foldl_insert]
  simp

private theorem lookup_map_self (l : List κ) (f : κ → ν) (k : κ) :
    (l.map fun c => (c, f c)).lookup k = if k ∈ l then some (f k) else none := by
  induction l with
  | nil => rfl
  | cons c l ih =>
    rw [List.map_cons, List.lookup_cons, ih]
    by_cases hk : k = c
    · subst hk
      simp
    · simp [hk, beq_eq_false_iff_ne.mpr hk]

theorem mem_of_get?_ofList {items : List (κ × ν)} {k : κ} {v : ν}
    (h : (ofList items).get? k = some v) : (k, v) ∈ items := by
  rw [get?_ofList, List.lookup_eq_some_iff] at h
  obtain ⟨l, r, hitems, -⟩ := h
  rw [← List.mem_reverse, hitems]
  simp

/-- Items with a key each are read back. -/
theorem get?_ofList_of_nodup {items : List (κ × ν)} (hnodup : (items.map Prod.fst).Nodup) {k : κ}
    {v : ν} (h : (k, v) ∈ items) : (ofList items).get? k = some v := by
  rw [get?_ofList]
  have hreverse : (items.reverse.map Prod.fst).Nodup := by
    rw [List.map_reverse]
    exact List.nodup_reverse.mpr hnodup
  exact (get?_eq_some_iff (d := ⟨items.reverse, hreverse⟩)).mpr (List.mem_reverse.mpr h)

/-- A dictionary built over its keys. -/
theorem get?_ofList_map {l : List κ} {f : κ → ν} {k : κ} (h : k ∈ l) :
    (ofList (l.map fun c => (c, f c))).get? k = some (f k) := by
  rw [get?_ofList, ← List.map_reverse, lookup_map_self, if_pos (List.mem_reverse.mpr h)]

theorem mem_ofList {items : List (κ × ν)} {k : κ} :
    k ∈ ofList items ↔ k ∈ items.map Prod.fst := by
  rw [mem_def, get?_ofList, List.lookup_isSome_iff, List.mem_map]
  constructor
  · intro hitem
    obtain ⟨x, hx, hk⟩ := hitem
    exact ⟨x, List.mem_reverse.mp hx, (eq_of_beq hk).symm⟩
  · intro hitem
    obtain ⟨x, hx, rfl⟩ := hitem
    exact ⟨x, List.mem_reverse.mpr hx, beq_self_eq_true _⟩

/-- A dictionary of the values that are there, under a key for each source. -/
theorem get?_ofList_filterMap {α : Type*} {key : α → κ} (hkey : key.Injective)
    (value : α → Option ν) {xs : List α} {a : α} (ha : a ∈ xs) :
    (ofList (xs.filterMap fun b => (value b).map fun v => (key b, v))).get? (key a) =
      value a := by
  have hmem : ∀ {v}, (key a, v) ∈ xs.filterMap (fun b => (value b).map fun v => (key b, v)) ↔
      value a = some v := by
    intro v
    simp only [List.mem_filterMap, Option.map_eq_some_iff, Prod.mk.injEq]
    constructor
    · rintro ⟨b, -, w, hw, heq, rfl⟩
      rwa [← hkey heq]
    · intro hv
      exact ⟨a, ha, v, hv, rfl, rfl⟩
  cases hget : (ofList (xs.filterMap fun b => (value b).map fun v => (key b, v))).get? (key a) with
  | some v => exact (hmem.mp (mem_of_get?_ofList hget)).symm
  | none =>
    rw [get?_eq_none_iff, mem_ofList] at hget
    cases hvalue : value a with
    | none => rfl
    | some v => exact absurd (List.mem_map_of_mem (hmem.mpr hvalue)) hget

private theorem lookup_congr {items items' : List (κ × ν)} {k : κ}
    (h : List.Forall₂ (fun x y => x.1 = y.1 ∧ (x.1 = k → x.2 = y.2)) items items') :
    items.lookup k = items'.lookup k := by
  induction h with
  | nil => rfl
  | @cons x y items items' hxy _ ih =>
    obtain ⟨a, v⟩ := x
    obtain ⟨b, w⟩ := y
    obtain ⟨hkey, hvalue⟩ := hxy
    dsimp only at hkey hvalue
    subst hkey
    rw [List.lookup_cons, List.lookup_cons, ih]
    by_cases hk : k = a
    · rw [hvalue hk.symm]
    · simp [beq_eq_false_iff_ne.mpr hk]

/-- What a key reads depends on the items of that key only. -/
theorem get?_ofList_congr {items items' : List (κ × ν)} {k : κ}
    (h : List.Forall₂ (fun x y => x.1 = y.1 ∧ (x.1 = k → x.2 = y.2)) items items') :
    (ofList items).get? k = (ofList items').get? k := by
  rw [get?_ofList, get?_ofList]
  exact lookup_congr (List.forall₂_reverse_iff.mpr h)

/-- Reading a merge: the second dictionary wins. -/
theorem get?_ofList_append (items more : List (κ × ν)) (k : κ) :
    (ofList (items ++ more)).get? k = ((ofList more).get? k).or ((ofList items).get? k) := by
  rw [get?_ofList, get?_ofList, get?_ofList, List.reverse_append, List.lookup_append]

/-- Of the sources of items, the last one that has the key decides. -/
theorem get?_ofList_flatMap {α : Type*} {f : α → List (κ × ν)} {xs : List α} {k : κ} {v : ν} :
    (ofList (xs.flatMap f)).get? k = some v ↔ ∃ before x after, xs = before ++ x :: after ∧
      (ofList (f x)).get? k = some v ∧ ∀ y ∈ after, k ∉ ofList (f y) := by
  induction xs using List.reverseRecOn with
  | nil => simp [ofList]
  | append_singleton xs x ih =>
    rw [List.flatMap_append, List.flatMap_singleton, get?_ofList_append, Option.or_eq_some_iff, ih]
    constructor
    · intro h
      rcases h with hlast | ⟨hnone, before, y, after, rfl, hy, hafter⟩
      · exact ⟨xs, x, [], rfl, hlast, by simp⟩
      · refine ⟨before, y, after ++ [x], by simp, hy, fun z hz => ?_⟩
        rcases List.mem_append.mp hz with hz | hz
        · exact hafter z hz
        · rw [List.mem_singleton.mp hz]
          exact get?_eq_none_iff.mp hnone
    · intro h
      obtain ⟨before, y, after, hsplit, hy, hafter⟩ := h
      rcases List.eq_nil_or_concat after with rfl | ⟨after, z, rfl⟩
      · obtain ⟨rfl, hlast⟩ := List.append_inj' hsplit rfl
        obtain ⟨rfl, -⟩ := List.cons.inj hlast
        exact Or.inl hy
      · rw [List.concat_eq_append, ← List.cons_append, ← List.append_assoc] at hsplit
        obtain ⟨rfl, hlast⟩ := List.append_inj' hsplit rfl
        obtain ⟨rfl, -⟩ := List.cons.inj hlast
        refine Or.inr ⟨get?_eq_none_iff.mpr (hafter x (by simp)), before, y, after, rfl, hy, ?_⟩
        exact fun w hw => hafter w (by simp [hw])

theorem get?_merge (d e : Dict κ ν) (k : κ) : (d.merge e).get? k = (e.get? k).or (d.get? k) := by
  rw [merge, get?_foldl_insert]
  congr 1
  apply Option.ext
  intro v
  have hrev : e.get? k = some v ↔ (k, v) ∈ e.entries := get?_eq_some_iff
  rw [show (e.entries.reverse.lookup k = some v) ↔ (k, v) ∈ e.entries.reverse from
    get?_eq_some_iff (d := ⟨e.entries.reverse, by
      rw [List.map_reverse]
      exact List.nodup_reverse.mpr e.nodup⟩), List.mem_reverse]
  exact hrev.symm

theorem mem_merge {d e : Dict κ ν} {k : κ} : k ∈ d.merge e ↔ k ∈ e ∨ k ∈ d := by
  rw [mem_def, get?_merge, mem_def, mem_def]
  cases e.get? k <;> simp

/-- All values meet a condition. -/
def All (P : ν → Prop) (d : Dict κ ν) : Prop := ∀ k v, d.get? k = some v → P v

theorem all_empty (P : ν → Prop) : (∅ : Dict κ ν).All P := by
  intro k v h
  rw [get?_empty] at h
  cases h

theorem all_iff_forall_mem {P : ν → Prop} {d : Dict κ ν} : d.All P ↔ ∀ e ∈ d.entries, P e.2 := by
  constructor
  · intro h e he
    exact h e.1 e.2 (get?_eq_some_iff.mpr he)
  · intro h k v hv
    exact h (k, v) (get?_eq_some_iff.mp hv)

theorem All.insert {P : ν → Prop} {d : Dict κ ν} (h : d.All P) (k : κ) {v : ν} (hv : P v) :
    (d.insert k v).All P := by
  intro k' v' hget
  rw [get?_insert] at hget
  split at hget
  · rwa [← Option.some.inj hget]
  · exact h k' v' hget

theorem All.erase {P : ν → Prop} {d : Dict κ ν} (h : d.All P) (k : κ) : (d.erase k).All P := by
  intro k' v hget
  rw [get?_erase] at hget
  split at hget
  · cases hget
  · exact h k' v hget

theorem All.modify {P : ν → Prop} {d : Dict κ ν} (h : d.All P) (k : κ) {f : ν → ν}
    (hf : ∀ v, P v → P (f v)) : (d.modify k f).All P := by
  intro k' v hget
  rw [get?_modify] at hget
  split at hget
  · obtain ⟨w, hw, rfl⟩ := Option.map_eq_some_iff.mp hget
    exact hf w (h k w hw)
  · exact h k' v hget

theorem all_mapValues_iff {P : ω → Prop} {f : ν → ω} {d : Dict κ ν} :
    (d.mapValues f).All P ↔ d.All fun v => P (f v) := by
  rw [all_iff_forall_mem, all_iff_forall_mem, entries_mapValues, List.forall_mem_map]

theorem All.merge {P : ν → Prop} {d e : Dict κ ν} (hd : d.All P) (he : e.All P) :
    (d.merge e).All P := by
  intro k v hget
  rw [get?_merge] at hget
  cases hv : e.get? k with
  | none => exact hd k v (by rwa [hv, Option.none_or] at hget)
  | some w =>
    rw [hv, Option.some_or] at hget
    exact he k v (hget ▸ hv)

theorem all_ofList {P : ν → Prop} {items : List (κ × ν)} (h : ∀ e ∈ items, P e.2) :
    (ofList items).All P :=
  fun k v hget => h (k, v) (mem_of_get?_ofList hget)

/-- A value that may be absent, with a default. -/
theorem All.getD {P : ν → Prop} {d : Dict κ ν} (h : d.All P) (k : κ) {v : ν} (hv : P v) :
    P ((d.get? k).getD v) := by
  cases hget : d.get? k with
  | none => exact hv
  | some w => exact h k w hget

/-- Equality as finite maps, whatever the order of the entries. -/
def SameMap (d e : Dict κ ν) : Prop := ∀ k, d.get? k = e.get? k

namespace SameMap

variable {d e : Dict κ ν}

theorem refl (d : Dict κ ν) : SameMap d d := fun _ => rfl

theorem insert (h : SameMap d e) (k : κ) (v : ν) : SameMap (d.insert k v) (e.insert k v) := by
  intro k'
  rw [get?_insert, get?_insert, h k']

theorem erase (h : SameMap d e) (k : κ) : SameMap (d.erase k) (e.erase k) := by
  intro k'
  rw [get?_erase, get?_erase, h k']

theorem mem_iff (h : SameMap d e) {k : κ} : k ∈ d ↔ k ∈ e := by
  rw [mem_def, mem_def, h k]

end SameMap

end Dict

end PiWatch
