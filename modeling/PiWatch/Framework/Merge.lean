import Mathlib.Data.List.Sort

/-!
# Merging by key

Lists are merged by putting them behind one another, keeping the first element of each key and
sorting what is left. In a list sorted so an element is found behind as many others as are smaller.
-/

namespace PiWatch

section KeepFirst

variable {α κ : Type*} [DecidableEq κ] {key : α → κ}

/-- Of the elements with one key the first stays, unless the key was seen before. -/
def keepFirst (key : α → κ) : List κ → List α → List α
  | _, [] => []
  | seen, x :: xs =>
    if key x ∈ seen then keepFirst key seen xs else x :: keepFirst key (key x :: seen) xs

/-- Every key stays that was not seen before. -/
theorem mem_map_keepFirst {seen : List κ} {l : List α} {k : κ} :
    k ∈ (keepFirst key seen l).map key ↔ k ∈ l.map key ∧ k ∉ seen := by
  induction l generalizing seen with
  | nil => simp only [keepFirst, List.map_nil, List.not_mem_nil, false_and]
  | cons x xs ih =>
    rw [keepFirst, List.map_cons, List.mem_cons]
    split_ifs with hx
    · rw [ih]
      constructor
      · rintro ⟨hk, hseen⟩
        exact ⟨Or.inr hk, hseen⟩
      · rintro ⟨rfl | hk, hseen⟩
        · exact absurd hx hseen
        · exact ⟨hk, hseen⟩
    · rw [List.map_cons, List.mem_cons, ih, List.mem_cons, not_or]
      constructor
      · rintro (rfl | ⟨hk, -, hseen⟩)
        · exact ⟨Or.inl rfl, hx⟩
        · exact ⟨Or.inr hk, hseen⟩
      · rintro ⟨hk, hseen⟩
        by_cases hxk : k = key x
        · exact Or.inl hxk
        · exact Or.inr ⟨hk.resolve_left hxk, hxk, hseen⟩

theorem nodup_map_keepFirst (seen : List κ) (l : List α) :
    ((keepFirst key seen l).map key).Nodup := by
  induction l generalizing seen with
  | nil => exact List.nodup_nil
  | cons x xs ih =>
    rw [keepFirst]
    split_ifs
    · exact ih seen
    · rw [List.map_cons, List.nodup_cons, mem_map_keepFirst]
      exact ⟨fun h => h.2 List.mem_cons_self, ih (key x :: seen)⟩

/-- The first element with a key. -/
def firstOf (key : α → κ) (l : List α) (k : κ) : Option α := l.find? fun x => key x = k

theorem mem_of_firstOf {l : List α} {k : κ} {x : α} (h : firstOf key l k = some x) : x ∈ l :=
  List.mem_of_find?_eq_some h

theorem key_of_firstOf {l : List α} {k : κ} {x : α} (h : firstOf key l k = some x) : key x = k := by
  have hkey := List.find?_some h
  rwa [decide_eq_true_iff] at hkey

theorem firstOf_eq_none_iff {l : List α} {k : κ} : firstOf key l k = none ↔ k ∉ l.map key := by
  rw [firstOf, List.find?_eq_none, List.mem_map]
  simp only [decide_eq_true_iff, not_exists, not_and]

/-- It is the one that stays. -/
theorem mem_keepFirst_iff {seen : List κ} {l : List α} {x : α} :
    x ∈ keepFirst key seen l ↔ firstOf key l (key x) = some x ∧ key x ∉ seen := by
  induction l generalizing seen with
  | nil => simp only [keepFirst, firstOf, List.find?_nil, List.not_mem_nil, reduceCtorEq, false_and]
  | cons y ys ih =>
    rw [keepFirst, firstOf, List.find?_cons]
    by_cases hkey : key y = key x
    · rw [hkey, decide_eq_true rfl]
      split_ifs with hx
      · rw [ih]
        exact iff_of_false (fun h => h.2 hx) fun h => h.2 hx
      · rw [List.mem_cons, ih, Option.some_inj, and_iff_left hx]
        constructor
        · rintro (rfl | ⟨-, hseen⟩)
          · rfl
          · exact absurd List.mem_cons_self hseen
        · rintro rfl
          exact Or.inl rfl
    · rw [decide_eq_false hkey]
      split_ifs with hy
      · exact ih
      · have hne : x ≠ y := by
          rintro rfl
          exact hkey rfl
        rw [List.mem_cons, or_iff_right hne, ih, List.mem_cons, not_or,
          and_iff_right (Ne.symm hkey)]
        rfl

end KeepFirst

section SortBy

variable {α κ : Type*} [LinearOrder κ] {key : α → κ}

def sortBy (key : α → κ) (l : List α) : List α := l.insertionSort fun a b => key a ≤ key b

theorem sortBy_perm (key : α → κ) (l : List α) : (sortBy key l).Perm l :=
  List.perm_insertionSort _ l

theorem mem_sortBy {l : List α} {x : α} : x ∈ sortBy key l ↔ x ∈ l := (sortBy_perm key l).mem_iff

theorem map_sortBy (l : List α) : (sortBy key l).map key = (l.map key).insertionSort (· ≤ ·) :=
  List.map_insertionSort _ _ key l fun _ _ _ _ => Iff.rfl

theorem mem_map_sortBy {l : List α} {k : κ} : k ∈ (sortBy key l).map key ↔ k ∈ l.map key := by
  exact ((sortBy_perm key l).map key).mem_iff

/-- Elements with different keys come in the order of their keys. -/
theorem sortedLT_map_sortBy {l : List α} (h : (l.map key).Nodup) :
    ((sortBy key l).map key).SortedLT := by
  rw [List.sortedLT_iff_nodup_and_sortedLE, ((sortBy_perm key l).map key).nodup_iff, map_sortBy]
  exact ⟨h, List.sortedLE_insertionSort⟩

theorem eq_of_sortedLT_map {l l' : List α} (h : (l.map key).SortedLT)
    (h' : (l'.map key).SortedLT) (hmem : ∀ x, x ∈ l ↔ x ∈ l') : l = l' := by
  have hperm : l.Perm l' :=
    (List.perm_ext_iff_of_nodup h.nodup.of_map h'.nodup.of_map).mpr hmem
  apply hperm.eq_of_pairwise _ (List.pairwise_map.mp h.pairwise) (List.pairwise_map.mp h'.pairwise)
  intro x y _ _ hxy hyx
  exact absurd hxy (lt_asymm hyx)

/-- The lists merge to the same if they have the same first elements. -/
theorem sortBy_keepFirst_congr {l l' : List α} (h : firstOf key l = firstOf key l') :
    sortBy key (keepFirst key [] l) = sortBy key (keepFirst key [] l') := by
  apply eq_of_sortedLT_map (sortedLT_map_sortBy (nodup_map_keepFirst _ _))
    (sortedLT_map_sortBy (nodup_map_keepFirst _ _))
  intro x
  rw [mem_sortBy, mem_sortBy, mem_keepFirst_iff, mem_keepFirst_iff, h]

end SortBy

section Agree

variable {α κ : Type*} {key : α → κ} {ls ls' : List (List α)}

/-- Elements with one key in different lists are the same. -/
def Agree (key : α → κ) (ls : List (List α)) : Prop :=
  ∀ l ∈ ls, ∀ l' ∈ ls, l ≠ l' → ∀ x ∈ l, ∀ y ∈ l', key x = key y → x = y

theorem Agree.subset (h : Agree key ls) (hsub : ls' ⊆ ls) : Agree key ls' :=
  fun l hl l' hl' => h l (hsub hl) l' (hsub hl')

/-- Elements that their key determines. -/
theorem agree_of_eq {f : κ → α} (h : ∀ l ∈ ls, ∀ x ∈ l, x = f (key x)) : Agree key ls := by
  intro l hl l' hl' _ x hx y hy hkey
  rw [h l hl x hx, hkey, ← h l' hl' y hy]

variable [DecidableEq κ]

theorem exists_firstOf_of_flatten {k : κ} {x : α} (h : firstOf key ls.flatten k = some x) :
    ∃ l ∈ ls, firstOf key l k = some x := by
  rw [firstOf, List.find?_flatten] at h
  exact List.exists_of_findSome?_eq_some h

/-- Where the lists agree, it does not matter how they are put behind one another. -/
theorem firstOf_flatten_eq (h : Agree key (ls ++ ls'))
    (hkeys : ∀ k, k ∈ ls.flatten.map key ↔ k ∈ ls'.flatten.map key) :
    firstOf key ls.flatten = firstOf key ls'.flatten := by
  funext k
  cases hx : firstOf key ls.flatten k with
  | none =>
    rw [firstOf_eq_none_iff, hkeys, ← firstOf_eq_none_iff] at hx
    exact hx.symm
  | some x =>
    cases hy : firstOf key ls'.flatten k with
    | none =>
      rw [firstOf_eq_none_iff, ← hkeys, ← firstOf_eq_none_iff, hx] at hy
      cases hy
    | some y =>
      obtain ⟨l, hl, hlx⟩ := exists_firstOf_of_flatten hx
      obtain ⟨l', hl', hly⟩ := exists_firstOf_of_flatten hy
      by_cases heq : l = l'
      · rw [← hlx, ← hly, heq]
      · have hsame : key x = key y := (key_of_firstOf hlx).trans (key_of_firstOf hly).symm
        rw [h l (List.mem_append_left _ hl) l' (List.mem_append_right _ hl') heq x
          (mem_of_firstOf hlx) y (mem_of_firstOf hly) hsame]

end Agree

section Positions

variable {α : Type*} [LinearOrder α] {l l' : List α} {x : α} {k m : ℕ}

theorem countP_lt_cons_of_sortedLT {a : α} (h : (a :: l).SortedLT) (hx : x ∈ a :: l) :
    (a :: l).countP (· < x) = if x = a then 0 else l.countP (· < x) + 1 := by
  obtain ⟨ha, -⟩ := List.pairwise_cons.mp h.pairwise
  split_ifs with hxa
  · rw [List.countP_eq_zero]
    intro b hb
    rw [decide_eq_true_iff, hxa, not_lt]
    rcases List.mem_cons.mp hb with rfl | hb
    · exact le_refl b
    · exact (ha b hb).le
  · have hlt : a < x := ha x ((List.mem_cons.mp hx).resolve_left hxa)
    rw [List.countP_cons_of_pos (by rwa [decide_eq_true_iff])]

theorem mem_drop_iff_of_sortedLT (h : l.SortedLT) :
    x ∈ l.drop m ↔ x ∈ l ∧ m ≤ l.countP (· < x) := by
  induction l generalizing m with
  | nil => simp only [List.drop_nil, List.not_mem_nil, false_and]
  | cons a l ih =>
    obtain ⟨ha, hl⟩ := List.pairwise_cons.mp h.pairwise
    cases m with
    | zero => rw [List.drop_zero, and_iff_left (Nat.zero_le _)]
    | succ m =>
      rw [List.drop_succ_cons, ih hl.sortedLT]
      constructor
      · rintro ⟨hx, hm⟩
        rw [countP_lt_cons_of_sortedLT h (List.mem_cons_of_mem a hx), if_neg (ha x hx).ne']
        exact ⟨List.mem_cons_of_mem a hx, Nat.succ_le_succ hm⟩
      · rintro ⟨hx, hm⟩
        rw [countP_lt_cons_of_sortedLT h hx] at hm
        split_ifs at hm with hxa
        · exact absurd hm (Nat.not_succ_le_zero m)
        · exact ⟨(List.mem_cons.mp hx).resolve_left hxa, Nat.le_of_succ_le_succ hm⟩

theorem mem_take_iff_of_sortedLT (h : l.SortedLT) :
    x ∈ l.take k ↔ x ∈ l ∧ l.countP (· < x) < k := by
  have hnodup : (l.take k ++ l.drop k).Nodup := by
    rw [List.take_append_drop]
    exact h.nodup
  have hdisjoint := List.disjoint_of_nodup_append hnodup
  constructor
  · intro hx
    refine ⟨List.mem_of_mem_take hx, ?_⟩
    by_contra hk
    exact hdisjoint hx ((mem_drop_iff_of_sortedLT h).mpr
      ⟨List.mem_of_mem_take hx, Nat.not_lt.mp hk⟩)
  · rintro ⟨hx, hk⟩
    rw [← List.take_append_drop k l, List.mem_append] at hx
    refine hx.resolve_right fun hdrop => ?_
    exact absurd ((mem_drop_iff_of_sortedLT h).mp hdrop).2 (Nat.not_le.mpr hk)

/-- The elements below one are those of a part of the list, and the others. -/
theorem countP_lt_of_subset (hl : l.Nodup) (hl' : l'.Nodup) (h : l ⊆ l') :
    l'.countP (· < x) = l.countP (· < x) + l'.countP fun y => y ∉ l ∧ y < x := by
  have hpart : (l'.filter (· ∈ l)).Perm l := by
    rw [List.perm_ext_iff_of_nodup (hl'.filter _) hl]
    intro y
    rw [List.mem_filter, decide_eq_true_iff]
    exact ⟨fun hy => hy.2, fun hy => ⟨h hy, hy⟩⟩
  rw [l'.countP_eq_countP_filter_add _ (· ∈ l), hpart.countP_eq, List.countP_filter]
  congr 1
  apply List.countP_congr
  intro y _
  simp only [Bool.and_eq_true, decide_eq_true_iff, Bool.not_eq_true', decide_eq_false_iff_not,
    and_comm]

/-- How many elements of a longer list come before one of the first `k`. -/
def addedBefore (l l' : List α) (k : ℕ) : ℕ :=
  l'.countP fun y => y ∉ l ∧ ∃ x ∈ l.take k, y < x

theorem le_of_mem_take (hl : l.SortedLT) (hx : l[k]? = some x) {y : α}
    (hy : y ∈ l.take (k + 1)) : y ≤ x := by
  obtain ⟨hk, rfl⟩ := List.getElem?_eq_some_iff.mp hx
  obtain ⟨i, hi, rfl⟩ := List.mem_take_iff_getElem.mp hy
  exact hl.getElem_le_getElem_iff.mpr (by omega)

theorem mem_take_of_getElem? {β : Type*} {l : List β} {x : β} {k : ℕ} (hx : l[k]? = some x) :
    x ∈ l.take (k + 1) := by
  rw [List.take_add_one, hx]
  exact List.mem_append_right _ (List.mem_singleton_self x)

theorem countP_lt_of_getElem? (hl : l.SortedLT) (hx : l[k]? = some x) :
    l.countP (· < x) = k := by
  have hdrop : x ∈ l.drop k := by
    obtain ⟨hk, rfl⟩ := List.getElem?_eq_some_iff.mp hx
    rw [List.drop_eq_getElem_cons hk]
    exact List.mem_cons_self
  have hbelow := ((mem_take_iff_of_sortedLT hl).mp (mem_take_of_getElem? hx)).2
  have habove := ((mem_drop_iff_of_sortedLT hl).mp hdrop).2
  omega

theorem addedBefore_succ (hl : l.SortedLT) (hx : l[k]? = some x) :
    addedBefore l l' (k + 1) = l'.countP fun y => y ∉ l ∧ y < x := by
  apply List.countP_congr
  intro y _
  rw [decide_eq_true_iff, decide_eq_true_iff]
  constructor
  · rintro ⟨hy, z, hz, hlt⟩
    exact ⟨hy, hlt.trans_le (le_of_mem_take hl hx hz)⟩
  · rintro ⟨hy, hlt⟩
    exact ⟨hy, x, mem_take_of_getElem? hx, hlt⟩

/-- The first elements of a list are not found behind a place of a longer one exactly if there is
room before that place for them and for what was put in between. -/
theorem disjoint_take_drop_iff (hl : l.SortedLT) (hl' : l'.SortedLT) (h : l ⊆ l')
    (hk : k ≤ l.length) :
    (l.take k).Disjoint (l'.drop m) ↔ k = 0 ∨ k + addedBefore l l' k ≤ m := by
  cases k with
  | zero => simp only [List.take_zero, List.disjoint_nil_left, true_or]
  | succ k =>
    obtain ⟨x, hx⟩ : ∃ x, l[k]? = some x := ⟨_, List.getElem?_eq_getElem hk⟩
    have hlast := mem_take_of_getElem? hx
    have hrank := countP_lt_of_subset (x := x) hl.nodup hl'.nodup h
    rw [countP_lt_of_getElem? hl hx] at hrank
    rw [addedBefore_succ hl hx, or_iff_right (Nat.succ_ne_zero k)]
    constructor
    · intro hdisjoint
      by_contra hm
      refine hdisjoint hlast ((mem_drop_iff_of_sortedLT hl').mpr ?_)
      exact ⟨h (List.mem_of_mem_take hlast), by omega⟩
    · intro hle y hy hy'
      have hm := ((mem_drop_iff_of_sortedLT hl').mp hy').2
      have hmono : l'.countP (· < y) ≤ l'.countP (· < x) := by
        apply List.countP_mono_left
        intro z _ hz
        rw [decide_eq_true_iff] at hz ⊢
        exact hz.trans_le (le_of_mem_take hl hx hy)
      omega

end Positions

end PiWatch
