import Mathlib.Data.List.DropRight
import Mathlib.Data.List.Forall2
import Mathlib.Data.List.Infix

/-!
# Bounded buffers

A ring of capacity `n` keeps the last `n` items pushed into it. It is both a
`deque(maxlen=n)` and a bounded queue whose producer drops the oldest item when full.
-/

namespace PiWatch

variable {α : Type*} {n : ℕ}

theorem length_rtake_le (l : List α) (n : ℕ) : (l.rtake n).length ≤ n := by
  unfold List.rtake
  rw [List.length_drop]
  omega

theorem rtake_of_length_le {l : List α} (h : l.length ≤ n) : l.rtake n = l := by
  unfold List.rtake
  rw [Nat.sub_eq_zero_of_le h, List.drop_zero]

theorem rtake_suffix (l : List α) (n : ℕ) : l.rtake n <:+ l := List.drop_suffix _ _

theorem rtake_rtake_succ (l : List α) (n : ℕ) : (l.rtake (n + 1)).rtake n = l.rtake n := by
  unfold List.rtake
  rw [List.drop_drop, List.length_drop]
  congr 1
  omega

theorem rtake_rtake_append (l m : List α) : (l.rtake n ++ m).rtake n = (l ++ m).rtake n := by
  cases n with
  | zero => simp
  | succ n =>
    induction m using List.reverseRecOn with
    | nil =>
      rw [List.append_nil, List.append_nil]
      exact rtake_of_length_le (length_rtake_le l _)
    | append_singleton m x ih =>
      rw [← List.append_assoc, ← List.append_assoc, List.rtake_concat_succ,
        List.rtake_concat_succ, ← rtake_rtake_succ, ih, rtake_rtake_succ]

theorem map_rtake {β : Type*} (f : α → β) (l : List α) (n : ℕ) :
    (l.rtake n).map f = (l.map f).rtake n := by
  simp [List.rtake, List.map_drop]

theorem forall₂_rtake {β : Type*} {R : α → β → Prop} {l : List α} {m : List β}
    (h : List.Forall₂ R l m) (n : ℕ) : List.Forall₂ R (l.rtake n) (m.rtake n) := by
  unfold List.rtake
  rw [h.length_eq]
  exact List.forall₂_drop _ h

/-- Filtering out none of the last `n` items. -/
theorem rtake_filter {l : List α} {p : α → Bool} (h : ∀ x ∈ l.rtake n, p x) :
    (l.filter p).rtake n = l.rtake n := by
  have hsplit : l.take (l.length - n) ++ l.rtake n = l := List.take_append_drop _ l
  have hfilter : l.filter p = (l.take (l.length - n)).filter p ++ l.rtake n := by
    conv_lhs => rw [← hsplit, List.filter_append, List.filter_eq_self.mpr h]
  rw [hfilter]
  by_cases hlen : n ≤ l.length
  · have hn : (l.rtake n).length = n := by
      rw [List.rtake, List.length_drop]
      omega
    rw [List.rtake, List.length_append, hn, Nat.add_sub_cancel, List.drop_left]
  · have hnil : l.take (l.length - n) = [] := by
      rw [Nat.sub_eq_zero_of_le (by omega), List.take_zero]
    rw [hnil, List.filter_nil, List.nil_append]
    exact rtake_of_length_le (length_rtake_le l n)

theorem suffix_rtake {l m : List α} (h : l <:+ m) (hl : l.length ≤ n) : l <:+ m.rtake n := by
  by_cases hm : m.length ≤ n
  · rwa [rtake_of_length_le hm]
  · refine List.suffix_of_suffix_length_le h (rtake_suffix m n) ?_
    rw [List.rtake, List.length_drop]
    omega

theorem mem_rtake_concat {l : List α} {x y : α} (h : x ∈ (l ++ [y]).rtake n) :
    x ∈ l.rtake n ∨ x = y := by
  cases n with
  | zero => simp at h
  | succ n =>
    rw [List.rtake_concat_succ, List.mem_append, List.mem_singleton] at h
    rw [← rtake_rtake_succ] at h
    exact h.imp_left fun hx => (rtake_suffix _ n).subset hx

/-- An item that is not among the last `n` has at least `n` items after it. -/
theorem exists_later_of_notMem_rtake {l : List α} {x : α} (hx : x ∈ l) (h : x ∉ l.rtake n) :
    ∃ earlier later, l = earlier ++ x :: later ∧ n ≤ later.length := by
  have hsplit : l.take (l.length - n) ++ l.rtake n = l := List.take_append_drop _ l
  rw [← hsplit, List.mem_append, or_iff_left h] at hx
  have hlen : n < l.length := by
    by_contra hshort
    rw [Nat.sub_eq_zero_of_le (by omega), List.take_zero] at hx
    cases hx
  obtain ⟨earlier, between, hcut⟩ := List.append_of_mem hx
  refine ⟨earlier, between ++ l.rtake n, ?_, ?_⟩
  · rw [← List.cons_append, ← List.append_assoc, ← hcut, hsplit]
  · rw [List.length_append, List.rtake, List.length_drop]
    omega

/-- The last items pushed, oldest first, at most `n` of them. -/
structure Ring (n : ℕ) (α : Type*) where
  items : List α
  bounded : items.length ≤ n

namespace Ring

theorem ext {r q : Ring n α} (h : r.items = q.items) : r = q := by
  cases r
  cases q
  simpa using h

instance [DecidableEq α] : DecidableEq (Ring n α) := fun r q =>
  decidable_of_iff (r.items = q.items) ⟨ext, congrArg items⟩

def empty : Ring n α := ⟨[], Nat.zero_le n⟩

instance : EmptyCollection (Ring n α) := ⟨empty⟩

instance : Inhabited (Ring n α) := ⟨empty⟩

@[simp] theorem items_empty : (∅ : Ring n α).items = [] := rfl

/-- Append one item, dropping the oldest when the ring is full. -/
def push (r : Ring n α) (x : α) : Ring n α := ⟨(r.items ++ [x]).rtake n, length_rtake_le _ _⟩

/-- Append items one after the other. -/
def extend (r : Ring n α) (xs : List α) : Ring n α := xs.foldl push r

theorem items_push (r : Ring n α) (x : α) : (r.push x).items = (r.items ++ [x]).rtake n := rfl

theorem items_push_succ (r : Ring (n + 1) α) (x : α) :
    (r.push x).items = r.items.rtake n ++ [x] := List.rtake_concat_succ _ _ _

/-- A push moves the items it keeps one place up. -/
theorem suffix_push {r : Ring n α} {l : List α} (h : l <:+ r.items) (hl : l.length < n)
    (x : α) : l ++ [x] <:+ (r.push x).items := by
  obtain ⟨old, hold⟩ := h
  rw [items_push]
  refine suffix_rtake ⟨old, by rw [← hold, List.append_assoc]⟩ ?_
  rw [List.length_append, List.length_singleton]
  exact hl

theorem items_extend (r : Ring n α) (xs : List α) :
    (r.extend xs).items = (r.items ++ xs).rtake n := by
  induction xs generalizing r with
  | nil => simpa [extend] using (rtake_of_length_le r.bounded).symm
  | cons x xs ih =>
    change ((r.push x).extend xs).items = _
    rw [ih, items_push, rtake_rtake_append, List.append_assoc, List.singleton_append]

theorem getLast?_push {r : Ring n α} (hn : 0 < n) (x : α) : (r.push x).items.getLast? = some x := by
  obtain ⟨n, rfl⟩ := Nat.exists_eq_succ_of_ne_zero hn.ne'
  rw [items_push_succ, List.getLast?_concat]

/-- An item of the ring that is among the last `n` of the whole sequence survives a push. -/
theorem mem_push {r : Ring n α} {l : List α} (hr : r.items <:+ l) {x y : α}
    (hx : x ∈ r.items) (hrecent : x ∈ (l ++ [y]).rtake n) : x ∈ (r.push y).items := by
  rw [items_push]
  by_cases hroom : r.items.length < n
  · rw [rtake_of_length_le (by rw [List.length_append, List.length_singleton]; exact hroom)]
    exact List.mem_append_left _ hx
  · have hfull : r.items.length = n := Nat.le_antisymm r.bounded (Nat.le_of_not_lt hroom)
    have hlast : r.items = l.rtake n := by
      refine (suffix_rtake hr hfull.le).eq_of_length ?_
      rw [List.rtake, List.length_drop, hfull]
      have hlen := hr.length_le
      omega
    rwa [hlast, rtake_rtake_append]

/-- `put_nowait`: refused when the ring is full. -/
def put? (r : Ring n α) (x : α) : Option (Ring n α) :=
  if h : r.items.length < n then
    some ⟨r.items ++ [x], by
      rw [List.length_append, List.length_singleton]
      exact h⟩
  else none

theorem length_le_of_cons {r : Ring n α} {x : α} {rest : List α} (h : r.items = x :: rest) :
    rest.length ≤ n := by
  have hbound := r.bounded
  rw [h, List.length_cons] at hbound
  omega

/-- `get_nowait`: the oldest item and the rest. -/
def pop? (r : Ring n α) : Option (α × Ring n α) :=
  match h : r.items with
  | [] => none
  | x :: rest => some (x, ⟨rest, length_le_of_cons h⟩)

theorem pop?_of_cons {r : Ring n α} {x : α} {rest : List α} (h : r.items = x :: rest) :
    ∃ r' : Ring n α, r.pop? = some (x, r') ∧ r'.items = rest := by
  unfold pop?
  split
  · rename_i hnil
    cases h.symm.trans hnil
  · rename_i y rest' hitems
    obtain ⟨rfl, rfl⟩ := List.cons.inj (h.symm.trans hitems)
    exact ⟨_, rfl, rfl⟩

theorem pop?_eq_some {r r' : Ring n α} {x : α} (h : r.pop? = some (x, r')) :
    r.items = x :: r'.items := by
  unfold pop? at h
  split at h
  · cases h
  · rename_i y rest hitems
    obtain ⟨rfl, rfl⟩ := Prod.mk.inj (Option.some.inj h)
    exact hitems

theorem put?_of_lt {r : Ring n α} (h : r.items.length < n) (x : α) :
    r.put? x = some (r.push x) := by
  rw [put?, dif_pos h]
  congr 1
  apply ext
  rw [items_push, rtake_of_length_le]
  rw [List.length_append, List.length_singleton]
  exact h

/-- Refused by a full ring, an item goes in once the oldest one is out. -/
theorem put?_of_full {r : Ring n α} (hn : 0 < n) (h : ¬ r.items.length < n) (x : α) :
    r.put? x = none ∧ ∃ oldest r', r.pop? = some (oldest, r') ∧ r'.put? x = some (r.push x) := by
  refine ⟨by rw [put?, dif_neg h], ?_⟩
  cases hpop : r.pop? with
  | none =>
    unfold pop? at hpop
    split at hpop
    · rename_i hnil
      rw [hnil, List.length_nil] at h
      exact absurd hn h
    · cases hpop
  | some oldest =>
    obtain ⟨y, r'⟩ := oldest
    have hitems := pop?_eq_some hpop
    have hlen : r'.items.length + 1 = n := by
      have hbound := r.bounded
      rw [hitems, List.length_cons] at h hbound
      omega
    refine ⟨y, r', rfl, ?_⟩
    rw [put?_of_lt (by omega)]
    congr 1
    apply ext
    rw [items_push, items_push, hitems, List.cons_append, List.rtake, List.rtake,
      List.length_cons, List.length_append, List.length_singleton, hlen, Nat.sub_self,
      Nat.add_sub_cancel_left]
    rfl

-- With its capacity a literal, a ring must not be unfolded when two states are compared.
attribute [irreducible] push

end Ring

end PiWatch
