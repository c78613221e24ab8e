import PiWatch.Framework.Ring

/-!
# Bounded mailboxes

A mailbox is a bounded queue between a publisher that never waits and one consumer. When
the queue is full the publisher drops the oldest message. The mailbox also records what was
ever published into it and what was taken, so that what became of every message can be told
by its place among the published ones.
-/

namespace PiWatch

variable {μ : Type*} {n : ℕ}

/-! ## What became of the messages -/

/-- What a queue of capacity `n` that drops its oldest message did with the published ones: those
at the places were taken, in their order, the last ones are waiting, and one that was not taken is
waiting exactly while it is among the last `n`. -/
structure Accounts (n : ℕ) (published taken waiting : List μ) (places : List ℕ) : Prop where
  inOrder : places.Pairwise (· < ·)
  took : places.map (fun i => published[i]?) = taken.map some
  suffix : waiting <:+ published
  earlier : ∀ i ∈ places, i + waiting.length < published.length
  waiting_iff : ∀ i < published.length, i ∉ places →
    (published.length ≤ i + waiting.length ↔ published.length ≤ i + n)

namespace Accounts

variable {published taken waiting : List μ} {places : List ℕ}

theorem nil : Accounts n ([] : List μ) [] [] [] where
  inOrder := List.Pairwise.nil
  took := rfl
  suffix := List.suffix_rfl
  earlier := by simp
  waiting_iff := by simp

/-- A publication drops the oldest message of a full queue. -/
theorem publish (h : Accounts n published taken waiting places) (hbound : waiting.length ≤ n)
    (m : μ) : Accounts n (published ++ [m]) taken ((waiting ++ [m]).rtake n) places := by
  have hlen : ((waiting ++ [m]).rtake n).length = min n (waiting.length + 1) := by
    rw [List.rtake, List.length_drop, List.length_append, List.length_singleton]
    omega
  obtain ⟨old, hold⟩ := h.suffix
  constructor
  · exact h.inOrder
  · rw [← h.took]
    apply List.map_congr_left
    intro i hi
    have hearlier := h.earlier i hi
    exact List.getElem?_append_left (by omega)
  · refine (rtake_suffix _ n).trans ⟨old, ?_⟩
    rw [← List.append_assoc, hold]
  · intro i hi
    have hearlier := h.earlier i hi
    rw [hlen, List.length_append, List.length_singleton]
    omega
  · intro i hi hout
    rw [List.length_append, List.length_singleton] at hi
    rw [hlen, List.length_append, List.length_singleton]
    by_cases hnew : i = published.length
    · omega
    · have hbefore := h.waiting_iff i (by omega) hout
      omega

theorem take {m : μ} {rest : List μ} (h : Accounts n published taken (m :: rest) places) :
    Accounts n published (taken ++ [m]) rest
      (places ++ [published.length - (rest.length + 1)]) := by
  obtain ⟨old, hold⟩ := h.suffix
  have hlen : published.length = old.length + (rest.length + 1) := by
    rw [← hold, List.length_append, List.length_cons]
  have hplace : published.length - (rest.length + 1) = old.length := by omega
  rw [hplace]
  constructor
  · rw [List.pairwise_append]
    refine ⟨h.inOrder, List.pairwise_singleton _ _, fun i hi j hj => ?_⟩
    have hearlier := h.earlier i hi
    rw [List.length_cons] at hearlier
    rw [List.mem_singleton.mp hj]
    omega
  · rw [List.map_append, List.map_append, h.took, ← hold]
    simp
  · exact ⟨old ++ [m], by rw [List.append_assoc, List.singleton_append, hold]⟩
  · intro i hi
    rcases List.mem_append.mp hi with hi | hi
    · have hearlier := h.earlier i hi
      rw [List.length_cons] at hearlier
      omega
    · rw [List.mem_singleton.mp hi]
      omega
  · intro i hi hout
    rw [List.mem_append, List.mem_singleton, not_or] at hout
    have hbefore := h.waiting_iff i hi hout.1
    rw [List.length_cons] at hbefore
    omega

end Accounts

/-! ## Mailboxes -/

/-- Taken and waiting messages are a subsequence of the published ones. -/
structure Mailbox (n : ℕ) (μ : Type*) where
  queue : Ring n μ
  taken : List μ
  log : List μ
  inOrder : (taken ++ queue.items).Sublist log

namespace Mailbox

def empty : Mailbox n μ := ⟨∅, [], [], List.Sublist.refl _⟩

instance : EmptyCollection (Mailbox n μ) := ⟨empty⟩

@[simp] theorem taken_empty : (∅ : Mailbox n μ).taken = [] := rfl

@[simp] theorem log_empty : (∅ : Mailbox n μ).log = [] := rfl

@[simp] theorem queue_empty : (∅ : Mailbox n μ).queue = ∅ := rfl

/-- `put_nowait`, dropping the oldest message when the queue is full. -/
def publish (mb : Mailbox n μ) (m : μ) : Mailbox n μ where
  queue := mb.queue.push m
  taken := mb.taken
  log := mb.log ++ [m]
  inOrder := by
    have hqueue : (mb.queue.push m).items.Sublist (mb.queue.items ++ [m]) := by
      rw [Ring.items_push]
      exact (rtake_suffix _ n).sublist
    have hall : (mb.taken ++ (mb.queue.items ++ [m])).Sublist (mb.log ++ [m]) := by
      rw [← List.append_assoc]
      exact mb.inOrder.append (List.Sublist.refl [m])
    exact ((List.Sublist.refl mb.taken).append hqueue).trans hall

@[simp] theorem taken_publish (mb : Mailbox n μ) (m : μ) : (mb.publish m).taken = mb.taken := rfl

@[simp] theorem log_publish (mb : Mailbox n μ) (m : μ) : (mb.publish m).log = mb.log ++ [m] := rfl

def publishAll (mb : Mailbox n μ) (ms : List μ) : Mailbox n μ := ms.foldl publish mb

/-- Take the oldest waiting message. -/
def take (mb : Mailbox n μ) {m : μ} {rest : List μ} (h : mb.queue.items = m :: rest) :
    Mailbox n μ where
  queue := ⟨rest, by
    have hbound := mb.queue.bounded
    rw [h, List.length_cons] at hbound
    omega⟩
  taken := mb.taken ++ [m]
  log := mb.log
  inOrder := by
    have horder := mb.inOrder
    rwa [h, List.append_cons] at horder

/-- `q.get()` when a message is waiting. -/
def next (mb : Mailbox n μ) : Option (μ × Mailbox n μ) :=
  match h : mb.queue.items with
  | [] => none
  | m :: _ => some (m, mb.take h)

theorem next_eq_some {mb mb' : Mailbox n μ} {m : μ} (h : mb.next = some (m, mb')) :
    ∃ rest, ∃ hq : mb.queue.items = m :: rest, mb' = mb.take hq := by
  unfold next at h
  split at h
  · cases h
  · rename_i m' rest hq
    obtain ⟨rfl, rfl⟩ := Prod.mk.inj (Option.some.inj h)
    exact ⟨rest, hq, rfl⟩

theorem next_eq {mb : Mailbox n μ} {m : μ} {rest : List μ} (h : mb.queue.items = m :: rest) :
    mb.next = some (m, mb.take h) := by
  unfold next
  split
  · rename_i hq
    cases hq.symm.trans h
  · rename_i m' rest' hq
    obtain ⟨rfl, rfl⟩ := List.cons.inj (hq.symm.trans h)
    rfl

theorem publishAll_append (mb : Mailbox n μ) (ms ns : List μ) :
    mb.publishAll (ms ++ ns) = (mb.publishAll ms).publishAll ns :=
  List.foldl_append

theorem log_publishAll (mb : Mailbox n μ) (ms : List μ) :
    (mb.publishAll ms).log = mb.log ++ ms := by
  induction ms generalizing mb with
  | nil => exact (List.append_nil _).symm
  | cons m ms ih =>
    change ((mb.publish m).publishAll ms).log = _
    rw [ih, publish, List.append_assoc, List.singleton_append]

theorem taken_publishAll (mb : Mailbox n μ) (ms : List μ) :
    (mb.publishAll ms).taken = mb.taken := by
  induction ms generalizing mb with
  | nil => rfl
  | cons m ms ih =>
    change ((mb.publish m).publishAll ms).taken = _
    rw [ih, publish]

/-! ## The accounts of a mailbox -/

/-- The messages of a mailbox are accounted for. -/
def Accounted (mb : Mailbox n μ) : Prop :=
  ∃ places, Accounts n mb.log mb.taken mb.queue.items places

theorem accounted_empty : (∅ : Mailbox n μ).Accounted := ⟨[], Accounts.nil⟩

theorem Accounted.publish {mb : Mailbox n μ} (h : mb.Accounted) (m : μ) :
    (mb.publish m).Accounted := by
  obtain ⟨places, hplaces⟩ := h
  refine ⟨places, ?_⟩
  have hpublish := hplaces.publish mb.queue.bounded m
  rwa [← Ring.items_push] at hpublish

theorem Accounted.publishAll {mb : Mailbox n μ} (h : mb.Accounted) (ms : List μ) :
    (mb.publishAll ms).Accounted := by
  induction ms generalizing mb with
  | nil => exact h
  | cons m ms ih => exact ih (h.publish m)

theorem Accounted.take {mb : Mailbox n μ} (h : mb.Accounted) {m : μ} {rest : List μ}
    (hq : mb.queue.items = m :: rest) : (mb.take hq).Accounted := by
  obtain ⟨places, hplaces⟩ := h
  rw [hq] at hplaces
  exact ⟨_, hplaces.take⟩

/-- No message is lost. -/
def Whole (mb : Mailbox n μ) : Prop := mb.taken ++ mb.queue.items = mb.log

theorem whole_empty : (∅ : Mailbox n μ).Whole := rfl

/-- A message that finds room costs none. -/
theorem Whole.publishAll {mb : Mailbox n μ} (h : mb.Whole) {ms : List μ}
    (hroom : mb.queue.items.length + ms.length ≤ n) : (mb.publishAll ms).Whole := by
  induction ms generalizing mb with
  | nil => exact h
  | cons m ms ih =>
    rw [List.length_cons] at hroom
    have hitems : (mb.publish m).queue.items = mb.queue.items ++ [m] := by
      rw [publish, Ring.items_push]
      apply rtake_of_length_le
      rw [List.length_append, List.length_singleton]
      omega
    have hwhole : (mb.publish m).Whole := by
      rw [Whole, hitems, taken_publish, log_publish, ← List.append_assoc]
      exact congrArg (· ++ [m]) h
    apply ih hwhole
    rw [hitems, List.length_append, List.length_singleton]
    omega

theorem Whole.take {mb : Mailbox n μ} (h : mb.Whole) {m : μ} {rest : List μ}
    (hq : mb.queue.items = m :: rest) : (mb.take hq).Whole := by
  rw [Whole, hq] at h
  change mb.taken ++ [m] ++ rest = mb.log
  rw [List.append_assoc, List.singleton_append, h]

end Mailbox

end PiWatch
