import Mathlib.Data.List.Range
import PiWatch.Framework.Run
import PiWatch.Protocol.Ws

/-!
# Subscriber queues

`publish` visits the subscribed queues in the order of a set and never waits for a consumer.
Every publication makes a new message object; the number of publications before it tells it
apart from all others.
-/

namespace PiWatch

namespace Subscribers

open Ws (queueLen)

variable {μ : Type*}

/-- What was published, and the number of publications before it. -/
abbrev Message (μ : Type*) := μ × ℕ

/-- How a queue call ends: it returns, it raises `QueueFull`, it raises anything else. -/
inductive Answer
  | done
  | full
  | raised
  deriving DecidableEq

/-- A queue that answers its calls in any way it likes. -/
structure Faulty where
  put : ℕ → Answer
  get : ℕ → Answer
  puts : ℕ
  gets : ℕ

/-- `put_nowait` raises nothing but `QueueFull`, as that of every `asyncio.Queue`. -/
def Faulty.Mild (q : Faulty) : Prop := ∀ n, q.put n ≠ .raised

inductive Queue (μ : Type*)
  | fifo (ring : Ring queueLen (Message μ))
  | faulty (q : Faulty)

namespace Queue

/-- The messages waiting in a queue of `asyncio`. -/
def length : Queue μ → ℕ
  | .fifo ring => ring.items.length
  | .faulty _ => 0

def putNowait (msg : Message μ) : Queue μ → Answer × Queue μ
  | .fifo ring =>
    match ring.put? msg with
    | some ring' => (.done, .fifo ring')
    | none => (.full, .fifo ring)
  | .faulty q => (q.put q.puts, .faulty { q with puts := q.puts + 1 })

def getNowait : Queue μ → Answer × Queue μ
  | .fifo ring =>
    match ring.pop? with
    | some (_, ring') => (.done, .fifo ring')
    | none => (.raised, .fifo ring)
  | .faulty q => (q.get q.gets, .faulty { q with gets := q.gets + 1 })

/-- One round of the loop in `publish`: whether the loop goes on, and the queue. An exception of
the first `put_nowait` that is not `QueueFull` leaves the loop. -/
def offer (msg : Message μ) (q : Queue μ) : Bool × Queue μ :=
  match q.putNowait msg with
  | (.done, q) => (true, q)
  | (.raised, q) => (false, q)
  | (.full, q) =>
    match q.getNowait with
    | (.done, q) => (true, (q.putNowait msg).2)
    | (_, q) => (true, q)

/-- A queue that drops its oldest message when full always takes the new one. -/
theorem offer_fifo (msg : Message μ) (ring : Ring queueLen (Message μ)) :
    (fifo ring).offer msg = (true, .fifo (ring.push msg)) := by
  by_cases hroom : ring.items.length < queueLen
  · simp only [offer, putNowait, Ring.put?_of_lt hroom]
  · obtain ⟨hfull, oldest, ring', hpop, hput⟩ := Ring.put?_of_full (by decide) hroom msg
    simp only [offer, putNowait, getNowait, hfull, hpop, hput]

/-- The mailbox of a WebSocket client takes a message as its queue does. -/
theorem offer_mailbox (msg : Message μ) (mb : Mailbox queueLen (Message μ)) :
    (fifo mb.queue).offer msg = (true, .fifo (mb.publish msg).queue) :=
  offer_fifo msg mb.queue

/-- A faulty queue stays one and keeps its ways. -/
theorem offer_faulty (msg : Message μ) (q : Faulty) :
    ∃ q' : Faulty, ((faulty q).offer msg).2 = .faulty q' ∧ q'.put = q.put := by
  simp only [offer, putNowait, getNowait]
  cases q.put q.puts with
  | full => cases hget : q.get q.gets <;> simp [hget]
  | _ => simp

/-- The queue is one of `asyncio`, or as mild. -/
def Mild : Queue μ → Prop
  | .fifo _ => True
  | .faulty q => q.Mild

/-- A mild queue never makes `publish` raise. -/
theorem offer_of_mild (msg : Message μ) {q : Queue μ} (h : q.Mild) :
    (q.offer msg).1 = true ∧ (q.offer msg).2.Mild := by
  cases q with
  | fifo ring =>
    rw [offer_fifo]
    exact ⟨rfl, trivial⟩
  | faulty q =>
    constructor
    · simp only [offer, putNowait, getNowait]
      cases hput : q.put q.puts with
      | done => rfl
      | raised => exact absurd hput (h _)
      | full => cases hget : q.get q.gets <;> simp [hget]
    · obtain ⟨q', hq', hputs⟩ := offer_faulty msg q
      rw [hq', Mild, Faulty.Mild, hputs]
      exact h

end Queue

/-- A queue with its consumer. `since` and `left` count the publications before it was
subscribed and before it was unsubscribed. -/
structure Subscriber (μ : Type*) where
  queue : Queue μ
  taken : List (Message μ)
  since : ℕ
  left : Option ℕ

namespace Subscriber

def subscribed (sub : Subscriber μ) : Bool := sub.left.isNone

/-- The messages published while the queue was subscribed. -/
def heard (sub : Subscriber μ) (published : List μ) : List (Message μ) :=
  (published.zipIdx.take (sub.left.getD published.length)).drop sub.since

/-- `q.get()` when a message is waiting. -/
def take (sub : Subscriber μ) : Subscriber μ :=
  match sub.queue with
  | .fifo ring =>
    match ring.pop? with
    | some (msg, ring') => { sub with queue := .fifo ring', taken := sub.taken ++ [msg] }
    | none => sub
  | .faulty _ => sub

def offer (msg : Message μ) (sub : Subscriber μ) : Subscriber μ :=
  { sub with queue := (sub.queue.offer msg).2 }

end Subscriber

/-- The order in which a set is visited. -/
structure Order where
  visit : List ℕ → List ℕ
  perm : ∀ ids, (visit ids).Perm ids

structure Sys (μ : Type*) where
  subs : Dict ℕ (Subscriber μ)
  published : List μ

def start : Sys μ := ⟨∅, []⟩

inductive Action (μ : Type*)
  | subscribe (id : ℕ)
  | attach (id : ℕ) (q : Faulty)
  | unsubscribe (id : ℕ)
  | publish (m : μ) (order : Order)
  | get (id : ℕ)

/-- The members of `_subscribers`. -/
def Sys.subscribers (sys : Sys μ) : List ℕ :=
  (sys.subs.entries.filter fun e => e.2.subscribed).map Prod.fst

/-- The loop of `publish`. -/
def publishLoop (msg : Message μ) : Dict ℕ (Subscriber μ) → List ℕ → Dict ℕ (Subscriber μ)
  | subs, [] => subs
  | subs, id :: rest =>
    match subs.get? id with
    | none => publishLoop msg subs rest
    | some sub =>
      if (sub.queue.offer msg).1 then
        publishLoop msg (subs.insert id (sub.offer msg)) rest
      else subs.insert id (sub.offer msg)

def Sys.join (sys : Sys μ) (id : ℕ) (q : Queue μ) : Sys μ :=
  if id ∈ sys.subs then sys
  else { sys with subs := sys.subs.insert id ⟨q, [], sys.published.length, none⟩ }

def step (sys : Sys μ) : Action μ → Sys μ
  | .subscribe id => sys.join id (.fifo ∅)
  | .attach id q => sys.join id (.faulty q)
  | .unsubscribe id =>
    { sys with
      subs := sys.subs.modify id fun sub =>
        { sub with left := some (sub.left.getD sys.published.length) } }
  | .publish m order =>
    { subs := publishLoop (m, sys.published.length) sys.subs (order.visit sys.subscribers)
      published := sys.published ++ [m] }
  | .get id => { sys with subs := sys.subs.modify id Subscriber.take }

/-! ## One subscriber -/

/-- What a step does to one subscriber, whatever the others are. -/
def stepOf (id : ℕ) (published : List μ) (sub : Option (Subscriber μ)) :
    Action μ → Option (Subscriber μ)
  | .subscribe id' =>
    if id' = id then sub.or (some ⟨.fifo ∅, [], published.length, none⟩) else sub
  | .attach id' q =>
    if id' = id then sub.or (some ⟨.faulty q, [], published.length, none⟩) else sub
  | .unsubscribe id' =>
    if id' = id then
      sub.map fun sub => { sub with left := some (sub.left.getD published.length) }
    else sub
  | .publish m _ =>
    sub.map fun sub => if sub.subscribed then sub.offer (m, published.length) else sub
  | .get id' => if id' = id then sub.map Subscriber.take else sub

/-- All queues are mild. -/
def AllMild (subs : Dict ℕ (Subscriber μ)) : Prop :=
  ∀ id sub, subs.get? id = some sub → sub.queue.Mild

theorem get?_publishLoop (msg : Message μ) {subs : Dict ℕ (Subscriber μ)} (hmild : AllMild subs)
    {order : List ℕ} (h : order.Nodup) (id : ℕ) :
    (publishLoop msg subs order).get? id =
      if id ∈ order then (subs.get? id).map (Subscriber.offer msg) else subs.get? id := by
  induction order generalizing subs with
  | nil => simp [publishLoop]
  | cons first rest ih =>
    rw [List.nodup_cons] at h
    rw [publishLoop]
    cases hsub : subs.get? first with
    | none =>
      dsimp only
      rw [ih hmild h.2]
      by_cases hid : id = first
      · simp [hid, h.1, hsub]
      · simp [hid]
    | some sub =>
      obtain ⟨hgoes, hkept⟩ := Queue.offer_of_mild msg (hmild first sub hsub)
      have hmild' : AllMild (subs.insert first (sub.offer msg)) := by
        intro id' sub' hsub'
        rw [Dict.get?_insert] at hsub'
        split at hsub'
        · exact Option.some.inj hsub' ▸ hkept
        · exact hmild id' sub' hsub'
      simp only [if_pos hgoes]
      rw [ih hmild' h.2, Dict.get?_insert]
      by_cases hid : id = first
      · simp [hid, h.1, hsub]
      · simp [hid]

theorem mem_subscribers {sys : Sys μ} {id : ℕ} :
    id ∈ sys.subscribers ↔ ∃ sub, sys.subs.get? id = some sub ∧ sub.subscribed := by
  rw [Sys.subscribers, List.mem_map]
  constructor
  · intro hentry
    obtain ⟨⟨id', sub⟩, hmem, rfl⟩ := hentry
    rw [List.mem_filter] at hmem
    exact ⟨sub, Dict.get?_eq_some_iff.mpr hmem.1, hmem.2⟩
  · intro hsub
    obtain ⟨sub, hget, hsubscribed⟩ := hsub
    exact ⟨(id, sub), List.mem_filter.mpr ⟨Dict.get?_eq_some_iff.mp hget, hsubscribed⟩, rfl⟩

theorem nodup_subscribers (sys : Sys μ) : sys.subscribers.Nodup :=
  sys.subs.nodup.sublist (List.filter_sublist.map Prod.fst)

private theorem get?_join (sys : Sys μ) (id id' : ℕ) (q : Queue μ) :
    (sys.join id' q).subs.get? id =
      if id' = id then (sys.subs.get? id).or (some ⟨q, [], sys.published.length, none⟩)
      else sys.subs.get? id := by
  unfold Sys.join
  split
  · rename_i hmem
    split
    · rename_i hid
      subst hid
      obtain ⟨sub, hsub⟩ := Option.isSome_iff_exists.mp hmem
      rw [hsub, Option.some_or]
    · rfl
  · rename_i hmem
    rw [Dict.get?_insert]
    by_cases hid : id = id'
    · subst hid
      simp [Dict.get?_eq_none_iff.mpr hmem]
    · simp [hid, Ne.symm hid]

/-- While all queues are mild, the subscriber of an id after a step depends on nothing but itself
and what was published. -/
theorem get?_step {sys : Sys μ} (hmild : AllMild sys.subs) (a : Action μ) (id : ℕ) :
    (step sys a).subs.get? id = stepOf id sys.published (sys.subs.get? id) a := by
  cases a with
  | subscribe id' => exact get?_join sys id id' _
  | attach id' q => exact get?_join sys id id' _
  | unsubscribe id' =>
    rw [step, Dict.get?_modify, stepOf]
    by_cases hid : id = id'
    · simp [hid]
    · simp [hid, Ne.symm hid]
  | get id' =>
    rw [step, Dict.get?_modify, stepOf]
    by_cases hid : id = id'
    · simp [hid]
    · simp [hid, Ne.symm hid]
  | publish m order =>
    have hperm := order.perm sys.subscribers
    rw [step, get?_publishLoop _ hmild (hperm.nodup_iff.mpr (nodup_subscribers sys)), stepOf]
    simp only [hperm.mem_iff, mem_subscribers]
    cases hsub : sys.subs.get? id with
    | none => simp
    | some sub => cases hs : sub.subscribed <;> simp [hs]

/-- The queue that is attached is mild. -/
def Action.Mild : Action μ → Prop
  | .attach _ q => q.Mild
  | _ => True

private theorem mild_offer {sub : Subscriber μ} (h : sub.queue.Mild) (msg : Message μ) :
    (sub.offer msg).queue.Mild := (Queue.offer_of_mild msg h).2

private theorem mild_take {sub : Subscriber μ} (h : sub.queue.Mild) : sub.take.queue.Mild := by
  unfold Subscriber.take
  split
  · split
    · trivial
    · exact h
  · exact h

theorem allMild_step {sys : Sys μ} (h : AllMild sys.subs) {a : Action μ} (ha : a.Mild) :
    AllMild (step sys a).subs := by
  intro id sub hsub
  rw [get?_step h] at hsub
  cases a with
  | publish m order =>
    obtain ⟨old, hold, rfl⟩ := Option.map_eq_some_iff.mp hsub
    split
    · exact mild_offer (h id old hold) _
    · exact h id old hold
  | subscribe id' =>
    rw [stepOf] at hsub
    split at hsub
    · rcases Option.or_eq_some_iff.mp hsub with hold | hnew
      · exact h id sub hold
      · obtain rfl := Option.some.inj hnew.2
        trivial
    · exact h id sub hsub
  | attach id' q =>
    rw [stepOf] at hsub
    split at hsub
    · rcases Option.or_eq_some_iff.mp hsub with hold | hnew
      · exact h id sub hold
      · obtain rfl := Option.some.inj hnew.2
        exact ha
    · exact h id sub hsub
  | unsubscribe id' =>
    rw [stepOf] at hsub
    split at hsub
    · obtain ⟨old, hold, rfl⟩ := Option.map_eq_some_iff.mp hsub
      exact h id old hold
    · exact h id sub hsub
  | get id' =>
    rw [stepOf] at hsub
    split at hsub
    · obtain ⟨old, hold, rfl⟩ := Option.map_eq_some_iff.mp hsub
      exact mild_take (h id old hold)
    · exact h id sub hsub

theorem allMild_start : AllMild (start : Sys μ).subs := by
  intro id sub hsub
  cases hsub

/-! ## What a subscriber has been told -/

/-- A waiting message is one of the last heard, a taken one was heard before those waiting,
and each of the last `queueLen` messages heard is waiting or taken. -/
structure Sound (published : List μ) (sub : Subscriber μ) (ring : Ring queueLen (Message μ)) :
    Prop where
  suffix : ring.items <:+ sub.heard published
  inOrder : (sub.taken ++ ring.items).Sublist (sub.heard published)
  recent : ∀ x ∈ (sub.heard published).rtake queueLen, x ∈ sub.taken ∨ x ∈ ring.items

/-- A subscriber was subscribed, and maybe unsubscribed, at some publication so far. -/
structure Dated (published : List μ) (sub : Subscriber μ) : Prop where
  since_le : sub.since ≤ sub.left.getD published.length
  left_le : sub.left.getD published.length ≤ published.length

def Told (published : List μ) (sub : Subscriber μ) : Prop :=
  Dated published sub ∧ ∀ ring, sub.queue = .fifo ring → Sound published sub ring

theorem heard_publish {published : List μ} {sub : Subscriber μ} (h : Dated published sub)
    (m : μ) : sub.heard (published ++ [m]) =
      if sub.subscribed then sub.heard published ++ [(m, published.length)]
      else sub.heard published := by
  obtain ⟨queue, taken, since, left⟩ := sub
  have hsince := h.since_le
  have hleft := h.left_le
  have hzip : (published ++ [m]).zipIdx = published.zipIdx ++ [(m, published.length)] := by
    rw [List.zipIdx_append, Nat.zero_add]
    rfl
  unfold Subscriber.heard Subscriber.subscribed
  rw [hzip]
  cases left with
  | none =>
    rw [Option.getD_none] at hsince
    simp only [Option.getD_none, Option.isNone_none, if_true]
    rw [List.take_of_length_le (by simp), List.take_of_length_le (by simp),
      List.drop_append_of_le_length (by simpa using hsince)]
  | some l =>
    rw [Option.getD_some] at hleft
    simp only [Option.getD_some, Option.isNone_some, Bool.false_eq_true, if_false]
    rw [List.take_append_of_le_length (by simpa using hleft)]

theorem pairwise_heard (published : List μ) (sub : Subscriber μ) :
    (sub.heard published).Pairwise fun x y => x.2 < y.2 := by
  have hzip : published.zipIdx.Pairwise fun x y => x.2 < y.2 := by
    rw [← List.pairwise_map (f := Prod.snd) (R := (· < ·)), List.zipIdx_map_snd]
    exact List.pairwise_lt_range'
  exact hzip.sublist ((List.drop_sublist _ _).trans (List.take_sublist _ _))

theorem sound_push {published : List μ} {sub : Subscriber μ}
    {ring : Ring queueLen (Message μ)} (hdated : Dated published sub)
    (hsub : sub.subscribed) (h : Sound published sub ring) (m : μ) :
    Sound (published ++ [m]) { sub with queue := .fifo (ring.push (m, published.length)) }
      (ring.push (m, published.length)) := by
  have hheard : ({ sub with queue := .fifo (ring.push (m, published.length)) } :
      Subscriber μ).heard (published ++ [m]) =
        sub.heard published ++ [(m, published.length)] := by
    have hpublish := heard_publish hdated m
    rw [if_pos hsub] at hpublish
    exact hpublish
  have hpush : (ring.push (m, published.length)).items <:+
      ring.items ++ [(m, published.length)] := by
    rw [Ring.items_push]
    exact rtake_suffix _ _
  constructor
  · rw [hheard]
    obtain ⟨old, hold⟩ := h.suffix
    exact hpush.trans ⟨old, by rw [← hold, List.append_assoc]⟩
  · rw [hheard]
    refine ((List.Sublist.refl sub.taken).append hpush.sublist).trans ?_
    rw [← List.append_assoc]
    exact h.inOrder.append (List.Sublist.refl _)
  · rw [hheard]
    intro x hx
    rcases mem_rtake_concat hx with hold | hnew
    · rcases h.recent x hold with htaken | hwaiting
      · exact Or.inl htaken
      · exact Or.inr (Ring.mem_push h.suffix hwaiting hx)
    · subst hnew
      exact Or.inr (List.mem_of_getLast? (Ring.getLast?_push (by decide) _))

theorem sound_take {published : List μ} {sub : Subscriber μ}
    {ring ring' : Ring queueLen (Message μ)} (h : Sound published sub ring)
    {msg : Message μ} (hpop : ring.pop? = some (msg, ring')) :
    Sound published { sub with queue := .fifo ring', taken := sub.taken ++ [msg] } ring' := by
  have hitems := Ring.pop?_eq_some hpop
  have hsuffix := h.suffix
  have horder := h.inOrder
  rw [hitems] at hsuffix horder
  constructor
  · exact (List.suffix_cons msg ring'.items).trans hsuffix
  · change (sub.taken ++ [msg] ++ ring'.items).Sublist (sub.heard published)
    rwa [List.append_assoc, List.singleton_append]
  · intro x hx
    have hrecent := h.recent x hx
    rw [hitems, List.mem_cons] at hrecent
    rw [List.mem_append, List.mem_singleton, or_assoc]
    exact hrecent

theorem told_subscribe (published : List μ) (queue : Queue μ)
    (hempty : ∀ ring, queue = .fifo ring → ring = ∅) :
    Told published ⟨queue, [], published.length, none⟩ := by
  have hheard : Subscriber.heard ⟨queue, [], published.length, none⟩ published = [] := by
    simp [Subscriber.heard]
  refine ⟨⟨le_rfl, le_rfl⟩, ?_⟩
  intro ring hring
  rw [hempty ring hring]
  constructor
  · exact List.nil_suffix
  · exact List.nil_sublist _
  · rw [hheard]
    simp

theorem told_unsubscribe {published : List μ} {sub : Subscriber μ} (h : Told published sub) :
    Told published { sub with left := some (sub.left.getD published.length) } :=
  ⟨⟨h.1.since_le, h.1.left_le⟩, fun ring hring =>
    ⟨(h.2 ring hring).suffix, (h.2 ring hring).inOrder, (h.2 ring hring).recent⟩⟩

theorem told_publish {published : List μ} {sub : Subscriber μ} (h : Told published sub)
    (m : μ) : Told (published ++ [m])
      (if sub.subscribed then sub.offer (m, published.length) else sub) := by
  obtain ⟨hdated, hsound⟩ := h
  have hsince := hdated.since_le
  have hleft := hdated.left_le
  cases hs : sub.subscribed with
  | false =>
    rw [if_neg Bool.false_ne_true]
    obtain ⟨l, hl⟩ := Option.isSome_iff_exists.mp (Option.isNone_eq_false_iff.mp hs)
    have hheard := heard_publish hdated m
    rw [hs, if_neg Bool.false_ne_true] at hheard
    rw [hl, Option.getD_some] at hsince hleft
    refine ⟨⟨?_, ?_⟩, fun ring hring => ?_⟩
    · rwa [hl, Option.getD_some]
    · rw [hl, Option.getD_some, List.length_append]
      omega
    · obtain ⟨hsuffix, horder, hrecent⟩ := hsound ring hring
      exact ⟨hheard ▸ hsuffix, hheard ▸ horder, hheard ▸ hrecent⟩
  | true =>
    rw [if_pos rfl]
    have hl : sub.left = none := Option.isNone_iff_eq_none.mp hs
    rw [hl, Option.getD_none] at hsince
    refine ⟨⟨?_, ?_⟩, fun ring hring => ?_⟩
    · change sub.since ≤ sub.left.getD (published ++ [m]).length
      rw [hl, Option.getD_none, List.length_append]
      omega
    · change sub.left.getD (published ++ [m]).length ≤ (published ++ [m]).length
      rw [hl, Option.getD_none]
    · cases hq : sub.queue with
      | faulty q =>
        exfalso
        obtain ⟨q', hq', -⟩ := Queue.offer_faulty (m, published.length) q
        rw [Subscriber.offer, hq, hq'] at hring
        cases hring
      | fifo old =>
        rw [Subscriber.offer, hq, Queue.offer_fifo] at hring ⊢
        obtain rfl := Queue.fifo.inj hring
        exact sound_push hdated hs (hsound old hq) m

theorem told_take {published : List μ} {sub : Subscriber μ} (h : Told published sub) :
    Told published sub.take := by
  unfold Subscriber.take
  split
  · rename_i ring hring
    split
    · rename_i msg ring' hpop
      refine ⟨⟨h.1.since_le, h.1.left_le⟩, fun r hr => ?_⟩
      obtain rfl := Queue.fifo.inj hr
      exact sound_take (h.2 ring hring) hpop
    · exact h
  · exact h

/-! ## Every run -/

/-- Every subscriber has been told. -/
def AllTold (sys : Sys μ) : Prop :=
  ∀ id sub, sys.subs.get? id = some sub → Told sys.published sub

/-- The messages a step publishes. -/
def Action.published : Action μ → List μ
  | .publish m _ => [m]
  | _ => []

theorem published_step (sys : Sys μ) (a : Action μ) :
    (step sys a).published = sys.published ++ a.published := by
  cases a with
  | publish m order => rfl
  | subscribe id =>
    simp only [step, Sys.join, Action.published, List.append_nil]
    split <;> rfl
  | attach id q =>
    simp only [step, Sys.join, Action.published, List.append_nil]
    split <;> rfl
  | _ => exact (List.append_nil _).symm

theorem allTold_step {sys : Sys μ} (hmild : AllMild sys.subs) (a : Action μ) (h : AllTold sys) :
    AllTold (step sys a) := by
  intro id sub hsub
  rw [get?_step hmild] at hsub
  rw [published_step]
  cases a with
  | publish m order =>
    obtain ⟨old, hold, rfl⟩ := Option.map_eq_some_iff.mp hsub
    exact told_publish (h id old hold) m
  | subscribe id' =>
    simp only [Action.published, List.append_nil]
    rw [stepOf] at hsub
    split at hsub
    · rcases Option.or_eq_some_iff.mp hsub with hold | hnew
      · exact h id sub hold
      · obtain rfl := Option.some.inj hnew.2
        exact told_subscribe _ _ fun ring hring => (Queue.fifo.inj hring).symm
    · exact h id sub hsub
  | attach id' q =>
    simp only [Action.published, List.append_nil]
    rw [stepOf] at hsub
    split at hsub
    · rcases Option.or_eq_some_iff.mp hsub with hold | hnew
      · exact h id sub hold
      · obtain rfl := Option.some.inj hnew.2
        exact told_subscribe _ _ fun ring hring => by cases hring
    · exact h id sub hsub
  | unsubscribe id' =>
    simp only [Action.published, List.append_nil]
    rw [stepOf] at hsub
    split at hsub
    · obtain ⟨old, hold, rfl⟩ := Option.map_eq_some_iff.mp hsub
      exact told_unsubscribe (h id old hold)
    · exact h id sub hsub
  | get id' =>
    simp only [Action.published, List.append_nil]
    rw [stepOf] at hsub
    split at hsub
    · obtain ⟨old, hold, rfl⟩ := Option.map_eq_some_iff.mp hsub
      exact told_take (h id old hold)
    · exact h id sub hsub

theorem allTold_run {as : List (Action μ)} (has : ∀ a ∈ as, a.Mild) :
    AllMild (runFrom step start as).subs ∧ AllTold (runFrom step start as) := by
  have hstart : AllMild (start : Sys μ).subs ∧ AllTold (start : Sys μ) := by
    refine ⟨allMild_start, ?_⟩
    intro id sub hsub
    cases hsub
  exact @runFrom_invariant_of_forall _ _ step (fun sys : Sys μ => AllMild sys.subs ∧ AllTold sys)
    Action.Mild (fun sys a h ha => ⟨allMild_step h.1 ha, allTold_step h.1 a h.2⟩) _ hstart _ has

/-- The publications and what the subscriber of an id itself does. -/
def Action.concerns (id : ℕ) : Action μ → Bool
  | .subscribe id' | .attach id' _ | .unsubscribe id' | .get id' => id' = id
  | .publish .. => true

theorem stepOf_of_not_concerns {id : ℕ} {a : Action μ} (h : ¬ a.concerns id)
    (published : List μ) (sub : Option (Subscriber μ)) :
    stepOf id published sub a = sub ∧ a.published = [] := by
  cases a with
  | publish m order => exact absurd rfl h
  | _ =>
    have hid := of_decide_eq_false (Bool.eq_false_iff.mpr h)
    exact ⟨if_neg hid, rfl⟩

/-- What a subscriber gets is the same without all the others. -/
theorem get?_run_filter (id : ℕ) {as : List (Action μ)} (has : ∀ a ∈ as, a.Mild)
    {sys alone : Sys μ} (hmild : AllMild sys.subs) (hmild' : AllMild alone.subs)
    (hpublished : alone.published = sys.published)
    (hsub : alone.subs.get? id = sys.subs.get? id) :
    (runFrom step alone (as.filter (Action.concerns id))).subs.get? id =
      (runFrom step sys as).subs.get? id := by
  induction as generalizing sys alone with
  | nil => exact hsub
  | cons a as ih =>
    have hfirst := has a (by simp)
    have hrest : ∀ x ∈ as, x.Mild := fun x hx => has x (by simp [hx])
    rw [List.filter_cons, runFrom_cons]
    by_cases ha : a.concerns id
    · rw [if_pos ha, runFrom_cons]
      apply ih hrest (allMild_step hmild hfirst) (allMild_step hmild' hfirst)
      · rw [published_step, published_step, hpublished]
      · rw [get?_step hmild', get?_step hmild, hpublished, hsub]
    · rw [if_neg ha]
      obtain ⟨hstep, hnone⟩ := stepOf_of_not_concerns ha sys.published (sys.subs.get? id)
      apply ih hrest (allMild_step hmild hfirst) hmild'
      · rw [published_step, hnone, List.append_nil, hpublished]
      · rw [get?_step hmild, hstep, hsub]

/-- What a run does for its subscribers. A queue is bounded and holds the last messages heard, in
order. What is taken is strictly ordered, and a skipped message has at least 512 later ones. A
publication puts its message at the end of every subscribed queue. A subscriber starts with an
empty queue, hears nothing once it has left, and takes the first message that waits. No subscriber
depends on the others. -/
structure Served (as : List (Action μ)) : Prop where
  bounded : ∀ id sub ring, (runFrom step start as).subs.get? id = some sub →
    sub.queue = .fifo ring → ring.items.length ≤ 512
  suffix : ∀ id sub ring, (runFrom step start as).subs.get? id = some sub →
    sub.queue = .fifo ring → ring.items <:+ sub.heard (runFrom step start as).published
  inOrder : ∀ id sub ring, (runFrom step start as).subs.get? id = some sub →
    sub.queue = .fifo ring →
    (sub.taken ++ ring.items).Sublist (sub.heard (runFrom step start as).published)
  increasing : ∀ id sub ring, (runFrom step start as).subs.get? id = some sub →
    sub.queue = .fifo ring → sub.taken.Pairwise (fun x y => x.2 < y.2)
  skipped : ∀ id sub ring, (runFrom step start as).subs.get? id = some sub →
    sub.queue = .fifo ring → ∀ x ∈ sub.heard (runFrom step start as).published,
    x ∉ sub.taken → x ∉ ring.items → ∃ earlier later,
      sub.heard (runFrom step start as).published = earlier ++ x :: later ∧ 512 ≤ later.length
  newest : ∀ m order id sub ring,
    (step (runFrom step start as) (.publish m order)).subs.get? id = some sub →
    sub.subscribed → sub.queue = .fifo ring →
    ring.items.getLast? = some (m, (runFrom step start as).published.length)
  subscribes : ∀ id, id ∉ (runFrom step start as).subs →
    (step (runFrom step start as) (.subscribe id)).subs.get? id =
      some ⟨.fifo ∅, [], (runFrom step start as).published.length, none⟩
  unsubscribes : ∀ id sub, (runFrom step start as).subs.get? id = some sub → sub.subscribed →
    (step (runFrom step start as) (.unsubscribe id)).subs.get? id =
      some { sub with left := some (runFrom step start as).published.length }
  delivers : ∀ id sub ring msg rest, (runFrom step start as).subs.get? id = some sub →
    sub.queue = .fifo ring → ring.items = msg :: rest → ∃ ring', ring'.items = rest ∧
      (step (runFrom step start as) (.get id)).subs.get? id =
        some { sub with queue := .fifo ring', taken := sub.taken ++ [msg] }
  isolated : ∀ id, (runFrom step start (as.filter (Action.concerns id))).subs.get? id =
    (runFrom step start as).subs.get? id

/-- Every interleaving of subscribing, unsubscribing, publishing and taking, with queues that may
be full or faulty as long as their `put_nowait` raises nothing but `QueueFull`. -/
theorem subscribers_run (as : List (Action μ)) (has : ∀ a ∈ as, a.Mild) : Served as := by
  obtain ⟨hmild, htold⟩ := allTold_run has
  constructor
  · exact fun id sub ring _ _ => ring.bounded
  · exact fun id sub ring hsub hring => ((htold id sub hsub).2 ring hring).suffix
  · exact fun id sub ring hsub hring => ((htold id sub hsub).2 ring hring).inOrder
  · intro id sub ring hsub hring
    have horder := ((htold id sub hsub).2 ring hring).inOrder
    exact (pairwise_heard _ sub).sublist ((List.sublist_append_left _ _).trans horder)
  · intro id sub ring hsub hring x hx htaken hwaiting
    refine exists_later_of_notMem_rtake hx fun hlast => ?_
    rcases ((htold id sub hsub).2 ring hring).recent x hlast with hmem | hmem
    · exact htaken hmem
    · exact hwaiting hmem
  · intro m order id sub ring hsub hsubscribed hring
    rw [get?_step hmild] at hsub
    obtain ⟨old, -, rfl⟩ := Option.map_eq_some_iff.mp hsub
    split at hring
    · cases hq : old.queue with
      | faulty q =>
        obtain ⟨q', hq', -⟩ :=
          Queue.offer_faulty (m, (runFrom step start as).published.length) q
        rw [Subscriber.offer, hq, hq'] at hring
        cases hring
      | fifo before =>
        rw [Subscriber.offer, hq, Queue.offer_fifo] at hring
        obtain rfl := Queue.fifo.inj hring
        exact Ring.getLast?_push (by decide) _
    · rename_i hleft
      rw [if_neg hleft] at hsubscribed
      exact absurd hsubscribed hleft
  · intro id hid
    rw [get?_step hmild, stepOf, if_pos rfl, Dict.get?_eq_none_iff.mpr hid, Option.none_or]
  · intro id sub hsub hsubscribed
    have hleft : sub.left = none := Option.isNone_iff_eq_none.mp hsubscribed
    rw [get?_step hmild, stepOf, if_pos rfl, hsub, Option.map_some, hleft, Option.getD_none]
  · intro id sub ring msg rest hsub hring hitems
    obtain ⟨ring', hpop, hrest⟩ := Ring.pop?_of_cons hitems
    refine ⟨ring', hrest, ?_⟩
    rw [get?_step hmild, stepOf, if_pos rfl, hsub, Option.map_some, Subscriber.take, hring]
    simp only [hpop]
  · exact fun id => get?_run_filter id has allMild_start allMild_start rfl rfl

/-- The order of a set that is visited as it was filled. -/
def insertionOrder : Order := ⟨id, fun _ => List.Perm.refl _⟩

/-- One queue that can neither take a message nor be drained, one consumer that falls behind by
more than 512 messages, and one that leaves. -/
def crowded : List (Action ℕ) :=
  [.attach 0 ⟨fun _ => .full, fun _ => .raised, 0, 0⟩, .subscribe 1, .publish 0 insertionOrder,
    .subscribe 2, .get 1, .publish 1 insertionOrder, .get 2, .unsubscribe 2] ++
  List.replicate 600 (.publish 2 insertionOrder) ++ [.get 1, .get 1]

theorem subscribers_run_crowded : Served crowded := by
  refine subscribers_run crowded fun a ha => ?_
  rcases List.mem_append.mp ha with ha | ha
  · rcases List.mem_append.mp ha with ha | ha
    · simp only [List.mem_cons, List.not_mem_nil, or_false] at ha
      rcases ha with rfl | rfl | rfl | rfl | rfl | rfl | rfl | rfl
      · exact fun n => by simp
      all_goals trivial
    · rw [List.eq_of_mem_replicate ha]
      trivial
  · simp only [List.mem_cons, List.not_mem_nil, or_false] at ha
    rcases ha with rfl | rfl <;> trivial

/-- A queue whose `put_nowait` raises anything else keeps the message from those visited later. -/
theorem raising_queue_starves :
    ¬ ∀ (as : List (Action ℕ)) (id : ℕ),
      (runFrom step start (as.filter (Action.concerns id))).subs.get? id =
        (runFrom step start as).subs.get? id := by
  intro h
  have hsame := congrArg (Option.map fun sub : Subscriber ℕ => sub.queue.length)
    (h [.attach 0 ⟨fun _ => .raised, fun _ => .done, 0, 0⟩, .subscribe 1,
      .publish 7 insertionOrder] 1)
  revert hsame
  decide +kernel

end Subscribers

end PiWatch
