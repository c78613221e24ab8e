import PiWatch.Framework.Mailbox
import PiWatch.Protocol.Deltas

/-!
# The WebSocket endpoint

Every connected client owns a bounded queue that `publish` fills without waiting. The
client's loop takes messages from it and sends them; the browser receives the frames in
order. `base` and `calls` record the state a client subscribed at and the calls since.
-/

namespace PiWatch

open ClusterState

namespace Ws

/-- `asyncio.Queue(maxsize=512)`. -/
def queueLen : ℕ := 512

inductive Frame
  | fullState (snap : Snapshot)
  | delta (msg : Msg)
  | ping

/-- The browser's page: `connecting` has no snapshot yet, `crashed` is gone. -/
inductive Page
  | connecting
  | showing (snap : Snapshot)
  | crashed

/-- `ws.onmessage`. -/
def onMessage : Page → Frame → Page
  | page, .ping => page
  | .crashed, _ => .crashed
  | _, .fullState snap => .showing snap
  | .connecting, .delta _ => .connecting
  | .showing snap, .delta msg =>
    match applyDelta snap msg with
    | some snap' => .showing snap'
    | none => .crashed

structure Client where
  base : ClusterState
  calls : List Op
  mailbox : Mailbox queueLen Msg
  inFlight : List Frame
  page : Page

structure Server where
  state : ClusterState
  clients : Dict ℕ Client

inductive Act
  | connect (id : ℕ)
  | call (op : Op)
  | take (id : ℕ)
  | heartbeat (id : ℕ)
  | receive (id : ℕ)
  | disconnect (id : ℕ)

/-- `state.subscribe()` and the full state sent right after it. -/
def subscribe (s : ClusterState) : Client where
  base := s
  calls := []
  mailbox := ∅
  inFlight := [.fullState s.snapshot]
  page := .connecting

namespace Client

def publish (c : Client) (op : Op) (msgs : List Msg) : Client :=
  { c with calls := c.calls ++ [op], mailbox := c.mailbox.publishAll msgs }

/-- `msg = await q.get()`, then `send_text`. -/
def take (c : Client) : Client :=
  match c.mailbox.next with
  | none => c
  | some (msg, mb) => { c with mailbox := mb, inFlight := c.inFlight ++ [.delta msg] }

def heartbeat (c : Client) : Client := { c with inFlight := c.inFlight ++ [.ping] }

def receive (c : Client) : Client :=
  match c.inFlight with
  | [] => c
  | frame :: rest => { c with inFlight := rest, page := onMessage c.page frame }

end Client

def step (sys : Server) : Act → Server
  | .connect id =>
    if id ∈ sys.clients then sys
    else { sys with clients := sys.clients.insert id (subscribe sys.state) }
  | .call op =>
    { state := sys.state.step op
      clients := sys.clients.mapValues fun c => c.publish op (sys.state.exec op).2 }
  | .take id => { sys with clients := sys.clients.modify id Client.take }
  | .heartbeat id => { sys with clients := sys.clients.modify id Client.heartbeat }
  | .receive id => { sys with clients := sys.clients.modify id Client.receive }
  | .disconnect id => { sys with clients := sys.clients.erase id }

/-! ## What a client has been sent -/

/-- The page once a browser that started from a full state is done with some deltas. -/
def pageOf : Option Snapshot → Page
  | none => .crashed
  | some snap => .showing snap

private theorem onMessage_delta (o : Option Snapshot) (msg : Msg) :
    onMessage (pageOf o) (.delta msg) = pageOf (o.bind fun b => applyDelta b msg) := by
  cases o with
  | none => rfl
  | some b =>
    simp only [pageOf, onMessage, Option.bind_some]
    cases applyDelta b msg <;> rfl

/-- A client's records are right, and its page is on the way to the snapshot it gets from the
full state and the deltas taken. -/
structure Client.Sound (state : ClusterState) (c : Client) : Prop where
  reachable : c.base.Reachable
  keyed : ∀ op ∈ c.calls, op.WellKeyed
  state_eq : state = runFrom ClusterState.step c.base c.calls
  log_eq : c.mailbox.log = c.base.published c.calls
  accounted : c.mailbox.Accounted
  page_eq : c.inFlight.foldl onMessage c.page =
    pageOf (applyDeltas c.base.snapshot c.mailbox.taken)

private theorem sound_subscribe {s : ClusterState} (h : s.Reachable) :
    (subscribe s).Sound s where
  reachable := h
  keyed := by simp [subscribe]
  state_eq := rfl
  log_eq := rfl
  accounted := Mailbox.accounted_empty
  page_eq := rfl

private theorem sound_publish {s : ClusterState} {c : Client} (h : c.Sound s) {op : Op}
    (hk : op.WellKeyed) : (c.publish op (s.exec op).2).Sound (s.step op) where
  reachable := h.reachable
  keyed := List.forall_mem_append.mpr ⟨h.keyed, List.forall_mem_singleton.mpr hk⟩
  state_eq := by
    rw [Client.publish, runFrom_append, ← h.state_eq]
    rfl
  log_eq := by
    rw [Client.publish, Mailbox.log_publishAll, h.log_eq, published, outputs_append,
      ← h.state_eq]
    simp [outputs]
  accounted := h.accounted.publishAll _
  page_eq := by
    rw [Client.publish, Mailbox.taken_publishAll]
    exact h.page_eq

private theorem sound_take {s : ClusterState} {c : Client} (h : c.Sound s) :
    c.take.Sound s := by
  unfold Client.take
  split
  · exact h
  · rename_i msg mb hnext
    obtain ⟨rest, hq, rfl⟩ := Mailbox.next_eq_some hnext
    refine { h with accounted := h.accounted.take hq, page_eq := ?_ }
    rw [List.foldl_append, h.page_eq, List.foldl_cons, List.foldl_nil, onMessage_delta,
      Mailbox.take, applyDeltas, applyDeltas, receive_append]
    simp only [receive_singleton]

private theorem sound_heartbeat {s : ClusterState} {c : Client} (h : c.Sound s) :
    c.heartbeat.Sound s := by
  refine { h with page_eq := ?_ }
  rw [Client.heartbeat, List.foldl_append, h.page_eq]
  cases applyDeltas c.base.snapshot c.mailbox.taken <;> rfl

private theorem sound_receive {s : ClusterState} {c : Client} (h : c.Sound s) :
    c.receive.Sound s := by
  unfold Client.receive
  split
  · exact h
  · rename_i frame rest hflight
    refine { h with page_eq := ?_ }
    rw [← h.page_eq, hflight, List.foldl_cons]

/-- Every connected client is sound. -/
structure Server.Sound (sys : Server) : Prop where
  reachable : sys.state.Reachable
  clients : ∀ id c, sys.clients.get? id = some c → c.Sound sys.state

/-- The action brings only well-keyed calls. -/
def Act.WellKeyed : Act → Prop
  | .call op => op.WellKeyed
  | _ => True

private theorem sound_modify {sys : Server} (h : sys.Sound) (id : ℕ) {f : Client → Client}
    (hf : ∀ c, c.Sound sys.state → (f c).Sound sys.state) :
    Server.Sound { sys with clients := sys.clients.modify id f } := by
  refine { h with clients := fun id' c hc => ?_ }
  rw [Dict.get?_modify] at hc
  split at hc
  · obtain ⟨c', hc', rfl⟩ := Option.map_eq_some_iff.mp hc
    exact hf c' (h.clients id c' hc')
  · exact h.clients id' c hc

theorem sound_step {sys : Server} (h : sys.Sound) {a : Act} (hk : a.WellKeyed) :
    (step sys a).Sound := by
  cases a with
  | connect id =>
    unfold step
    dsimp only
    split
    · exact h
    · refine { h with clients := fun id' c hc => ?_ }
      rw [Dict.get?_insert] at hc
      split at hc
      · rw [← Option.some.inj hc]
        exact sound_subscribe h.reachable
      · exact h.clients id' c hc
  | call op =>
    refine ⟨reachable_step h.reachable hk, fun id c hc => ?_⟩
    rw [step, Dict.get?_mapValues] at hc
    obtain ⟨c', hc', rfl⟩ := Option.map_eq_some_iff.mp hc
    exact sound_publish (h.clients id c' hc') hk
  | take id => exact sound_modify h id fun _ hc => sound_take hc
  | heartbeat id => exact sound_modify h id fun _ hc => sound_heartbeat hc
  | receive id => exact sound_modify h id fun _ hc => sound_receive hc
  | disconnect id =>
    refine { h with clients := fun id' c hc => ?_ }
    rw [step, Dict.get?_erase] at hc
    split at hc
    · cases hc
    · exact h.clients id' c hc

theorem sound_run {sys : Server} (h : sys.Sound) {as : List Act}
    (hk : ∀ a ∈ as, a.WellKeyed) : (runFrom step sys as).Sound :=
  runFrom_invariant_of_forall (W := Act.WellKeyed)
    (fun sys' _ (hs : sys'.Sound) ha => sound_step hs ha) h hk

/-! ## Delivery -/

/-- A server no client is connected to yet. -/
def serverOf (s : ClusterState) : Server := ⟨s, ∅⟩

private theorem sound_serverOf {s : ClusterState} (h : s.Reachable) : (serverOf s).Sound :=
  ⟨h, fun id c hc => by simp [serverOf] at hc⟩

/-- The messages published since a client subscribed. -/
def Client.published (c : Client) : List Msg := c.base.published c.calls

/-- What a call publishes finds room in the queue of a client. -/
def Roomy (id : ℕ) (sys : Server) : Act → Prop
  | .call op => ∀ c, sys.clients.get? id = some c →
      c.mailbox.queue.items.length + (sys.state.exec op).2.length ≤ queueLen
  | _ => True

private theorem whole_clientTake {c : Client} (h : c.mailbox.Whole) : c.take.mailbox.Whole := by
  unfold Client.take
  split
  · exact h
  · rename_i msg mb hnext
    obtain ⟨rest, hq, rfl⟩ := Mailbox.next_eq_some hnext
    exact h.take hq

private theorem whole_clientReceive {c : Client} (h : c.mailbox.Whole) :
    c.receive.mailbox.Whole := by
  unfold Client.receive
  split <;> exact h

/-- A client whose messages found room has lost none. -/
def Server.WholeFor (id : ℕ) (sys : Server) : Prop :=
  ∀ c, sys.clients.get? id = some c → c.mailbox.Whole

private theorem wholeFor_modify {id : ℕ} {sys : Server} (h : sys.WholeFor id) (id' : ℕ)
    {f : Client → Client} (hf : ∀ c : Client, c.mailbox.Whole → (f c).mailbox.Whole) :
    Server.WholeFor id { sys with clients := sys.clients.modify id' f } := by
  intro c hc
  rw [Dict.get?_modify] at hc
  split at hc
  · rename_i hid
    subst hid
    obtain ⟨c', hc', rfl⟩ := Option.map_eq_some_iff.mp hc
    exact hf c' (h c' hc')
  · exact h c hc

theorem wholeFor_step {id : ℕ} {sys : Server} {a : Act} (h : sys.WholeFor id)
    (ha : Roomy id sys a) : (step sys a).WholeFor id := by
  cases a with
  | connect id' =>
    unfold step
    dsimp only
    split
    · exact h
    · intro c hc
      rw [Dict.get?_insert] at hc
      split at hc
      · rw [← Option.some.inj hc]
        exact Mailbox.whole_empty
      · exact h c hc
  | call op =>
    intro c hc
    rw [step, Dict.get?_mapValues] at hc
    obtain ⟨c', hc', rfl⟩ := Option.map_eq_some_iff.mp hc
    exact (h c' hc').publishAll (ha c' hc')
  | take id' => exact wholeFor_modify h id' fun _ hc => whole_clientTake hc
  | heartbeat id' => exact wholeFor_modify h id' fun _ hc => hc
  | receive id' => exact wholeFor_modify h id' fun _ hc => whole_clientReceive hc
  | disconnect id' =>
    intro c hc
    rw [step, Dict.get?_erase] at hc
    split at hc
    · cases hc
    · exact h c hc

/-- In every run and for every connected client: the deltas sent are the ones at some places of
what was published since it subscribed, in that order, those waiting are the last ones, and a
delta that was not sent waits exactly while fewer than 512 later ones were published. If no
publication since then met a full queue, every delta is sent or waits. Once every delta was sent
and has arrived, the page shows the server's collections. -/
theorem client_delivery (s : ClusterState) (hs : s.Reachable) (as : List Act)
    (has : ∀ a ∈ as, a.WellKeyed) (id : ℕ) (c : Client)
    (hc : (runFrom step (serverOf s) as).clients.get? id = some c) :
    (∃ places, Accounts queueLen c.published c.mailbox.taken c.mailbox.queue.items places) ∧
    (∀ before since, as = before ++ since →
      id ∉ (runFrom step (serverOf s) before).clients →
      AlongRun step (Roomy id) (runFrom step (serverOf s) before) since →
      c.mailbox.taken ++ c.mailbox.queue.items = c.published) ∧
    (c.mailbox.taken = c.published → c.inFlight = [] →
      AlongRun ClusterState.step (fun s' op => op.ReadsOwnNames c.base.snapshot s') c.base
        c.calls →
      ∃ snap, c.page = .showing snap ∧
        snap.Agrees (runFrom step (serverOf s) as).state.snapshot ∧
        snap.AgreesOnNodes (runFrom step (serverOf s) as).state.snapshot) := by
  have hsound := (sound_run (sound_serverOf hs) has).clients id c hc
  have hlog : c.mailbox.log = c.published := hsound.log_eq
  refine ⟨hlog ▸ hsound.accounted, ?_, fun hsent hflight hnames => ?_⟩
  · rintro before since rfl hnew hroomy
    rw [runFrom_append] at hc
    have hstart : (runFrom step (serverOf s) before).WholeFor id := by
      intro c' hc'
      rw [Dict.get?_eq_none_iff.mpr hnew] at hc'
      cases hc'
    have hwhole := runFrom_invariant_of_along
      (fun sys a (h : sys.WholeFor id) ha => wholeFor_step h ha) hstart hroomy
    exact (hwhole c hc).trans hlog
  · obtain ⟨b, hb, htracks⟩ := applyDeltas_tracks hsound.reachable hsound.keyed hnames
    have hpage := hsound.page_eq
    rw [hflight, List.foldl_nil, hsent, Client.published, hb] at hpage
    rw [hsound.state_eq]
    exact ⟨b, hpage, htracks.toAgrees, htracks.toAgreesOnNodes⟩

/-- A client connects, three calls are made, and their deltas are sent and arrive. -/
def quietMorning : List Act :=
  [.connect 0, .call (.recordNodeSample "rpi-1" (Dict.ofList [("cpu_pct", .ofRat 12)]) 1 1),
    .take 0, .receive 0, .call (.recordPodSample "media/jellyfin-0" ∅ 2 2),
    .call (.removePod "media/jellyfin-0" 3), .receive 0, .take 0, .heartbeat 0, .take 0,
    .receive 0, .receive 0, .receive 0]

section QuietMorning

attribute [local semireducible] Ring.push

private theorem quietMorning_roomy :
    AlongRun step (Roomy 0) (serverOf (ClusterState.init 0)) quietMorning := by
  refine ⟨trivial, ?_, trivial, trivial, ?_, ?_, trivial, trivial, trivial, trivial, trivial,
    trivial, trivial, trivial⟩
  all_goals
    intro c hc
    obtain rfl := Option.some.inj (hc.symm.trans rfl)
    exact Nat.le_of_ble_eq_true rfl

theorem client_delivery_quietMorning :
    ∃ c, (runFrom step (serverOf (ClusterState.init 0)) quietMorning).clients.get? 0 = some c ∧
      c.published.length = 3 ∧ c.mailbox.taken = c.published ∧
      (∃ places, Accounts queueLen c.published c.mailbox.taken c.mailbox.queue.items places) ∧
      c.mailbox.taken ++ c.mailbox.queue.items = c.published ∧
      ∃ snap, c.page = .showing snap ∧
        snap.Agrees (runFrom step (serverOf (ClusterState.init 0)) quietMorning).state.snapshot ∧
        snap.AgreesOnNodes
          (runFrom step (serverOf (ClusterState.init 0)) quietMorning).state.snapshot := by
  have hconnected : ∃ c,
      (runFrom step (serverOf (ClusterState.init 0)) quietMorning).clients.get? 0 = some c :=
    ⟨_, rfl⟩
  obtain ⟨c, hc⟩ := hconnected
  obtain ⟨hplaces, hroomy, hsent⟩ := client_delivery (ClusterState.init 0)
    ⟨0, ∅, [], by simp, rfl⟩ quietMorning
    (by simp [quietMorning, Act.WellKeyed, Op.WellKeyed, Dict.mem_ofList]) 0 c hc
  obtain rfl := Option.some.inj (hc.symm.trans rfl)
  refine ⟨_, rfl, rfl, rfl, hplaces, hroomy [] quietMorning rfl (by simp [serverOf])
    quietMorning_roomy, hsent rfl rfl ?_⟩
  refine ⟨?_, trivial, trivial, trivial⟩
  simp [Op.ReadsOwnNames, ReadsOwn, objectPrototype]

end QuietMorning

/-- Calls made without a taking step in between reach a client as one burst. -/
theorem get?_burst (sys : Server) (ops : List Op) (id : ℕ) :
    (runFrom step sys (ops.map Act.call)).clients.get? id =
      (sys.clients.get? id).map fun c => { c with
        calls := c.calls ++ ops
        mailbox := c.mailbox.publishAll (sys.state.published ops) } := by
  induction ops generalizing sys with
  | nil => simp [ClusterState.published, outputs, Mailbox.publishAll]
  | cons op ops ih =>
    rw [List.map_cons, runFrom_cons, ih, step, Dict.get?_mapValues, Option.map_map]
    congr 1
    funext c
    simp [Client.publish, ClusterState.published, outputs, Mailbox.publishAll_append]

/-- A burst of more than 512 deltas right after a client subscribed loses some of them. -/
theorem burst_undelivered (s : ClusterState) {ops : List Op}
    (h : queueLen < (s.published ops).length) :
    ∃ c, (runFrom step (serverOf s) (.connect 0 :: ops.map Act.call)).clients.get? 0 = some c ∧
      c.mailbox.taken ++ c.mailbox.queue.items ≠ c.published := by
  refine ⟨_, (get?_burst (step (serverOf s) (.connect 0)) ops 0).trans rfl, fun hall => ?_⟩
  have hlen := congrArg List.length hall
  rw [List.length_append, Mailbox.taken_publishAll] at hlen
  have hbound := Ring.bounded
    (Mailbox.publishAll (subscribe s).mailbox (s.published ops)).queue
  have hpublished : (s.published ops).length = (0 : ℕ) +
      (Mailbox.publishAll (subscribe s).mailbox (s.published ops)).queue.items.length :=
    hlen.symm
  omega

private theorem length_published_removeNode (s : ClusterState) (name : String) (t : Time)
    (n : ℕ) : (s.published (List.replicate n (.removeNode name t))).length = n := by
  induction n generalizing s with
  | zero => rfl
  | succ n ih =>
    have htail := ih (s.step (.removeNode name t))
    rw [ClusterState.published] at htail ⊢
    rw [List.replicate_succ, outputs, List.length_append, htail, Nat.add_comm]
    rfl

/-- A burst of 513 deltas: the client stays connected and one of them never arrives. -/
theorem client_loses_delta :
    ¬ ∀ s : ClusterState, s.Reachable → ∀ as : List Act, (∀ a ∈ as, a.WellKeyed) →
      ∀ id c, (runFrom step (serverOf s) as).clients.get? id = some c →
        c.mailbox.taken ++ c.mailbox.queue.items = c.published := by
  intro h
  have hburst : queueLen <
      ((ClusterState.init 0).published (List.replicate 513 (.removeNode "rpi-1" 1))).length := by
    rw [length_published_removeNode]
    exact Nat.lt_succ_self 512
  obtain ⟨c, hc, hlost⟩ := burst_undelivered (ClusterState.init 0) hburst
  refine hlost (h (ClusterState.init 0) ⟨0, ∅, [], by simp, rfl⟩ _ ?_ 0 c hc)
  simp only [List.forall_mem_cons, List.mem_map, forall_exists_index, and_imp]
  refine ⟨trivial, ?_⟩
  intro a op hop heq
  subst heq
  rw [List.eq_of_mem_replicate hop]
  trivial

end Ws

end PiWatch
