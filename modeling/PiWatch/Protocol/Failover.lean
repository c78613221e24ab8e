import PiWatch.Protocol.Attempts
import PiWatch.Protocol.Tokens

/-!
# Failover

Several replicas behind one service and one browser tab. A replica may lose a connection or be
replaced at any moment; the tab then reconnects to any of them and starts from its full state.
-/

namespace PiWatch

namespace Failover

open Connection Ws

/-- One replica: what it reads from its environment, and its process. -/
structure Backend where
  auth : Auth.Replica
  server : Server

/-- What became of the handshake of a socket: a replica serves it, a replica is about to close
it as unauthorized, or the connection is lost. -/
inductive Peer (ρ : Type*)
  | served (r : ρ)
  | refused
  | lost

structure Sys (ρ : Type*) where
  tab : Tab
  backends : ρ → Backend
  peers : Dict ℕ (Peer ρ)

/-- The replicas' own steps, those of the network, and those of the tab and its user. -/
inductive Action (ρ : Type*)
  | call (r : ρ) (op : Op)
  | take (r : ρ) (id : ℕ)
  | heartbeat (r : ρ) (id : ℕ)
  | replace (r : ρ) (s : ClusterState)
  | accept (id : ℕ) (r : ρ) (now : Time)
  | opened (id : ℕ)
  | deliver (id : ℕ)
  | refuse (id : ℕ)
  | lose (id code : ℕ)
  | timeout (id : ℕ)
  | authAnswer (req : Bool)
  | login (r : ρ) (password : String) (now : Time)
  | remount

variable {ρ : Type*} [DecidableEq ρ]

namespace Sys

def onTab (sys : Sys ρ) (ev : Event) : Sys ρ := { sys with tab := sys.tab.step ev }

/-- One replica gets another process. -/
def setServer (sys : Sys ρ) (r : ρ) (server : Server) : Sys ρ :=
  { sys with backends := Function.update sys.backends r ⟨(sys.backends r).auth, server⟩ }

/-- One replica's process takes a step. -/
def onServer (sys : Sys ρ) (r : ρ) (a : Act) : Sys ρ :=
  sys.setServer r (Ws.step (sys.backends r).server a)

end Sys

variable (hmacSha256 : List UInt8 → List UInt8 → List UInt8)

/-- `ws_state` up to its loop, at the replica the service routed the socket to. -/
def accept (sys : Sys ρ) (id : ℕ) (r : ρ) (token : String) (now : Time) : Sys ρ :=
  match Auth.verifyToken hmacSha256 (sys.backends r).auth (some token) now with
  | .ok true => { sys.onServer r (.connect id) with peers := sys.peers.insert id (.served r) }
  | .ok false => { sys with peers := sys.peers.insert id .refused }
  | .error _ => { sys with peers := sys.peers.insert id .lost }

/-- The next frame on its way to an open socket arrives. -/
def deliver (sys : Sys ρ) (id : ℕ) : Sys ρ :=
  match sys.peers.get? id, sys.tab.sockets.get? id with
  | some (.served r), some s =>
    if s.ready = .opened then
      match (sys.backends r).server.clients.get? id with
      | some c =>
        match c.inFlight with
        | frame :: _ => (sys.onTab (.message id frame)).onServer r (.receive id)
        | [] => sys
      | none => sys
    else sys
  | _, _ => sys

/-- A connection is over for the replica that serves it. -/
def forget (sys : Sys ρ) (id : ℕ) : Sys ρ :=
  match sys.peers.get? id with
  | some (.served r) =>
    { sys.onServer r (.disconnect id) with peers := sys.peers.insert id .lost }
  | _ => { sys with peers := sys.peers.insert id .lost }

def step (sys : Sys ρ) : Action ρ → Sys ρ
  | .call r op => sys.onServer r (.call op)
  | .take r id => sys.onServer r (.take id)
  | .heartbeat r id => sys.onServer r (.heartbeat id)
  | .replace r s =>
    { sys.setServer r (serverOf s) with
      peers := sys.peers.mapValues fun
        | .served r' => if r' = r then .lost else .served r'
        | peer => peer }
  | .accept id r now =>
    match sys.tab.sockets.get? id, sys.peers.get? id with
    | some s, none => accept hmacSha256 sys id r s.token now
    | _, _ => sys
  | .opened id => if id ∈ sys.peers then sys.onTab (.opened id) else sys
  | .deliver id => deliver sys id
  | .refuse id =>
    match sys.peers.get? id with
    | some .refused => sys.onTab (.closed id 4401)
    | _ => sys
  | .lose id code =>
    if code = 4401 ∨ id ∉ sys.tab.sockets then sys
    else (forget sys id).onTab (.closed id code)
  | .timeout id => sys.onTab (.timeout id)
  | .authAnswer req => sys.onTab (.authAnswer req)
  | .login r password now =>
    match Auth.login hmacSha256 (sys.backends r).auth password now with
    | .ok (some token) => sys.onTab (.login token)
    | _ => sys
  | .remount => sys.onTab .remount

/-- A fresh tab, and replicas nobody is connected to. -/
def start (token : String) (auth : ρ → Auth.Replica) (states : ρ → ClusterState) : Sys ρ :=
  ⟨Tab.start token, fun r => ⟨auth r, serverOf (states r)⟩, ∅⟩

/-- What the collectors of the replicas promise, and where a replaced one begins. -/
def Action.Sensible : Action ρ → Prop
  | .call _ op => op.WellKeyed
  | .replace _ s => s.Reachable
  | _ => True

/-! ## What a server's step does to a client -/

/-- The client has received nothing since, and may have more on the way. -/
structure Grows (c c' : Client) : Prop where
  page : c'.page = c.page
  inFlight : c.inFlight <+: c'.inFlight

theorem Grows.refl (c : Client) : Grows c c := ⟨rfl, List.prefix_rfl⟩

theorem grows_take (c : Client) : Grows c c.take := by
  unfold Client.take
  split
  · exact Grows.refl c
  · exact ⟨rfl, List.prefix_append _ _⟩

/-- The full state is the first frame of every connection. -/
def Fresh (c : Client) : Prop :=
  c.page = .connecting → ∃ snap rest, c.inFlight = .fullState snap :: rest

theorem fresh_grows {c c' : Client} (h : Fresh c) (hgrows : Grows c c') : Fresh c' := by
  intro hpage
  obtain ⟨snap, rest, hflight⟩ := h (hgrows.page.symm.trans hpage)
  obtain ⟨more, hmore⟩ := hgrows.inFlight
  exact ⟨snap, rest ++ more, by rw [← hmore, hflight, List.cons_append]⟩

private theorem exists_of_rel {α : Type*} {R : α → α → Prop} {o : Option α} {b : α}
    (h : Option.Rel R o (some b)) : ∃ a, o = some a ∧ R a b := by
  cases h with
  | some hab => exact ⟨_, rfl, hab⟩

/-- A step of the collectors or of a client's loop. -/
def IsLocal : Act → Prop
  | .call _ => True
  | .take _ => True
  | .heartbeat _ => True
  | _ => False

private theorem get?_modify_grows {clients : Dict ℕ Client} {id id' : ℕ} {f : Client → Client}
    (hf : ∀ c, Grows c (f c)) :
    Option.Rel Grows (clients.get? id') ((clients.modify id f).get? id') := by
  rw [Dict.get?_modify]
  split
  · rename_i hid
    subst hid
    cases clients.get? id' with
    | none => exact .none
    | some c => exact .some (hf c)
  · exact option_rel_refl Grows.refl _

theorem grows_step (server : Server) {a : Act} (ha : IsLocal a) (id : ℕ) :
    Option.Rel Grows (server.clients.get? id) ((Ws.step server a).clients.get? id) := by
  cases a with
  | call op =>
    rw [Ws.step, Dict.get?_mapValues]
    cases server.clients.get? id with
    | none => exact .none
    | some c => exact .some ⟨rfl, List.prefix_rfl⟩
  | take id' => exact get?_modify_grows grows_take
  | heartbeat id' => exact get?_modify_grows fun c => ⟨rfl, List.prefix_append _ _⟩
  | connect id' => exact ha.elim
  | receive id' => exact ha.elim
  | disconnect id' => exact ha.elim

/-! ## One page over several replicas -/

/-- The connections the replicas and the tab know of belong together, and the open socket shows
what its own connection delivered. -/
structure Sound (sys : Sys ρ) : Prop where
  wired : ∃ held, sys.tab.Wired held
  servers : ∀ r, (sys.backends r).server.Sound
  known : ∀ id ∈ sys.peers, id ∈ sys.tab.sockets
  served : ∀ r id, id ∈ (sys.backends r).server.clients ↔
    sys.peers.get? id = some (.served r)
  fresh : ∀ r id c, (sys.backends r).server.clients.get? id = some c → Fresh c
  unopened : ∀ r id c s, (sys.backends r).server.clients.get? id = some c →
    sys.tab.sockets.get? id = some s → s.ready = .connecting → c.page = .connecting
  shown : ∀ r id c s, (sys.backends r).server.clients.get? id = some c →
    sys.tab.sockets.get? id = some s → s.ready = .opened → c.page ≠ .connecting →
      sys.tab.page = c.page

theorem backends_setServer (sys : Sys ρ) (r r' : ρ) (server : Server) :
    ((sys.setServer r server).backends r').server =
      if r' = r then server else (sys.backends r').server := by
  change (Function.update sys.backends r ⟨(sys.backends r).auth, server⟩ r').server = _
  rw [Function.update_apply]
  split <;> rfl

theorem sound_local {sys : Sys ρ} (h : Sound sys) (r : ρ) {a : Act} (ha : IsLocal a)
    (hk : a.WellKeyed) : Sound (sys.onServer r a) := by
  have hgrows : ∀ r' id, Option.Rel Grows ((sys.backends r').server.clients.get? id)
      (((sys.onServer r a).backends r').server.clients.get? id) := by
    intro r' id
    rw [Sys.onServer, backends_setServer]
    split
    · rename_i hr
      subst hr
      exact grows_step _ ha id
    · exact option_rel_refl Grows.refl _
  have hbefore : ∀ r' id c', ((sys.onServer r a).backends r').server.clients.get? id = some c' →
      ∃ c, (sys.backends r').server.clients.get? id = some c ∧ Grows c c' := by
    intro r' id c' hc'
    exact exists_of_rel (hc' ▸ hgrows r' id)
  constructor
  · exact h.wired
  · intro r'
    rw [Sys.onServer, backends_setServer]
    split
    · exact sound_step (h.servers r) hk
    · exact h.servers r'
  · exact h.known
  · intro r' id
    refine Iff.trans ?_ (h.served r' id)
    have hrel := hgrows r' id
    rw [Dict.mem_def, Dict.mem_def]
    cases hold : (sys.backends r').server.clients.get? id <;>
      cases hnew : ((sys.onServer r a).backends r').server.clients.get? id <;>
      rw [hold, hnew] at hrel <;> first | rfl | cases hrel
  · intro r' id c' hc'
    obtain ⟨c, hc, hg⟩ := hbefore r' id c' hc'
    exact fresh_grows (h.fresh r' id c hc) hg
  · intro r' id c' s hc' hs hready
    obtain ⟨c, hc, hg⟩ := hbefore r' id c' hc'
    exact hg.page.trans (h.unopened r' id c s hc hs hready)
  · intro r' id c' s hc' hs hready hpage
    obtain ⟨c, hc, hg⟩ := hbefore r' id c' hc'
    rw [hg.page] at hpage ⊢
    exact h.shown r' id c s hc hs hready hpage

omit [DecidableEq ρ] in
/-- A tab event that brings no message. -/
theorem sound_onTab {sys : Sys ρ} (h : Sound sys) {ev : Event}
    (hev : ∀ id frame, ev ≠ .message id frame) : Sound (sys.onTab ev) := by
  obtain ⟨held, hwired⟩ := h.wired
  -- a socket that is new has no connection yet
  have hnew : ∀ r id c s, (sys.backends r).server.clients.get? id = some c →
      ¬ sys.tab.IsNew (sys.tab.step ev) id s := by
    intro r id c s hc hnew
    have hpeer := (h.served r id).mp (Dict.mem_def.mpr (by rw [hc]; rfl))
    have hknown := h.known id (Dict.mem_def.mpr (by rw [hpeer]; rfl))
    exact (hwired.made id hknown).ne hnew.1
  constructor
  · exact Tab.wired_step hwired ev
  · exact h.servers
  · exact fun id hid => Tab.mem_sockets_step ev (h.known id hid)
  · exact h.served
  · exact h.fresh
  · intro r id c s' hc hs' hready
    rcases Tab.sockets_step sys.tab ev hs' with ⟨s, hs, hkept⟩ | ⟨-, s, -, -, rfl⟩ | hisnew
    · refine h.unopened r id c s hc hs ?_
      rcases hkept.ready with hsame | hclosed | hclosed
      · exact hsame.symm.trans hready
      · cases hready.symm.trans hclosed
      · cases hready.symm.trans hclosed
    · cases hready
    · exact absurd hisnew (hnew r id c s' hc)
  · intro r id c s' hc hs' hready hpage
    change (sys.tab.step ev).page = c.page
    rw [Tab.page_step sys.tab hev]
    rcases Tab.sockets_step sys.tab ev hs' with ⟨s, hs, hkept⟩ | ⟨-, s, hs, hconn, -⟩ | hisnew
    · refine h.shown r id c s hc hs ?_ hpage
      rcases hkept.ready with hsame | hclosed | hclosed
      · exact hsame.symm.trans hready
      · cases hready.symm.trans hclosed
      · cases hready.symm.trans hclosed
    · exact absurd (h.unopened r id c s hc hs hconn) hpage
    · exact absurd hisnew (hnew r id c s' hc)

theorem get?_peers_replace (sys : Sys ρ) (r r' : ρ) (id : ℕ) :
    (sys.peers.mapValues (fun
      | .served r' => if r' = r then Peer.lost else .served r'
      | peer => peer)).get? id = some (.served r') ↔
    r' ≠ r ∧ sys.peers.get? id = some (.served r') := by
  rw [Dict.get?_mapValues]
  cases hpeer : sys.peers.get? id with
  | none => simp
  | some peer =>
    cases peer with
    | refused => simp
    | lost => simp
    | served r'' =>
      by_cases hr : r'' = r
      · subst hr
        simp only [Option.map_some, if_true, Option.some.injEq, Peer.served.injEq, reduceCtorEq,
          false_iff, not_and]
        exact fun hne heq => hne heq.symm
      · simp only [Option.map_some, if_neg hr, Option.some.injEq, Peer.served.injEq]
        constructor
        · rintro rfl
          exact ⟨hr, rfl⟩
        · exact fun hboth => hboth.2

theorem sound_replace {sys : Sys ρ} (h : Sound sys) (r : ρ) {s : ClusterState}
    (hs : s.Reachable) : Sound (step hmacSha256 sys (.replace r s)) := by
  have hclients : ∀ r' id c, ((step hmacSha256 sys (.replace r s)).backends r').server.clients.get?
      id = some c → r' ≠ r ∧ (sys.backends r').server.clients.get? id = some c := by
    intro r' id c hc
    simp only [step, backends_setServer] at hc
    split at hc
    · simp [serverOf] at hc
    · rename_i hne
      exact ⟨hne, hc⟩
  constructor
  · exact h.wired
  · intro r'
    simp only [step, backends_setServer]
    split
    · exact ⟨hs, fun id c hc => by simp [serverOf] at hc⟩
    · exact h.servers r'
  · intro id hid
    refine h.known id ?_
    rw [step, Dict.mem_def, Dict.get?_mapValues, Option.isSome_map] at hid
    exact hid
  · intro r' id
    rw [step, get?_peers_replace, ← h.served r' id, Dict.mem_def, Dict.mem_def,
      backends_setServer]
    by_cases hr : r' = r
    · simp [hr, serverOf]
    · simp [hr]
  · exact fun r' id c hc => h.fresh r' id c (hclients r' id c hc).2
  · exact fun r' id c s' hc => h.unopened r' id c s' (hclients r' id c hc).2
  · exact fun r' id c s' hc => h.shown r' id c s' (hclients r' id c hc).2

omit [DecidableEq ρ] in
/-- No replica serves the socket any more. -/
theorem sound_unserved {sys : Sys ρ} (h : Sound sys) {id : ℕ} (hid : id ∈ sys.tab.sockets)
    {peer : Peer ρ} (hpeer : ∀ r, peer ≠ .served r)
    (hnone : ∀ r, sys.peers.get? id ≠ some (.served r)) :
    Sound { sys with peers := sys.peers.insert id peer } := by
  refine ⟨h.wired, h.servers, fun id' hid' => ?_, fun r id' => ?_, h.fresh, h.unopened, h.shown⟩
  · rcases Dict.mem_insert.mp hid' with rfl | hold
    · exact hid
    · exact h.known id' hold
  · rw [h.served r id', Dict.get?_insert]
    split
    · rename_i heq
      subst heq
      refine iff_of_false (hnone r) fun hsome => hpeer r (Option.some.inj hsome)
    · rfl

theorem sound_disconnect {sys : Sys ρ} (h : Sound sys) {id : ℕ} {r : ρ}
    (hpeer : sys.peers.get? id = some (.served r)) :
    Sound { sys.onServer r (.disconnect id) with peers := sys.peers.insert id .lost } := by
  have hserver : ∀ r' id', ((sys.onServer r (.disconnect id)).backends r').server.clients.get?
      id' = if r' = r ∧ id' = id then none else (sys.backends r').server.clients.get? id' := by
    intro r' id'
    rw [Sys.onServer, backends_setServer]
    by_cases hr : r' = r
    · subst hr
      rw [if_pos rfl, Ws.step, Dict.get?_erase]
      simp
    · simp [hr]
  have hclients : ∀ r' id' c, ((sys.onServer r (.disconnect id)).backends r').server.clients.get?
      id' = some c → (sys.backends r').server.clients.get? id' = some c := by
    intro r' id' c hc
    rw [hserver] at hc
    split at hc
    · cases hc
    · exact hc
  constructor
  · exact h.wired
  · intro r'
    rw [Sys.onServer, backends_setServer]
    split
    · exact Ws.sound_step (h.servers r) trivial
    · exact h.servers r'
  · intro id' hid'
    rcases Dict.mem_insert.mp hid' with rfl | hold
    · exact h.known id' (Dict.mem_def.mpr (by rw [hpeer]; rfl))
    · exact h.known id' hold
  · intro r' id'
    rw [Dict.mem_def, hserver, Dict.get?_insert]
    by_cases hid : id' = id
    · subst hid
      rw [if_pos rfl]
      by_cases hr : r' = r
      · simp [hr]
      · have hserved := h.served r' id'
        rw [hpeer, Dict.mem_def] at hserved
        simp only [hr, false_and, if_false, hserved, Option.some.injEq, Peer.served.injEq,
          reduceCtorEq, iff_false]
        exact Ne.symm hr
    · rw [if_neg hid, ← h.served r' id', Dict.mem_def]
      simp [hid]
  · exact fun r' id' c hc => h.fresh r' id' c (hclients r' id' c hc)
  · exact fun r' id' c s hc => h.unopened r' id' c s (hclients r' id' c hc)
  · exact fun r' id' c s hc => h.shown r' id' c s (hclients r' id' c hc)

theorem sound_forget {sys : Sys ρ} (h : Sound sys) {id : ℕ} (hid : id ∈ sys.tab.sockets) :
    Sound (forget sys id) := by
  unfold forget
  split
  · rename_i r hpeer
    exact sound_disconnect h hpeer
  · rename_i hpeer
    exact sound_unserved h hid (fun r heq => by cases heq) fun r hr => hpeer r hr

theorem sound_connect {sys : Sys ρ} (h : Sound sys) {id : ℕ} (hid : id ∈ sys.tab.sockets)
    (hpeer : sys.peers.get? id = none) (r : ρ) :
    Sound { sys.onServer r (.connect id) with peers := sys.peers.insert id (.served r) } := by
  have hnone : ∀ r', id ∉ (sys.backends r').server.clients := by
    intro r' hmem
    have hserved := (h.served r' id).mp hmem
    rw [hpeer] at hserved
    cases hserved
  have hserver : ∀ r' id', ((sys.onServer r (.connect id)).backends r').server.clients.get? id' =
      if r' = r ∧ id' = id then some (subscribe (sys.backends r).server.state)
      else (sys.backends r').server.clients.get? id' := by
    intro r' id'
    rw [Sys.onServer, backends_setServer]
    by_cases hr : r' = r
    · subst hr
      rw [if_pos rfl, Ws.step, if_neg (hnone r'), Dict.get?_insert]
      simp
    · simp [hr]
  have hclients : ∀ r' id' c, ((sys.onServer r (.connect id)).backends r').server.clients.get?
      id' = some c → c = subscribe (sys.backends r).server.state ∨
        (sys.backends r').server.clients.get? id' = some c := by
    intro r' id' c hc
    rw [hserver] at hc
    split at hc
    · exact .inl (Option.some.inj hc).symm
    · exact .inr hc
  constructor
  · exact h.wired
  · intro r'
    rw [Sys.onServer, backends_setServer]
    split
    · exact Ws.sound_step (h.servers r) trivial
    · exact h.servers r'
  · intro id' hid'
    rcases Dict.mem_insert.mp hid' with rfl | hold
    · exact hid
    · exact h.known id' hold
  · intro r' id'
    rw [Dict.mem_def, hserver, Dict.get?_insert]
    by_cases hid : id' = id
    · subst hid
      rw [if_pos rfl]
      by_cases hr : r' = r
      · simp [hr]
      · have hmem := hnone r'
        rw [Dict.mem_def] at hmem
        simp only [hr, false_and, if_false, hmem, Option.some.injEq, Peer.served.injEq]
        exact iff_of_false (by decide) (Ne.symm hr)
    · rw [if_neg hid, ← h.served r' id', Dict.mem_def]
      simp [hid]
  · intro r' id' c hc
    rcases hclients r' id' c hc with rfl | hold
    · exact fun _ => ⟨_, [], rfl⟩
    · exact h.fresh r' id' c hold
  · intro r' id' c s hc hs hready
    rcases hclients r' id' c hc with rfl | hold
    · rfl
    · exact h.unopened r' id' c s hold hs hready
  · intro r' id' c s hc hs hready hpage
    rcases hclients r' id' c hc with rfl | hold
    · exact absurd rfl hpage
    · exact h.shown r' id' c s hold hs hready hpage

theorem sound_accept {sys : Sys ρ} (h : Sound sys) {id : ℕ} (hid : id ∈ sys.tab.sockets)
    (hpeer : sys.peers.get? id = none) (r : ρ) (token : String) (now : Time) :
    Sound (accept hmacSha256 sys id r token now) := by
  unfold accept
  split
  · exact sound_connect h hid hpeer r
  · exact sound_unserved h hid (fun r' heq => by cases heq) fun r' hr => by simp [hpeer] at hr
  · exact sound_unserved h hid (fun r' heq => by cases heq) fun r' hr => by simp [hpeer] at hr

theorem onMessage_ne_connecting {page : Page} (h : page ≠ .connecting) (frame : Frame) :
    onMessage page frame ≠ .connecting := by
  cases frame with
  | ping => exact h
  | fullState snap => cases page <;> simp [onMessage]
  | delta msg =>
    cases page with
    | connecting => exact absurd rfl h
    | crashed => simp [onMessage]
    | showing snap =>
      simp only [onMessage]
      split <;> simp

theorem onMessage_fullState {page : Page} (h : page ≠ .crashed) (snap : Snapshot) :
    onMessage page (.fullState snap) = .showing snap := by
  cases page with
  | crashed => exact absurd rfl h
  | connecting => rfl
  | showing snap' => rfl

/-- The frame that arrives shows the tab what it shows the connection's own page. -/
private theorem page_receive {page : Page} {c : Client} {frame : Frame} {rest : List Frame}
    (hpage : page ≠ .crashed) (hfresh : Fresh c) (hflight : c.inFlight = frame :: rest)
    (hshown : c.page ≠ .connecting → page = c.page) :
    onMessage c.page frame ≠ .connecting ∧ onMessage page frame = onMessage c.page frame := by
  by_cases hconn : c.page = .connecting
  · obtain ⟨snap, rest', hfull⟩ := hfresh hconn
    rw [hflight] at hfull
    obtain ⟨rfl, -⟩ := List.cons.inj hfull
    rw [onMessage_fullState hpage, hconn]
    exact ⟨by simp [onMessage], rfl⟩
  · rw [hshown hconn]
    exact ⟨onMessage_ne_connecting hconn frame, rfl⟩

theorem sound_deliver {sys : Sys ρ} (h : Sound sys) (id : ℕ) : Sound (deliver sys id) := by
  unfold deliver
  split
  · rename_i r s hpeer hs
    split
    · rename_i hready
      split
      · rename_i c hc
        split
        · rename_i frame rest hflight
          obtain ⟨held, hwired⟩ := h.wired
          have hheld : held = some (.socket id) :=
            (hwired.only (.socket id)).mp ⟨s, hs, Tab.live_iff.mpr (.inr hready)⟩
          have hmounted : sys.tab.page ≠ .crashed := by
            obtain ⟨e, -, hholds⟩ := hwired.current
            rw [hheld] at hholds
            exact Tab.mounted_iff.mp hholds.2.1
          have hpages := page_receive hmounted (h.fresh r id c hc) hflight
            (h.shown r id c s hc hs hready)
          have hframe : sys.tab.step (.message id frame) = sys.tab.onFrame frame := by
            simp only [Tab.step, hs, if_pos hready]
          have hserver : ∀ r' id', (((sys.onTab (.message id frame)).onServer r
              (.receive id)).backends r').server.clients.get? id' =
              if r' = r ∧ id' = id then some c.receive
              else (sys.backends r').server.clients.get? id' := by
            intro r' id'
            rw [Sys.onServer, backends_setServer]
            by_cases hr : r' = r
            · subst hr
              rw [if_pos rfl, Ws.step, Dict.get?_modify]
              by_cases hid : id' = id
              · subst hid
                simp [Sys.onTab, hc]
              · simp [Sys.onTab, hid]
            · simp [hr, Sys.onTab]
          have hreceive : c.receive.page = onMessage c.page frame := by
            simp only [Client.receive, hflight]
          -- the sockets that are open afterwards were open before, so there is only this one
          have hopen : ∀ id' s', (sys.tab.onFrame frame).sockets.get? id' = some s' →
              s'.ready = .opened → id' = id := by
            intro id' s' hs' hready'
            obtain ⟨s₀, hs₀, hkept⟩ := Tab.onlyKeeps_onFrame sys.tab frame id' s' hs'
            have hready₀ : s₀.ready = .opened := by
              rcases hkept.ready with hsame | hclosed | hclosed
              · exact hsame.symm.trans hready'
              · cases hready'.symm.trans hclosed
              · cases hready'.symm.trans hclosed
            have hlive := (hwired.only (.socket id')).mp
              ⟨s₀, hs₀, Tab.live_iff.mpr (.inr hready₀)⟩
            exact Tab.Resource.socket.inj (Option.some.inj (hlive.symm.trans hheld))
          constructor
          · exact Tab.wired_step hwired (.message id frame)
          · intro r'
            rw [Sys.onServer, backends_setServer]
            split
            · exact Ws.sound_step (h.servers r) trivial
            · exact h.servers r'
          · exact fun id' hid' => Tab.mem_sockets_step _ (h.known id' hid')
          · intro r' id'
            refine Iff.trans ?_ (h.served r' id')
            rw [Dict.mem_def, Dict.mem_def, hserver]
            split
            · rename_i hboth
              obtain ⟨rfl, rfl⟩ := hboth
              rw [hc]
              rfl
            · rfl
          · intro r' id' c' hc'
            rw [hserver] at hc'
            split at hc'
            · obtain rfl := Option.some.inj hc'
              intro hconn
              exact absurd (hreceive.symm.trans hconn) hpages.1
            · exact h.fresh r' id' c' hc'
          · intro r' id' c' s' hc' hs' hready'
            change (sys.tab.step (.message id frame)).sockets.get? id' = some s' at hs'
            rw [hframe] at hs'
            obtain ⟨s₀, hs₀, hkept⟩ := Tab.onlyKeeps_onFrame sys.tab frame id' s' hs'
            have hready₀ : s₀.ready = .connecting := by
              rcases hkept.ready with hsame | hclosed | hclosed
              · exact hsame.symm.trans hready'
              · cases hready'.symm.trans hclosed
              · cases hready'.symm.trans hclosed
            rw [hserver] at hc'
            split at hc'
            · rename_i hboth
              obtain ⟨-, rfl⟩ := hboth
              obtain rfl := Option.some.inj (hs.symm.trans hs₀)
              cases hready.symm.trans hready₀
            · exact h.unopened r' id' c' s₀ hc' hs₀ hready₀
          · intro r' id' c' s' hc' hs' hready' hpage'
            change (sys.tab.step (.message id frame)).sockets.get? id' = some s' at hs'
            change (sys.tab.step (.message id frame)).page = c'.page
            rw [hframe] at hs' ⊢
            obtain rfl := hopen id' s' hs' hready'
            have hr : r' = r := by
              have hmem : id' ∈ (sys.backends r').server.clients := by
                rw [hserver] at hc'
                split at hc'
                · rename_i hboth
                  obtain ⟨rfl, -⟩ := hboth
                  exact Dict.mem_def.mpr (by rw [hc]; rfl)
                · exact Dict.mem_def.mpr (by rw [hc']; rfl)
              have hpeer' := (h.served r' id').mp hmem
              exact Peer.served.inj (Option.some.inj (hpeer'.symm.trans hpeer))
            rw [hserver, if_pos ⟨hr, rfl⟩] at hc'
            obtain rfl := Option.some.inj hc'
            rw [hreceive, Tab.page_onFrame]
            exact hpages.2
        · exact h
      · exact h
    · exact h
  · exact h

theorem soundSys_step {sys : Sys ρ} (h : Sound sys) {a : Action ρ} (ha : a.Sensible) :
    Sound (step hmacSha256 sys a) := by
  cases a with
  | call r op => exact sound_local h r trivial ha
  | take r id => exact sound_local h r trivial trivial
  | heartbeat r id => exact sound_local h r trivial trivial
  | replace r s => exact sound_replace hmacSha256 h r ha
  | accept id r now =>
    unfold step
    dsimp only
    split
    · rename_i s hs hpeer
      exact sound_accept hmacSha256 h (Dict.mem_def.mpr (by rw [hs]; rfl)) hpeer r s.token now
    · exact h
  | opened id =>
    unfold step
    dsimp only
    split
    · exact sound_onTab h (by simp)
    · exact h
  | deliver id => exact sound_deliver h id
  | refuse id =>
    unfold step
    dsimp only
    split
    · exact sound_onTab h (by simp)
    · exact h
  | lose id code =>
    unfold step
    dsimp only
    split
    · exact h
    · rename_i hboth
      push Not at hboth
      exact sound_onTab (sound_forget h hboth.2) (by simp)
  | timeout id => exact sound_onTab h (by simp)
  | authAnswer req => exact sound_onTab h (by simp)
  | login r password now =>
    unfold step
    dsimp only
    split
    · exact sound_onTab h (by simp)
    · exact h
  | remount => exact sound_onTab h (by simp)

omit [DecidableEq ρ] in
theorem soundSys_start (token : String) (auth : ρ → Auth.Replica) {states : ρ → ClusterState}
    (hstates : ∀ r, (states r).Reachable) : Sound (start token auth states) := by
  have hnone : ∀ r id, ((start token auth states).backends r).server.clients.get? id = none :=
    fun _ _ => rfl
  constructor
  · exact Tab.wired_start token
  · exact fun r => ⟨hstates r, fun id c hc => by simp [hnone] at hc⟩
  · exact fun id hid => absurd hid (Dict.not_mem_empty id)
  · intro r id
    rw [Dict.mem_def, hnone]
    simp [start]
  · exact fun r id c hc => by simp [hnone] at hc
  · exact fun r id c s hc => by simp [hnone] at hc
  · exact fun r id c s hc => by simp [hnone] at hc

theorem soundSys_run {sys : Sys ρ} (h : Sound sys) {as : List (Action ρ)}
    (has : ∀ a ∈ as, a.Sensible) : Sound (runFrom (step hmacSha256) sys as) :=
  runFrom_invariant_of_forall (W := Action.Sensible)
    (fun sys' _ (hs : Sound sys') ha => soundSys_step hmacSha256 hs ha) h has

/-- Whatever happened before, on the tab, on this replica or on any other: once the frames on
their way have arrived, an open tab shows what the deltas sent on this very connection make of
the state its replica was in when it accepted. If all deltas published since were sent, and no
node or check bears a name every object inherits, it shows the replica's collections. -/
theorem failover_run (token : String) (auth : ρ → Auth.Replica) (states : ρ → ClusterState)
    (hstates : ∀ r, (states r).Reachable) (as : List (Action ρ)) (has : ∀ a ∈ as, a.Sensible)
    (id : ℕ) (s : Socket)
    (hs : (runFrom (step hmacSha256) (start token auth states) as).tab.sockets.get? id = some s)
    (hready : s.ready = .opened) (r : ρ) (c : Client)
    (hc : ((runFrom (step hmacSha256) (start token auth states) as).backends
      r).server.clients.get? id = some c) :
    c.inFlight.foldl onMessage (runFrom (step hmacSha256) (start token auth states) as).tab.page =
      pageOf (applyDeltas c.base.snapshot c.mailbox.taken) ∧
    (c.mailbox.taken = c.published → c.inFlight = [] →
      AlongRun ClusterState.step (fun s' op => op.ReadsOwnNames c.base.snapshot s') c.base
        c.calls →
      ∃ snap, (runFrom (step hmacSha256) (start token auth states) as).tab.page =
          .showing snap ∧
        snap.Agrees ((runFrom (step hmacSha256) (start token auth states) as).backends
          r).server.state.snapshot ∧
        snap.AgreesOnNodes ((runFrom (step hmacSha256) (start token auth states) as).backends
          r).server.state.snapshot) := by
  have hsound := soundSys_run hmacSha256 (soundSys_start token auth hstates) has
  set sys := runFrom (step hmacSha256) (start token auth states) as
  obtain ⟨held, hwired⟩ := hsound.wired
  have hclient := (hsound.servers r).clients id c hc
  have hmounted : sys.tab.page ≠ .crashed := by
    obtain ⟨e, -, hholds⟩ := hwired.current
    rw [(hwired.only (.socket id)).mp ⟨s, hs, Tab.live_iff.mpr (.inr hready)⟩] at hholds
    exact Tab.mounted_iff.mp hholds.2.1
  have hpage : c.inFlight.foldl onMessage sys.tab.page =
      pageOf (applyDeltas c.base.snapshot c.mailbox.taken) := by
    rw [← hclient.page_eq]
    by_cases hconn : c.page = .connecting
    · -- the full state is still to come, and it replaces whatever the tab shows
      obtain ⟨snap, rest, hflight⟩ := hsound.fresh r id c hc hconn
      rw [hflight, List.foldl_cons, List.foldl_cons, onMessage_fullState hmounted, hconn]
      rfl
    · rw [hsound.shown r id c s hc hs hready hconn]
  refine ⟨hpage, fun hsent hflight hnames => ?_⟩
  obtain ⟨b, hb, htracks⟩ := applyDeltas_tracks hclient.reachable hclient.keyed hnames
  rw [hflight, List.foldl_nil, hsent, Client.published, hb] at hpage
  rw [hclient.state_eq]
  exact ⟨b, hpage, htracks.toAgrees, htracks.toAgreesOnNodes⟩

/-- Replicas without a password. -/
def openAuth : Bool → Auth.Replica := fun _ => ⟨"", [], 0⟩

/-- Two replicas that started at different times. -/
def twoStates : Bool → ClusterState := fun r => ClusterState.init (if r then 5 else 0)

/-- A sample of a node's temperature. -/
def warm (node : String) (t : Time) : Op :=
  .recordNodeSample node (Dict.ofList [("temp_c", .ofRat 41)]) t t

/-- The tab follows one replica, loses it, and reaches the other, which has heard of other nodes
in the meantime and hears of one more. -/
def failoverActions : List (Action Bool) :=
  [.call false (warm "rpi-1" 6), .accept 0 false 7, .opened 0, .deliver 0,
    .call false (warm "rpi-2" 8), .take false 0, .deliver 0, .call true (warm "rpi-1" 9),
    .lose 0 1006, .timeout 0, .accept 1 true 10, .opened 1, .call true (warm "rpi-3" 11),
    .heartbeat true 1, .take true 1, .deliver 1, .deliver 1, .call true (.removePod "media/x" 12),
    .take true 1, .deliver 1, .deliver 1]

def afterFailover : Sys Bool :=
  runFrom (step fun _ _ => []) (start "" openAuth twoStates) failoverActions

section Witness

attribute [local semireducible] Ring.push

theorem failover_run_second :
    ∃ c, (afterFailover.backends true).server.clients.get? 1 = some c ∧
      c.published.length = 2 ∧ c.mailbox.taken = c.published ∧
      ∃ snap, afterFailover.tab.page = .showing snap ∧
        snap.Agrees (afterFailover.backends true).server.state.snapshot ∧
        snap.AgreesOnNodes (afterFailover.backends true).server.state.snapshot := by
  have hs : afterFailover.tab.sockets.get? 1 = some ⟨0, "", .opened⟩ := rfl
  have hserved : ∃ c, (afterFailover.backends true).server.clients.get? 1 = some c := ⟨_, rfl⟩
  obtain ⟨c, hc⟩ := hserved
  obtain ⟨-, hshown⟩ := failover_run (fun _ _ => []) "" openAuth twoStates
    (fun r => ⟨_, ∅, [], by simp, rfl⟩) failoverActions
    (by simp [failoverActions, Action.Sensible, warm, Op.WellKeyed, Dict.mem_ofList]) 1 _ hs rfl
    true c hc
  obtain rfl := Option.some.inj (hc.symm.trans rfl)
  refine ⟨_, rfl, rfl, rfl, hshown rfl rfl ⟨?_, trivial, trivial⟩⟩
  simp [warm, Op.ReadsOwnNames, ReadsOwn, objectPrototype]

end Witness

end Failover

end PiWatch
