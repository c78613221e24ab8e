import Mathlib.Tactic.Linarith
import PiWatch.Protocol.Ws

/-!
# The connection of a browser tab

`useClusterStore` opens a socket in an effect and retries from a timer. Every run of the effect
has its own variables, and sockets outlive the run that made them: what an event may still do
depends on those variables alone. `App` stops at the login form when a socket is refused.
-/

namespace PiWatch

namespace Connection

open Ws (Page Frame onMessage)

/-- `ws.readyState`. -/
inductive ReadyState
  | connecting
  | opened
  | closing
  | closed
  deriving DecidableEq

/-- A socket: the run of the effect whose handlers it carries, and the token in its URL. -/
structure Socket where
  owner : ℕ
  token : String
  ready : ReadyState

/-- `ws.close()`. -/
def Socket.close (s : Socket) : Socket :=
  { s with ready := if s.ready = .closed then .closed else .closing }

def Socket.live (s : Socket) : Bool := s.ready = .connecting || s.ready = .opened

/-- The variables of one run of the effect. -/
structure Effect where
  ws : Option ℕ
  closed : Bool
  timer : Option ℕ

/-- A pending `setTimeout(connect, delay)`. -/
structure Timeout where
  owner : ℕ
  delay : ℚ

inductive ConnStatus
  | connecting
  | «open»
  | closed
  | unauthorized
  deriving DecidableEq

/-- One tab. `run` is the current run of the effect, `made` and `armed` count the sockets and
timers so far; without a token in `localStorage` it reads as the empty text. -/
structure Tab where
  token : String
  needsLogin : Option Bool
  page : Page
  status : ConnStatus
  backoff : ℚ
  run : ℕ
  effects : Dict ℕ Effect
  sockets : Dict ℕ Socket
  made : ℕ
  timers : Dict ℕ Timeout
  armed : ℕ

/-- What the browser may call into the tab with. -/
inductive Event
  | opened (id : ℕ)
  | message (id : ℕ) (frame : Frame)
  | closed (id : ℕ) (code : ℕ)
  | timeout (id : ℕ)
  | authAnswer (req : Bool)
  | login (token : String)
  | remount

namespace Tab

/-- `connect()` of a run. -/
def connect (tab : Tab) (run : ℕ) : Tab :=
  { tab with
    status := .connecting
    sockets := tab.sockets.insert tab.made ⟨run, tab.token, .connecting⟩
    made := tab.made + 1
    effects := tab.effects.modify run fun e => { e with ws := some tab.made } }

/-- The function a run returns, called when the effect runs again or the page is gone. -/
def cleanup (tab : Tab) (run : ℕ) : Tab :=
  match tab.effects.get? run with
  | none => tab
  | some e =>
    { tab with
      effects := tab.effects.insert run { e with closed := true }
      timers := match e.timer with
        | some id => tab.timers.erase id
        | none => tab.timers
      sockets := match e.ws with
        | some id => tab.sockets.modify id Socket.close
        | none => tab.sockets }

/-- The effect runs again. -/
def rerun (tab : Tab) : Tab :=
  let next := tab.run + 1
  connect { tab.cleanup tab.run with
    run := next
    effects := (tab.cleanup tab.run).effects.insert next ⟨none, false, none⟩ } next

/-- `ws.onopen`. -/
def onOpen (tab : Tab) : Tab := { tab with backoff := 1000, status := .open }

/-- `ws.onmessage`. A page that threw is taken down, which runs the cleanup. -/
def onFrame (tab : Tab) (frame : Frame) : Tab :=
  let shown := { tab with page := onMessage tab.page frame }
  match shown.page with
  | .crashed => shown.cleanup tab.run
  | _ => shown

/-- `ws.onclose` of a socket of some run; after `unauthorized` the app forgets the token. -/
def onClose (tab : Tab) (run code : ℕ) : Tab :=
  match tab.effects.get? run with
  | none => tab
  | some e =>
    if e.closed then tab
    else if code = 4401 then
      { tab with status := .unauthorized, token := "", needsLogin := some true }
    else
      { tab with
        status := .closed
        timers := tab.timers.insert tab.armed ⟨run, tab.backoff⟩
        armed := tab.armed + 1
        effects := tab.effects.insert run { e with timer := some tab.armed }
        backoff := min (tab.backoff * (17 / 10)) 10000 }

/-- The page is still there. -/
def mounted (tab : Tab) : Bool :=
  match tab.page with
  | .crashed => false
  | _ => true

/-- The `readyState` of a socket changes. -/
def setReady (tab : Tab) (id : ℕ) (s : Socket) (ready : ReadyState) : Tab :=
  { tab with sockets := tab.sockets.insert id { s with ready := ready } }

def step (tab : Tab) : Event → Tab
  | .opened id =>
    match tab.sockets.get? id with
    | none => tab
    | some s => if s.ready = .connecting then (tab.setReady id s .opened).onOpen else tab
  | .message id frame =>
    match tab.sockets.get? id with
    | none => tab
    | some s => if s.ready = .opened then tab.onFrame frame else tab
  | .closed id code =>
    match tab.sockets.get? id with
    | none => tab
    | some s =>
      if s.ready = .closed then tab else (tab.setReady id s .closed).onClose s.owner code
  | .timeout id =>
    match tab.timers.get? id with
    | none => tab
    | some t => { tab with timers := tab.timers.erase id }.connect t.owner
  | .authAnswer req =>
    if tab.mounted then { tab with needsLogin := some (req && tab.token = "") } else tab
  | .login token =>
    if tab.mounted then { tab with token := token, needsLogin := some false }.rerun
    else { tab with token := token }
  | .remount => if tab.mounted then tab.rerun else tab

/-- A tab that has just mounted its page, with the token it finds. -/
def start (token : String) : Tab :=
  connect
    { token := token
      needsLogin := none
      page := .connecting
      status := .connecting
      backoff := 1000
      run := 0
      effects := (∅ : Dict ℕ Effect).insert 0 ⟨none, false, none⟩
      sockets := ∅
      made := 0
      timers := ∅
      armed := 0 } 0

/-! ## What is alive -/

/-- What can still call into the tab by itself. -/
inductive Resource
  | socket (id : ℕ)
  | timer (id : ℕ)
  deriving DecidableEq

/-- A socket that is connecting or open, or a timer that is pending. -/
def Live (tab : Tab) : Resource → Prop
  | .socket id => ∃ s, tab.sockets.get? id = some s ∧ s.live
  | .timer id => id ∈ tab.timers

@[simp] theorem live_close (s : Socket) : s.close.live = false := by
  cases hready : s.ready <;> simp [Socket.live, Socket.close, hready]

theorem live_iff {s : Socket} : s.live ↔ s.ready = .connecting ∨ s.ready = .opened := by
  simp [Socket.live]

@[simp] theorem page_cleanup (tab : Tab) (run : ℕ) : (tab.cleanup run).page = tab.page := by
  unfold cleanup
  split <;> rfl

@[simp] theorem run_cleanup (tab : Tab) (run : ℕ) : (tab.cleanup run).run = tab.run := by
  unfold cleanup
  split <;> rfl

@[simp] theorem made_cleanup (tab : Tab) (run : ℕ) : (tab.cleanup run).made = tab.made := by
  unfold cleanup
  split <;> rfl

@[simp] theorem armed_cleanup (tab : Tab) (run : ℕ) : (tab.cleanup run).armed = tab.armed := by
  unfold cleanup
  split <;> rfl

section Cleanup

variable {tab : Tab} {run : ℕ} {e : Effect} (he : tab.effects.get? run = some e)

include he

theorem cleanup_eq : tab.cleanup run =
    { tab with
      effects := tab.effects.insert run { e with closed := true }
      timers := match e.timer with
        | some id => tab.timers.erase id
        | none => tab.timers
      sockets := match e.ws with
        | some id => tab.sockets.modify id Socket.close
        | none => tab.sockets } := by
  simp only [cleanup, he]

theorem get?_effects_cleanup (i : ℕ) : (tab.cleanup run).effects.get? i =
    if i = run then some { e with closed := true } else tab.effects.get? i := by
  rw [cleanup_eq he]
  exact Dict.get?_insert _ _ _ _

theorem get?_sockets_cleanup (id : ℕ) : (tab.cleanup run).sockets.get? id =
    if e.ws = some id then (tab.sockets.get? id).map Socket.close else tab.sockets.get? id := by
  rw [cleanup_eq he]
  cases hws : e.ws with
  | none => simp
  | some id' =>
    change (tab.sockets.modify id' Socket.close).get? id = _
    rw [Dict.get?_modify]
    by_cases hid : id = id'
    · subst hid
      simp
    · simp [hid, Ne.symm hid]

theorem get?_timers_cleanup (id : ℕ) : (tab.cleanup run).timers.get? id =
    if e.timer = some id then none else tab.timers.get? id := by
  rw [cleanup_eq he]
  cases htimer : e.timer with
  | none => simp
  | some id' =>
    change (tab.timers.erase id').get? id = _
    rw [Dict.get?_erase]
    by_cases hid : id = id'
    · simp [hid]
    · simp [hid, Ne.symm hid]

end Cleanup

theorem mounted_iff {tab : Tab} : tab.mounted ↔ tab.page ≠ .crashed := by
  unfold mounted
  cases tab.page <;> simp

/-! ## What an event does to the sockets -/

/-- A socket keeps its run and its token, and only closes. -/
structure Kept (s s' : Socket) : Prop where
  owner : s'.owner = s.owner
  token : s'.token = s.token
  ready : s'.ready = s.ready ∨ s'.ready = .closing ∨ s'.ready = .closed

theorem Kept.refl (s : Socket) : Kept s s := ⟨rfl, rfl, .inl rfl⟩

theorem kept_close (s : Socket) : Kept s s.close := by
  refine ⟨rfl, rfl, ?_⟩
  cases hready : s.ready <;> simp [Socket.close, hready]

/-- Every socket afterwards is one of before, kept. -/
def OnlyKeeps (tab tab' : Tab) : Prop :=
  ∀ id s', tab'.sockets.get? id = some s' → ∃ s, tab.sockets.get? id = some s ∧ Kept s s'

theorem OnlyKeeps.refl (tab : Tab) : OnlyKeeps tab tab := fun _ s' h => ⟨s', h, Kept.refl s'⟩

theorem onlyKeeps_cleanup (tab : Tab) (run : ℕ) : OnlyKeeps tab (tab.cleanup run) := by
  intro id s' hs'
  cases he : tab.effects.get? run with
  | none =>
    rw [cleanup, he] at hs'
    exact ⟨s', hs', Kept.refl s'⟩
  | some e =>
    rw [get?_sockets_cleanup he] at hs'
    split at hs'
    · obtain ⟨s, hs, rfl⟩ := Option.map_eq_some_iff.mp hs'
      exact ⟨s, hs, kept_close s⟩
    · exact ⟨s', hs', Kept.refl s'⟩

theorem sockets_connect (tab : Tab) (run id : ℕ) : (tab.connect run).sockets.get? id =
    if id = tab.made then some ⟨run, tab.token, .connecting⟩ else tab.sockets.get? id :=
  Dict.get?_insert _ _ _ _

/-- The socket is the one the event made, with the token the tab has now. -/
def IsNew (tab tab' : Tab) (id : ℕ) (s' : Socket) : Prop :=
  id = tab.made ∧ s'.ready = .connecting ∧ s'.token = tab'.token

theorem sockets_rerun_cases (tab : Tab) {id : ℕ} {s' : Socket}
    (h : tab.rerun.sockets.get? id = some s') :
    (∃ s, tab.sockets.get? id = some s ∧ Kept s s') ∨ tab.IsNew tab.rerun id s' := by
  rw [rerun, sockets_connect] at h
  split at h
  · rename_i hid
    obtain rfl := Option.some.inj h
    exact .inr ⟨hid.trans (made_cleanup tab tab.run), rfl, rfl⟩
  · exact .inl (onlyKeeps_cleanup tab tab.run id s' h)

theorem onlyKeeps_onFrame (tab : Tab) (frame : Frame) : OnlyKeeps tab (tab.onFrame frame) := by
  unfold onFrame
  dsimp only
  split
  · exact onlyKeeps_cleanup { tab with page := onMessage tab.page frame } tab.run
  · exact OnlyKeeps.refl tab

theorem onlyKeeps_onClose (tab : Tab) (run code : ℕ) : OnlyKeeps tab (tab.onClose run code) := by
  unfold onClose
  split
  · exact OnlyKeeps.refl tab
  · split
    · exact OnlyKeeps.refl tab
    · split <;> exact OnlyKeeps.refl tab

theorem onlyKeeps_setReady {tab : Tab} {id : ℕ} {s : Socket} (hs : tab.sockets.get? id = some s) :
    OnlyKeeps tab (tab.setReady id s .closed) := by
  intro id' s' hs'
  rw [setReady, Dict.get?_insert] at hs'
  split at hs'
  · rename_i hid
    subst hid
    obtain rfl := Option.some.inj hs'
    exact ⟨s, hs, rfl, rfl, .inr (.inr rfl)⟩
  · exact ⟨s', hs', Kept.refl s'⟩

/-- A socket after an event was there before and only closed since, or the event opened it, or
the event made it. -/
theorem sockets_step (tab : Tab) (ev : Event) {id : ℕ} {s' : Socket}
    (h : (tab.step ev).sockets.get? id = some s') :
    (∃ s, tab.sockets.get? id = some s ∧ Kept s s') ∨
      (ev = .opened id ∧ ∃ s, tab.sockets.get? id = some s ∧ s.ready = .connecting ∧
        s' = { s with ready := .opened }) ∨
      tab.IsNew (tab.step ev) id s' := by
  cases ev with
  | opened id' =>
    cases hs : tab.sockets.get? id' with
    | none =>
      simp only [step, hs] at h
      exact .inl ⟨s', h, Kept.refl s'⟩
    | some s =>
      by_cases hready : s.ready = .connecting
      · simp only [step, hs, if_pos hready, onOpen, setReady, Dict.get?_insert] at h
        split at h
        · rename_i hid
          subst hid
          exact .inr (.inl ⟨rfl, s, hs, hready, (Option.some.inj h).symm⟩)
        · exact .inl ⟨s', h, Kept.refl s'⟩
      · simp only [step, hs, if_neg hready] at h
        exact .inl ⟨s', h, Kept.refl s'⟩
  | message id' frame =>
    unfold step at h
    dsimp only at h
    split at h
    · exact .inl ⟨s', h, Kept.refl s'⟩
    · split at h
      · exact .inl (onlyKeeps_onFrame tab frame id s' h)
      · exact .inl ⟨s', h, Kept.refl s'⟩
  | closed id' code =>
    cases hs : tab.sockets.get? id' with
    | none =>
      simp only [step, hs] at h
      exact .inl ⟨s', h, Kept.refl s'⟩
    | some s =>
      by_cases hready : s.ready = .closed
      · simp only [step, hs, if_pos hready] at h
        exact .inl ⟨s', h, Kept.refl s'⟩
      · simp only [step, hs, if_neg hready] at h
        obtain ⟨s₁, hs₁, hkept⟩ := onlyKeeps_onClose (tab.setReady id' s .closed) _ code id s' h
        obtain ⟨s₀, hs₀, hkept₀⟩ := onlyKeeps_setReady hs id s₁ hs₁
        refine .inl ⟨s₀, hs₀, hkept.owner.trans hkept₀.owner, hkept.token.trans hkept₀.token, ?_⟩
        rcases hkept.ready with hsame | hclosed
        · rw [hsame]
          exact hkept₀.ready
        · exact .inr hclosed
  | timeout id' =>
    unfold step at h ⊢
    dsimp only at h ⊢
    split at h
    · exact .inl ⟨s', h, Kept.refl s'⟩
    · rw [sockets_connect] at h
      split at h
      · rename_i hid
        obtain rfl := Option.some.inj h
        exact .inr (.inr ⟨hid, rfl, rfl⟩)
      · exact .inl ⟨s', h, Kept.refl s'⟩
  | authAnswer req =>
    unfold step at h
    dsimp only at h
    split at h <;> exact .inl ⟨s', h, Kept.refl s'⟩
  | login token =>
    unfold step at h ⊢
    dsimp only at h ⊢
    split at h
    · rename_i hmounted
      rw [if_pos hmounted]
      rcases sockets_rerun_cases { tab with token := token, needsLogin := some false } h with
        hkept | hnew
      · exact .inl hkept
      · exact .inr (.inr hnew)
    · exact .inl ⟨s', h, Kept.refl s'⟩
  | remount =>
    unfold step at h ⊢
    dsimp only at h ⊢
    split at h
    · rename_i hmounted
      rw [if_pos hmounted]
      rcases sockets_rerun_cases tab h with hkept | hnew
      · exact .inl hkept
      · exact .inr (.inr hnew)
    · exact .inl ⟨s', h, Kept.refl s'⟩

theorem mem_sockets_cleanup {tab : Tab} {run id : ℕ} :
    id ∈ (tab.cleanup run).sockets ↔ id ∈ tab.sockets := by
  cases he : tab.effects.get? run with
  | none => rw [cleanup, he]
  | some e =>
    rw [Dict.mem_def, get?_sockets_cleanup he, Dict.mem_def]
    split
    · rw [Option.isSome_map]
    · rfl

theorem mem_sockets_connect {tab : Tab} {run id : ℕ} (h : id ∈ tab.sockets) :
    id ∈ (tab.connect run).sockets := Dict.mem_insert.mpr (.inr h)

theorem mem_sockets_onClose {tab : Tab} {run code id : ℕ} (h : id ∈ tab.sockets) :
    id ∈ (tab.onClose run code).sockets := by
  unfold onClose
  split
  · exact h
  · split
    · exact h
    · split <;> exact h

theorem mem_sockets_rerun {tab : Tab} {id : ℕ} (h : id ∈ tab.sockets) :
    id ∈ tab.rerun.sockets := mem_sockets_connect (mem_sockets_cleanup.mpr h)

/-- No socket is forgotten. -/
theorem mem_sockets_step {tab : Tab} (ev : Event) {id : ℕ} (h : id ∈ tab.sockets) :
    id ∈ (tab.step ev).sockets := by
  cases ev with
  | opened id' =>
    unfold step
    dsimp only
    split
    · exact h
    · split
      · exact Dict.mem_insert.mpr (.inr h)
      · exact h
  | message id' frame =>
    unfold step
    dsimp only
    split
    · exact h
    · split
      · unfold onFrame
        dsimp only
        split
        · exact mem_sockets_cleanup.mpr h
        · exact h
      · exact h
  | closed id' code =>
    unfold step
    dsimp only
    split
    · exact h
    · split
      · exact h
      · exact mem_sockets_onClose (Dict.mem_insert.mpr (.inr h))
  | timeout id' =>
    unfold step
    dsimp only
    split
    · exact h
    · exact mem_sockets_connect h
  | authAnswer req =>
    unfold step
    dsimp only
    split <;> exact h
  | login token =>
    unfold step
    dsimp only
    split
    · refine @mem_sockets_rerun { tab with token := token, needsLogin := some false } id h
    · exact h
  | remount =>
    unfold step
    dsimp only
    split
    · exact mem_sockets_rerun h
    · exact h

/-! ## What an event does to the page -/

theorem page_onFrame (tab : Tab) (frame : Frame) :
    (tab.onFrame frame).page = onMessage tab.page frame := by
  unfold onFrame
  dsimp only
  split
  · exact page_cleanup _ _
  · rfl

theorem page_onClose (tab : Tab) (run code : ℕ) : (tab.onClose run code).page = tab.page := by
  unfold onClose
  split
  · rfl
  · split
    · rfl
    · split <;> rfl

/-- Only a message changes the page. -/
theorem page_step (tab : Tab) {ev : Event} (hev : ∀ id frame, ev ≠ .message id frame) :
    (tab.step ev).page = tab.page := by
  cases ev with
  | opened id =>
    unfold step
    dsimp only
    split
    · rfl
    · split <;> rfl
  | message id frame => exact absurd rfl (hev id frame)
  | closed id code =>
    unfold step
    dsimp only
    split
    · rfl
    · split
      · rfl
      · exact page_onClose _ _ _
  | timeout id =>
    unfold step
    dsimp only
    split <;> rfl
  | authAnswer req =>
    unfold step
    dsimp only
    split <;> rfl
  | login token =>
    unfold step
    dsimp only
    split
    · exact page_cleanup { tab with token := token, needsLogin := some false } tab.run
    · rfl
  | remount =>
    unfold step
    dsimp only
    split
    · exact page_cleanup tab tab.run
    · rfl

end Tab

end Connection

end PiWatch
