import PiWatch.Protocol.Connection

/-!
# One attempt at a time

Whatever the order of the events, a tab holds one socket or one timer, or it has stopped: the
page is gone or the last socket was refused.
-/

namespace PiWatch

namespace Connection

namespace Tab

open Ws (Frame onMessage)

/-! ## What the current run holds -/

/-- Sockets and timers are numbered, and of the runs so far all but the current one ended. -/
structure Numbered (tab : Tab) : Prop where
  made : ∀ id ∈ tab.sockets, id < tab.made
  armed : ∀ id ∈ tab.timers, id < tab.armed
  runs : ∀ run ∈ tab.effects, run ≤ tab.run
  ended : ∀ run e, tab.effects.get? run = some e → run ≠ tab.run → e.closed
  own : ∀ run e id, tab.effects.get? run = some e → e.ws = some id →
    ∃ s, tab.sockets.get? id = some s ∧ s.owner = run
  closing : ∀ id s, tab.sockets.get? id = some s → s.ready = .closing →
    ∃ e, tab.effects.get? s.owner = some e ∧ e.closed

/-- What the variables of the current run say of the one thing that is alive. -/
def Holds (tab : Tab) (e : Effect) : Option Resource → Prop
  | some (.socket id) => ¬ e.closed ∧ tab.mounted ∧ e.ws = some id ∧
    ∃ s, tab.sockets.get? id = some s ∧ s.owner = tab.run ∧
      (s.ready = .connecting ∧ tab.status = .connecting ∨
        s.ready = .opened ∧ tab.status = .open)
  | some (.timer id) => ¬ e.closed ∧ tab.mounted ∧ e.timer = some id ∧ tab.status = .closed ∧
    ∃ t, tab.timers.get? id = some t ∧ t.owner = tab.run
  | none => ¬ e.closed ∧ tab.mounted ∧ tab.status = .unauthorized ∨ e.closed ∧ ¬ tab.mounted

/-- `held` is the one thing alive, and the current run knows it. -/
structure Wired (tab : Tab) (held : Option Resource) : Prop extends tab.Numbered where
  only : ∀ r, tab.Live r ↔ held = some r
  current : ∃ e, tab.effects.get? tab.run = some e ∧ tab.Holds e held

/-- Between two attempts: the current run has not ended and nothing is alive. -/
structure Quiet (tab : Tab) : Prop extends tab.Numbered where
  mounted : tab.mounted
  none : ∀ r, ¬ tab.Live r
  current : ∃ e, tab.effects.get? tab.run = some e ∧ ¬ e.closed

theorem live_connect (tab : Tab) (run : ℕ) (r : Resource) :
    (tab.connect run).Live r ↔ r = .socket tab.made ∨ tab.Live r := by
  cases r with
  | timer id => simp [Live, connect]
  | socket id =>
    simp only [Live, connect, Dict.get?_insert, Resource.socket.injEq]
    by_cases hid : id = tab.made
    · simp [hid, Socket.live]
    · simp [hid]

theorem wired_connect {tab : Tab} (h : tab.Quiet) :
    (tab.connect tab.run).Wired (some (.socket tab.made)) := by
  obtain ⟨e, he, hopen⟩ := h.current
  have heffects : ∀ i, (tab.connect tab.run).effects.get? i =
      if i = tab.run then some { e with ws := some tab.made } else tab.effects.get? i := by
    intro i
    rw [connect, Dict.get?_modify, he, Option.map_some]
  constructor
  · constructor
    · intro id hid
      rw [connect, Dict.mem_insert] at hid
      rcases hid with rfl | hid
      · exact Nat.lt_succ_self _
      · exact Nat.lt_succ_of_lt (h.made id hid)
    · exact h.armed
    · intro i hi
      rw [Dict.mem_def, heffects] at hi
      split at hi
      · rename_i hrun
        exact hrun.le
      · exact h.runs i hi
    · intro i e' he' hi
      rw [heffects, if_neg (show i ≠ tab.run from hi)] at he'
      exact h.ended i e' he' hi
    · intro i e' id he' hws
      rw [heffects] at he'
      split at he'
      · rename_i hrun
        obtain rfl := Option.some.inj he'
        obtain rfl := Option.some.inj hws
        exact ⟨_, Dict.get?_insert_self _ _ _, hrun.symm⟩
      · obtain ⟨s, hs, howner⟩ := h.own i e' id he' hws
        have hid : id ≠ tab.made := (h.made id (Dict.mem_def.mpr (by rw [hs]; rfl))).ne
        exact ⟨s, by rw [connect, Dict.get?_insert_of_ne _ _ hid, hs], howner⟩
    · intro id s hs hclosing
      rw [connect, Dict.get?_insert] at hs
      split at hs
      · obtain rfl := Option.some.inj hs
        cases hclosing
      · obtain ⟨e', he', hclosed⟩ := h.closing id s hs hclosing
        have howner : s.owner ≠ tab.run := by
          intro howner
          rw [howner, he] at he'
          exact hopen (Option.some.inj he' ▸ hclosed)
        exact ⟨e', by rw [heffects, if_neg howner, he'], hclosed⟩
  · intro r
    rw [live_connect]
    constructor
    · intro hr
      rcases hr with rfl | hr
      · rfl
      · exact absurd hr (h.none r)
    · intro hr
      exact .inl (Option.some.inj hr).symm
  · refine ⟨{ e with ws := some tab.made }, (heffects tab.run).trans (if_pos rfl), ?_⟩
    exact ⟨hopen, h.mounted, rfl, _, Dict.get?_insert_self _ _ _, rfl, .inl ⟨rfl, rfl⟩⟩

theorem live_cleanup {tab : Tab} {held : Option Resource} (h : tab.Wired held) (r : Resource) :
    ¬ (tab.cleanup tab.run).Live r := by
  obtain ⟨e, he, hholds⟩ := h.current
  intro hlive
  -- what is alive afterwards was alive before, so it is the thing the run holds
  cases r with
  | socket id =>
    obtain ⟨s, hs, hready⟩ := hlive
    rw [get?_sockets_cleanup he] at hs
    split at hs
    · obtain ⟨s', -, rfl⟩ := Option.map_eq_some_iff.mp hs
      simp at hready
    · rename_i hws
      have hheld := (h.only (.socket id)).mp ⟨s, hs, hready⟩
      subst hheld
      exact hws hholds.2.2.1
  | timer id =>
    rw [Live, Dict.mem_def, get?_timers_cleanup he] at hlive
    split at hlive
    · cases hlive
    · rename_i htimer
      have hheld := (h.only (.timer id)).mp hlive
      subst hheld
      exact htimer hholds.2.2.1

theorem numbered_cleanup {tab : Tab} (h : tab.Numbered) {e : Effect}
    (he : tab.effects.get? tab.run = some e) : (tab.cleanup tab.run).Numbered := by
  constructor
  · intro id hid
    rw [Dict.mem_def, get?_sockets_cleanup he] at hid
    rw [made_cleanup]
    refine h.made id ?_
    split at hid
    · rwa [Option.isSome_map] at hid
    · exact hid
  · intro id hid
    rw [Dict.mem_def, get?_timers_cleanup he] at hid
    rw [armed_cleanup]
    split at hid
    · cases hid
    · exact h.armed id hid
  · intro i hi
    rw [Dict.mem_def, get?_effects_cleanup he] at hi
    rw [run_cleanup]
    split at hi
    · rename_i heq
      exact heq.le
    · exact h.runs i hi
  · intro i e' he' hi
    rw [run_cleanup] at hi
    rw [get?_effects_cleanup he, if_neg hi] at he'
    exact h.ended i e' he' hi
  · intro i e' id he' hws
    have hold : ∃ e₀, tab.effects.get? i = some e₀ ∧ e₀.ws = some id := by
      rw [get?_effects_cleanup he] at he'
      split at he'
      · rename_i hi
        obtain rfl := Option.some.inj he'
        exact ⟨e, hi ▸ he, hws⟩
      · exact ⟨e', he', hws⟩
    obtain ⟨e₀, he₀, hws₀⟩ := hold
    obtain ⟨s, hs, howner⟩ := h.own i e₀ id he₀ hws₀
    rw [get?_sockets_cleanup he, hs]
    split
    · exact ⟨s.close, rfl, howner⟩
    · exact ⟨s, rfl, howner⟩
  · intro id s hs hclosing
    rw [get?_sockets_cleanup he] at hs
    have hended : ∀ e', tab.effects.get? s.owner = some e' → e'.closed →
        ∃ e'', (tab.cleanup tab.run).effects.get? s.owner = some e'' ∧ e''.closed := by
      intro e' he' hclosed
      by_cases howner : s.owner = tab.run
      · exact ⟨_, by rw [get?_effects_cleanup he, if_pos howner], rfl⟩
      · exact ⟨e', by rw [get?_effects_cleanup he, if_neg howner, he'], hclosed⟩
    split at hs
    · rename_i hws
      obtain ⟨s', hs', rfl⟩ := Option.map_eq_some_iff.mp hs
      obtain ⟨s'', hs'', howner⟩ := h.own tab.run e id he hws
      obtain rfl := Option.some.inj (hs'.symm.trans hs'')
      have howner : s'.close.owner = tab.run := howner
      exact ⟨_, by rw [get?_effects_cleanup he, if_pos howner], rfl⟩
    · obtain ⟨e', he', hclosed⟩ := h.closing id s hs hclosing
      exact hended e' he' hclosed

theorem wired_rerun {tab : Tab} {held : Option Resource} (h : tab.Wired held)
    (hmounted : tab.mounted) : tab.rerun.Wired (some (.socket tab.made)) := by
  obtain ⟨e, he, -⟩ := h.current
  have hnumbered := numbered_cleanup h.toNumbered he
  rw [← made_cleanup tab tab.run]
  refine @wired_connect { tab.cleanup tab.run with
    run := tab.run + 1
    effects := (tab.cleanup tab.run).effects.insert (tab.run + 1) ⟨none, false, none⟩ } ?_
  have hother : ∀ i ∈ (tab.cleanup tab.run).effects, i ≠ tab.run + 1 := by
    intro i hi
    have hle := hnumbered.runs i hi
    rw [run_cleanup] at hle
    omega
  constructor
  · constructor
    · exact hnumbered.made
    · exact hnumbered.armed
    · intro i hi
      rw [Dict.mem_insert] at hi
      rcases hi with rfl | hi
      · exact le_refl _
      · exact (hother i hi).lt_or_gt.elim le_of_lt fun hgt => by
          have hle := hnumbered.runs i hi
          rw [run_cleanup] at hle
          omega
    · intro i e' he' hi
      rw [Dict.get?_insert, if_neg (show i ≠ tab.run + 1 from hi), get?_effects_cleanup he] at he'
      split at he'
      · obtain rfl := Option.some.inj he'
        rfl
      · rename_i hne
        exact h.ended i e' he' hne
    · intro i e' id he' hws
      rw [Dict.get?_insert] at he'
      split at he'
      · obtain rfl := Option.some.inj he'
        cases hws
      · exact hnumbered.own i e' id he' hws
    · intro id s hs hclosing
      obtain ⟨e', he', hclosed⟩ := hnumbered.closing id s hs hclosing
      have hne := hother s.owner (Dict.mem_def.mpr (by rw [he']; rfl))
      exact ⟨e', (Dict.get?_insert_of_ne _ _ hne).trans he', hclosed⟩
  · rw [mounted, page_cleanup]
    exact hmounted
  · exact live_cleanup h
  · exact ⟨_, Dict.get?_insert_self _ _ _, by simp⟩

/-- A socket changes its `readyState`, but never back to `closing`. -/
theorem numbered_ready {tab : Tab} (h : tab.Numbered) {id : ℕ} {s : Socket}
    (hs : tab.sockets.get? id = some s) {ready : ReadyState} (hready : ready ≠ .closing) :
    (tab.setReady id s ready).Numbered := by
  constructor
  · intro id' hid
    rw [setReady, Dict.mem_insert] at hid
    rcases hid with rfl | hid
    · exact h.made id' (Dict.mem_def.mpr (by rw [hs]; rfl))
    · exact h.made id' hid
  · exact h.armed
  · exact h.runs
  · exact h.ended
  · intro i e id' he hws
    obtain ⟨s', hs', howner⟩ := h.own i e id' he hws
    by_cases hid : id' = id
    · subst hid
      obtain rfl := Option.some.inj (hs.symm.trans hs')
      exact ⟨_, Dict.get?_insert_self _ _ _, howner⟩
    · exact ⟨s', (Dict.get?_insert_of_ne _ _ hid).trans hs', howner⟩
  · intro id' s' hs' hclosing
    rw [setReady, Dict.get?_insert] at hs'
    split at hs'
    · obtain rfl := Option.some.inj hs'
      exact absurd hclosing hready
    · exact h.closing id' s' hs' hclosing

theorem live_setReady {tab : Tab} {id : ℕ} {s : Socket} {ready : ReadyState} {r : Resource} :
    (tab.setReady id s ready).Live r ↔
      if r = .socket id then ready = .connecting ∨ ready = .opened else tab.Live r := by
  cases r with
  | timer id' => simp [Live, setReady]
  | socket id' =>
    by_cases hid : id' = id
    · simp [Live, setReady, hid, Dict.get?_insert_self, Socket.live]
    · simp [Live, setReady, hid, Dict.get?_insert_of_ne _ _ hid]

theorem wired_opened {tab : Tab} {held : Option Resource} (h : tab.Wired held) {id : ℕ}
    {s : Socket} (hs : tab.sockets.get? id = some s) (hready : s.ready = .connecting) :
    (tab.setReady id s .opened).onOpen.Wired held := by
  have hheld : held = some (.socket id) :=
    (h.only (.socket id)).mp ⟨s, hs, live_iff.mpr (.inl hready)⟩
  obtain ⟨e, he, hholds⟩ := h.current
  have hnumbered : (tab.setReady id s .opened).Numbered :=
    numbered_ready h.toNumbered hs (by decide)
  refine ⟨{ hnumbered with }, fun r => ?_, e, he, ?_⟩
  · refine Iff.trans (@live_setReady tab id s .opened r) ?_
    by_cases hr : r = .socket id
    · simp [hr, hheld]
    · rw [if_neg hr]
      exact h.only r
  · subst hheld
    obtain ⟨hopen, hmounted, hws, s', hget, howner, -⟩ := hholds
    obtain rfl := Option.some.inj (hs.symm.trans hget)
    exact ⟨hopen, hmounted, hws, _, Dict.get?_insert_self _ _ _, howner, .inr ⟨rfl, rfl⟩⟩

theorem wired_message {tab : Tab} {held : Option Resource} (h : tab.Wired held) {id : ℕ}
    {s : Socket} (hs : tab.sockets.get? id = some s) (hready : s.ready = .opened)
    (frame : Frame) : ∃ held', (tab.onFrame frame).Wired held' := by
  have hheld : held = some (.socket id) :=
    (h.only (.socket id)).mp ⟨s, hs, live_iff.mpr (.inr hready)⟩
  subst hheld
  obtain ⟨e, he, hopen, hmounted, hrest⟩ := h.current
  unfold onFrame
  dsimp only
  split
  · rename_i hcrashed
    -- the page threw: the cleanup takes the open socket down
    set shown : Tab := { tab with page := onMessage tab.page frame }
    have hshown : shown.effects.get? shown.run = some e := he
    have hnumbered : (shown.cleanup shown.run).Numbered :=
      numbered_cleanup { h.toNumbered with } hshown
    have hpage : (shown.cleanup shown.run).page = .crashed := (page_cleanup _ _).trans hcrashed
    have heffect : (shown.cleanup shown.run).effects.get? (shown.cleanup shown.run).run =
        some { e with closed := true } := by
      rw [run_cleanup, get?_effects_cleanup hshown, if_pos rfl]
    refine ⟨none, hnumbered, fun r => ?_, _, heffect, .inr ⟨rfl, fun hm => mounted_iff.mp hm hpage⟩⟩
    refine iff_of_false (fun hlive => ?_) (by simp)
    have hbefore : (tab.cleanup tab.run).Live r := by
      rw [cleanup_eq hshown] at hlive
      rw [cleanup_eq he]
      exact hlive
    exact live_cleanup h r hbefore
  · rename_i hshown
    exact ⟨some (.socket id), { h.toNumbered with }, h.only, e, he, hopen, mounted_iff.mpr hshown,
      hrest⟩

/-- The current run hears that its socket closed: it gives up, or it arms one timer. -/
theorem wired_onClose {tab : Tab} (h : tab.Quiet) (code : ℕ) :
    ∃ held, (tab.onClose tab.run code).Wired held := by
  obtain ⟨e, he, hopen⟩ := h.current
  simp only [onClose, he, if_neg hopen]
  by_cases hcode : code = 4401
  · rw [if_pos hcode]
    exact ⟨none, { h.toNumbered with }, fun r => iff_of_false (h.none r) (by simp), e, he,
      .inl ⟨hopen, h.mounted, rfl⟩⟩
  · rw [if_neg hcode]
    refine ⟨some (.timer tab.armed), ?_, ?_, { e with timer := some tab.armed },
      Dict.get?_insert_self _ _ _, hopen, h.mounted, rfl, rfl, _, Dict.get?_insert_self _ _ _, rfl⟩
    · constructor
      · exact h.made
      · intro id hid
        rw [Dict.mem_insert] at hid
        rcases hid with rfl | hid
        · exact Nat.lt_succ_self _
        · exact Nat.lt_succ_of_lt (h.armed id hid)
      · intro i hi
        rw [Dict.mem_insert] at hi
        rcases hi with rfl | hi
        · exact le_refl _
        · exact h.runs i hi
      · intro i e' he' hi
        rw [Dict.get?_insert, if_neg (show i ≠ tab.run from hi)] at he'
        exact h.ended i e' he' hi
      · intro i e' id he' hws
        rw [Dict.get?_insert] at he'
        split at he'
        · rename_i hi
          obtain rfl := Option.some.inj he'
          exact h.own i e id (hi ▸ he) hws
        · exact h.own i e' id he' hws
      · intro id s hs hclosing
        obtain ⟨e', he', hclosed⟩ := h.closing id s hs hclosing
        have hne : s.owner ≠ tab.run := by
          intro hi
          rw [hi, he] at he'
          exact hopen (Option.some.inj he' ▸ hclosed)
        exact ⟨e', (Dict.get?_insert_of_ne _ _ hne).trans he', hclosed⟩
    · intro r
      cases r with
      | socket id => exact iff_of_false (h.none (.socket id)) (by simp)
      | timer id =>
        have htimer : id ∉ tab.timers := h.none (.timer id)
        simp only [Live, Dict.mem_insert, htimer, or_false, Option.some.injEq, Resource.timer.injEq]
        exact eq_comm

theorem quiet_closed {tab : Tab} {id : ℕ} (h : tab.Wired (some (.socket id))) {s : Socket}
    (hs : tab.sockets.get? id = some s) :
    s.owner = tab.run ∧
      (tab.setReady id s .closed).Quiet := by
  obtain ⟨e, he, hopen, hmounted, hws, s', hs', howner, -⟩ := h.current
  obtain rfl := Option.some.inj (hs.symm.trans hs')
  refine ⟨howner, numbered_ready h.toNumbered hs (by decide), hmounted, fun r hr => ?_, e, he,
    hopen⟩
  rw [live_setReady] at hr
  split at hr
  · simp at hr
  · rename_i hne
    exact hne (Option.some.inj ((h.only r).mp hr)).symm

theorem quiet_timeout {tab : Tab} {held : Option Resource} (h : tab.Wired held) {id : ℕ}
    {t : Timeout} (ht : tab.timers.get? id = some t) :
    t.owner = tab.run ∧ Quiet { tab with timers := tab.timers.erase id } := by
  have hheld : held = some (.timer id) :=
    (h.only (.timer id)).mp (Dict.mem_def.mpr (by rw [ht]; rfl))
  subst hheld
  obtain ⟨e, he, hopen, hmounted, -, -, t', ht', howner⟩ := h.current
  obtain rfl := Option.some.inj (ht.symm.trans ht')
  refine ⟨howner, { h.toNumbered with armed := ?_ }, hmounted, ?_, e, he, hopen⟩
  · intro id' hid'
    rw [Dict.mem_def, Dict.get?_erase] at hid'
    split at hid'
    · cases hid'
    · exact h.armed id' hid'
  · intro r hr
    cases r with
    | socket id' => cases (h.only (.socket id')).mp hr
    | timer id' =>
      rw [Live, Dict.mem_def, Dict.get?_erase] at hr
      split at hr
      · cases hr
      · rename_i hne
        exact hne (Resource.timer.inj (Option.some.inj ((h.only (.timer id')).mp hr))).symm

/-- A socket of a run that ended closes: nobody hears of it. -/
theorem onClose_ended {tab : Tab} {run : ℕ} {e : Effect} (he : tab.effects.get? run = some e)
    (hclosed : e.closed) (code : ℕ) : tab.onClose run code = tab := by
  simp [onClose, he, hclosed]

theorem wired_ended {tab : Tab} {held : Option Resource} (h : tab.Wired held) {id : ℕ}
    {s : Socket} (hs : tab.sockets.get? id = some s) (hdead : ¬ s.live) :
    (tab.setReady id s .closed).Wired held := by
  have hheld : held ≠ some (.socket id) := by
    intro hheld
    obtain ⟨s', hs', hlive⟩ := (h.only (.socket id)).mpr hheld
    exact hdead (Option.some.inj (hs.symm.trans hs') ▸ hlive)
  refine ⟨numbered_ready h.toNumbered hs (by decide), fun r => ?_, ?_⟩
  · rw [live_setReady]
    split
    · rename_i hr
      subst hr
      exact iff_of_false (by simp) hheld
    · exact h.only r
  · obtain ⟨e, he, hholds⟩ := h.current
    refine ⟨e, he, ?_⟩
    cases held with
    | none => exact hholds
    | some r =>
      cases r with
      | timer tid => exact hholds
      | socket id' =>
        obtain ⟨hopen, hmounted, hws, s', hs', hrest⟩ := hholds
        have hid : id' ≠ id := fun hid => hheld (by rw [hid])
        exact ⟨hopen, hmounted, hws, s', (Dict.get?_insert_of_ne _ _ hid).trans hs', hrest⟩

/-- Whatever a socket that is not live reports, only its own `readyState` changes. -/
theorem step_closed_dead {tab : Tab} {held : Option Resource} (h : tab.Wired held) {id : ℕ}
    {s : Socket} (hs : tab.sockets.get? id = some s) (hdead : ¬ s.live) (code : ℕ) :
    tab.step (.closed id code) = tab ∨ tab.step (.closed id code) = tab.setReady id s .closed := by
  simp only [step, hs]
  split
  · exact .inl rfl
  · rename_i hready
    have hclosing : s.ready = .closing := by
      rw [live_iff] at hdead
      cases hr : s.ready <;> simp_all
    obtain ⟨e, he, hclosed⟩ := h.closing id s hs hclosing
    exact .inr (@onClose_ended (tab.setReady id s .closed) _ e he hclosed code)

theorem wired_step {tab : Tab} {held : Option Resource} (h : tab.Wired held) (ev : Event) :
    ∃ held', (tab.step ev).Wired held' := by
  cases ev with
  | opened id =>
    unfold step
    dsimp only
    split
    · exact ⟨held, h⟩
    · rename_i s hs
      split
      · rename_i hready
        exact ⟨held, wired_opened h hs hready⟩
      · exact ⟨held, h⟩
  | message id frame =>
    unfold step
    dsimp only
    split
    · exact ⟨held, h⟩
    · rename_i s hs
      split
      · rename_i hready
        exact wired_message h hs hready frame
      · exact ⟨held, h⟩
  | closed id code =>
    cases hs : tab.sockets.get? id with
    | none =>
      rw [step, hs]
      exact ⟨held, h⟩
    | some s =>
      by_cases hlive : s.live
      · have hready : s.ready ≠ .closed := by
          intro hready
          simp [Socket.live, hready] at hlive
        obtain rfl := (h.only (.socket id)).mp ⟨s, hs, hlive⟩
        obtain ⟨howner, hquiet⟩ := quiet_closed h hs
        simp only [step, hs, if_neg hready, howner]
        exact wired_onClose hquiet code
      · rcases step_closed_dead h hs hlive code with heq | heq
        · exact ⟨held, heq.symm ▸ h⟩
        · exact ⟨held, heq.symm ▸ wired_ended h hs hlive⟩
  | timeout id =>
    unfold step
    dsimp only
    split
    · exact ⟨held, h⟩
    · rename_i t ht
      obtain ⟨howner, hquiet⟩ := quiet_timeout h ht
      rw [howner]
      exact ⟨_, wired_connect hquiet⟩
  | authAnswer req =>
    unfold step
    dsimp only
    split
    · exact ⟨held, { h.toNumbered with }, h.only, h.current⟩
    · exact ⟨held, h⟩
  | login token =>
    unfold step
    dsimp only
    split
    · rename_i hmounted
      have htoken : Wired { tab with token := token, needsLogin := some false } held :=
        ⟨{ h.toNumbered with }, h.only, h.current⟩
      exact ⟨_, wired_rerun htoken hmounted⟩
    · exact ⟨held, { h.toNumbered with }, h.only, h.current⟩
  | remount =>
    unfold step
    dsimp only
    split
    · rename_i hmounted
      exact ⟨_, wired_rerun h hmounted⟩
    · exact ⟨held, h⟩

theorem wired_start (token : String) : ∃ held, (start token).Wired held := by
  refine ⟨_, wired_connect ⟨?_, rfl, ?_, _, Dict.get?_insert_self _ _ _, by simp⟩⟩
  · constructor
    · intro id hid
      simp at hid
    · intro id hid
      simp at hid
    · intro i hi
      simpa [Dict.mem_insert] using hi
    · intro i e he hi
      rw [Dict.get?_insert_of_ne _ _ (show i ≠ 0 from hi)] at he
      simp at he
    · intro i e id he hws
      rw [Dict.get?_insert] at he
      split at he
      · obtain rfl := Option.some.inj he
        cases hws
      · simp at he
    · intro id s hs
      simp at hs
  · intro r hr
    cases r with
    | socket id =>
      obtain ⟨s, hs, -⟩ := hr
      simp at hs
    | timer id => simp [Live] at hr

/-- The tab after some events. -/
def after (token : String) (evs : List Event) : Tab := runFrom step (start token) evs

theorem wired_after (token : String) (evs : List Event) : ∃ held, (after token evs).Wired held :=
  runFrom_invariant
    (fun tab ev (h : ∃ held, Wired tab held) => h.elim fun _ hwired => wired_step hwired ev)
    (wired_start token) evs

/-! ## The badge tells what is alive -/

/-- The status of a mounted tab names what the tab holds. -/
theorem status_iff {tab : Tab} {held : Option Resource} (h : tab.Wired held)
    (hmounted : tab.mounted) :
    (tab.status = .connecting ↔ ∃ id s, tab.sockets.get? id = some s ∧ s.ready = .connecting) ∧
    (tab.status = .open ↔ ∃ id s, tab.sockets.get? id = some s ∧ s.ready = .opened) ∧
    (tab.status = .closed ↔ ∃ id, id ∈ tab.timers) ∧
    (tab.status = .unauthorized ↔ ∀ r, ¬ tab.Live r) := by
  obtain ⟨e, he, hholds⟩ := h.current
  have hsocket : ∀ {id s}, tab.sockets.get? id = some s → s.live →
      held = some (.socket id) := fun hs hlive => (h.only (.socket _)).mp ⟨_, hs, hlive⟩
  have htimer : ∀ {id}, id ∈ tab.timers → held = some (.timer id) :=
    fun ht => (h.only (.timer _)).mp ht
  cases held with
  | none =>
    have hstatus : tab.status = .unauthorized := by
      rcases hholds with ⟨-, -, hstatus⟩ | ⟨-, hgone⟩
      · exact hstatus
      · exact absurd hmounted hgone
    rw [hstatus]
    refine ⟨iff_of_false (by decide) ?_, iff_of_false (by decide) ?_, iff_of_false (by decide) ?_,
      iff_of_true rfl fun r hr => by cases (h.only r).mp hr⟩
    · rintro ⟨id, s, hs, hready⟩
      cases hsocket hs (live_iff.mpr (.inl hready))
    · rintro ⟨id, s, hs, hready⟩
      cases hsocket hs (live_iff.mpr (.inr hready))
    · rintro ⟨id, ht⟩
      cases htimer ht
  | some r =>
    have hsome : ¬ ∀ r, ¬ tab.Live r := fun hnone => hnone r ((h.only r).mpr rfl)
    cases r with
    | timer id =>
      obtain ⟨-, -, -, hstatus, t, ht, -⟩ := hholds
      rw [hstatus]
      refine ⟨iff_of_false (by decide) ?_, iff_of_false (by decide) ?_, iff_of_true rfl ?_,
        iff_of_false (by decide) hsome⟩
      · rintro ⟨id', s, hs, hready⟩
        cases hsocket hs (live_iff.mpr (.inl hready))
      · rintro ⟨id', s, hs, hready⟩
        cases hsocket hs (live_iff.mpr (.inr hready))
      · exact ⟨id, Dict.mem_def.mpr (by rw [ht]; rfl)⟩
    | socket id =>
      obtain ⟨-, -, -, s, hs, -, hready⟩ := hholds
      have hsame : ∀ {id' s'}, tab.sockets.get? id' = some s' → s'.live → s' = s := by
        intro id' s' hs' hlive
        obtain rfl := Resource.socket.inj (Option.some.inj (hsocket hs' hlive))
        exact Option.some.inj (hs'.symm.trans hs)
      have hnotimer : ¬ ∃ id', id' ∈ tab.timers := by
        rintro ⟨id', ht⟩
        cases htimer ht
      rcases hready with ⟨hready, hstatus⟩ | ⟨hready, hstatus⟩
      · rw [hstatus]
        refine ⟨iff_of_true rfl ⟨id, s, hs, hready⟩, iff_of_false (by decide) ?_,
          iff_of_false (by decide) hnotimer, iff_of_false (by decide) hsome⟩
        rintro ⟨id', s', hs', hready'⟩
        rw [hsame hs' (live_iff.mpr (.inr hready')), hready] at hready'
        cases hready'
      · rw [hstatus]
        refine ⟨iff_of_false (by decide) ?_, iff_of_true rfl ⟨id, s, hs, hready⟩,
          iff_of_false (by decide) hnotimer, iff_of_false (by decide) hsome⟩
        rintro ⟨id', s', hs', hready'⟩
        rw [hsame hs' (live_iff.mpr (.inl hready')), hready] at hready'
        cases hready'

/-- After any events at most one socket or timer is alive, none once the page is gone, and the
status of a page that is there says which. What a socket that is not alive still reports
reaches nothing but its own `readyState`. -/
theorem one_attempt (token : String) (evs : List Event) :
    (∀ r r', (after token evs).Live r → (after token evs).Live r' → r = r') ∧
    (¬ (after token evs).mounted → ∀ r, ¬ (after token evs).Live r) ∧
    ((after token evs).mounted →
      ((after token evs).status = .connecting ↔
        ∃ id s, (after token evs).sockets.get? id = some s ∧ s.ready = .connecting) ∧
      ((after token evs).status = .open ↔
        ∃ id s, (after token evs).sockets.get? id = some s ∧ s.ready = .opened) ∧
      ((after token evs).status = .closed ↔ ∃ id, id ∈ (after token evs).timers) ∧
      ((after token evs).status = .unauthorized ↔ ∀ r, ¬ (after token evs).Live r)) ∧
    (∀ id s, (after token evs).sockets.get? id = some s → ¬ s.live → ∀ frame code,
      (after token evs).step (.opened id) = after token evs ∧
      (after token evs).step (.message id frame) = after token evs ∧
      ((after token evs).step (.closed id code) = after token evs ∨
        (after token evs).step (.closed id code) = (after token evs).setReady id s .closed)) := by
  obtain ⟨held, h⟩ := wired_after token evs
  refine ⟨fun r r' hr hr' => ?_, fun hgone r hr => ?_, status_iff h, ?_⟩
  · exact Option.some.inj (((h.only r).mp hr).symm.trans ((h.only r').mp hr'))
  · obtain ⟨e, -, hholds⟩ := h.current
    rw [(h.only r).mp hr] at hholds
    cases r with
    | socket id => exact hgone hholds.2.1
    | timer id => exact hgone hholds.2.1
  · intro id s hs hdead frame code
    have hready := live_iff.not.mp hdead
    push Not at hready
    refine ⟨?_, ?_, step_closed_dead h hs hdead code⟩
    · simp only [step, hs, if_neg hready.1]
    · simp only [step, hs, if_neg hready.2]

end Tab

end Connection

end PiWatch
