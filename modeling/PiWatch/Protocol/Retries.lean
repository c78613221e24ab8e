import Mathlib.Tactic.Linarith
import PiWatch.Protocol.Attempts

/-!
# Retries

A lost connection is tried again after a delay that grows with every failure and starts over
once a socket opens. A refused one is not tried again before somebody logs in.
-/

namespace PiWatch

namespace Connection

/-- The event makes the effect run again. -/
def Event.reruns : Event → Bool
  | .login _ => true
  | .remount => true
  | _ => false

namespace Tab

open Ws (Frame onMessage)

/-! ## How long a tab waits -/

/-- The delay after `n` failures in a row. -/
def waitAfter (n : ℕ) : ℚ := min (1000 * (17 / 10) ^ n) 10000

theorem waitAfter_zero : waitAfter 0 = 1000 := by norm_num [waitAfter]

theorem waitAfter_succ (n : ℕ) : waitAfter (n + 1) = min (waitAfter n * (17 / 10)) 10000 := by
  rw [waitAfter, waitAfter, pow_succ, ← mul_assoc, min_mul_of_nonneg _ _ (by norm_num), min_assoc]
  congr 1
  norm_num

/-- The event opens a socket. -/
def opens (tab : Tab) : Event → Bool
  | .opened id => (tab.sockets.get? id).any fun s => s.ready = .connecting
  | _ => false

/-- The event arms a timer. -/
def arms (tab : Tab) (ev : Event) : Bool := tab.armed < (tab.step ev).armed

/-- How often an attempt failed since a socket opened last, or since the start of the run. -/
def failures : Tab → List Event → ℕ → ℕ
  | _, [], n => n
  | tab, ev :: evs, n =>
    failures (tab.step ev) evs (if tab.opens ev then 0 else if tab.arms ev then n + 1 else n)

/-- The tab waits as after `n` failures, and so does the timer it may have armed before. -/
structure Paced (tab : Tab) (n : ℕ) : Prop where
  backoff : tab.backoff = waitAfter n
  delay : ∀ id t, tab.timers.get? id = some t → ∃ m, n = m + 1 ∧ t.delay = waitAfter m

/-- Nothing but the handlers of a socket touches the delay, and no timer comes from elsewhere. -/
structure KeepsPace (tab tab' : Tab) : Prop where
  backoff : tab'.backoff = tab.backoff
  timers : ∀ id t, tab'.timers.get? id = some t → tab.timers.get? id = some t
  armed : tab'.armed = tab.armed

theorem KeepsPace.refl (tab : Tab) : KeepsPace tab tab := ⟨rfl, fun _ _ h => h, rfl⟩

theorem keepsPace_cleanup (tab : Tab) (run : ℕ) : KeepsPace tab (tab.cleanup run) := by
  cases he : tab.effects.get? run with
  | none =>
    rw [cleanup, he]
    exact KeepsPace.refl tab
  | some e =>
    refine ⟨by rw [cleanup_eq he], fun id t ht => ?_, by rw [cleanup_eq he]⟩
    rw [get?_timers_cleanup he] at ht
    split at ht
    · cases ht
    · exact ht

theorem keepsPace_rerun (tab : Tab) : KeepsPace tab tab.rerun := by
  obtain ⟨hbackoff, htimers, harmed⟩ := keepsPace_cleanup tab tab.run
  exact ⟨hbackoff, htimers, harmed⟩

theorem keepsPace_onFrame (tab : Tab) (frame : Frame) : KeepsPace tab (tab.onFrame frame) := by
  unfold onFrame
  dsimp only
  split
  · obtain ⟨hbackoff, htimers, harmed⟩ :=
      keepsPace_cleanup { tab with page := onMessage tab.page frame } tab.run
    exact ⟨hbackoff, htimers, harmed⟩
  · exact ⟨rfl, fun _ _ h => h, rfl⟩

/-- A retry: the socket of the current run closed without a refusal. -/
theorem armed_onClose (tab : Tab) (run code : ℕ) :
    KeepsPace tab (tab.onClose run code) ∨
      (tab.onClose run code).armed = tab.armed + 1 ∧
      (tab.onClose run code).backoff = min (tab.backoff * (17 / 10)) 10000 ∧
      (tab.onClose run code).timers = tab.timers.insert tab.armed ⟨run, tab.backoff⟩ := by
  unfold onClose
  split
  · exact .inl (KeepsPace.refl tab)
  · split
    · exact .inl (KeepsPace.refl tab)
    · split
      · exact .inl ⟨rfl, fun _ _ h => h, rfl⟩
      · exact .inr ⟨rfl, rfl, rfl⟩

theorem paced_keeps {tab tab' : Tab} {n : ℕ} (h : tab.Paced n) (hkeeps : KeepsPace tab tab') :
    tab'.Paced n :=
  ⟨hkeeps.backoff.trans h.backoff, fun id t ht => h.delay id t (hkeeps.timers id t ht)⟩

/-- An event opens a socket, arms a timer, or leaves the pace as it is. -/
theorem step_pace {tab : Tab} {held : Option Resource} (h : tab.Wired held) (ev : Event) :
    tab.opens ev ∧ (tab.step ev).backoff = 1000 ∧ (tab.step ev).timers = tab.timers ∧
        (∀ id, id ∉ tab.timers) ∨
      (∀ id, id ∉ tab.timers) ∧ ¬ tab.opens ev ∧ (tab.step ev).armed = tab.armed + 1 ∧
        (tab.step ev).backoff = min (tab.backoff * (17 / 10)) 10000 ∧
        (∃ run, (tab.step ev).timers = tab.timers.insert tab.armed ⟨run, tab.backoff⟩) ∨
      ¬ tab.opens ev ∧ KeepsPace tab (tab.step ev) := by
  have hnotimer : ∀ {id s}, tab.sockets.get? id = some s → s.live → ∀ tid, tid ∉ tab.timers := by
    intro id s hs hlive tid htid
    have hsocket := (h.only (.socket id)).mp ⟨s, hs, hlive⟩
    have htimer := (h.only (.timer tid)).mp htid
    cases hsocket.symm.trans htimer
  cases ev with
  | opened id =>
    cases hs : tab.sockets.get? id with
    | none =>
      refine .inr (.inr ⟨by simp [opens, hs], ?_⟩)
      simp only [step, hs]
      exact KeepsPace.refl tab
    | some s =>
      by_cases hready : s.ready = .connecting
      · refine .inl ⟨by simp [opens, hs, hready], ?_, ?_, hnotimer hs (live_iff.mpr (.inl hready))⟩
        · simp [step, hs, hready, onOpen]
        · simp [step, hs, hready, onOpen, setReady]
      · refine .inr (.inr ⟨by simp [opens, hs, hready], ?_⟩)
        simp only [step, hs, if_neg hready]
        exact KeepsPace.refl tab
  | message id frame =>
    refine .inr (.inr ⟨by simp [opens], ?_⟩)
    unfold step
    dsimp only
    split
    · exact KeepsPace.refl tab
    · split
      · exact keepsPace_onFrame tab frame
      · exact KeepsPace.refl tab
  | closed id code =>
    cases hs : tab.sockets.get? id with
    | none =>
      refine .inr (.inr ⟨by simp [opens], ?_⟩)
      simp only [step, hs]
      exact KeepsPace.refl tab
    | some s =>
      by_cases hlive : s.live
      · have hready : s.ready ≠ .closed := by
          intro hready
          simp [Socket.live, hready] at hlive
        simp only [step, hs, if_neg hready]
        rcases armed_onClose (tab.setReady id s .closed) s.owner code with hkeeps | harmed
        · exact .inr (.inr ⟨by simp [opens], hkeeps.backoff, hkeeps.timers, hkeeps.armed⟩)
        · exact .inr (.inl ⟨hnotimer hs hlive, by simp [opens], harmed.1, harmed.2.1, s.owner,
            harmed.2.2⟩)
      · refine .inr (.inr ⟨by simp [opens], ?_⟩)
        rcases step_closed_dead h hs hlive code with heq | heq
        · rw [heq]
          exact KeepsPace.refl tab
        · rw [heq]
          exact ⟨rfl, fun _ _ ht => ht, rfl⟩
  | timeout id =>
    refine .inr (.inr ⟨by simp [opens], ?_⟩)
    unfold step
    dsimp only
    split
    · exact KeepsPace.refl tab
    · refine ⟨rfl, fun tid t ht => ?_, rfl⟩
      rw [connect, Dict.get?_erase] at ht
      split at ht
      · cases ht
      · exact ht
  | authAnswer req =>
    refine .inr (.inr ⟨by simp [opens], ?_⟩)
    unfold step
    dsimp only
    split
    · exact ⟨rfl, fun _ _ ht => ht, rfl⟩
    · exact KeepsPace.refl tab
  | login token =>
    refine .inr (.inr ⟨by simp [opens], ?_⟩)
    unfold step
    dsimp only
    split
    · obtain ⟨hbackoff, htimers, harmed⟩ :=
        keepsPace_rerun { tab with token := token, needsLogin := some false }
      exact ⟨hbackoff, htimers, harmed⟩
    · exact ⟨rfl, fun _ _ ht => ht, rfl⟩
  | remount =>
    refine .inr (.inr ⟨by simp [opens], ?_⟩)
    unfold step
    dsimp only
    split
    · exact keepsPace_rerun tab
    · exact KeepsPace.refl tab

theorem paced_step {tab : Tab} {held : Option Resource} (h : tab.Wired held) {n : ℕ}
    (hpaced : tab.Paced n) (ev : Event) :
    (tab.step ev).Paced (if tab.opens ev then 0 else if tab.arms ev then n + 1 else n) := by
  rcases step_pace h ev with ⟨hopens, hbackoff, htimers, hnone⟩ |
    ⟨hnone, hopens, harmed, hbackoff, run, htimers⟩ | ⟨hopens, hkeeps⟩
  · rw [if_pos hopens]
    refine ⟨hbackoff.trans waitAfter_zero.symm, fun id t ht => ?_⟩
    rw [htimers] at ht
    exact absurd (Dict.mem_def.mpr (by rw [ht]; rfl)) (hnone id)
  · have harms : tab.arms ev := by
      rw [arms, harmed]
      exact decide_eq_true (Nat.lt_succ_self _)
    rw [if_neg hopens, if_pos harms]
    refine ⟨by rw [hbackoff, hpaced.backoff, waitAfter_succ], fun id t ht => ⟨n, rfl, ?_⟩⟩
    rw [htimers, Dict.get?_insert] at ht
    split at ht
    · obtain rfl := Option.some.inj ht
      exact hpaced.backoff
    · exact absurd (Dict.mem_def.mpr (by rw [ht]; rfl)) (hnone id)
  · have harms : ¬ tab.arms ev := by
      rw [arms, hkeeps.armed]
      simp
    rw [if_neg hopens, if_neg harms]
    exact paced_keeps hpaced hkeeps

theorem paced_run {tab : Tab} {n : ℕ} (h : ∃ held, tab.Wired held) (hpaced : tab.Paced n)
    (evs : List Event) : (runFrom step tab evs).Paced (failures tab evs n) := by
  induction evs generalizing tab n with
  | nil => exact hpaced
  | cons ev evs ih =>
    obtain ⟨held, hwired⟩ := h
    exact ih (wired_step hwired ev) (paced_step hwired hpaced ev)

theorem paced_start (token : String) : (start token).Paced 0 :=
  ⟨waitAfter_zero.symm, fun id t ht => by simp [start, connect] at ht⟩

theorem waitAfter_bounds (n : ℕ) : 1000 ≤ waitAfter n ∧ waitAfter n ≤ 10000 := by
  refine ⟨le_min ?_ (by norm_num), min_le_right _ _⟩
  have hpow : (1 : ℚ) ≤ (17 / 10) ^ n := one_le_pow₀ (by norm_num)
  linarith

/-- After any events the next delay is the one after as many failures as there were since a
socket opened last, and a pending timer runs on the delay of the failure that armed it. -/
theorem retries_paced (token : String) (evs : List Event) :
    (after token evs).backoff = waitAfter (failures (start token) evs 0) ∧
    (1000 ≤ (after token evs).backoff ∧ (after token evs).backoff ≤ 10000) ∧
    ∀ id t, (after token evs).timers.get? id = some t →
      0 < failures (start token) evs 0 ∧
      t.delay = waitAfter (failures (start token) evs 0 - 1) := by
  have hpaced : (after token evs).Paced (failures (start token) evs 0) :=
    paced_run (wired_start token) (paced_start token) evs
  refine ⟨hpaced.backoff, hpaced.backoff ▸ waitAfter_bounds _, fun id t ht => ?_⟩
  obtain ⟨m, hm, hdelay⟩ := hpaced.delay id t ht
  rw [hm, Nat.add_sub_cancel]
  exact ⟨Nat.succ_pos m, hdelay⟩

example : failures (start "") [.opened 0, .closed 0 1006, .timeout 0, .closed 1 1006] 0 = 2 := by
  decide

/-! ## After a refusal -/

/-- What a tab shows and has tried. -/
structure SameAttempts (tab tab' : Tab) : Prop where
  page : tab'.page = tab.page
  status : tab'.status = tab.status
  token : tab'.token = tab.token
  made : tab'.made = tab.made
  armed : tab'.armed = tab.armed

theorem SameAttempts.refl (tab : Tab) : SameAttempts tab tab := ⟨rfl, rfl, rfl, rfl, rfl⟩

theorem SameAttempts.trans {tab tab' tab'' : Tab} (h : SameAttempts tab tab')
    (h' : SameAttempts tab' tab'') : SameAttempts tab tab'' where
  page := h'.page.trans h.page
  status := h'.status.trans h.status
  token := h'.token.trans h.token
  made := h'.made.trans h.made
  armed := h'.armed.trans h.armed

theorem sockets_rerun (tab : Tab) : tab.rerun.made = tab.made + 1 ∧
    tab.rerun.sockets.get? tab.made = some ⟨tab.rerun.run, tab.token, .connecting⟩ := by
  have htoken : (tab.cleanup tab.run).token = tab.token := by
    unfold cleanup
    split <;> rfl
  constructor
  · exact congrArg (· + 1) (made_cleanup tab tab.run)
  · rw [rerun, connect, made_cleanup, htoken]
    exact Dict.get?_insert_self _ _ _

/-- Where nothing is alive, only a new run of the effect does anything. -/
theorem sameAttempts_step {tab : Tab} (h : tab.Wired none) {ev : Event} (hev : ¬ ev.reruns) :
    SameAttempts tab (tab.step ev) := by
  have hdead : ∀ {id s}, tab.sockets.get? id = some s → ¬ s.live := by
    intro id s hs hlive
    cases (h.only (.socket id)).mp ⟨s, hs, hlive⟩
  cases ev with
  | opened id =>
    unfold step
    dsimp only
    split
    · exact SameAttempts.refl tab
    · rename_i s hs
      rw [if_neg fun hready => hdead hs (live_iff.mpr (.inl hready))]
      exact SameAttempts.refl tab
  | message id frame =>
    unfold step
    dsimp only
    split
    · exact SameAttempts.refl tab
    · rename_i s hs
      rw [if_neg fun hready => hdead hs (live_iff.mpr (.inr hready))]
      exact SameAttempts.refl tab
  | closed id code =>
    cases hs : tab.sockets.get? id with
    | none =>
      simp only [step, hs]
      exact SameAttempts.refl tab
    | some s =>
      rcases step_closed_dead h hs (hdead hs) code with heq | heq
      · rw [heq]
        exact SameAttempts.refl tab
      · rw [heq]
        exact ⟨rfl, rfl, rfl, rfl, rfl⟩
  | timeout id =>
    unfold step
    dsimp only
    split
    · exact SameAttempts.refl tab
    · rename_i t ht
      cases (h.only (.timer id)).mp (Dict.mem_def.mpr (by rw [ht]; rfl))
  | authAnswer req =>
    unfold step
    dsimp only
    split
    · exact ⟨rfl, rfl, rfl, rfl, rfl⟩
    · exact SameAttempts.refl tab
  | login token => exact absurd rfl hev
  | remount => exact absurd rfl hev

theorem wired_none_step {tab : Tab} (h : tab.Wired none) {ev : Event} (hev : ¬ ev.reruns) :
    (tab.step ev).Wired none := by
  obtain ⟨held, hwired⟩ := wired_step h ev
  have hsame := sameAttempts_step h hev
  cases held with
  | none => exact hwired
  | some r =>
    obtain ⟨e, -, hholds⟩ := h.current
    obtain ⟨e', -, hholds'⟩ := hwired.current
    have hmounted : (tab.step ev).mounted ↔ tab.mounted := by
      rw [mounted_iff, mounted_iff, hsame.page]
    -- a tab that holds something is mounted, and its status says what it holds
    rcases hholds with ⟨-, -, hstatus⟩ | ⟨-, hgone⟩
    · cases r with
      | socket id =>
        obtain ⟨-, -, -, s, -, -, ⟨-, hstatus'⟩ | ⟨-, hstatus'⟩⟩ := hholds'
        · cases hstatus'.symm.trans (hsame.status.trans hstatus)
        · cases hstatus'.symm.trans (hsame.status.trans hstatus)
      | timer id =>
        obtain ⟨-, -, -, hstatus', -⟩ := hholds'
        cases hstatus'.symm.trans (hsame.status.trans hstatus)
    · cases r with
      | socket id => exact absurd (hmounted.mp hholds'.2.1) hgone
      | timer id => exact absurd (hmounted.mp hholds'.2.1) hgone

theorem refused_run {tab : Tab} (h : tab.Wired none) {evs : List Event}
    (hevs : ∀ ev ∈ evs, ¬ ev.reruns) : SameAttempts tab (runFrom step tab evs) := by
  induction evs generalizing tab with
  | nil => exact SameAttempts.refl tab
  | cons ev evs ih =>
    have hev : ¬ ev.reruns := hevs ev (by simp)
    have hrest := ih (wired_none_step h hev) fun x hx => hevs x (by simp [hx])
    exact (sameAttempts_step h hev).trans hrest

/-- A refused tab tries nothing more, whatever its old sockets report, before somebody logs in;
a login then makes one attempt, with the new token. -/
theorem refused_until_login (token : String) (evs evs' : List Event)
    (hrefused : (after token evs).mounted ∧ (after token evs).status = .unauthorized)
    (hevs : ∀ ev ∈ evs', ¬ ev.reruns) (token' : String) :
    SameAttempts (after token evs) (after token (evs ++ evs')) ∧
    ((after token (evs ++ evs' ++ [.login token'])).made = (after token evs).made + 1 ∧
      (after token (evs ++ evs' ++ [.login token'])).sockets.get? (after token evs).made =
        some ⟨(after token (evs ++ evs' ++ [.login token'])).run, token', .connecting⟩ ∧
      ∀ r, (after token (evs ++ evs' ++ [.login token'])).Live r ↔
        r = .socket (after token evs).made) := by
  obtain ⟨held, hwired⟩ := wired_after token evs
  have hnone : held = none := by
    cases held with
    | none => rfl
    | some r =>
      have hdead := (status_iff hwired hrefused.1).2.2.2.mp hrefused.2 r
      exact absurd ((hwired.only r).mpr rfl) hdead
  subst hnone
  have hsame : SameAttempts (after token evs) (after token (evs ++ evs')) := by
    rw [after, after, runFrom_append]
    exact refused_run hwired hevs
  refine ⟨hsame, ?_⟩
  have hmounted : (after token (evs ++ evs')).mounted := by
    rw [mounted_iff, hsame.page]
    exact mounted_iff.mp hrefused.1
  obtain ⟨held, hlater⟩ := wired_after token (evs ++ evs')
  set later := after token (evs ++ evs')
  have hlogin : after token (evs ++ evs' ++ [.login token']) =
      { later with token := token', needsLogin := some false }.rerun := by
    rw [after, runFrom_append]
    exact if_pos hmounted
  have hagain : Wired { later with token := token', needsLogin := some false }.rerun
      (some (.socket later.made)) :=
    @wired_rerun { later with token := token', needsLogin := some false } held
      ⟨{ hlater.toNumbered with }, hlater.only, hlater.current⟩ hmounted
  obtain ⟨hmade, hsocket⟩ :=
    sockets_rerun { later with token := token', needsLogin := some false }
  rw [hlogin, ← hsame.made]
  refine ⟨hmade, hsocket, fun r => (hagain.only r).trans ?_⟩
  rw [Option.some.injEq, eq_comm]

/-- A refusal, two late reports, then a login. -/
def refusedEvents : List Event :=
  [.opened 0, .closed 0 4401, .closed 0 1006, .timeout 0, .login "new"]

theorem refused_until_login_late :
    SameAttempts (after "old" (refusedEvents.take 2)) (after "old" (refusedEvents.take 4)) ∧
      ((after "old" refusedEvents).made = (after "old" (refusedEvents.take 2)).made + 1 ∧
        (after "old" refusedEvents).sockets.get? (after "old" (refusedEvents.take 2)).made =
          some ⟨(after "old" refusedEvents).run, "new", .connecting⟩ ∧
        ∀ r, (after "old" refusedEvents).Live r ↔
          r = .socket (after "old" (refusedEvents.take 2)).made) :=
  refused_until_login "old" [.opened 0, .closed 0 4401] [.closed 0 1006, .timeout 0]
    ⟨by decide +kernel, by decide +kernel⟩ (by simp [Event.reruns]) "new"

/-! ## The way back in -/

/-- How a mounted tab comes to be refused, or stays so. -/
theorem refused_step {tab : Tab} {held : Option Resource} (h : tab.Wired held) (ev : Event)
    (hmounted : (tab.step ev).mounted) (hstatus : (tab.step ev).status = .unauthorized) :
    (tab.step ev).token = "" ∧ (tab.step ev).needsLogin = some true ∨
      (tab.mounted ∧ tab.status = .unauthorized) ∧ (tab.step ev).token = tab.token ∧
        ((∀ req, ev ≠ .authAnswer req) ∧ (tab.step ev).needsLogin = tab.needsLogin ∨
          ∃ req, ev = .authAnswer req ∧
            (tab.step ev).needsLogin = some (req && tab.token = "")) := by
  have hsame : tab.step ev = tab → (∀ req, ev ≠ .authAnswer req) →
      (tab.mounted ∧ tab.status = .unauthorized) ∧ (tab.step ev).token = tab.token ∧
        ((∀ req, ev ≠ .authAnswer req) ∧ (tab.step ev).needsLogin = tab.needsLogin ∨
          ∃ req, ev = .authAnswer req ∧
            (tab.step ev).needsLogin = some (req && tab.token = "")) := by
    intro heq hev
    rw [heq] at hmounted hstatus ⊢
    exact ⟨⟨hmounted, hstatus⟩, rfl, .inl ⟨hev, rfl⟩⟩
  cases ev with
  | opened id =>
    cases hs : tab.sockets.get? id with
    | none => exact .inr (hsame (by simp only [step, hs]) (by simp))
    | some s =>
      by_cases hready : s.ready = .connecting
      · simp [step, hs, hready, onOpen] at hstatus
      · exact .inr (hsame (by simp only [step, hs, if_neg hready]) (by simp))
  | message id frame =>
    cases hs : tab.sockets.get? id with
    | none => exact .inr (hsame (by simp only [step, hs]) (by simp))
    | some s =>
      by_cases hready : s.ready = .opened
      · -- an open socket is alive, so the tab was not refused, and a frame cannot change that
        have hbefore : tab.mounted ∧ tab.status = .unauthorized := by
          obtain ⟨hnumbered, honly, e, he, hholds⟩ := h
          rw [(honly (.socket id)).mp ⟨s, hs, live_iff.mpr (.inr hready)⟩] at hholds
          refine ⟨hholds.2.1, ?_⟩
          simp only [step, hs, if_pos hready] at hstatus
          rw [← hstatus]
          unfold onFrame cleanup
          dsimp only
          repeat' split
          all_goals rfl
        exact absurd ⟨s, hs, live_iff.mpr (.inr hready)⟩
          ((status_iff h hbefore.1).2.2.2.mp hbefore.2 (.socket id))
      · exact .inr (hsame (by simp only [step, hs, if_neg hready]) (by simp))
  | closed id code =>
    cases hs : tab.sockets.get? id with
    | none => exact .inr (hsame (by simp only [step, hs]) (by simp))
    | some s =>
      by_cases hlive : s.live
      · obtain rfl := (h.only (.socket id)).mp ⟨s, hs, hlive⟩
        have hready : s.ready ≠ .closed := by
          intro hready
          simp [Socket.live, hready] at hlive
        obtain ⟨howner, hquiet⟩ := quiet_closed h hs
        obtain ⟨e, he, hopen⟩ := hquiet.current
        have hget : (tab.setReady id s .closed).effects.get? s.owner = some e := howner ▸ he
        simp only [step, hs, if_neg hready, onClose, hget, if_neg hopen] at hstatus ⊢
        by_cases hcode : code = 4401
        · rw [if_pos hcode]
          exact .inl ⟨rfl, rfl⟩
        · rw [if_neg hcode] at hstatus
          cases hstatus
      · rcases step_closed_dead h hs hlive code with heq | heq
        · exact .inr (hsame heq (by simp))
        · rw [heq] at hmounted hstatus ⊢
          exact .inr ⟨⟨hmounted, hstatus⟩, rfl, .inl ⟨by simp, rfl⟩⟩
  | timeout id =>
    cases ht : tab.timers.get? id with
    | none => exact .inr (hsame (by simp only [step, ht]) (by simp))
    | some t =>
      simp only [step, ht] at hstatus
      cases hstatus
  | authAnswer req =>
    by_cases hbefore : tab.mounted
    · simp only [step, if_pos hbefore] at hstatus ⊢
      exact .inr ⟨⟨hbefore, hstatus⟩, trivial, .inr ⟨req, rfl, rfl⟩⟩
    · simp only [step, if_neg hbefore] at hmounted
      exact absurd hmounted hbefore
  | login token =>
    by_cases hbefore : tab.mounted
    · simp only [step, if_pos hbefore] at hstatus
      cases hstatus
    · simp only [step, if_neg hbefore] at hmounted
      exact absurd hmounted hbefore
  | remount =>
    by_cases hbefore : tab.mounted
    · simp only [step, if_pos hbefore] at hstatus
      cases hstatus
    · simp only [step, if_neg hbefore] at hmounted
      exact absurd hmounted hbefore

theorem forgets_token (token : String) (evs : List Event) :
    (after token evs).mounted → (after token evs).status = .unauthorized →
      (after token evs).token = "" := by
  have hrun : (∃ held, (after token evs).Wired held) ∧
      ((after token evs).mounted ∧ (after token evs).status = .unauthorized →
        (after token evs).token = "") := by
    have hstep : ∀ (tab : Tab) (ev : Event), (∃ held, tab.Wired held) ∧
        (tab.mounted ∧ tab.status = .unauthorized → tab.token = "") →
        (∃ held, (tab.step ev).Wired held) ∧
          ((tab.step ev).mounted ∧ (tab.step ev).status = .unauthorized →
            (tab.step ev).token = "") := by
      rintro tab ev ⟨⟨held, hwired⟩, htoken⟩
      refine ⟨wired_step hwired ev, fun hafter => ?_⟩
      rcases refused_step hwired ev hafter.1 hafter.2 with ⟨hnone, -⟩ | ⟨hbefore, hkept, -⟩
      · exact hnone
      · exact hkept.trans (htoken hbefore)
    refine runFrom_invariant hstep ⟨wired_start token, ?_⟩ evs
    rintro ⟨-, hstatus⟩
    cases hstatus
  exact fun hmounted hstatus => hrun.2 ⟨hmounted, hstatus⟩

/-- A refused tab has forgotten its token and shows the login form. -/
structure Offers (tab : Tab) : Prop where
  wired : ∃ held, tab.Wired held
  token : tab.mounted → tab.status = .unauthorized → tab.token = ""
  form : tab.mounted → tab.status = .unauthorized → tab.needsLogin = some true

/-- The one way out of the login form: an answer that auth is off reaches a refused tab. -/
def KeepsForm (tab : Tab) (ev : Event) : Prop :=
  tab.mounted → tab.status = .unauthorized → ev ≠ .authAnswer false

theorem offers_step_iff {tab : Tab} (h : tab.Offers) (ev : Event) :
    (tab.step ev).Offers ↔ tab.KeepsForm ev := by
  obtain ⟨held, hwired⟩ := h.wired
  constructor
  · intro hoffers hmounted hstatus hev
    subst hev
    have hstep : tab.step (.authAnswer false) = { tab with needsLogin := some false } := by
      simp [step, hmounted]
    rw [hstep] at hoffers
    cases hoffers.form hmounted hstatus
  · intro hkeeps
    refine ⟨wired_step hwired ev, fun hmounted hstatus => ?_, fun hmounted hstatus => ?_⟩
    · rcases refused_step hwired ev hmounted hstatus with ⟨htoken, -⟩ | ⟨hbefore, htoken, -⟩
      · exact htoken
      · exact htoken.trans (h.token hbefore.1 hbefore.2)
    · rcases refused_step hwired ev hmounted hstatus with ⟨-, hform⟩ |
        ⟨hbefore, -, ⟨-, hform⟩ | ⟨req, hev, hform⟩⟩
      · exact hform
      · exact hform.trans (h.form hbefore.1 hbefore.2)
      · have hreq : req = true := by
          cases req with
          | true => rfl
          | false => exact absurd hev (hkeeps hbefore.1 hbefore.2)
        rw [hform, hreq, h.token hbefore.1 hbefore.2]
        rfl

/-- The tab holds a socket or a timer, or it shows the login form, or the page is gone: it never
waits for nothing. That is so at every moment exactly when no answer that auth is off (which is
also what a failed request for it counts as) reaches a tab that was refused. -/
theorem never_stuck_iff (token : String) (evs : List Event) :
    (∀ done, done <+: evs → (∃ r, (after token done).Live r) ∨
      (after token done).needsLogin = some true ∨ ¬ (after token done).mounted) ↔
    AlongRun step KeepsForm (start token) evs := by
  have hstart : (start token).Offers := by
    refine ⟨wired_start token, ?_, ?_⟩
    · intro _ hstatus
      cases hstatus
    · intro _ hstatus
      cases hstatus
  rw [← invariant_prefixes_iff (fun tab ev (h : Offers tab) => offers_step_iff h ev) hstart]
  refine forall₂_congr fun done _ => ?_
  obtain ⟨held, hwired⟩ := wired_after token done
  constructor
  · intro hway
    refine ⟨⟨held, hwired⟩, forgets_token token done, fun hmounted hstatus => ?_⟩
    rcases hway with ⟨r, hr⟩ | hform | hgone
    · exact absurd hr ((status_iff hwired hmounted).2.2.2.mp hstatus r)
    · exact hform
    · exact absurd hmounted hgone
  · intro hoffers
    by_cases hmounted : (after token done).mounted
    · by_cases hstatus : (after token done).status = .unauthorized
      · exact .inr (.inl (hoffers.form hmounted hstatus))
      · have hlive := (status_iff hwired hmounted).2.2.2.not.mp hstatus
        push Not at hlive
        exact .inl hlive
    · exact .inr (.inr hmounted)

end Tab

end Connection

end PiWatch
