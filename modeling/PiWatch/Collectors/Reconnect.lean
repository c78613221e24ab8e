import Mathlib.Tactic.IntervalCases
import PiWatch.Collectors.Events
import PiWatch.Framework.Backoff

/-!
# The pace of a watch loop

A watch loop lists again as soon as a stream ends. After an exception it sleeps first, longer with
every attempt that fails before its list was applied. What it does to the state is a run of a
session.
-/

namespace PiWatch

namespace K8sWatch

/-- The longest wait, in seconds. -/
def maxBackoff : ℕ := 30

/-- What happens to a watch loop and around it. -/
inductive WatchAct (κ ρ ω : Type*)
  | put (r : ρ)
  | delete (k : κ)
  | other (o : ω)
  | list
  | seed
  | deliver
  | ends
  | fails
  | wakes

/-- A session and the loop that opens it. -/
structure PacedWatch {κ ρ : Type*} [DecidableEq κ] (key : ρ → κ) (σ : Type*) where
  session : Session key σ
  loop : Backoff.Loop Time

section Machine

variable {κ ρ σ ω ν : Type*} [DecidableEq κ] {key : ρ → κ} (F : Follower key σ ω ν)

/-- The session's part in what happens. -/
def sessionPart (w : PacedWatch key σ) : WatchAct κ ρ ω → Option (ListWatchAction κ ρ ω)
  | .put r => some (.put r)
  | .delete k => some (.delete k)
  | .other o => some (.other o)
  | .list =>
    match w.loop.phase with
    | .working => some .list
    | .asleep _ => none
  | .seed => some .seed
  | .deliver => some .deliver
  | .ends =>
    match w.session.phase with
    | .watching => some .stop
    | _ => none
  | .fails =>
    match w.loop.phase with
    | .working => some .stop
    | .asleep _ => none
  | .wakes => none

/-- The loop's part. A list that has been applied resets the wait. -/
def loopPart (w : PacedWatch key σ) : WatchAct κ ρ ω → Backoff.Act
  | .seed =>
    match w.session.phase with
    | .listed _ => .succeeds
    | _ => .other
  | .fails => .fails
  | .wakes => .wakes
  | _ => .other

/-- `_watch_loop`, one step at a time. -/
def watchStep (w : PacedWatch key σ) (act : Time × WatchAct κ ρ ω) : PacedWatch key σ where
  session := (sessionPart w act.2).elim w.session (F.step w.session)
  loop := Backoff.step maxBackoff w.loop (act.1, loopPart w act.2)

/-- The clock does not go back. -/
def OnTime (w : PacedWatch key σ) (act : Time × WatchAct κ ρ ω) : Prop := w.loop.now ≤ act.1

variable {F}

/-- A loop that sleeps has no list and no watch open. -/
def IdleAsleep (w : PacedWatch key σ) : Prop :=
  ∀ wakes, w.loop.phase = .asleep wakes → w.session.phase = .idle

/-- An idle session opens nothing but a list. -/
theorem idle_step {sys : Session key σ} (h : sys.phase = .idle) {a : ListWatchAction κ ρ ω}
    (ha : a ≠ .list) : (F.step sys a).phase = .idle := by
  cases a with
  | list => exact absurd rfl ha
  | stop => rfl
  | delete k =>
    simp only [Follower.step]
    split <;> exact h
  | seed =>
    simp only [Follower.step, h]
  | deliver =>
    simp only [Follower.step, h]
  | _ => exact h

theorem idleAsleep_step {w : PacedWatch key σ} (h : IdleAsleep w)
    (act : Time × WatchAct κ ρ ω) : IdleAsleep (watchStep F w act) := by
  obtain ⟨now, act⟩ := act
  intro wakes hwakes
  cases hphase : w.loop.phase with
  | working =>
    cases act with
    | fails => simp [watchStep, sessionPart, hphase, Follower.step]
    | seed =>
      exfalso
      cases hsession : w.session.phase <;>
        simp [watchStep, loopPart, Backoff.step, hphase, hsession] at hwakes
    | _ => simp [watchStep, loopPart, Backoff.step, hphase] at hwakes
  | asleep wakes' =>
    have hidle := h wakes' hphase
    have hlist : sessionPart w act ≠ some .list := by
      cases act <;> simp [sessionPart, hphase, hidle]
    change ((sessionPart w act).elim w.session (F.step w.session)).phase = .idle
    cases hpart : sessionPart w act with
    | none => exact hidle
    | some a =>
      apply idle_step hidle
      rintro rfl
      exact hlist hpart

/-- What the session goes through is a run of it. -/
def sessionRun (F : Follower key σ ω ν) :
    PacedWatch key σ → List (Time × WatchAct κ ρ ω) → List (ListWatchAction κ ρ ω)
  | _, [] => []
  | w, act :: acts => (sessionPart w act.2).toList ++ sessionRun F (watchStep F w act) acts

theorem session_run (w : PacedWatch key σ) (acts : List (Time × WatchAct κ ρ ω)) :
    (runFrom (watchStep F) w acts).session = runFrom F.step w.session (sessionRun F w acts) := by
  induction acts generalizing w with
  | nil => rfl
  | cons act acts ih =>
    rw [runFrom_cons, ih, sessionRun, runFrom_append]
    cases hpart : sessionPart w act.2 <;> simp [watchStep, hpart]

/-- So is what its loop goes through. -/
theorem paced_watchStep {w : PacedWatch key σ} (h : Backoff.Paced maxBackoff w.loop)
    {act : Time × WatchAct κ ρ ω} (hact : OnTime w act) :
    Backoff.Paced maxBackoff (watchStep F w act).loop :=
  Backoff.paced_step (by decide) h hact

/-- The waits are 1, 2, 4, 8 and 16 seconds, and 30 from then on. -/
theorem thirty_mul_le (n : ℕ) : 30 * n ≤ Backoff.waited maxBackoff n + 119 := by
  rcases lt_or_ge n 5 with hn | hn
  · interval_cases n <;> decide
  · obtain ⟨m, rfl⟩ := Nat.exists_eq_add_of_le hn
    have hfirst : Backoff.waited maxBackoff 5 = 31 := by decide
    rw [Backoff.waited_add (by decide), hfirst, maxBackoff]
    omega

/-- A loop at the start of the process. -/
def pacedStart (sys : Session key σ) (t : Time) : PacedWatch key σ := ⟨sys, Backoff.start t⟩

/-- The pace of a loop: its session is one that lists and watches; it asks the API server at most
once in 30 seconds, but for the first few times after its last list; it fails at most once in a
second; and it sleeps with nothing open, for at most 30 seconds. -/
structure KeepsPace (F : Follower key σ ω ν) (sys : Session key σ) (w : PacedWatch key σ) :
    Prop where
  session : ∃ as, w.session = runFrom F.step sys as
  attempts : 30 * (w.loop.attempts : Time) ≤ w.loop.now - w.loop.since + 149
  failures : (w.loop.total : Time) ≤ w.loop.now - w.loop.started + 1
  asleep : ∀ wakes, w.loop.phase = .asleep wakes →
    w.session.phase = .idle ∧ wakes ≤ w.loop.lastFailure + 30

variable (F) in
theorem keepsPace_run {sys : Session key σ} (hsys : sys.phase = .idle) (t : Time)
    {acts : List (Time × WatchAct κ ρ ω)}
    (h : AlongRun (watchStep F) OnTime (pacedStart sys t) acts) :
    KeepsPace F sys (runFrom (watchStep F) (pacedStart sys t) acts) := by
  have hstart : Backoff.Paced maxBackoff (pacedStart sys t).loop :=
    Backoff.paced_start (by decide) t
  have hpaced := @runFrom_invariant_of_along _ _ (watchStep F)
    (fun w => Backoff.Paced maxBackoff w.loop) OnTime (fun _ _ hw hact => paced_watchStep hw hact)
    _ hstart _ h
  have hopen : IdleAsleep (pacedStart sys t) := fun _ _ => hsys
  have hidle : IdleAsleep (runFrom (watchStep F) (pacedStart sys t) acts) :=
    @runFrom_invariant _ _ _ IdleAsleep (fun _ act hw => idleAsleep_step hw act) _ hopen acts
  generalize hw : runFrom (watchStep F) (pacedStart sys t) acts = w at hpaced hidle ⊢
  have hwaited : (Backoff.waited maxBackoff w.loop.failures : Time) ≤
      w.loop.now - w.loop.since + 30 := hpaced.waited_le
  have hthirty : 30 * (w.loop.failures : Time) ≤
      Backoff.waited maxBackoff w.loop.failures + 119 := by
    exact_mod_cast thirty_mul_le w.loop.failures
  constructor
  case session => exact ⟨_, hw ▸ session_run (pacedStart sys t) acts⟩
  case attempts =>
    cases hphase : w.loop.phase with
    | working =>
      have hworking := (hpaced.working hphase).1
      rw [Backoff.Loop.attempts, hphase]
      push_cast
      linarith
    | asleep wakes =>
      rw [Backoff.Loop.attempts, hphase]
      dsimp only
      linarith
  case failures => exact hpaced.total_le
  case asleep =>
    intro wakes hwakes
    exact ⟨hidle wakes hwakes, (hpaced.asleep wakes hwakes).2.1⟩

end Machine

/-- Every run of all twelve loops, the eleven of the stored kinds and the one of the events. -/
theorem watch_paced (t : Time) (hist : Dict String (Ring historyLen Obj)) :
    (∀ (k : ObjectKind) (src : Source (watchKey k))
        (acts : List (Time × WatchAct String k.Raw {op : Op // op.kind ≠ some k})),
      AlongRun (watchStep (follower k)) OnTime (pacedStart (start k src t hist) t) acts →
      KeepsPace (follower k) (start k src t hist)
        (runFrom (watchStep (follower k)) (pacedStart (start k src t hist) t) acts)) ∧
    ∀ (src : Source CoreV1Event.uid)
        (acts : List (Time × WatchAct String CoreV1Event {op : Op // ¬ Events.StoresEvent op})),
      AlongRun (watchStep Events.follower) OnTime (pacedStart (Events.start src t hist) t) acts →
      KeepsPace Events.follower (Events.start src t hist)
        (runFrom (watchStep Events.follower) (pacedStart (Events.start src t hist) t) acts) :=
  ⟨fun k _ _ h => keepsPace_run (follower k) rfl t h,
    fun _ _ h => keepsPace_run Events.follower rfl t h⟩

section Outage

variable {κ ρ σ ω ν : Type*} [DecidableEq κ] {key : ρ → κ}

/-- The API server is away for half a minute after the first list. -/
private def outage : List (Time × WatchAct κ ρ ω) :=
  [(1, .list), (2, .seed), (5, .fails), (6, .wakes), (6, .fails), (8, .wakes), (8, .fails),
    (12, .wakes), (12, .fails)]

private abbrev afterOutage (F : Follower key σ ω ν) (sys : Session key σ) : PacedWatch key σ :=
  runFrom (watchStep F) (pacedStart sys 0) outage

private abbrev nodesStart := start .nodes ⟨∅, by simp⟩ 0 ∅

private abbrev eventsStart := Events.start ⟨∅, by simp⟩ 0 ∅

/-- The loop of the nodes and the one of the events go through it alike. -/
theorem watch_paced_outage :
    (KeepsPace (follower .nodes) nodesStart (afterOutage (follower .nodes) nodesStart) ∧
      (afterOutage (follower .nodes) nodesStart).loop.attempts = 4) ∧
    KeepsPace Events.follower eventsStart (afterOutage Events.follower eventsStart) ∧
      (afterOutage Events.follower eventsStart).loop.attempts = 4 := by
  obtain ⟨hobjects, hevents⟩ := watch_paced 0 ∅
  refine ⟨⟨hobjects .nodes _ _ ?_, by decide +kernel⟩, hevents _ _ ?_, by decide +kernel⟩
  all_goals
    simp only [outage, AlongRun, OnTime, watchStep, Backoff.now_step]
    norm_num [pacedStart, Backoff.start]

end Outage

end K8sWatch

end PiWatch
