import Mathlib.Algebra.BigOperators.Group.Finset.Basic
import Mathlib.Algebra.Order.Ring.Cast
import Mathlib.Tactic.Linarith
import PiWatch.Framework.Run

/-!
# Retrying with growing waits

A loop works until it fails, sleeps, and works again. The wait doubles with every failure in a row
up to a cap, and starts over after a success. The times come from a clock that never goes back.
-/

namespace PiWatch

namespace Backoff

/-- The wait after `n` failures in a row. -/
def wait (cap n : ℕ) : ℕ := min (2 ^ n) cap

theorem wait_zero {cap : ℕ} (h : 0 < cap) : wait cap 0 = 1 := by
  rw [wait, pow_zero]
  omega

theorem wait_succ (cap n : ℕ) : wait cap (n + 1) = min (wait cap n * 2) cap := by
  rw [wait, wait, pow_succ]
  omega

theorem wait_le (cap n : ℕ) : wait cap n ≤ cap := min_le_right _ _

theorem wait_pos {cap : ℕ} (h : 0 < cap) (n : ℕ) : 0 < wait cap n := by
  have hpow : 0 < 2 ^ n := Nat.two_pow_pos n
  rw [wait]
  omega

/-- The time slept in `n` failures in a row. -/
def waited (cap n : ℕ) : ℕ := ∑ i ∈ Finset.range n, wait cap i

theorem waited_succ (cap n : ℕ) : waited cap (n + 1) = waited cap n + wait cap n :=
  Finset.sum_range_succ _ _

/-- Once the waits have reached the cap, every failure takes that long. -/
theorem waited_add {cap k : ℕ} (h : cap ≤ 2 ^ k) (n : ℕ) :
    waited cap (k + n) = waited cap k + n * cap := by
  induction n with
  | zero => simp
  | succ n ih =>
    have hwait : wait cap (k + n) = cap := by
      apply min_eq_right
      exact h.trans (Nat.pow_le_pow_right two_pos (Nat.le_add_right k n))
    rw [← Nat.add_assoc, waited_succ, ih, hwait, Nat.succ_mul, Nat.add_assoc]

inductive Phase (T : Type*)
  | working
  | asleep (wakes : T)

/-- The loop, with what happened so far: when it started, when it succeeded last or else started,
how often it failed since then, when it failed last and how often in all. -/
structure Loop (T : Type*) where
  phase : Phase T
  backoff : ℕ
  now : T
  started : T
  since : T
  failures : ℕ
  lastFailure : T
  total : ℕ

inductive Act
  | succeeds
  | fails
  | wakes
  | other

variable {T : Type*} [CommRing T] [LinearOrder T]

def start (t : T) : Loop T := ⟨.working, 1, t, t, t, 0, t, 0⟩

/-- One thing that happens, at the time it is given with. -/
def step (cap : ℕ) (loop : Loop T) : T × Act → Loop T
  | (now, .succeeds) =>
    match loop.phase with
    | .working => { loop with backoff := 1, now, since := now, failures := 0 }
    | .asleep _ => { loop with now }
  | (now, .fails) =>
    match loop.phase with
    | .working =>
      { loop with
        phase := .asleep (now + loop.backoff)
        backoff := min (loop.backoff * 2) cap
        now
        failures := loop.failures + 1
        lastFailure := now
        total := loop.total + 1 }
    | .asleep _ => { loop with now }
  | (now, .wakes) =>
    match loop.phase with
    | .working => { loop with now }
    | .asleep wakes =>
      if wakes ≤ now then { loop with phase := .working, now } else { loop with now }
  | (now, .other) => { loop with now }

theorem now_step (cap : ℕ) (loop : Loop T) (act : T × Act) : (step cap loop act).now = act.1 := by
  obtain ⟨now, act⟩ := act
  cases act with
  | wakes =>
    simp only [step]
    split
    · rfl
    · split_ifs <;> rfl
  | other => rfl
  | _ =>
    simp only [step]
    split <;> rfl

/-- The clock does not go back. -/
def OnTime (loop : Loop T) (act : T × Act) : Prop := loop.now ≤ act.1

/-- How often the loop has begun to work since its last success or its start. -/
def Loop.attempts (loop : Loop T) : ℕ :=
  match loop.phase with
  | .working => loop.failures + 1
  | .asleep _ => loop.failures

/-- The time a loop works from, or wakes up at, leaves room for all waits before it. -/
structure Paced (cap : ℕ) (loop : Loop T) : Prop where
  backoff : loop.backoff = wait cap loop.failures
  working : loop.phase = .working →
    loop.since + waited cap loop.failures ≤ loop.now ∧ loop.started + loop.total ≤ loop.now
  asleep : ∀ wakes, loop.phase = .asleep wakes →
    loop.since + waited cap loop.failures ≤ wakes ∧ wakes ≤ loop.lastFailure + cap ∧
      loop.lastFailure ≤ loop.now ∧ loop.started + loop.total ≤ loop.lastFailure + 1 ∧
      loop.lastFailure + 1 ≤ wakes

theorem paced_start {cap : ℕ} (h : 0 < cap) (t : T) : Paced cap (start t) where
  backoff := (wait_zero h).symm
  working := by
    intro _
    simp [start, waited]
  asleep := by
    intro wakes hphase
    cases hphase

/-- Time that passes keeps the pace. -/
theorem Paced.later {cap : ℕ} {loop : Loop T} (h : Paced cap loop) {now : T}
    (hnow : loop.now ≤ now) : Paced cap { loop with now } where
  backoff := h.backoff
  working hphase := by
    obtain ⟨hwaited, htotal⟩ := h.working hphase
    exact ⟨hwaited.trans hnow, htotal.trans hnow⟩
  asleep wakes hphase := by
    obtain ⟨hwaited, hwakes, hlast, htotal, hwait⟩ := h.asleep wakes hphase
    exact ⟨hwaited, hwakes, hlast.trans hnow, htotal, hwait⟩

theorem Paced.succeed {cap : ℕ} (hcap : 0 < cap) {loop : Loop T} (h : Paced cap loop)
    (hphase : loop.phase = .working) {now : T} (hnow : loop.now ≤ now) :
    Paced cap { loop with backoff := 1, now, since := now, failures := 0 } where
  backoff := (wait_zero hcap).symm
  working _ := by
    refine ⟨?_, (h.working hphase).2.trans hnow⟩
    simp [waited]
  asleep wakes hwakes := by
    cases hphase.symm.trans hwakes

theorem Paced.wake {cap : ℕ} {loop : Loop T} (h : Paced cap loop) {wakes now : T}
    (hphase : loop.phase = .asleep wakes) (hnow : wakes ≤ now) :
    Paced cap { loop with phase := .working, now } where
  backoff := h.backoff
  working _ := by
    obtain ⟨hwaited, -, -, htotal, hwait⟩ := h.asleep wakes hphase
    exact ⟨hwaited.trans hnow, (htotal.trans hwait).trans hnow⟩
  asleep wakes' hwakes := by cases hwakes

variable [IsStrictOrderedRing T]

theorem Paced.fail {cap : ℕ} (hcap : 0 < cap) {loop : Loop T} (h : Paced cap loop)
    (hphase : loop.phase = .working) {now : T} (hnow : loop.now ≤ now) :
    Paced cap { loop with
      phase := .asleep (now + loop.backoff)
      backoff := min (loop.backoff * 2) cap
      now
      failures := loop.failures + 1
      lastFailure := now
      total := loop.total + 1 } where
  backoff := by rw [h.backoff, wait_succ]
  working hworking := by cases hworking
  asleep wakes hwakes := by
    obtain rfl := Phase.asleep.inj hwakes
    obtain ⟨hwaited, htotal⟩ := h.working hphase
    have hle : (loop.backoff : T) ≤ cap := by
      rw [h.backoff]
      exact_mod_cast wait_le cap loop.failures
    have hge : (1 : T) ≤ loop.backoff := by
      rw [h.backoff]
      exact_mod_cast wait_pos hcap loop.failures
    refine ⟨?_, add_le_add_right hle now, le_rfl, ?_, add_le_add_right hge now⟩
    · rw [waited_succ, ← h.backoff, Nat.cast_add]
      linarith
    · push_cast
      linarith

theorem paced_step {cap : ℕ} (hcap : 0 < cap) {loop : Loop T} (h : Paced cap loop)
    {act : T × Act} (hact : OnTime loop act) : Paced cap (step cap loop act) := by
  obtain ⟨now, act⟩ := act
  cases act with
  | succeeds =>
    simp only [step]
    split
    · rename_i hphase
      exact h.succeed hcap hphase hact
    · exact h.later hact
  | fails =>
    simp only [step]
    split
    · rename_i hphase
      exact h.fail hcap hphase hact
    · exact h.later hact
  | wakes =>
    simp only [step]
    split
    · exact h.later hact
    · rename_i wakes hphase
      split_ifs with hwakes
      · exact h.wake hphase hwakes
      · exact h.later hact
  | other => exact h.later hact

/-- All that was waited since the last success fits into the time since then, but for the wait
that goes on. -/
theorem Paced.waited_le {cap : ℕ} {loop : Loop T} (h : Paced cap loop) :
    (waited cap loop.failures : T) ≤ loop.now - loop.since + cap := by
  cases hphase : loop.phase with
  | working =>
    obtain ⟨hwaited, -⟩ := h.working hphase
    have hcap : (0 : T) ≤ cap := Nat.cast_nonneg cap
    linarith
  | asleep wakes =>
    obtain ⟨hwaited, hwakes, hlast, -⟩ := h.asleep wakes hphase
    linarith

/-- A loop fails at most once in a time unit. -/
theorem Paced.total_le {cap : ℕ} {loop : Loop T} (h : Paced cap loop) :
    (loop.total : T) ≤ loop.now - loop.started + 1 := by
  cases hphase : loop.phase with
  | working =>
    obtain ⟨-, htotal⟩ := h.working hphase
    linarith
  | asleep wakes =>
    obtain ⟨-, -, hlast, htotal, -⟩ := h.asleep wakes hphase
    linarith

end Backoff

end PiWatch
