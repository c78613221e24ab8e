import PiWatch.Framework.Dict

/-!
# Task pools

A pool keeps one task for every key of a changing set: tasks of keys no longer wanted are
cancelled, missing ones are spawned. A cancelled task stays known but never runs again.
-/

namespace PiWatch

variable {κ φ ω : Type*}

/-- `phase` is where the task stands in its body. -/
structure Task (κ φ : Type*) where
  key : κ
  phase : φ
  cancelled : Bool
  deriving DecidableEq

/-- The current task of a key is the only one of that key that is not cancelled. -/
structure TaskPool (κ φ : Type*) [DecidableEq κ] where
  current : Dict κ ℕ
  all : Dict ℕ (Task κ φ)
  next : ℕ
  owned : ∀ k id, current.get? k = some id ↔
    ∃ task, all.get? id = some task ∧ task.key = k ∧ task.cancelled = false
  fresh : ∀ id ∈ all, id < next

namespace TaskPool

variable [DecidableEq κ]

def empty : TaskPool κ φ := ⟨∅, ∅, 0, by simp, by simp⟩

instance : EmptyCollection (TaskPool κ φ) := ⟨empty⟩

/-- The key and phase of a task that is not cancelled. -/
def running? (p : TaskPool κ φ) (id : ℕ) : Option (κ × φ) :=
  match p.all.get? id with
  | some ⟨k, ph, false⟩ => some (k, ph)
  | _ => none

@[simp] theorem current_empty : (∅ : TaskPool κ φ).current = ∅ := rfl

@[simp] theorem running?_empty (id : ℕ) : (∅ : TaskPool κ φ).running? id = none := rfl

theorem running?_eq_some {p : TaskPool κ φ} {id : ℕ} {k : κ} {ph : φ} :
    p.running? id = some (k, ph) ↔ p.all.get? id = some ⟨k, ph, false⟩ := by
  unfold running?
  split
  · rename_i hall
    simp [hall]
  · rename_i hall
    simpa using hall k ph

theorem current_eq_some {p : TaskPool κ φ} {k : κ} {id : ℕ} :
    p.current.get? k = some id ↔ ∃ ph, p.running? id = some (k, ph) := by
  rw [p.owned]
  constructor
  · intro htask
    obtain ⟨⟨k', ph, c⟩, hall, rfl, rfl⟩ := htask
    exact ⟨ph, running?_eq_some.mpr hall⟩
  · intro hphase
    obtain ⟨ph, hrun⟩ := hphase
    exact ⟨_, running?_eq_some.mp hrun, rfl, rfl⟩

theorem mem_current {p : TaskPool κ φ} {k : κ} :
    k ∈ p.current ↔ ∃ id ph, p.running? id = some (k, ph) := by
  rw [Dict.mem_def, Option.isSome_iff_exists]
  exact exists_congr fun _ => current_eq_some

/-- No two tasks of one key run. -/
theorem running?_unique {p : TaskPool κ φ} {k : κ} {id id' : ℕ} {ph ph' : φ}
    (h : p.running? id = some (k, ph)) (h' : p.running? id' = some (k, ph')) : id = id' :=
  Option.some.inj ((current_eq_some.mpr ⟨ph, h⟩).symm.trans (current_eq_some.mpr ⟨ph', h'⟩))

/-! ## Operations -/

/-- `tasks.pop(k).cancel()`. -/
def cancel (p : TaskPool κ φ) (k : κ) : TaskPool κ φ :=
  match hk : p.current.get? k with
  | none => p
  | some id =>
    { current := p.current.erase k
      all := p.all.modify id fun task => { task with cancelled := true }
      next := p.next
      owned := by
        obtain ⟨task, hall, htask, -⟩ := (p.owned k id).mp hk
        intro k' id'
        rw [Dict.get?_erase, Dict.get?_modify]
        by_cases hid : id' = id
        · -- the cancelled task was the one of `k`, so no other key loses its own
          subst id'
          rw [if_pos rfl, hall]
          constructor
          · split
            · simp
            · rename_i hne
              intro hcur
              obtain ⟨task', hall', htask', -⟩ := (p.owned k' id).mp hcur
              rw [hall] at hall'
              cases hall'
              exact absurd (htask'.symm.trans htask) hne
          · simp
        · rw [if_neg hid, ← p.owned]
          split
          · rename_i heq
            subst heq
            simp [hk, Ne.symm hid]
          · rfl
      fresh := by
        intro id' hid'
        rw [Dict.mem_def, Dict.get?_modify] at hid'
        split at hid'
        · rename_i heq
          rw [Option.isSome_map] at hid'
          exact heq ▸ p.fresh id hid'
        · exact p.fresh id' hid' }

/-- `tasks[k] = create_task(...)` unless there is one. -/
def ensure (start : φ) (p : TaskPool κ φ) (k : κ) : TaskPool κ φ :=
  if hk : k ∈ p.current then p
  else
    { current := p.current.insert k p.next
      all := p.all.insert p.next ⟨k, start, false⟩
      next := p.next + 1
      owned := by
        intro k' id
        rw [Dict.get?_insert, Dict.get?_insert]
        by_cases hid : id = p.next
        · -- the new task: its number is fresh, so no key had it
          subst hid
          have hnone : ∀ k, p.current.get? k ≠ some p.next := by
            intro k hcur
            obtain ⟨task, hall, -⟩ := (p.owned k _).mp hcur
            exact absurd (p.fresh _ (Dict.mem_def.mpr (by simp [hall]))) (Nat.lt_irrefl _)
          by_cases hk' : k' = k
          · simp [hk']
          · simp [hk', Ne.symm hk', hnone]
        · rw [if_neg hid, ← p.owned]
          by_cases hk' : k' = k
          · subst hk'
            simp [Ne.symm hid, Dict.get?_eq_none_iff.mpr hk]
          · rw [if_neg hk']
      fresh := by
        intro id hid
        rcases Dict.mem_insert.mp hid with rfl | hold
        · exact Nat.lt_succ_self _
        · exact Nat.lt_succ_of_lt (p.fresh id hold) }

/-- A task moves on to another point of its body. -/
def setPhase (p : TaskPool κ φ) (id : ℕ) (ph : φ) : TaskPool κ φ where
  current := p.current
  all := p.all.modify id fun task => { task with phase := ph }
  next := p.next
  owned := by
    intro k id'
    rw [p.owned, Dict.get?_modify]
    by_cases hid : id' = id
    · subst id'
      simp
    · rw [if_neg hid]
  fresh := by
    intro id' hid'
    rw [Dict.mem_def, Dict.get?_modify] at hid'
    split at hid'
    · rename_i heq
      rw [Option.isSome_map] at hid'
      exact heq ▸ p.fresh id hid'
    · exact p.fresh id' hid'

theorem running?_cancel {p : TaskPool κ φ} {k k' : κ} {id : ℕ} {ph : φ} :
    (p.cancel k).running? id = some (k', ph) ↔ k' ≠ k ∧ p.running? id = some (k', ph) := by
  unfold cancel
  split
  · rename_i hk
    rw [iff_and_self]
    intro hrun heq
    subst heq
    exact Dict.get?_eq_none_iff.mp hk (mem_current.mpr ⟨id, ph, hrun⟩)
  · rename_i id₀ hk
    obtain ⟨ph₀, hrun₀⟩ := current_eq_some.mp hk
    rw [running?_eq_some, running?_eq_some, Dict.get?_modify]
    by_cases hid : id = id₀
    · subst hid
      rw [if_pos rfl, running?_eq_some.mp hrun₀]
      constructor
      · simp
      · intro hother
        obtain ⟨hne, hall⟩ := hother
        cases hall
        exact absurd rfl hne
    · rw [if_neg hid, iff_and_self]
      intro hall heq
      subst heq
      exact hid (running?_unique (running?_eq_some.mpr hall) hrun₀)

theorem running?_ensure {start : φ} {p : TaskPool κ φ} {k k' : κ} {id : ℕ} {ph : φ} :
    (p.ensure start k).running? id = some (k', ph) ↔
      p.running? id = some (k', ph) ∨
        (k ∉ p.current ∧ id = p.next ∧ k' = k ∧ ph = start) := by
  unfold ensure
  split
  · rename_i hk
    simp [hk]
  · rename_i hk
    rw [running?_eq_some, running?_eq_some, Dict.get?_insert]
    by_cases hid : id = p.next
    · subst hid
      have hnone : p.all.get? p.next = none :=
        Dict.get?_eq_none_iff.mpr fun h => Nat.lt_irrefl _ (p.fresh _ h)
      simp [hnone, hk, eq_comm]
    · simp [hid]

theorem running?_setPhase {p : TaskPool κ φ} {id id' : ℕ} {k : κ} {ph ph' : φ} :
    (p.setPhase id ph).running? id' = some (k, ph') ↔
      if id' = id then (∃ old, p.running? id = some (k, old)) ∧ ph' = ph
      else p.running? id' = some (k, ph') := by
  rw [running?_eq_some, running?_eq_some, setPhase, Dict.get?_modify]
  by_cases hid : id' = id
  · simp only [hid, if_true, running?_eq_some, Option.map_eq_some_iff]
    constructor
    · intro htask
      obtain ⟨⟨k₀, ph₀, c⟩, hall, heq⟩ := htask
      cases heq
      exact ⟨⟨ph₀, hall⟩, rfl⟩
    · intro hold
      obtain ⟨⟨old, hall⟩, rfl⟩ := hold
      exact ⟨_, hall, rfl⟩
  · rw [if_neg hid, if_neg hid]

/-! ## Keeping step with a set of keys -/

def cancelUnless (wanted : Dict κ ω) (p : TaskPool κ φ) (k : κ) : TaskPool κ φ :=
  if k ∈ wanted then p else p.cancel k

/-- Cancel the tasks of unwanted keys, then spawn the missing ones. -/
def sync (wanted : Dict κ ω) (start : φ) (p : TaskPool κ φ) : TaskPool κ φ :=
  wanted.keys.foldl (ensure start) (p.current.keys.foldl (cancelUnless wanted) p)

theorem running?_cancelUnless {wanted : Dict κ ω} {p : TaskPool κ φ} {k k' : κ} {id : ℕ}
    {ph : φ} :
    (p.cancelUnless wanted k).running? id = some (k', ph) ↔
      p.running? id = some (k', ph) ∧ (k' = k → k' ∈ wanted) := by
  unfold cancelUnless
  split
  · rename_i hk
    rw [iff_self_and]
    intro _ heq
    subst heq
    exact hk
  · rename_i hk
    rw [running?_cancel, and_comm]
    refine and_congr_right fun _ => ⟨fun hne heq => absurd heq hne, ?_⟩
    intro hwanted heq
    subst heq
    exact hk (hwanted rfl)

theorem running?_foldl_cancelUnless {wanted : Dict κ ω} {ks : List κ} {p : TaskPool κ φ}
    {k : κ} {id : ℕ} {ph : φ} :
    (ks.foldl (cancelUnless wanted) p).running? id = some (k, ph) ↔
      p.running? id = some (k, ph) ∧ (k ∈ ks → k ∈ wanted) := by
  induction ks generalizing p with
  | nil => simp
  | cons k' ks ih =>
    rw [List.foldl_cons, ih, running?_cancelUnless, and_assoc, List.mem_cons, or_imp]

/-- The tasks that survive are those of wanted keys. -/
theorem running?_cancelled {wanted : Dict κ ω} {p : TaskPool κ φ} {k : κ} {id : ℕ} {ph : φ} :
    (p.current.keys.foldl (cancelUnless wanted) p).running? id = some (k, ph) ↔
      p.running? id = some (k, ph) ∧ k ∈ wanted := by
  rw [running?_foldl_cancelUnless]
  refine and_congr_right fun hrun => ⟨fun h => h ?_, fun h _ => h⟩
  exact Dict.mem_iff_mem_keys.mp (mem_current.mpr ⟨id, ph, hrun⟩)

theorem mem_current_ensure {start : φ} {p : TaskPool κ φ} {k k' : κ} :
    k' ∈ (p.ensure start k).current ↔ k' = k ∨ k' ∈ p.current := by
  unfold ensure
  split
  · rename_i hk
    rw [iff_or_self]
    intro heq
    subst heq
    exact hk
  · exact Dict.mem_insert

theorem mem_current_foldl_ensure {start : φ} {ks : List κ} {p : TaskPool κ φ} {k : κ} :
    k ∈ (ks.foldl (ensure start) p).current ↔ k ∈ ks ∨ k ∈ p.current := by
  induction ks generalizing p with
  | nil => simp
  | cons k' ks ih =>
    rw [List.foldl_cons, ih, mem_current_ensure, List.mem_cons]
    tauto

theorem running?_foldl_ensure {start : φ} {ks : List κ} {p : TaskPool κ φ} {k : κ} {id : ℕ}
    {ph : φ} (h : (ks.foldl (ensure start) p).running? id = some (k, ph)) :
    p.running? id = some (k, ph) ∨ ph = start := by
  induction ks generalizing p with
  | nil => exact Or.inl h
  | cons k' ks ih =>
    rcases ih h with hrun | hstart
    · rcases running?_ensure.mp hrun with hold | ⟨-, -, -, hnew⟩
      · exact Or.inl hold
      · exact Or.inr hnew
    · exact Or.inr hstart

/-- Exactly the wanted keys have a running task. -/
theorem mem_current_sync {wanted : Dict κ ω} {start : φ} {p : TaskPool κ φ} {k : κ} :
    k ∈ (p.sync wanted start).current ↔ k ∈ wanted := by
  rw [sync, mem_current_foldl_ensure, ← Dict.mem_iff_mem_keys, or_iff_left_iff_imp,
    mem_current]
  intro hcancelled
  obtain ⟨id, ph, hrun⟩ := hcancelled
  exact (running?_cancelled.mp hrun).2

/-- A task that runs was running before or stands at its start. -/
theorem running?_sync {wanted : Dict κ ω} {start : φ} {p : TaskPool κ φ} {k : κ} {id : ℕ}
    {ph : φ} (h : (p.sync wanted start).running? id = some (k, ph)) :
    p.running? id = some (k, ph) ∨ ph = start :=
  (running?_foldl_ensure h).imp_left fun hrun => (running?_cancelled.mp hrun).1

end TaskPool

end PiWatch
