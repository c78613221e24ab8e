import Mathlib.Data.List.Basic

/-!
# Runs of a deterministic machine

A machine is a step function and a run is the list of actions fed to it. Properties
of runs are stated at every step of the run; the rules below reduce them to one step.
-/

namespace PiWatch

variable {σ α : Type*}

/-- The state after a run. -/
def runFrom (step : σ → α → σ) (s : σ) (as : List α) : σ := as.foldl step s

@[simp] theorem runFrom_nil (step : σ → α → σ) (s : σ) : runFrom step s [] = s := rfl

@[simp] theorem runFrom_cons (step : σ → α → σ) (s : σ) (a : α) (as : List α) :
    runFrom step s (a :: as) = runFrom step (step s a) as := rfl

theorem runFrom_append (step : σ → α → σ) (s : σ) (as bs : List α) :
    runFrom step s (as ++ bs) = runFrom step (runFrom step s as) bs :=
  List.foldl_append

/-- A part of the state that moves with the actions of its own only: what it goes through in a run
is a run of its own. -/
theorem runFrom_part {τ β : Type*} {step : σ → α → σ} {part : σ → τ} {own : α → Option β}
    {stepPart : τ → β → τ}
    (hstep : ∀ s a, part (step s a) = (own a).elim (part s) (stepPart (part s))) (s : σ)
    (as : List α) :
    part (runFrom step s as) = runFrom stepPart (part s) (as.filterMap own) := by
  induction as generalizing s with
  | nil => rfl
  | cons a as ih =>
    rw [runFrom_cons, ih, hstep]
    cases hown : own a with
    | none =>
      rw [List.filterMap_cons_none hown]
      rfl
    | some b =>
      rw [List.filterMap_cons_some hown]
      rfl

/-- A state that may be missing goes through the run where it is there. -/
theorem runFrom_option_map (step : σ → α → σ) (o : Option σ) (as : List α) :
    runFrom (fun o a => o.map fun s => step s a) o as = o.map fun s => runFrom step s as := by
  induction as generalizing o with
  | nil => cases o <;> rfl
  | cons a as ih =>
    rw [runFrom_cons, ih, Option.map_map]
    rfl

/-- `P` holds at every step of the run, of the state before the step and its action. -/
def AlongRun (step : σ → α → σ) (P : σ → α → Prop) : σ → List α → Prop
  | _, [] => True
  | s, a :: as => P s a ∧ AlongRun step P (step s a) as

@[simp] theorem alongRun_nil (step : σ → α → σ) (P : σ → α → Prop) (s : σ) :
    AlongRun step P s [] := trivial

@[simp] theorem alongRun_cons (step : σ → α → σ) (P : σ → α → Prop) (s : σ) (a : α)
    (as : List α) :
    AlongRun step P s (a :: as) ↔ P s a ∧ AlongRun step P (step s a) as := Iff.rfl

theorem alongRun_append (step : σ → α → σ) (P : σ → α → Prop) (s : σ) (as bs : List α) :
    AlongRun step P s (as ++ bs) ↔
      AlongRun step P s as ∧ AlongRun step P (runFrom step s as) bs := by
  induction as generalizing s with
  | nil => simp
  | cons a as ih => rw [List.cons_append, alongRun_cons, ih, alongRun_cons, runFrom_cons, and_assoc]

/-- What every step keeps, every run keeps. -/
theorem runFrom_invariant {step : σ → α → σ} {Inv : σ → Prop}
    (hstep : ∀ s a, Inv s → Inv (step s a)) {s : σ} (hs : Inv s) (as : List α) :
    Inv (runFrom step s as) := by
  induction as generalizing s with
  | nil => exact hs
  | cons a as ih => exact ih (hstep s a hs)

/-- What a step keeps under the condition `Q`, a run meeting `Q` keeps. -/
theorem runFrom_invariant_of_along {step : σ → α → σ} {Inv : σ → Prop} {Q : σ → α → Prop}
    (hstep : ∀ s a, Inv s → Q s a → Inv (step s a)) {s : σ} (hs : Inv s) {as : List α}
    (hq : AlongRun step Q s as) : Inv (runFrom step s as) := by
  induction as generalizing s with
  | nil => exact hs
  | cons a as ih => exact ih (hstep s a hs hq.1) hq.2

/-- What actions meeting `W` keep, a run of such actions keeps. -/
theorem runFrom_invariant_of_forall {step : σ → α → σ} {Inv : σ → Prop} {W : α → Prop}
    (hstep : ∀ s a, Inv s → W a → Inv (step s a)) {s : σ} (hs : Inv s) {as : List α}
    (hW : ∀ a ∈ as, W a) : Inv (runFrom step s as) := by
  induction as generalizing s with
  | nil => exact hs
  | cons a as ih =>
    exact ih (hstep s a hs (hW a (by simp))) fun x hx => hW x (by simp [hx])

/-- What a step keeps under the condition `Q` gives `P` along every run meeting `Q`. -/
theorem AlongRun.of_invariant {step : σ → α → σ} {Inv : σ → Prop} {P Q : σ → α → Prop}
    (hstep : ∀ s a, Inv s → Q s a → Inv (step s a)) (hP : ∀ s a, Inv s → Q s a → P s a)
    {s : σ} (hs : Inv s) {as : List α} (hq : AlongRun step Q s as) : AlongRun step P s as := by
  induction as generalizing s with
  | nil => trivial
  | cons a as ih => exact ⟨hP s a hs hq.1, ih (hstep s a hs hq.1) hq.2⟩

/-- Two conditions that agree wherever an invariant holds, and whose truth keeps the
invariant, hold along the same runs. -/
theorem alongRun_congr {step : σ → α → σ} {Inv : σ → Prop} {P Q : σ → α → Prop}
    (hiff : ∀ s a, Inv s → (P s a ↔ Q s a))
    (hstep : ∀ s a, Inv s → Q s a → Inv (step s a)) {s : σ} (hs : Inv s) (as : List α) :
    AlongRun step P s as ↔ AlongRun step Q s as := by
  induction as generalizing s with
  | nil => simp
  | cons a as ih =>
    rw [alongRun_cons, alongRun_cons, hiff s a hs]
    constructor
    · intro hrun
      obtain ⟨hq, hrest⟩ := hrun
      exact ⟨hq, (ih (hstep s a hs hq)).mp hrest⟩
    · intro hrun
      obtain ⟨hq, hrest⟩ := hrun
      exact ⟨hq, (ih (hstep s a hs hq)).mpr hrest⟩

/-- If a step keeps the invariant exactly under the condition `Q`, then a run shows it at every
moment exactly when every step meets `Q`. -/
theorem invariant_prefixes_iff {step : σ → α → σ} {Inv : σ → Prop} {Q : σ → α → Prop}
    (hstep : ∀ s a, Inv s → (Inv (step s a) ↔ Q s a)) {s : σ} (hs : Inv s) (as : List α) :
    (∀ done, done <+: as → Inv (runFrom step s done)) ↔ AlongRun step Q s as := by
  induction as generalizing s with
  | nil =>
    refine iff_of_true (fun done hdone => ?_) trivial
    rw [List.prefix_nil.mp hdone]
    exact hs
  | cons a as ih =>
    rw [alongRun_cons, ← hstep s a hs]
    constructor
    · intro hall
      have hnext : Inv (step s a) := hall [a] (by simp)
      refine ⟨hnext, (ih hnext).mp fun done hdone => ?_⟩
      exact hall (a :: done) (List.cons_prefix_cons.mpr ⟨rfl, hdone⟩)
    · rintro ⟨hnext, hrest⟩ done hdone
      cases done with
      | nil => exact hs
      | cons b done =>
        obtain ⟨rfl, htail⟩ := List.cons_prefix_cons.mp hdone
        exact (ih hnext).mpr hrest done htail

/-- A condition on the actions alone. -/
theorem alongRun_iff_forall_mem {step : σ → α → σ} {P : σ → α → Prop} {Q : α → Prop} {s : σ}
    {as : List α} (h : ∀ a ∈ as, ∀ s, P s a ↔ Q a) :
    AlongRun step P s as ↔ ∀ a ∈ as, Q a := by
  induction as generalizing s with
  | nil => simp
  | cons a as ih =>
    rw [alongRun_cons, h a (by simp), List.forall_mem_cons,
      ih fun b hb => h b (by simp [hb])]

end PiWatch
