import PiWatch.Framework.Run

/-!
# Replicas fed by messages

A machine emits messages at every step, and a replica starts from a copy of its state and
applies them in order. Applying a message may fail, which ends the replica. The rules
reduce what a replica does over a run to what it does over one step.
-/

namespace PiWatch

variable {σ α μ β : Type*}

/-- Everything a run emits, in order. -/
def outputs (step : σ → α → σ) (out : σ → α → List μ) : σ → List α → List μ
  | _, [] => []
  | s, a :: as => out s a ++ outputs step out (step s a) as

/-- The replica after the messages; `none` once one of them failed. -/
def receive (apply : β → μ → Option β) (b : β) (ms : List μ) : Option β := ms.foldlM apply b

section

variable {step : σ → α → σ} {out : σ → α → List μ} {apply : β → μ → Option β}

theorem outputs_append (s : σ) (as bs : List α) :
    outputs step out s (as ++ bs) =
      outputs step out s as ++ outputs step out (runFrom step s as) bs := by
  induction as generalizing s with
  | nil => rfl
  | cons a as ih =>
    rw [List.cons_append, outputs, ih, outputs, List.append_assoc, runFrom_cons]

@[simp] theorem receive_nil (b : β) : receive apply b [] = some b := rfl

@[simp] theorem receive_singleton (b : β) (m : μ) : receive apply b [m] = apply b m := by
  simp [receive]

theorem receive_append (b : β) (ms ns : List μ) :
    receive apply b (ms ++ ns) = (receive apply b ms).bind fun b' => receive apply b' ns := by
  simp [receive, List.foldlM_append, bind]

variable {Inv : β → σ → Prop} {Q : σ → α → Prop} {W : α → Prop}

/-- Steps meeting `Q` keep the replica in `Inv` and the others end it: over a run, the
replica either follows to the end or has failed. -/
theorem receive_outputs_cases
    (hgood : ∀ b s a, Inv b s → W a → Q s a →
      ∃ b', receive apply b (out s a) = some b' ∧ Inv b' (step s a))
    (hbad : ∀ b s a, Inv b s → W a → ¬ Q s a → receive apply b (out s a) = none)
    {b : β} {s : σ} (h : Inv b s) {as : List α} (hW : ∀ a ∈ as, W a) :
    (AlongRun step Q s as ∧
      ∃ b', receive apply b (outputs step out s as) = some b' ∧ Inv b' (runFrom step s as)) ∨
    (¬ AlongRun step Q s as ∧ receive apply b (outputs step out s as) = none) := by
  induction as generalizing b s with
  | nil => exact .inl ⟨trivial, b, rfl, h⟩
  | cons a as ih =>
    have ha : W a := hW a (by simp)
    rw [outputs, receive_append, alongRun_cons, runFrom_cons]
    by_cases hq : Q s a
    · obtain ⟨b', hrun, hinv⟩ := hgood b s a h ha hq
      rw [hrun, Option.bind_some]
      rcases ih hinv fun x hx => hW x (by simp [hx]) with ⟨hrest, hb⟩ | ⟨hrest, hb⟩
      · exact .inl ⟨⟨hq, hrest⟩, hb⟩
      · exact .inr ⟨fun hc => hrest hc.2, hb⟩
    · rw [hbad b s a h ha hq, Option.bind_none]
      exact .inr ⟨fun hc => hq hc.1, rfl⟩

/-- The replica agrees with the machine at every moment of a run exactly when every step
meets the condition, if the condition is what one step needs to keep them in agreement. -/
theorem receive_agrees_iff {Agrees : β → σ → Prop}
    (hagree : ∀ b s, Inv b s → Agrees b s)
    (hgood : ∀ b s a, Inv b s → W a → Q s a →
      ∃ b', receive apply b (out s a) = some b' ∧ Inv b' (step s a))
    (hbad : ∀ b s a, Inv b s → W a → ¬ Q s a →
      ∀ b', receive apply b (out s a) = some b' → ¬ Agrees b' (step s a))
    {b : β} {s : σ} (h : Inv b s) {as : List α} (hW : ∀ a ∈ as, W a) :
    (∀ done, done <+: as → ∃ b', receive apply b (outputs step out s done) = some b' ∧
      Agrees b' (runFrom step s done)) ↔ AlongRun step Q s as := by
  induction as generalizing b s with
  | nil =>
    refine iff_of_true (fun done hdone => ?_) trivial
    rw [List.prefix_nil.mp hdone]
    exact ⟨b, rfl, hagree b s h⟩
  | cons a as ih =>
    have ha : W a := hW a (by simp)
    have hrest : ∀ x ∈ as, W x := fun x hx => hW x (by simp [hx])
    rw [alongRun_cons]
    by_cases hq : Q s a
    · obtain ⟨b', hrun, hinv⟩ := hgood b s a h ha hq
      have hcons : ∀ done, receive apply b (outputs step out s (a :: done)) =
          receive apply b' (outputs step out (step s a) done) := fun done => by
        rw [outputs, receive_append, hrun, Option.bind_some]
      rw [and_iff_right hq, ← ih hinv hrest]
      constructor
      · intro hall done hdone
        have := hall (a :: done) (List.cons_prefix_cons.mpr ⟨rfl, hdone⟩)
        rwa [hcons] at this
      · intro hall done hdone
        cases done with
        | nil => exact ⟨b, rfl, hagree b s h⟩
        | cons x done =>
          obtain ⟨rfl, htail⟩ := List.cons_prefix_cons.mp hdone
          rw [hcons]
          exact hall done htail
    · refine iff_of_false (fun hall => ?_) fun hc => hq hc.1
      obtain ⟨b', hrun, hag⟩ := hall [a] (by simp)
      rw [outputs, outputs, List.append_nil] at hrun
      exact hbad b s a h ha hq b' hrun hag

end

end PiWatch
