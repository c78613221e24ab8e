import PiWatch.Framework.GuardedLoop

/-!
# Exceptions and their handlers

A handler catches some exceptions of its body and leaves the others. Which ones a computation
raises follows from its parts.
-/

namespace PiWatch

variable {ι σ ε α β : Type*}

/-- `try: return body except caught: return default`. -/
def orElse (caught : ε → Bool) (default : α) (body : Except ε α) : Except ε α :=
  match body with
  | .ok a => .ok a
  | .error e => if caught e then .ok default else .error e

/-- Every exception of a computation is one of these. -/
def RaisesOnly (caught : ε → Bool) (x : Except ε α) : Prop := ∀ e, x = .error e → caught e

/-- A computation that ends with a result. -/
def Returns (x : Except ε α) : Prop := ∃ a, x = .ok a

section

variable {caught : ε → Bool}

@[simp] theorem raisesOnly_ok (a : α) : RaisesOnly caught (.ok a) := by
  intro e h
  cases h

@[simp] theorem raisesOnly_error {e : ε} :
    RaisesOnly caught (.error e : Except ε α) ↔ caught e := by
  constructor
  · intro h
    exact h e rfl
  · rintro h _ ⟨⟩
    exact h

@[simp] theorem returns_ok (a : α) : Returns (.ok a : Except ε α) := ⟨a, rfl⟩

@[simp] theorem not_returns_error {e : ε} : ¬ Returns (.error e : Except ε α) := by
  rintro ⟨a, h⟩
  cases h

/-- What a sequence raises is raised by its first part or by its second one. -/
theorem raisesOnly_bind_iff {α β : Type _} {x : Except ε α} {f : α → Except ε β} :
    RaisesOnly caught (x >>= f) ↔
      RaisesOnly caught x ∧ ∀ a, x = .ok a → RaisesOnly caught (f a) := by
  cases x <;> simp

theorem returns_bind_iff {α β : Type _} {x : Except ε α} {f : α → Except ε β} :
    Returns (x >>= f) ↔ ∃ a, x = .ok a ∧ Returns (f a) := by
  cases x <;> simp

theorem returns_bind_pure_iff {α β : Type _} {x : Except ε α} {f : α → β} :
    Returns (x >>= fun a => pure (f a)) ↔ Returns x := by
  cases x <;> simp [pure, Except.pure]

/-- A sequence returns if both parts do, where the second one does not depend on the first one's
result. -/
theorem returns_bind_iff_and {α β : Type _} {x : Except ε α} {f : α → Except ε β} {P : Prop}
    (hf : ∀ a, x = .ok a → (Returns (f a) ↔ P)) : Returns (x >>= f) ↔ Returns x ∧ P := by
  cases x with
  | ok a => simp [hf a rfl]
  | error e => simp

/-- A handler leaves exactly what it does not catch. -/
theorem returns_orElse_iff {default : α} {body : Except ε α} :
    Returns (orElse caught default body) ↔ RaisesOnly caught body := by
  cases body with
  | ok a => simp [orElse]
  | error e => cases h : caught e <;> simp [orElse, h]

theorem toOption_bind {α β : Type _} (x : Except ε α) (f : α → Except ε β) :
    (x >>= f).toOption = x.toOption.bind fun a => (f a).toOption := by
  cases x <;> rfl

theorem returns_map_iff {α β : Type _} {f : α → β} {x : Except ε α} :
    Returns (f <$> x) ↔ Returns x := by
  cases x <;> simp [Functor.map, Except.map]

theorem returns_iff_raisesOnly {x : Except ε α} : Returns x ↔ RaisesOnly (fun _ => false) x := by
  cases x <;> simp

/-- A handler that catches everything its body raises yields the default instead. -/
theorem orElse_of_raisesOnly {default : α} {body : Except ε α} (h : RaisesOnly caught body) :
    orElse caught default body = .ok (body.toOption.getD default) := by
  cases body with
  | ok a => rfl
  | error e => simp [orElse, h e rfl, Except.toOption]

theorem raisesOnly_map_iff {α β : Type _} {f : α → β} {x : Except ε α} :
    RaisesOnly caught (f <$> x) ↔ RaisesOnly caught x := by
  cases x <;> simp [Functor.map, Except.map]

end

/-! ## Loops up to the first result -/

/-- The first result of a loop. An item without one, or with an exception that is caught, is passed
over. -/
def firstResult (caught : ε → Bool) (step : ι → Except ε (Option σ)) :
    List ι → Except ε (Option σ)
  | [] => .ok none
  | item :: items =>
    match step item with
    | .ok (some made) => .ok (some made)
    | .ok none => firstResult caught step items
    | .error e => if caught e then firstResult caught step items else .error e

/-- The loop ends at an item: it has a result, or an exception that is not caught. -/
def endsLoop (caught : ε → Bool) : Except ε (Option σ) → Bool
  | .ok made => made.isSome
  | .error e => !caught e

/-- A loop has the outcome of the first item it ends at. -/
theorem firstResult_eq_find (caught : ε → Bool) (step : ι → Except ε (Option σ))
    (items : List ι) :
    firstResult caught step items =
      match items.find? fun item => endsLoop caught (step item) with
      | none => .ok none
      | some item => step item := by
  induction items with
  | nil => rfl
  | cons item items ih =>
    rw [firstResult, List.find?_cons, ih]
    cases hstep : step item with
    | error e => cases hcaught : caught e <;> simp [endsLoop, hcaught, hstep]
    | ok made => cases made <;> simp [endsLoop, hstep]

end PiWatch
