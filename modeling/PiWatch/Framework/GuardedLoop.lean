import Mathlib.Data.List.Basic

/-!
# Loops that an exception leaves

A loop runs over items, each of which yields a result, yields none, or raises. A raising item
ends the loop: the items after it are lost, the results before it are not.
-/

namespace PiWatch

variable {ι σ ε : Type*} (step : ι → Except ε (Option σ))

/-- The results of the loop, and what it raised, if anything. -/
def runItems : List ι → List σ × Option ε
  | [] => ([], none)
  | item :: items =>
    match step item with
    | .error e => ([], some e)
    | .ok made =>
      let rest := runItems items
      (made.toList ++ rest.1, rest.2)

/-- What an item yields on its own. -/
def alone (item : ι) : List σ := (runItems step [item]).1

variable {step}

theorem alone_of_error {item : ι} {e : ε} (h : step item = .error e) : alone step item = [] := by
  simp [alone, runItems, h]

theorem alone_of_ok {item : ι} {made : Option σ} (h : step item = .ok made) :
    alone step item = made.toList := by
  simp [alone, runItems, h]

/-- A nonempty list is split at its head or within its tail. -/
theorem forall_split_cons_iff {P : List ι → ι → List ι → Prop} {item : ι} {items : List ι} :
    (∀ pre item' post, item :: items = pre ++ item' :: post → P pre item' post) ↔
      P [] item items ∧ ∀ pre item' post, items = pre ++ item' :: post →
        P (item :: pre) item' post := by
  constructor
  · intro h
    exact ⟨h [] item items rfl, fun pre item' post heq =>
      h (item :: pre) item' post (by rw [heq, List.cons_append])⟩
  · intro h pre item' post heq
    rcases List.cons_eq_append_iff.mp heq with ⟨rfl, hhead⟩ | ⟨pre, rfl, htail⟩
    · obtain ⟨rfl, rfl⟩ := List.cons.inj hhead
      exact h.1
    · exact h.2 pre item' post htail

theorem exists_split_cons_iff {P : List ι → ι → List ι → Prop} {item : ι} {items : List ι} :
    (∃ pre item' post, item :: items = pre ++ item' :: post ∧ P pre item' post) ↔
      P [] item items ∨ ∃ pre item' post, items = pre ++ item' :: post ∧
        P (item :: pre) item' post := by
  rw [← not_iff_not]
  push Not
  exact forall_split_cons_iff

/-- Every item has the results it has alone exactly if none that yields one comes after a raising
one. -/
theorem runItems_eq_flatMap_iff (items : List ι) :
    (runItems step items).1 = items.flatMap (alone step) ↔
      ∀ pre item post, items = pre ++ item :: post → (∃ e, step item = .error e) →
        ∀ later ∈ post, alone step later = [] := by
  induction items with
  | nil => simp [runItems]
  | cons item items ih =>
    rw [runItems, List.flatMap_cons, forall_split_cons_iff]
    cases hstep : step item with
    | error e =>
      rw [alone_of_error hstep, List.nil_append, eq_comm, List.flatMap_eq_nil_iff]
      constructor
      · intro hlost
        -- an item within the tail is lost as well, so what comes after it yields nothing
        refine ⟨fun _ => hlost, fun pre item' post heq _ later hlater => hlost later ?_⟩
        rw [heq]
        simp [hlater]
      · intro hlost
        exact hlost.1 ⟨e, rfl⟩
    | ok made =>
      rw [alone_of_ok hstep]
      dsimp only
      rw [List.append_cancel_left_eq, ih]
      simp

/-- What the loop yields are the results of the items before a raising one. -/
theorem runItems_prefix (items : List ι) :
    (runItems step items).1 <+: items.flatMap (alone step) := by
  induction items with
  | nil => exact List.nil_prefix
  | cons item items ih =>
    rw [runItems, List.flatMap_cons]
    cases hstep : step item with
    | error e => exact List.nil_prefix
    | ok made =>
      rw [alone_of_ok hstep]
      exact (List.prefix_append_right_inj _).mpr ih

theorem exists_of_mem_runItems {items : List ι} {made : σ} (h : made ∈ (runItems step items).1) :
    ∃ item, step item = .ok (some made) := by
  induction items with
  | nil => cases h
  | cons item items ih =>
    rw [runItems] at h
    cases hstep : step item with
    | error e =>
      rw [hstep] at h
      cases h
    | ok made' =>
      rw [hstep] at h
      rcases List.mem_append.mp h with hhead | htail
      · rw [Option.mem_toList] at hhead
        exact ⟨item, by rw [hstep, hhead]⟩
      · exact ih htail

theorem runItems_eq_none_iff (items : List ι) :
    (runItems step items).2 = none ↔ ∀ item ∈ items, ¬ ∃ e, step item = .error e := by
  induction items with
  | nil => simp [runItems]
  | cons item items ih =>
    rw [runItems, List.forall_mem_cons, ← ih]
    cases step item <;> simp

theorem runItems_of_quiet {items : List ι} (h : ¬ ∃ item ∈ items, ∃ e, step item = .error e) :
    (runItems step items).1 = items.flatMap (alone step) := by
  rw [runItems_eq_flatMap_iff]
  intro pre item post heq hitem
  exact absurd ⟨item, by simp [heq], hitem⟩ h

/-- Two loops, the second of which runs unless the first one raised. -/
def runBoth {κ : Type*} (step : ι → Except ε (Option σ)) (items : List ι)
    (next : κ → Except ε (Option σ)) (later : List κ) : List σ :=
  match runItems step items with
  | (made, some _) => made
  | (made, none) => made ++ (runItems next later).1

section Both

variable {κ : Type*} {next : κ → Except ε (Option σ)} {items : List ι}

theorem runBoth_of_raises (h : ∃ item ∈ items, ∃ e, step item = .error e) (later : List κ) :
    runBoth step items next later = (runItems step items).1 := by
  have hraised : (runItems step items).2 ≠ none := by
    intro hnone
    obtain ⟨item, hitem, hraise⟩ := h
    exact (runItems_eq_none_iff items).mp hnone item hitem hraise
  obtain ⟨e, hraised⟩ := Option.ne_none_iff_exists'.mp hraised
  have hpair : runItems step items = ((runItems step items).1, some e) := Prod.ext rfl hraised
  rw [runBoth, hpair]

theorem runBoth_of_quiet (h : ¬ ∃ item ∈ items, ∃ e, step item = .error e) (later : List κ) :
    runBoth step items next later = items.flatMap (alone step) ++ (runItems next later).1 := by
  have hquiet : (runItems step items).2 = none := by
    rw [runItems_eq_none_iff]
    intro item hitem hitem'
    exact h ⟨item, hitem, hitem'⟩
  have hpair : runItems step items = ((runItems step items).1, none) := Prod.ext rfl hquiet
  rw [runBoth, hpair]
  dsimp only
  rw [runItems_of_quiet h]

/-- Every item of two loops has the results it has alone if that holds of each loop, and no item of
the second one that yields a result comes after a raising one of the first. -/
theorem runBoth_eq_flatMap_iff (items : List ι) (later : List κ) :
    runBoth step items next later =
        items.flatMap (alone step) ++ later.flatMap (alone next) ↔
      ((runItems step items).1 = items.flatMap (alone step) ∧
        (runItems next later).1 = later.flatMap (alone next)) ∧
        ((∃ item ∈ items, ∃ e, step item = .error e) → ∀ item ∈ later, alone next item = []) := by
  rw [← List.flatMap_eq_nil_iff]
  by_cases hraise : ∃ item ∈ items, ∃ e, step item = .error e
  · have hfirst : (runItems step items).1 <+: items.flatMap (alone step) := runItems_prefix items
    have hlater : (runItems next later).1 <+: later.flatMap (alone next) := runItems_prefix later
    rw [runBoth_of_raises hraise]
    constructor
    · intro heq
      have hlength := hfirst.length_le
      have hlost : later.flatMap (alone next) = [] := by
        rw [← List.length_eq_zero_iff]
        have hsum := congrArg List.length heq
        rw [List.length_append] at hsum
        omega
      rw [hlost, List.append_nil] at heq
      rw [hlost] at hlater
      exact ⟨⟨heq, by rw [hlost]; exact List.prefix_nil.mp hlater⟩, fun _ => hlost⟩
    · intro h
      rw [h.2 hraise, List.append_nil, ← h.1.1]
  · rw [runBoth_of_quiet hraise, List.append_cancel_left_eq]
    simp [hraise, runItems_of_quiet hraise]

end Both

/-! ## Computations that raise -/

@[simp] theorem ok_bind {α β : Type _} (a : α) (f : α → Except ε β) :
    (Except.ok a >>= f) = f a := rfl

@[simp] theorem error_bind {α β : Type _} (e : ε) (f : α → Except ε β) :
    (Except.error e >>= f) = .error e := rfl

theorem bind_eq_ok_iff {α β : Type _} {x : Except ε α} {f : α → Except ε β} {b : β} :
    (x >>= f) = .ok b ↔ ∃ a, x = .ok a ∧ f a = .ok b := by
  cases x <;> simp

theorem bind_eq_error_iff {α β : Type _} {x : Except ε α} {f : α → Except ε β} {e : ε} :
    (x >>= f) = .error e ↔ x = .error e ∨ ∃ a, x = .ok a ∧ f a = .error e := by
  cases x <;> simp

section Reading

variable {α : Type*} {f : ι → Except ε α}

private theorem mapM_cons_of_ok {item : ι} {x : α} (h : f item = .ok x) (items : List ι) :
    (item :: items).mapM f = (items.mapM f).map (x :: ·) := by
  rw [List.mapM_cons, h]
  cases items.mapM f <;> rfl

private theorem mapM_cons_of_error {item : ι} {e : ε} (h : f item = .error e)
    (items : List ι) : (item :: items).mapM f = .error e := by
  rw [List.mapM_cons, h]
  rfl

/-- Items are read if each one is. -/
theorem exists_mapM_eq_ok_iff (items : List ι) :
    (∃ xs, items.mapM f = .ok xs) ↔ ∀ item ∈ items, ∃ x, f item = .ok x := by
  induction items with
  | nil => simp [pure, Except.pure]
  | cons item items ih =>
    rw [List.forall_mem_cons, ← ih]
    cases hitem : f item with
    | error e => simp [mapM_cons_of_error hitem]
    | ok x =>
      rw [mapM_cons_of_ok hitem]
      cases items.mapM f <;> simp [Except.map]

/-- Reading items in order raises what the first unreadable one raises. -/
theorem mapM_eq_error_iff {e : ε} (items : List ι) :
    items.mapM f = .error e ↔ ∃ pre item post, items = pre ++ item :: post ∧
      (∀ earlier ∈ pre, ∃ x, f earlier = .ok x) ∧ f item = .error e := by
  induction items with
  | nil => simp [pure, Except.pure]
  | cons item items ih =>
    rw [exists_split_cons_iff]
    cases hitem : f item with
    | error e' =>
      rw [mapM_cons_of_error hitem]
      simp [hitem]
    | ok x =>
      have htail : (item :: items).mapM f = .error e ↔ items.mapM f = .error e := by
        rw [mapM_cons_of_ok hitem]
        cases items.mapM f <;> simp [Except.map]
      rw [htail, ih]
      simp [hitem]

/-- What was read of the items, as a function of each. -/
theorem eq_filterMap_of_mapM {g : ι → Option α} (hg : ∀ item x, f item = .ok x → g item = some x)
    {items : List ι} {xs : List α} (h : items.mapM f = .ok xs) : xs = items.filterMap g := by
  induction items generalizing xs with
  | nil =>
    obtain rfl := Except.ok.inj h
    rfl
  | cons item items ih =>
    cases hitem : f item with
    | error e =>
      rw [mapM_cons_of_error hitem] at h
      cases h
    | ok x =>
      rw [mapM_cons_of_ok hitem] at h
      cases hrest : items.mapM f with
      | error e =>
        rw [hrest] at h
        cases h
      | ok rest =>
        rw [hrest] at h
        obtain rfl := Except.ok.inj h
        rw [List.filterMap_cons, hg item x hitem, ← ih hrest]

end Reading

end PiWatch
