import PiWatch.Framework.Run

/-!
# Outsiders

Somebody visits a system again and again and picks each request by the answers seen so far;
between two visits the system moves by itself. When two systems cannot be told apart by the
requests that are made, they give the same answers.
-/

namespace PiWatch

/-- A system that moves by itself and answers requests. -/
structure Visited (σ ε ρ α : Type*) where
  move : σ → ε → σ
  visit : σ → ρ → α × σ

namespace Visited

variable {σ ε ρ α : Type*} (m : Visited σ ε ρ α) (choose : List α → ρ)

/-- One visit after every move: the answers seen, and the system afterwards. -/
def play : σ → List α → List ε → List α × σ
  | s, seen, [] => (seen, s)
  | s, seen, e :: es =>
    play (m.visit (m.move s e) (choose seen)).2
      (seen ++ [(m.visit (m.move s e) (choose seen)).1]) es

/-- A condition on every request made of the first system, in the states both are in. -/
def AlongBoth (P : σ → σ → ρ → Prop) : σ → σ → List α → List (ε × ε) → Prop
  | _, _, _, [] => True
  | s, s', seen, e :: es =>
    P (m.move s e.1) (m.move s' e.2) (choose seen) ∧
      AlongBoth P (m.visit (m.move s e.1) (choose seen)).2
        (m.visit (m.move s' e.2) (choose seen)).2
        (seen ++ [(m.visit (m.move s e.1) (choose seen)).1]) es

/-- Systems that look alike still do after moves that look alike, and a request within the
condition neither tells them apart nor makes them differ. -/
structure Unwinds (Low : σ → σ → Prop) (Alike : ε → ε → Prop) (P : σ → σ → ρ → Prop) :
    Prop where
  move : ∀ {s s' e e'}, Low s s' → Alike e e' → Low (m.move s e) (m.move s' e')
  answer : ∀ {s s' r}, Low s s' → P s s' r → (m.visit s r).1 = (m.visit s' r).1
  visit : ∀ {s s' r}, Low s s' → P s s' r → Low (m.visit s r).2 (m.visit s' r).2

variable {m choose}

/-- The unwinding rule: what is seen of one system is what is seen of the other. -/
theorem Unwinds.play_eq {Low : σ → σ → Prop} {Alike : ε → ε → Prop} {P : σ → σ → ρ → Prop}
    (h : m.Unwinds Low Alike P) {s s' : σ} (hlow : Low s s') {seen : List α}
    {es : List (ε × ε)} (halike : ∀ e ∈ es, Alike e.1 e.2)
    (hwithin : m.AlongBoth choose P s s' seen es) :
    (m.play choose s seen (es.map Prod.fst)).1 = (m.play choose s' seen (es.map Prod.snd)).1 := by
  induction es generalizing s s' seen with
  | nil => rfl
  | cons e es ih =>
    obtain ⟨hrequest, hrest⟩ := hwithin
    have hmoved := h.move hlow (halike e List.mem_cons_self)
    rw [List.map_cons, List.map_cons, play, play, ← h.answer hmoved hrequest]
    exact ih (h.visit hmoved hrequest) (fun e he => halike e (List.mem_cons_of_mem _ he)) hrest

/-- Visits that leave the system as it is leave no trace at the end. -/
theorem play_snd_of_unchanged {P : σ → σ → ρ → Prop}
    (hkeeps : ∀ {s s' r}, P s s' r → (m.visit s r).2 = s) {s s' : σ} {seen : List α}
    {es : List (ε × ε)} (hwithin : m.AlongBoth choose P s s' seen es) :
    (m.play choose s seen (es.map Prod.fst)).2 = runFrom m.move s (es.map Prod.fst) := by
  induction es generalizing s s' seen with
  | nil => rfl
  | cons e es ih =>
    obtain ⟨hrequest, hrest⟩ := hwithin
    have hsame := hkeeps hrequest
    rw [List.map_cons, play, ih hrest, hsame, runFrom_cons]

end Visited

end PiWatch
