import Mathlib.Data.List.Infix

/-!
# Scanning a text for tokens

`findAll` goes through a text from the left. Where a token starts it is read and the scan goes on
behind it; elsewhere one character is skipped.
-/

namespace PiWatch

section FindAll

variable {α β γ τ : Type*} {token : List α → Option (β × List α)}

/-- The number bounds the characters that are left. -/
def findAll (token : List α → Option (β × List α)) : ℕ → List α → List β
  | 0, _ | _, [] => []
  | n + 1, c :: cs =>
    match token (c :: cs) with
    | some (value, rest) => value :: findAll token n rest
    | none => findAll token n cs

@[simp] theorem findAll_nil (n : ℕ) : findAll token n [] = [] := by
  cases n <;> rfl

theorem findAll_of_some {n : ℕ} {cs rest : List α} {value : β} (hcs : cs ≠ [])
    (h : token cs = some (value, rest)) :
    findAll token (n + 1) cs = value :: findAll token n rest := by
  obtain ⟨c, cs, rfl⟩ := List.exists_cons_of_ne_nil hcs
  rw [findAll, h]

theorem findAll_of_none {n : ℕ} {c : α} {cs : List α} (h : token (c :: cs) = none) :
    findAll token (n + 1) (c :: cs) = findAll token n cs := by
  rw [findAll, h]

/-- Nothing is found exactly if no token starts anywhere. -/
theorem findAll_eq_nil_iff {n : ℕ} {cs : List α} (hn : cs.length ≤ n) :
    findAll token n cs = [] ↔ ∀ t, t <:+ cs → t ≠ [] → token t = none := by
  induction cs generalizing n with
  | nil =>
    rw [findAll_nil]
    constructor
    · intro _ t ht hne
      exact absurd (List.suffix_nil.mp ht) hne
    · intro _
      rfl
  | cons c cs ih =>
    cases n with
    | zero => exact absurd hn (Nat.not_succ_le_zero _)
    | succ n =>
      have hlength : cs.length ≤ n := Nat.le_of_succ_le_succ hn
      cases htoken : token (c :: cs) with
      | some found =>
        rw [findAll_of_some (List.cons_ne_nil c cs) htoken]
        constructor
        · intro h
          cases h
        · intro h
          rw [h _ List.suffix_rfl (List.cons_ne_nil c cs)] at htoken
          cases htoken
      | none =>
        rw [findAll_of_none htoken, ih hlength]
        constructor
        · intro h t ht hne
          rcases List.suffix_cons_iff.mp ht with rfl | ht
          · exact htoken
          · exact h t ht hne
        · intro h t ht hne
          exact h t (ht.trans (List.suffix_cons c cs)) hne

/-- A text put together of tokens is taken apart again, if every token is read back where other
tokens, or nothing, follow. -/
theorem findAll_flatMap {text : τ → List α} {value : τ → β} (hne : ∀ t, text t ≠ [])
    (hread : ∀ t (rest : List τ),
      token (text t ++ rest.flatMap text) = some (value t, rest.flatMap text))
    {ts : List τ} {n : ℕ} (hn : (ts.flatMap text).length ≤ n) :
    findAll token n (ts.flatMap text) = ts.map value := by
  induction ts generalizing n with
  | nil => exact findAll_nil n
  | cons t ts ih =>
    have hlength : 0 < (text t).length := List.length_pos_of_ne_nil (hne t)
    rw [List.flatMap_cons, List.length_append] at hn
    cases n with
    | zero => omega
    | succ n =>
      have hnil : text t ++ ts.flatMap text ≠ [] := by simp [hne t]
      rw [List.flatMap_cons, findAll_of_some hnil (hread t ts), ih (by omega), List.map_cons]

/-- Tokens with other values are found in the same places. -/
theorem findAll_map {token' : List α → Option (γ × List α)} {f : β → γ}
    (h : ∀ cs, token' cs = (token cs).map fun found => (f found.1, found.2)) (n : ℕ)
    (cs : List α) : findAll token' n cs = (findAll token n cs).map f := by
  induction n generalizing cs with
  | zero => cases cs <;> rfl
  | succ n ih =>
    cases cs with
    | nil => rfl
    | cons c cs =>
      have htoken' := h (c :: cs)
      cases htoken : token (c :: cs) with
      | some found =>
        rw [htoken] at htoken'
        rw [findAll_of_some (List.cons_ne_nil c cs) htoken,
          findAll_of_some (List.cons_ne_nil c cs) htoken', ih, List.map_cons]
      | none =>
        rw [htoken] at htoken'
        rw [findAll_of_none htoken, findAll_of_none htoken', ih]

end FindAll

end PiWatch
