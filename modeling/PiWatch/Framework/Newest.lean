import Mathlib.Data.List.Pairwise
import PiWatch.Framework.Ring

/-!
# The newest items of a list

`newest` sorts a list from the newest item down, cuts it off after `n` items and turns it
round: the query of a history reloaded from storage. Where the list was written in order,
the result is what a ring of capacity `n` kept of it.
-/

namespace PiWatch

variable {α : Type*}

/-- The last `n` items in the order `le`, oldest first. -/
def newest (le : α → α → Bool) (n : ℕ) (l : List α) : List α :=
  ((l.mergeSort fun a b => le b a).take n).reverse

/-- `kept` are `n` newest items of `l` in order, up to the choice among equally old ones. -/
structure IsNewest (le : α → α → Bool) (n : ℕ) (l kept : List α) : Prop where
  length_eq : kept.length = min n l.length
  ordered : kept.Pairwise fun a b => le a b
  rest_older : ∃ rest, l.Perm (rest ++ kept) ∧ ∀ r ∈ rest, ∀ k ∈ kept, le r k

section

variable {le : α → α → Bool} (trans : ∀ a b c, le a b → le b c → le a c)
  (total : ∀ a b, le a b || le b a)

include trans total

private theorem pairwise_newestFirst (l : List α) :
    (l.mergeSort fun a b => le b a).Pairwise fun a b => le b a :=
  List.pairwise_mergeSort (fun a b c hba hcb => trans c b a hcb hba) (fun a b => total b a) l

theorem isNewest_newest (n : ℕ) (l : List α) : IsNewest le n l (newest le n l) := by
  have hsorted := pairwise_newestFirst trans total l
  have hperm := List.mergeSort_perm l fun a b => le b a
  have hsplit := List.take_append_drop n (l.mergeSort fun a b => le b a)
  rw [← hsplit, List.pairwise_append] at hsorted
  refine ⟨?_, ?_, (l.mergeSort fun a b => le b a).drop n, ?_, ?_⟩
  · rw [newest, List.length_reverse, List.length_take, hperm.length_eq]
  · rw [newest, List.pairwise_reverse]
    exact hsorted.1
  · rw [← hsplit] at hperm
    refine hperm.symm.trans (List.perm_append_comm.trans ?_)
    exact (List.Perm.refl _).append (List.reverse_perm _).symm
  · intro r hr k hk
    rw [newest, List.mem_reverse] at hk
    exact hsorted.2.2 k hk r hr

/-- A list written in strictly increasing order: the newest items are its end. -/
theorem newest_of_increasing {n : ℕ} {l : List α}
    (h : l.Pairwise fun a b => le a b ∧ ¬ le b a) : newest le n l = l.rtake n := by
  have hdistinct : ∀ a ∈ l, ∀ b ∈ l, le a b → le b a → a = b := by
    have hsymm : Std.Symm fun a b : α => le a b → le b a → a = b :=
      ⟨fun a b hab hba hle => (hab hle hba).symm⟩
    intro a ha b hb
    exact List.Pairwise.forall_of_forall (R := fun a b => le a b → le b a → a = b)
      (fun _ _ _ _ => rfl) (h.imp fun hlt _ hge => absurd hge hlt.2) ha hb
  have hreverse : (l.mergeSort fun a b => le b a) = l.reverse := by
    refine @List.Perm.eq_of_pairwise α (fun a b => le b a) _ _ ?_
      (pairwise_newestFirst trans total l) ?_
      ((List.mergeSort_perm l _).trans (List.reverse_perm l).symm)
    · intro a b ha hb hba hab
      rw [List.mem_mergeSort] at ha
      rw [List.mem_reverse] at hb
      exact hdistinct a ha b hb hab hba
    · rw [List.pairwise_reverse]
      exact h.imp fun hlt => hlt.1
  rw [newest, hreverse, List.take_reverse, List.reverse_reverse, List.rtake]

end

end PiWatch
