import Mathlib.Algebra.Order.Group.Basic
import Mathlib.Algebra.Order.Group.Unbundled.Basic
import Mathlib.Data.Set.Insert

/-!
# A store that forgets, and its archive

Items that are too old are dropped from a store, and its contents are copied to an archive from
time to time. An item may be added some time after the moment it is stamped with. If the time
between two copies and that delay fit into the retention, then no item is dropped that was not
copied before.
-/

namespace PiWatch

variable {α T : Type*} {old : T → α → Prop} {delay gap retention now cutoff since : T}
  {items archive archive' added : Set α}

/-- What is old at one moment is old at every later one. -/
def Ages [LE T] (old : T → α → Prop) : Prop := ∀ c c' x, c ≤ c' → old c x → old c' x

/-- Every item ever added was copied, or it is in the store and not older than the last copy. -/
def Covered [Sub T] (old : T → α → Prop) (delay since : T) (items archive added : Set α) : Prop :=
  ∀ x ∈ added, x ∈ archive ∨ x ∈ items ∧ ¬ old (since - delay) x

namespace Covered

section Copies

variable [Sub T]

theorem copy (h : Covered old delay since items archive added) (now : T)
    (harchive : archive ⊆ archive') (hitems : items ⊆ archive') :
    Covered old delay now items archive' added := by
  intro x hx
  rcases h x hx with hcopied | ⟨hitem, -⟩
  · exact Or.inl (harchive hcopied)
  · exact Or.inl (hitems hitem)

theorem mono (h : Covered old delay since items archive added) (harchive : archive ⊆ archive') :
    Covered old delay since items archive' added := by
  intro x hx
  exact (h x hx).imp_left fun hcopied => harchive hcopied

end Copies

variable [AddCommGroup T] [LinearOrder T] [IsOrderedAddMonoid T]

theorem add (h : Covered old delay since items archive added) (hold : Ages old)
    (hsince : since ≤ now) {x : α} (hx : ¬ old (now - delay) x) :
    Covered old delay since (insert x items) archive (insert x added) := by
  intro y hy
  rcases Set.mem_insert_iff.mp hy with rfl | hy
  · refine Or.inr ⟨Set.mem_insert _ _, fun hold' => hx ?_⟩
    exact hold _ _ _ (sub_le_sub_right hsince delay) hold'
  · rcases h y hy with hcopied | ⟨hitem, hrecent⟩
    · exact Or.inl hcopied
    · exact Or.inr ⟨Set.mem_insert_of_mem x hitem, hrecent⟩

/-- What a cutoff reaches was copied: it is older than the last copy. -/
theorem expire (h : Covered old delay since items archive added) (hold : Ages old)
    (hgap : now - since ≤ gap) (hcutoff : cutoff ≤ now - retention)
    (hfit : gap + delay ≤ retention) :
    Covered old delay since {x ∈ items | ¬ old cutoff x} archive added := by
  have hreach : cutoff ≤ since - delay := by
    calc cutoff ≤ now - retention := hcutoff
      _ ≤ now - (gap + delay) := sub_le_sub_left hfit now
      _ = now - gap - delay := sub_add_eq_sub_sub now gap delay
      _ ≤ since - delay := sub_le_sub_right (sub_le_comm.mp hgap) delay
  intro x hx
  rcases h x hx with hcopied | ⟨hitem, hrecent⟩
  · exact Or.inl hcopied
  · exact Or.inr ⟨⟨hitem, fun hold' => hrecent (hold _ _ _ hreach hold')⟩, hrecent⟩

end Covered

end PiWatch
