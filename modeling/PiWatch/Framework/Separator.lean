import Mathlib.Data.List.Basic

/-!
# Texts with a separator

A part without the separator is found again at either end of a text.
-/

namespace PiWatch

variable {α : Type*} [DecidableEq α] {sep : α}

private theorem join_splitOn (sep : α) (l : List α) : [sep].intercalate (l.splitOn sep) = l :=
  List.intercalate_splitOn sep

/-- What follows the last separator is unique. -/
theorem append_sep_inj {a b c d : List α} (hb : sep ∉ b) (hd : sep ∉ d)
    (h : a ++ sep :: b = c ++ sep :: d) : a = c ∧ b = d := by
  have hsplit := congrArg (List.splitOn sep) h
  rw [List.splitOn_append_cons_self, List.splitOn_append_cons_self,
    List.splitOn_eq_singleton hb, List.splitOn_eq_singleton hd] at hsplit
  obtain ⟨hfront, hback⟩ := List.append_inj' hsplit rfl
  refine ⟨?_, (List.cons.inj hback).1⟩
  rw [← join_splitOn sep a, hfront, join_splitOn]

/-- What precedes the first separator is unique. -/
theorem sep_append_inj {a b c d : List α} (ha : sep ∉ a) (hc : sep ∉ c)
    (h : a ++ sep :: b = c ++ sep :: d) : a = c ∧ b = d := by
  have hsplit := congrArg (List.splitOn sep) h
  rw [List.splitOn_append_cons_self_of_not_mem ha,
    List.splitOn_append_cons_self_of_not_mem hc] at hsplit
  obtain ⟨hfront, hback⟩ := List.cons.inj hsplit
  refine ⟨hfront, ?_⟩
  rw [← join_splitOn sep b, hback, join_splitOn]

theorem notMem_of_mem_splitOn {l part : List α} (h : part ∈ l.splitOn sep) : sep ∉ part := by
  induction l generalizing part with
  | nil =>
    rw [List.splitOn_nil, List.mem_singleton] at h
    simp [h]
  | cons x l ih =>
    rw [List.splitOn_cons_eq_if_modifyHead] at h
    obtain ⟨first, rest, hsplit⟩ := List.exists_cons_of_ne_nil (List.splitOn_ne_nil sep l)
    rw [hsplit] at h ih
    split_ifs at h with hx
    · rw [List.mem_cons] at h
      rcases h with rfl | h
      · exact List.not_mem_nil
      · exact ih h
    · rw [List.modifyHead_cons, List.mem_cons] at h
      rcases h with rfl | h
      · rw [List.mem_cons, not_or]
        exact ⟨fun heq => hx (beq_iff_eq.mpr heq.symm), ih List.mem_cons_self⟩
      · exact ih (List.mem_cons_of_mem _ h)

/-- A text splits into two parts if it has one separator. -/
theorem length_splitOn_eq_two_iff {l : List α} :
    (l.splitOn sep).length = 2 ↔ ∃ a b, sep ∉ a ∧ sep ∉ b ∧ l = a ++ sep :: b := by
  constructor
  · intro h
    obtain ⟨a, b, hsplit⟩ := List.length_eq_two.mp h
    refine ⟨a, b, notMem_of_mem_splitOn (l := l) (by simp [hsplit]),
      notMem_of_mem_splitOn (l := l) (by simp [hsplit]), ?_⟩
    rw [← join_splitOn sep l, hsplit]
    simp
  · intro h
    obtain ⟨a, b, ha, hb, rfl⟩ := h
    rw [List.splitOn_append_cons_self_of_not_mem ha, List.splitOn_eq_singleton hb]
    rfl

end PiWatch
