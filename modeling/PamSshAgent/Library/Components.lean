import Mathlib.Tactic

/-!
# Edits inside the components of a list

A list that is cut at each occurrence of a separator falls into components.  An edit that neither
removes nor brings a separator keeps their number and changes one of them.
-/

namespace Components

variable {α : Type} {sep : α} {x y : List α}

/-- The same list, or one where `x` has been replaced by `y` at one place. -/
def Edited (x y p q : List α) : Prop := p = q ∨ ∃ l r, p = l ++ x ++ r ∧ q = l ++ y ++ r

lemma Edited.cons {p q : List α} (a : α) (h : Edited x y p q) : Edited x y (a :: p) (a :: q) := by
  rcases h with rfl | ⟨l, r, rfl, rfl⟩
  · exact Or.inl rfl
  · exact Or.inr ⟨a :: l, r, rfl, rfl⟩

variable [DecidableEq α]

/-- What has no separator goes into the first component. -/
lemma splitOn_append_of_notMem (h : sep ∉ x) (ys : List α) :
    (x ++ ys).splitOn sep = (ys.splitOn sep).modifyHead (x ++ ·) := by
  induction x with
  | nil =>
    rw [List.nil_append]
    cases ys.splitOn sep <;> rfl
  | cons a x ih =>
    obtain ⟨ha, hx⟩ := not_or.mp (mt List.mem_cons.mpr h)
    have hne : (a == sep) = false := beq_eq_false_iff_ne.mpr (Ne.symm ha)
    rw [List.cons_append, List.splitOn_cons_eq_if_modifyHead, hne, if_neg (by simp), ih hx]
    cases ys.splitOn sep <;> rfl

/-- An edit in a list is an edit in one of its components. -/
lemma forall₂_splitOn_edit (hx : sep ∉ x) (hy : sep ∉ y) (l r : List α) :
    List.Forall₂ (Edited x y) ((l ++ x ++ r).splitOn sep) ((l ++ y ++ r).splitOn sep) := by
  induction l with
  | nil =>
    rw [List.nil_append, List.nil_append, splitOn_append_of_notMem hx,
      splitOn_append_of_notMem hy]
    obtain ⟨first, rest, hparts⟩ := List.exists_cons_of_ne_nil (List.splitOn_ne_nil sep r)
    rw [hparts]
    exact .cons (Or.inr ⟨[], first, rfl, rfl⟩) (List.forall₂_same.mpr fun _ _ => Or.inl rfl)
  | cons a l ih =>
    simp only [List.cons_append, List.splitOn_cons_eq_if_modifyHead]
    by_cases ha : (a == sep) = true
    · rw [if_pos ha, if_pos ha]
      exact .cons (Or.inl rfl) ih
    · rw [if_neg ha, if_neg ha]
      generalize (l ++ x ++ r).splitOn sep = before at ih ⊢
      generalize (l ++ y ++ r).splitOn sep = after at ih ⊢
      cases ih with
      | nil => exact .nil
      | cons hfirst hrest => exact .cons (hfirst.cons a) hrest

end Components
