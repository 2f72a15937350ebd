import Mathlib.Tactic

/-!
# What several parties do at the same time

The actions of a number of parties and of others are put in the order of time.  What one party
does is a part of the whole, and stands in it in its order.
-/

namespace Interleaving

variable {ι α β : Type} [DecidableEq ι]

/-- An action of one of the parties, or of someone else. -/
inductive Action (ι α β : Type) where
  | own (party : ι) (act : α)
  | other (act : β)

/-- The action, if it is one of the party. -/
def ownOf (i : ι) : Action ι α β → Option α
  | .own j act => if j = i then some act else none
  | .other _ => none

/-- What one party does. -/
def actsOf (i : ι) (history : List (Action ι α β)) : List α := history.filterMap (ownOf i)

variable {i : ι} {history : List (Action ι α β)} {a b : α} {as bs cs : List α}

lemma ownOf_eq_some {act : Action ι α β} (h : ownOf i act = some a) : act = .own i a := by
  cases act with
  | other act => exact absurd h (by simp [ownOf])
  | own j act =>
    rw [ownOf] at h
    split_ifs at h with hj
    obtain rfl := Option.some.inj h
    rw [hj]

lemma actsOf_append {history' : List (Action ι α β)} :
    actsOf i (history ++ history') = actsOf i history ++ actsOf i history' :=
  List.filterMap_append

/-- What one party does, on its own. -/
lemma actsOf_own : actsOf i (as.map (Action.own i) : List (Action ι α β)) = as := by
  induction as with
  | nil => rfl
  | cons act as ih =>
    rw [List.map_cons, actsOf, List.filterMap_cons, ← actsOf, ih]
    simp [ownOf]

/-- An action of the party stands in the whole. -/
lemma exists_split (h : actsOf i history = as ++ a :: bs) :
    ∃ before after, history = before ++ .own i a :: after ∧ actsOf i before = as ∧
      actsOf i after = bs := by
  obtain ⟨before, rest, rfl, hbefore, hrest⟩ := List.filterMap_eq_append_iff.mp h
  obtain ⟨between, act, after, rfl, hbetween, hact, hafter⟩ := List.filterMap_eq_cons_iff.mp hrest
  obtain rfl := ownOf_eq_some hact
  refine ⟨before ++ between, after, by simp, ?_, hafter⟩
  have hnone : actsOf i between = [] := List.filterMap_eq_nil_iff.mpr hbetween
  rw [actsOf, List.filterMap_append, hbefore, ← actsOf, hnone, List.append_nil]

/-- Two actions of the party stand in the whole in their order. -/
lemma exists_split_pair (h : actsOf i history = as ++ a :: (bs ++ b :: cs)) :
    ∃ before between after,
      history = before ++ .own i a :: (between ++ .own i b :: after) := by
  obtain ⟨before, rest, rfl, -, hrest⟩ := exists_split h
  obtain ⟨between, after, rfl, -, -⟩ := exists_split hrest
  exact ⟨before, between, after, rfl⟩

end Interleaving
