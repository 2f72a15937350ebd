import Mathlib.Tactic
import Mathlib.Data.List.Basic

/-!
# The last value in a list

Configuration readers let a later setting override an earlier one.  Given a partial map
that extracts a value from some elements of a list, this file has the last value
extracted, the element it comes from, and the comparison of two such extractions.
-/

namespace LastValue

variable {α β : Type*}

/-- The value extracted from the last element that has one. -/
def lastValue (f : α → Option β) (xs : List α) : Option β := (xs.filterMap f).getLast?

/-- The last element that has a value. -/
def lastHolder (f : α → Option β) (xs : List α) : Option α :=
  (xs.filter fun x => (f x).isSome).getLast?

@[simp] lemma lastValue_nil (f : α → Option β) : lastValue f [] = none := rfl

lemma lastValue_concat (f : α → Option β) (xs : List α) (x : α) :
    lastValue f (xs ++ [x]) = (f x).or (lastValue f xs) := by
  cases hx : f x <;> simp [lastValue, hx]

lemma lastHolder_concat (f : α → Option β) (xs : List α) (x : α) :
    lastHolder f (xs ++ [x]) = if (f x).isSome then some x else lastHolder f xs := by
  cases hx : f x <;> simp [lastHolder, hx]

lemma lastHolder_mem {f : α → Option β} {xs : List α} {x : α} (h : lastHolder f xs = some x) :
    x ∈ xs ∧ (f x).isSome := by
  have hmem := List.mem_of_getLast? h
  simpa [List.mem_filter] using hmem

/-- The last value is the value of its holder. -/
lemma lastValue_eq_of_lastHolder {f : α → Option β} {xs : List α} {x : α}
    (h : lastHolder f xs = some x) : lastValue f xs = f x := by
  induction xs using List.reverseRecOn with
  | nil => simp [lastHolder] at h
  | append_singleton xs y ih =>
    rw [lastHolder_concat] at h
    rw [lastValue_concat]
    by_cases hy : (f y).isSome
    · rw [if_pos hy] at h
      obtain rfl : y = x := by simpa using h
      obtain ⟨v, hv⟩ := Option.isSome_iff_exists.mp hy
      simp [hv]
    · rw [if_neg hy] at h
      have hnone : f y = none := by simpa using hy
      simp [hnone, ih h]

lemma lastHolder_isSome_of_lastValue {f : α → Option β} {xs : List α} {v : β}
    (h : lastValue f xs = some v) : ∃ x, lastHolder f xs = some x ∧ f x = some v := by
  induction xs using List.reverseRecOn with
  | nil => simp [lastValue] at h
  | append_singleton xs y ih =>
    rw [lastValue_concat] at h
    rw [lastHolder_concat]
    cases hy : f y with
    | none =>
      rw [hy, Option.none_or] at h
      simpa using ih h
    | some w =>
      rw [hy, Option.some_or] at h
      exact ⟨y, by simp, by rw [hy, h]⟩

/-- Two extractions that agree on the last holder of each have the same last value. -/
lemma lastValue_congr {f g : α → Option β} {xs : List α}
    (hf : ∀ x, lastHolder f xs = some x → g x = f x)
    (hg : ∀ x, lastHolder g xs = some x → f x = g x) : lastValue f xs = lastValue g xs := by
  induction xs using List.reverseRecOn with
  | nil => rfl
  | append_singleton xs y ih =>
    simp only [lastHolder_concat] at hf hg
    rw [lastValue_concat, lastValue_concat]
    by_cases hfy : (f y).isSome
    · have hgf : g y = f y := hf y (by simp [hfy])
      obtain ⟨v, hv⟩ := Option.isSome_iff_exists.mp hfy
      simp [hgf, hv]
    · have hgy : ¬ (g y).isSome := by
        intro hgy
        have hfg : f y = g y := hg y (by simp [hgy])
        exact hfy (hfg ▸ hgy)
      simp only [hfy, hgy] at hf hg
      have hfn : f y = none := by simpa using hfy
      have hgn : g y = none := by simpa using hgy
      simp [hfn, hgn, ih hf hg]

/-- If every value has an image, the last image is the image of the last value. -/
lemma lastValue_bind {γ : Type*} {f : α → Option β} {g : β → Option γ} {xs : List α}
    (h : ∀ x ∈ xs, ∀ v, f x = some v → (g v).isSome) :
    lastValue (fun x => (f x).bind g) xs = (lastValue f xs).bind g := by
  induction xs using List.reverseRecOn with
  | nil => rfl
  | append_singleton xs y ih =>
    rw [lastValue_concat, lastValue_concat,
      ih fun x hx => h x (List.mem_append_left _ hx)]
    cases hy : f y with
    | none => simp
    | some v =>
      obtain ⟨w, hw⟩ := Option.isSome_iff_exists.mp (h y (by simp) v hy)
      simp [hw]

/-- Every value is overridden, or it is the last one: an element with a value makes the
list have a last holder. -/
lemma exists_lastHolder_of_mem {f : α → Option β} {xs : List α} {x : α} (hx : x ∈ xs)
    (hfx : (f x).isSome) : ∃ y, lastHolder f xs = some y := by
  have hmem : x ∈ xs.filter fun x => (f x).isSome := List.mem_filter.mpr ⟨hx, hfx⟩
  exact ⟨_, List.getLast?_eq_some_getLast (List.ne_nil_of_mem hmem)⟩

/-- If the last holder of `f` has a value under `g`, and whatever has a value under `g`
has one under `f`, it is the last holder of `g` as well. -/
lemma lastHolder_of_imp {γ : Type*} {f : α → Option β} {g : α → Option γ} {xs : List α} {x : α}
    (hgf : ∀ y ∈ xs, (g y).isSome → (f y).isSome) (h : lastHolder f xs = some x)
    (hgx : (g x).isSome) : lastHolder g xs = some x := by
  induction xs using List.reverseRecOn with
  | nil => simp [lastHolder] at h
  | append_singleton xs y ih =>
    rw [lastHolder_concat] at h ⊢
    by_cases hfy : (f y).isSome
    · rw [if_pos hfy] at h
      obtain rfl : y = x := by simpa using h
      rw [if_pos hgx]
    · have hgy : ¬ (g y).isSome := fun hgy => hfy (hgf y (by simp) hgy)
      rw [if_neg hfy] at h
      rw [if_neg hgy]
      exact ih (fun z hz => hgf z (by simp [hz])) h

end LastValue
