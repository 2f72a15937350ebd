import Mathlib.Tactic
import Mathlib.Data.List.Basic
import Mathlib.Data.List.TakeWhile

/-!
# First occurrences of a pattern in a word

Programs that edit text search for a pattern, cut the text there and paste something
between the two halves.  This file develops the search over an arbitrary alphabet:
what the position found says about the word, how the search behaves under
concatenation, and the replacement of the first occurrence.
-/

namespace Occurrence

variable {α : Type*} [DecidableEq α]

/-- The position of the first occurrence of `pat` in a word, if there is one. -/
def find (pat : List α) : List α → Option ℕ
  | [] => if pat = [] then some 0 else none
  | x :: xs => if pat <+: x :: xs then some 0 else (find pat xs).map (· + 1)

/-- The parts of a word before and after the first occurrence of `pat`. -/
def splitAround (pat xs : List α) : Option (List α × List α) :=
  (find pat xs).map fun i => (xs.take i, xs.drop (i + pat.length))

/-- A word with the first occurrence of `pat`, if there is one, replaced by `value`. -/
def replaceFirst (pat value xs : List α) : List α :=
  match find pat xs with
  | none => xs
  | some i => xs.take i ++ value ++ xs.drop (i + pat.length)

/-! ## What the search says -/

lemma find_eq_some_split {pat xs : List α} {i : ℕ} (h : find pat xs = some i) :
    ∃ A B, xs = A ++ pat ++ B ∧ A.length = i := by
  induction xs generalizing i with
  | nil =>
    by_cases hp : pat = []
    · simp only [find, hp, if_true, Option.some.injEq] at h
      exact ⟨[], [], by simp [hp], by simpa using h⟩
    · simp [find, hp] at h
  | cons x xs ih =>
    by_cases hp : pat <+: x :: xs
    · simp only [find, hp, if_true, Option.some.injEq] at h
      obtain ⟨B, hB⟩ := hp
      exact ⟨[], B, by simp [hB], by simpa using h⟩
    · simp only [find, hp, if_false, Option.map_eq_some_iff] at h
      obtain ⟨j, hj, rfl⟩ := h
      obtain ⟨A, B, rfl, hA⟩ := ih hj
      exact ⟨x :: A, B, by simp, by simp [hA]⟩

lemma find_eq_some_take {pat xs : List α} {i : ℕ} (h : find pat xs = some i) :
    xs = xs.take i ++ pat ++ xs.drop (i + pat.length) := by
  obtain ⟨A, B, rfl, rfl⟩ := find_eq_some_split h
  have hdrop : (A ++ pat ++ B).drop (A.length + pat.length) = B := by
    rw [← List.length_append, List.drop_left]
  rw [hdrop, List.append_assoc, List.take_left]
  simp

lemma find_isSome_iff {pat xs : List α} : (find pat xs).isSome ↔ pat <:+: xs := by
  induction xs with
  | nil => by_cases hp : pat = [] <;> simp [find, hp]
  | cons x xs ih =>
    by_cases hp : pat <+: x :: xs
    · simp [find, hp, hp.isInfix]
    · simp only [find, hp, if_false, Option.isSome_map, ih, List.infix_cons_iff, false_or]

lemma find_eq_none_iff {pat xs : List α} : find pat xs = none ↔ ¬ pat <:+: xs := by
  rw [← find_isSome_iff]
  cases find pat xs <;> simp

lemma find_eq_some_of_occurs {pat xs : List α} (h : pat <:+: xs) : ∃ i, find pat xs = some i :=
  Option.isSome_iff_exists.mp (find_isSome_iff.mpr h)

/-! ## The search under concatenation -/

/-- An occurrence inside the first factor is found there. -/
lemma find_append_of_eq_some {pat xs : List α} {i : ℕ} (h : find pat xs = some i)
    (ys : List α) : find pat (xs ++ ys) = some i := by
  induction xs generalizing i with
  | nil =>
    by_cases hp : pat = []
    · subst hp
      have hi : i = 0 := by simpa [find] using h.symm
      subst hi
      cases ys <;> simp [find]
    · simp [find, hp] at h
  | cons x xs ih =>
    by_cases hp : pat <+: x :: xs
    · have hi : i = 0 := by simpa [find, hp] using h.symm
      subst hi
      have hpy : pat <+: x :: (xs ++ ys) := hp.trans (List.prefix_append (x :: xs) ys)
      simp [find, hpy]
    · simp only [find, hp, if_false, Option.map_eq_some_iff] at h
      obtain ⟨j, hj, rfl⟩ := h
      have hpy : ¬ pat <+: x :: (xs ++ ys) := by
        intro hpre
        apply hp
        obtain ⟨A, B, hAB, hA⟩ := find_eq_some_split hj
        refine List.prefix_of_prefix_length_le hpre (List.prefix_append (x :: xs) ys) ?_
        simp only [hAB, List.length_cons, List.length_append]
        omega
      simp only [List.cons_append, find, hpy, if_false, ih hj, Option.map_some]

/-- When no occurrence starts inside the first factor, the search goes on in the second. -/
lemma find_append_of_not_prefix {pat : List α} (xs ys : List α)
    (h : ∀ zs, zs ≠ [] → zs <:+ xs → ¬ pat <+: zs ++ ys) :
    find pat (xs ++ ys) = (find pat ys).map (xs.length + ·) := by
  induction xs with
  | nil => simp
  | cons x xs ih =>
    have hp : ¬ pat <+: x :: (xs ++ ys) := h (x :: xs) (by simp) List.suffix_rfl
    have htail := ih fun zs hne hzs => h zs hne (hzs.trans (List.suffix_cons x xs))
    rw [List.cons_append, find, if_neg hp, htail, Option.map_map]
    congr 1
    funext n
    simp only [Function.comp_apply, List.length_cons]
    omega

/-- The position found is not after any other occurrence. -/
lemma find_le {pat A B : List α} {i : ℕ} (h : find pat (A ++ pat ++ B) = some i) :
    i ≤ A.length := by
  obtain ⟨j, hj⟩ := find_eq_some_of_occurs (List.suffix_append A pat).isInfix
  have hij : i = j := by
    rw [find_append_of_eq_some hj B] at h
    exact (Option.some.inj h).symm
  obtain ⟨A', B', heq, hA'⟩ := find_eq_some_split hj
  have hlen := congrArg List.length heq
  rw [List.length_append, List.length_append, List.length_append] at hlen
  omega

/-- A letter is found where it does not stand before. -/
lemma find_singleton_eq_some {a : α} {xs : List α} {i : ℕ} (h : find [a] xs = some i) :
    ∃ A B, xs = A ++ a :: B ∧ a ∉ A ∧ A.length = i := by
  obtain ⟨A, B, rfl, rfl⟩ := find_eq_some_split h
  refine ⟨A, B, by rw [List.append_assoc, List.singleton_append], fun hmem => ?_, rfl⟩
  obtain ⟨A₁, A₂, rfl⟩ := List.append_of_mem hmem
  have hearlier : find [a] (A₁ ++ [a] ++ (A₂ ++ a :: B)) = some (A₁ ++ a :: A₂).length := by
    simpa using h
  have hle := find_le hearlier
  rw [List.length_append, List.length_cons] at hle
  omega

/-! ## Patterns of two letters -/

/-- A two-letter pattern that is absent from `xs` and does not straddle the seam between
`xs` and `ys` is searched for in `ys` alone. -/
lemma find_pair_append {a b : α} {xs : List α} (ys : List α) (habsent : ¬ [a, b] <:+: xs)
    (hseam : xs.getLast? ≠ some a ∨ ys.head? ≠ some b) :
    find [a, b] (xs ++ ys) = (find [a, b] ys).map (xs.length + ·) := by
  refine find_append_of_not_prefix xs ys fun zs hne hzs hpre => ?_
  obtain ⟨ws, rfl⟩ := hzs
  cases zs with
  | nil => exact hne rfl
  | cons z zs =>
    cases zs with
    | nil =>
      have hz : a = z ∧ ys.head? = some b := by
        cases ys <;> simp_all
      rcases hseam with hlast | hhead
      · simp [hz.1] at hlast
      · exact hhead hz.2
    | cons z' zs =>
      have hz : a = z ∧ b = z' := by simpa using hpre
      apply habsent
      exact ⟨ws, zs, by simp [hz.1, hz.2]⟩

omit [DecidableEq α] in
lemma not_pair_infix_of_notMem {a b : α} {xs : List α} (h : a ∉ xs) : ¬ [a, b] <:+: xs := by
  intro hinf
  exact h (hinf.subset (by simp))

lemma pair_infix_append_iff {a b : α} {xs ys : List α} (h : a ∉ xs) :
    [a, b] <:+: xs ++ ys ↔ [a, b] <:+: ys := by
  have hlast : xs.getLast? ≠ some a := fun hl => h (List.mem_of_getLast? hl)
  have hfind := find_pair_append ys (b := b) (not_pair_infix_of_notMem h) (Or.inl hlast)
  rw [← find_isSome_iff, ← find_isSome_iff, hfind, Option.isSome_map]

/-- An occurrence in a concatenation lies in one of the factors or straddles the seam. -/
lemma pair_infix_append_cases {a b : α} {xs ys : List α} (h : [a, b] <:+: xs ++ ys) :
    [a, b] <:+: xs ∨ [a, b] <:+: ys ∨ (xs.getLast? = some a ∧ ys.head? = some b) := by
  by_contra hnone
  simp only [not_or] at hnone
  obtain ⟨hxs, hys, hseam⟩ := hnone
  have hfind := find_pair_append ys hxs (by tauto)
  rw [find_eq_none_iff.mpr hys, Option.map_none, find_eq_none_iff] at hfind
  exact hfind h

omit [DecidableEq α] in
/-- Two letters side by side. -/
lemma pair_infix_of_getElem? {a b : α} {xs : List α} {i : ℕ} (ha : xs[i]? = some a)
    (hb : xs[i + 1]? = some b) : [a, b] <:+: xs := by
  obtain ⟨hi, rfl⟩ := List.getElem?_eq_some_iff.mp ha
  obtain ⟨hi', rfl⟩ := List.getElem?_eq_some_iff.mp hb
  have hdrop : xs.drop i = [xs[i], xs[i + 1]] ++ xs.drop (i + 2) := by
    rw [List.drop_eq_getElem_cons hi, List.drop_eq_getElem_cons hi']
    rfl
  refine ⟨xs.take i, xs.drop (i + 2), ?_⟩
  rw [List.append_assoc, ← hdrop, List.take_append_drop]

/-! ## Replacing the first occurrence -/

lemma replaceFirst_of_not_occurs {pat xs : List α} (h : ¬ pat <:+: xs) (value : List α) :
    replaceFirst pat value xs = xs := by
  simp [replaceFirst, find_eq_none_iff.mpr h]

lemma splitAround_eq_none_iff {pat xs : List α} :
    splitAround pat xs = none ↔ ¬ pat <:+: xs := by
  rw [splitAround, Option.map_eq_none_iff, find_eq_none_iff]

lemma replaceFirst_of_find {pat xs : List α} {i : ℕ} (h : find pat xs = some i)
    (value : List α) :
    replaceFirst pat value xs = xs.take i ++ value ++ xs.drop (i + pat.length) := by
  simp [replaceFirst, h]

/-- A word that splits around a pattern, and what replacing it gives. -/
lemma splitAround_eq_some {pat xs A B : List α} (h : splitAround pat xs = some (A, B)) :
    find pat xs = some A.length ∧ xs = A ++ pat ++ B ∧
      ∀ value, replaceFirst pat value xs = A ++ value ++ B := by
  simp only [splitAround, Option.map_eq_some_iff, Prod.mk.injEq] at h
  obtain ⟨i, hi, rfl, rfl⟩ := h
  have hlen : (xs.take i).length = i := by
    obtain ⟨A, B, rfl, rfl⟩ := find_eq_some_split hi
    rw [List.append_assoc, List.take_left]
  exact ⟨by rw [hlen, hi], find_eq_some_take hi, replaceFirst_of_find hi⟩

/-- A letter of neither the pattern nor the value stays, and no such letter is added. -/
lemma mem_replaceFirst_iff {pat value xs : List α} {x : α} (hpat : x ∉ pat) (hvalue : x ∉ value) :
    x ∈ replaceFirst pat value xs ↔ x ∈ xs := by
  cases hsplit : splitAround pat xs with
  | none => rw [replaceFirst_of_not_occurs (splitAround_eq_none_iff.mp hsplit)]
  | some parts =>
    obtain ⟨A, B⟩ := parts
    obtain ⟨-, hxs, hreplace⟩ := splitAround_eq_some hsplit
    rw [hreplace, hxs]
    simp [hpat, hvalue]

lemma exists_splitAround {pat xs : List α} (h : pat <:+: xs) :
    ∃ A B, splitAround pat xs = some (A, B) := by
  obtain ⟨i, hi⟩ := find_eq_some_of_occurs h
  exact ⟨_, _, by rw [splitAround, hi, Option.map_some]⟩

lemma replaceFirst_append_of_occurs {pat xs : List α} (h : pat <:+: xs) (value ys : List α) :
    replaceFirst pat value (xs ++ ys) = replaceFirst pat value xs ++ ys := by
  obtain ⟨A, B, hsplit⟩ := exists_splitAround h
  obtain ⟨hfind, hxs, hrep⟩ := splitAround_eq_some hsplit
  have hys := find_append_of_eq_some hfind ys
  have hdrop : (xs ++ ys).drop (A.length + pat.length) = B ++ ys := by
    rw [hxs, ← List.length_append, List.append_assoc (A ++ pat), List.drop_left]
  have htake : (xs ++ ys).take A.length = A := by
    rw [hxs, List.append_assoc, List.append_assoc, List.take_left]
  rw [replaceFirst_of_find hys, hdrop, htake, hrep]
  simp

lemma replaceFirst_pair_append {a b : α} {xs : List α} (value ys : List α)
    (habsent : ¬ [a, b] <:+: xs) (hseam : xs.getLast? ≠ some a ∨ ys.head? ≠ some b) :
    replaceFirst [a, b] value (xs ++ ys) = xs ++ replaceFirst [a, b] value ys := by
  have hfind := find_pair_append ys habsent hseam
  cases hys : find [a, b] ys with
  | none =>
    rw [hys] at hfind
    simp only [Option.map_none] at hfind
    simp [replaceFirst, hfind, hys]
  | some i =>
    rw [hys] at hfind
    simp only [Option.map_some] at hfind
    rw [replaceFirst_of_find hfind, replaceFirst_of_find hys, Nat.add_assoc, List.drop_append,
      List.take_append]
    simp [List.drop_eq_nil_of_le]

/-- Around a middle factor without the first letter of the pattern, and with no seam on its
left, the replacement happens in the left factor or else in the right one. -/
lemma replaceFirst_pair_middle {a b : α} {xs ms : List α} (value ys : List α) (hms : a ∉ ms)
    (hxs : xs.getLast? ≠ some a) :
    replaceFirst [a, b] value (xs ++ ms ++ ys) =
      if [a, b] <:+: xs then replaceFirst [a, b] value xs ++ ms ++ ys
      else xs ++ ms ++ replaceFirst [a, b] value ys := by
  split_ifs with hinf
  · rw [List.append_assoc, replaceFirst_append_of_occurs hinf, List.append_assoc]
  · have hlast : ms.getLast? ≠ some a := fun hl => hms (List.mem_of_getLast? hl)
    rw [List.append_assoc, replaceFirst_pair_append _ _ hinf (Or.inl hxs),
      replaceFirst_pair_append _ _ (not_pair_infix_of_notMem hms) (Or.inl hlast),
      List.append_assoc]

lemma pair_infix_middle_iff {a b : α} {xs ms ys : List α} (hms : a ∉ ms)
    (hxs : xs.getLast? ≠ some a) :
    [a, b] <:+: xs ++ ms ++ ys ↔ [a, b] <:+: xs ∨ [a, b] <:+: ys := by
  constructor
  · intro h
    rw [List.append_assoc] at h
    rcases pair_infix_append_cases h with h | h | ⟨h, -⟩
    · exact Or.inl h
    · exact Or.inr ((pair_infix_append_iff hms).mp h)
    · exact absurd h hxs
  · rintro (h | h)
    · rw [List.append_assoc]
      exact h.trans (List.prefix_append xs (ms ++ ys)).isInfix
    · exact h.trans (List.suffix_append (xs ++ ms) ys).isInfix

/-- Replacing one pair does not destroy a pair with the same first letter. -/
lemma pair_infix_replaceFirst {a b c : α} {xs : List α} (value : List α) (hab : a ≠ b)
    (hac : a ≠ c) (hbc : b ≠ c) (h : [a, b] <:+: xs) :
    [a, b] <:+: replaceFirst [a, c] value xs := by
  cases hsplit : splitAround [a, c] xs with
  | none => rwa [replaceFirst_of_not_occurs (splitAround_eq_none_iff.mp hsplit)]
  | some AB =>
    obtain ⟨A, B⟩ := AB
    obtain ⟨-, rfl, hrep⟩ := splitAround_eq_some hsplit
    rw [hrep, List.append_assoc]
    rw [List.append_assoc] at h
    rcases pair_infix_append_cases h with h | h | ⟨-, h⟩
    · exact h.trans (List.prefix_append A _).isInfix
    · rcases pair_infix_append_cases h with h | h | ⟨h, -⟩
      · have heq := h.eq_of_length rfl
        simp [hbc] at heq
      · exact h.trans ((List.suffix_append value B).trans (List.suffix_append A _)).isInfix
      · simp [hac.symm] at h
    · simp [hab] at h

/-! ## Words between separators -/

section Separator

omit [DecidableEq α]

variable {p : α → Bool} {u v M d e : List α}

lemma dropWhile_append_of_exists (ys : List α) (hM : ∃ x ∈ M, ¬ p x) :
    (M ++ ys).dropWhile p = M.dropWhile p ++ ys := by
  rw [List.dropWhile_append, if_neg]
  rw [List.isEmpty_iff, List.dropWhile_eq_nil_iff]
  push Not
  exact hM

/-- A word is determined by what stands left of it, if that ends in a run of `p`-letters
cut off by a fixed word with another letter. -/
lemma eq_of_append_sep_left (hd : ∀ x ∈ d, p x) (he : ∀ x ∈ e, p x) (hM : ∃ x ∈ M, ¬ p x)
    (h : d ++ M ++ u = e ++ M ++ v) : u = v := by
  have hdrop := congrArg (List.dropWhile p) h
  rw [List.append_assoc, List.append_assoc, List.dropWhile_append_of_pos hd,
    List.dropWhile_append_of_pos he, dropWhile_append_of_exists u hM,
    dropWhile_append_of_exists v hM] at hdrop
  exact List.append_cancel_left hdrop

/-- What stands before the first `a`, or before the end. -/
lemma takeWhile_append_of_notMem [DecidableEq α] {a : α} {A B : List α} (hA : a ∉ A)
    (hB : B = [] ∨ B.head? = some a) : (A ++ B).takeWhile (· ≠ a) = A := by
  have hall : ∀ x ∈ A, decide (x ≠ a) = true := by
    intro x hx
    exact decide_eq_true fun h => hA (h ▸ hx)
  have hstop : B.takeWhile (· ≠ a) = [] := by
    rcases hB with rfl | hB
    · rfl
    · obtain ⟨B, rfl⟩ := List.head?_eq_some_iff.mp hB
      simp
  rw [List.takeWhile_append_of_pos hall, hstop, List.append_nil]

/-- The mirror image of `eq_of_append_sep_left`. -/
lemma eq_of_append_sep_right (hd : ∀ x ∈ d, p x) (he : ∀ x ∈ e, p x) (hM : ∃ x ∈ M, ¬ p x)
    (h : u ++ M ++ d = v ++ M ++ e) : u = v := by
  have hrev := congrArg List.reverse h
  simp only [List.reverse_append, ← List.append_assoc] at hrev
  have huv := eq_of_append_sep_left (p := p) (M := M.reverse) (by simpa using hd)
    (by simpa using he) (by simpa using hM) hrev
  exact List.reverse_injective huv

end Separator

end Occurrence
