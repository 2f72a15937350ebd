import Mathlib.Tactic

/-!
# Prefix codes

A code gives each letter a word.  If no word of a letter begins the word of another letter,
a text that is encoded letter by letter can be read back, whatever follows it.
-/

namespace PrefixCode

variable {α β : Type} {code : α → List β} {a b : α} {s t : List α} {x y : List β}

/-- Each letter has a word, and none is the beginning of the word of another letter. -/
structure IsPrefixCode (code : α → List β) : Prop where
  ne_nil : ∀ a, code a ≠ []
  prefix_free : ∀ a b, code a <+: code b → a = b

/-- A code is prefix-free if the first letter can be read next to any text. -/
lemma isPrefixCode_of_read (hne : ∀ a, code a ≠ []) (read : List β → Option α)
    (hread : ∀ a rest, read (code a ++ rest) = some a) : IsPrefixCode code := by
  refine ⟨hne, fun a b hprefix => ?_⟩
  obtain ⟨rest, hrest⟩ := hprefix
  have ha : read (code b) = some a := by
    rw [← hrest]
    exact hread a rest
  have hb : read (code b) = some b := by
    have h := hread b []
    rwa [List.append_nil] at h
  exact Option.some.inj (ha.symm.trans hb)

namespace IsPrefixCode

/-- The first letter and what follows it are determined. -/
lemma eq_of_append_eq (h : IsPrefixCode code) (heq : code a ++ x = code b ++ y) :
    a = b ∧ x = y := by
  have hsame : a = b := by
    have ha : code a <+: code b ++ y := heq ▸ List.prefix_append (code a) x
    rcases le_total (code a).length (code b).length with hle | hle
    · exact h.prefix_free a b (List.prefix_of_prefix_length_le ha (List.prefix_append _ _) hle)
    · exact (h.prefix_free b a
        (List.prefix_of_prefix_length_le (List.prefix_append _ _) ha hle)).symm
  subst hsame
  exact ⟨rfl, List.append_cancel_left heq⟩

/-- An encoded text at the beginning of another one is the code of a beginning of it. -/
lemma flatMap_append_eq_iff (h : IsPrefixCode code) :
    s.flatMap code ++ x = t.flatMap code ↔ ∃ u, t = s ++ u ∧ x = u.flatMap code := by
  induction s generalizing t with
  | nil =>
    constructor
    · intro heq
      exact ⟨t, rfl, heq⟩
    · rintro ⟨u, rfl, rfl⟩
      rfl
  | cons a s ih =>
    constructor
    · intro heq
      rw [List.flatMap_cons, List.append_assoc] at heq
      cases t with
      | nil =>
        have hnil := (List.append_eq_nil_iff.mp heq).1
        exact absurd hnil (h.ne_nil a)
      | cons b t =>
        rw [List.flatMap_cons] at heq
        obtain ⟨rfl, hrest⟩ := h.eq_of_append_eq heq
        obtain ⟨u, rfl, hx⟩ := ih.mp hrest
        exact ⟨u, rfl, hx⟩
    · rintro ⟨u, rfl, rfl⟩
      rw [List.flatMap_append]

/-- Different texts have different codes. -/
lemma flatMap_injective (h : IsPrefixCode code) :
    Function.Injective fun s : List α => s.flatMap code := by
  intro s t heq
  have hnil : s.flatMap code ++ [] = t.flatMap code := by rw [List.append_nil]; exact heq
  obtain ⟨u, rfl, hu⟩ := h.flatMap_append_eq_iff.mp hnil
  cases u with
  | nil => rw [List.append_nil]
  | cons a u =>
    have ha := (List.append_eq_nil_iff.mp hu.symm).1
    exact absurd ha (h.ne_nil a)

end IsPrefixCode

end PrefixCode
