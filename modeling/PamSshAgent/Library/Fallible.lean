import Mathlib.Tactic

/-!
# Computations that may fail

The equations of `Except` under `>>=`, and the inversion of a composition and of a fold
that succeeded.
-/

namespace Except

variable {ε α β : Type}

@[simp] lemma ok_bind (a : α) (f : α → Except ε β) : (Except.ok a >>= f) = f a := rfl

@[simp] lemma error_bind (e : ε) (f : α → Except ε β) : (Except.error e >>= f) = .error e := rfl

@[simp] lemma pure_eq_ok (a : α) : (pure a : Except ε α) = .ok a := rfl

@[simp] lemma throw_eq_error (e : ε) : (throw e : Except ε α) = .error e := rfl

/-- A statement about the result, if there is one. -/
instance decidableForallOk {x : Except ε α} {P : α → Prop} [DecidablePred P] :
    Decidable (∀ a, x = .ok a → P a) :=
  match x with
  | .error _ => isTrue fun _ h => nomatch h
  | .ok a => decidable_of_iff (P a) ⟨fun h _ hb => Except.ok.inj hb ▸ h, fun h => h a rfl⟩

/-- A composition succeeds when its first part does and then its second. -/
lemma bind_eq_ok_iff {x : Except ε α} {f : α → Except ε β} {b : β} :
    (x >>= f) = .ok b ↔ ∃ a, x = .ok a ∧ f a = .ok b := by
  cases x <;> simp

lemma foldlM_cons_eq_ok_iff {f : β → α → Except ε β} {b b' : β} {x : α} {xs : List α} :
    (x :: xs).foldlM f b = .ok b' ↔ ∃ c, f b x = .ok c ∧ xs.foldlM f c = .ok b' := by
  rw [List.foldlM_cons, bind_eq_ok_iff]

/-- In a fold that succeeded every single round did. -/
lemma foldlM_eq_ok_mem {f : β → α → Except ε β} {b b' : β} {xs : List α}
    (h : xs.foldlM f b = .ok b') : ∀ x ∈ xs, ∃ c c', f c x = .ok c' := by
  induction xs generalizing b with
  | nil => simp
  | cons y ys ih =>
    obtain ⟨c, hc, hys⟩ := foldlM_cons_eq_ok_iff.mp h
    intro x hx
    rcases List.mem_cons.mp hx with rfl | hx
    · exact ⟨b, c, hc⟩
    · exact ih hys x hx

/-- A fold succeeds if every round does, whatever it starts from. -/
lemma foldlM_isOk {f : β → α → Except ε β} {xs : List α}
    (h : ∀ x ∈ xs, ∀ b, ∃ b', f b x = .ok b') (b : β) : ∃ b', xs.foldlM f b = .ok b' := by
  induction xs generalizing b with
  | nil => exact ⟨b, rfl⟩
  | cons y ys ih =>
    obtain ⟨c, hc⟩ := h y List.mem_cons_self b
    obtain ⟨b', hys⟩ := ih (fun x hx => h x (List.mem_cons_of_mem y hx)) c
    exact ⟨b', foldlM_cons_eq_ok_iff.mpr ⟨c, hc, hys⟩⟩

end Except
