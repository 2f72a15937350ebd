import PamSshAgent.Library.Embedding

/-!
# When a loop bound is used up

The loops of a program have bounds that the code does not have.  A bound is harmless if the
runs that use it up can be told from their events: if such a run needs as many events of some
kind as the bound allows, every run with fewer of them comes to an end.
-/

namespace Interaction

variable {I J : Interface} {ε δ α β : Type}

namespace Prog

/-- The runs of the program that use up a loop bound have the property. -/
def SpinsOnly (R : List (Event I) → Prop) (p : Prog I ε α) : Prop :=
  ∀ es, p.Steps es spin → R es

variable {R R' : List (Event I) → Prop}

lemma spinsOnly_ret (a : α) : (ret a : Prog I ε α).SpinsOnly R := by
  intro es h
  cases h

lemma spinsOnly_fail (e : ε) : (fail e : Prog I ε α).SpinsOnly R := by
  intro es h
  cases h

lemma spinsOnly_spin (h : R []) : (spin : Prog I ε α).SpinsOnly R := by
  intro es hsteps
  cases hsteps
  exact h

lemma spinsOnly_ofExcept (x : Except ε α) : (ofExcept x : Prog I ε α).SpinsOnly R := by
  cases x with
  | ok a => exact spinsOnly_ret a
  | error e => exact spinsOnly_fail e

lemma SpinsOnly.mono {p : Prog I ε α} (h : p.SpinsOnly R) (hR : ∀ es, R es → R' es) :
    p.SpinsOnly R' :=
  fun es hsteps => hR es (h es hsteps)

lemma spinsOnly_ask {q : I.Query} {k : I.Reply q → Prog I ε α}
    (hk : ∀ r, (k r).SpinsOnly fun es => R (⟨q, r⟩ :: es)) : (ask q k).SpinsOnly R := by
  intro es h
  cases h with
  | ask h => exact hk _ _ h

/-- A composition uses up a bound in its first part, or in its second. -/
lemma SpinsOnly.bind {p : Prog I ε α} {f : α → Prog I ε β} (hp : p.SpinsOnly R)
    (hf : ∀ es a, p.Returns es a → (f a).SpinsOnly fun es' => R (es ++ es')) :
    (p >>= f).SpinsOnly R := by
  induction p generalizing R with
  | ret a => exact hf [] a (.refl _)
  | fail e => exact spinsOnly_fail e
  | spin => exact spinsOnly_spin (hp [] (.refl _))
  | ask q k ih =>
    refine spinsOnly_ask fun r => ih r (fun es h => hp _ (.ask h)) fun es a h => ?_
    exact hf _ a (.ask h)

lemma SpinsOnly.attempt {p : Prog I ε α} (hp : p.SpinsOnly R) :
    (p.attempt : Prog I δ (Except ε α)).SpinsOnly R := by
  induction p generalizing R with
  | ret a => exact spinsOnly_ret _
  | fail e => exact spinsOnly_ret _
  | spin => exact spinsOnly_spin (hp [] (.refl _))
  | ask q k ih => exact spinsOnly_ask fun r => ih r fun es h => hp _ (.ask h)

/-- The runs of a program over a larger interface. -/
lemma SpinsOnly.lift {f : Embedding I J} {R : List (Event J) → Prop} {p : Prog I ε α}
    (hp : p.SpinsOnly fun es => R (es.map f.event)) : (p.lift f).SpinsOnly R := by
  induction p generalizing R with
  | ret a => exact spinsOnly_ret a
  | fail e => exact spinsOnly_fail e
  | spin => exact spinsOnly_spin (hp [] (.refl _))
  | ask q k ih =>
    refine spinsOnly_ask fun r => ih _ fun es h => ?_
    have hcons : R (f.event ⟨q, f.reply q r⟩ :: es.map f.event) := hp _ (.ask h)
    have hevent : f.event ⟨q, f.reply q r⟩ = ⟨f.query q, r⟩ := by
      rw [Embedding.event, Equiv.symm_apply_apply]
    rwa [hevent] at hcons

/-- A run against a responder comes to an end unless it uses up a bound. -/
lemma exists_ends_run {σ : Type} (h : Responder I σ) (p : Prog I ε α) (s : σ)
    (hspin : (p.run h s).1 ≠ spin) : ∃ x, (p.run h s).1 = ofExcept x := by
  induction p generalizing s with
  | ret a => exact ⟨.ok a, rfl⟩
  | fail e => exact ⟨.error e, rfl⟩
  | spin => exact absurd rfl hspin
  | ask q k ih => exact ih _ _ hspin

/-- A run whose events do not show that it uses up a bound comes to an end. -/
lemma SpinsOnly.exists_ends {σ : Type} {h : Responder I σ} {p : Prog I ε α} {s : σ}
    (hp : p.SpinsOnly R) (hR : ¬ R (p.run h s).2.1) : ∃ x, (p.run h s).1 = ofExcept x := by
  refine exists_ends_run h p s fun hspin => hR (hp _ ?_)
  have hsteps := steps_run h p s
  rwa [hspin] at hsteps

end Prog

end Interaction
