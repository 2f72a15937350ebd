import PamSshAgent.Library.Embedding

/-!
# Programs that fail closed

Some replies must not be survived: a program fails closed on a kind of events if it never
returns a value after it has met one of them.  A composition fails closed if its parts do; a
part that is attempted needs it only where the program goes on after its failure.
-/

namespace Interaction

variable {I J : Interface} {ε δ α β : Type}

namespace Prog

/-- The program returns no value, whatever the replies are. -/
def NeverReturns (p : Prog I ε α) : Prop := ∀ es a, ¬ p.Returns es a

/-- The program returns no value once it has met an event of `Q`. -/
def FailsClosed (Q : Event I → Prop) (p : Prog I ε α) : Prop :=
  ∀ es a, p.Returns es a → ∀ e ∈ es, ¬ Q e

lemma neverReturns_fail (e : ε) : (fail e : Prog I ε α).NeverReturns :=
  fun _ _ => not_returns_fail

variable {Q : Event I → Prop}

lemma NeverReturns.failsClosed {p : Prog I ε α} (h : p.NeverReturns) : p.FailsClosed Q :=
  fun es a hreturns => absurd hreturns (h es a)

lemma failsClosed_ret (a : α) : (ret a : Prog I ε α).FailsClosed Q := by
  intro es b h
  obtain ⟨rfl, -⟩ := returns_ret.mp h
  exact List.forall_mem_nil _

lemma failsClosed_fail (e : ε) : (fail e : Prog I ε α).FailsClosed Q :=
  (neverReturns_fail e).failsClosed

lemma failsClosed_spin : (spin : Prog I ε α).FailsClosed Q :=
  fun _ _ h => absurd h not_returns_spin

lemma failsClosed_ofExcept (x : Except ε α) : (ofExcept x : Prog I ε α).FailsClosed Q := by
  cases x with
  | ok a => exact failsClosed_ret a
  | error e => exact failsClosed_fail e

/-- After a reply that must not be survived, the program must not return. -/
lemma failsClosed_ask {q : I.Query} {k : I.Reply q → Prog I ε α}
    (hreply : ∀ r, Q ⟨q, r⟩ → (k r).NeverReturns) (hk : ∀ r, (k r).FailsClosed Q) :
    (ask q k).FailsClosed Q := by
  intro es a h
  obtain ⟨r, es', rfl, hrest⟩ := returns_ask.mp h
  refine List.forall_mem_cons.mpr ⟨fun hq => hreply r hq es' a hrest, hk r es' a hrest⟩

lemma FailsClosed.bind {p : Prog I ε α} {f : α → Prog I ε β} (hp : p.FailsClosed Q)
    (hf : ∀ a, (f a).FailsClosed Q) : (p >>= f).FailsClosed Q := by
  intro es b h
  obtain ⟨es₁, es₂, a, rfl, h₁, h₂⟩ := returns_bind.mp h
  intro e he
  rcases List.mem_append.mp he with he | he
  · exact hp es₁ a h₁ e he
  · exact hf a es₂ b h₂ e he

/-- What goes on after a failure matters only where the failure is survived. -/
lemma FailsClosed.attempt_bind {p : Prog I ε α} {f : Except ε α → Prog I δ β}
    (hp : p.FailsClosed Q) (hf : ∀ x, (f x).FailsClosed Q)
    (hfail : ∀ es e, p.Fails es e → (f (.error e)).NeverReturns ∨ ∀ e ∈ es, ¬ Q e) :
    (p.attempt >>= f).FailsClosed Q := by
  intro es b h
  obtain ⟨es₁, es₂, x, rfl, h₁, h₂⟩ := returns_bind.mp h
  have hfirst : ∀ e ∈ es₁, ¬ Q e := by
    rcases returns_attempt.mp h₁ with ⟨a, rfl, ha⟩ | ⟨e, rfl, he⟩
    · exact hp es₁ a ha
    · rcases hfail es₁ e he with hnever | hclean
      · exact absurd h₂ (hnever es₂ b)
      · exact hclean
  intro e he
  rcases List.mem_append.mp he with he | he
  · exact hfirst e he
  · exact hf x es₂ b h₂ e he

/-- A program that asks nothing that could be replied so. -/
lemma Asks.failsClosed {Q' : I.Query → Prop} {p : Prog I ε α} (h : p.Asks Q')
    (hQ : ∀ e : Event I, Q' e.query → ¬ Q e) : p.FailsClosed Q :=
  fun _ _ hreturns e he => hQ e (Steps.asks hreturns h e he)

/-- The parts of a program over a larger interface. -/
lemma FailsClosed.lift {f : Embedding I J} {Q : Event J → Prop} {p : Prog I ε α}
    (h : p.FailsClosed fun e => Q (f.event e)) : (p.lift f).FailsClosed Q := by
  intro es a hreturns
  obtain ⟨es', rfl, hp⟩ := returns_lift.mp hreturns
  intro e he
  obtain ⟨e', he', rfl⟩ := List.mem_map.mp he
  exact h es' a hp e' he'

end Prog

end Interaction
