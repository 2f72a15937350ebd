import PamSshAgent.Library.Embedding
import PamSshAgent.Library.Interference

/-!
# Programs that follow a typestate

A typestate says which events are allowed in which phase and which phase comes next.  A
program follows it if all its runs do, whatever the replies are.  In a world whose states
satisfy an invariant that depends on the phase, every event of such a program is then
answered in a state with the invariant of some phase in which the event is allowed.
-/

namespace Interaction

variable {I : Interface} {τ σ ε δ α β : Type}

/-- A typestate: the phase after an event, if the event is allowed. -/
abbrev Typestate (I : Interface) (τ : Type) : Type := τ → Event I → Option τ

namespace Prog

/-- The program follows the typestate `T` from a phase, and how it ends fits the phase it is
then in. -/
def Follows (T : Typestate I τ) (post : Except ε α → τ → Prop) : Prog I ε α → τ → Prop
  | ret a, t => post (.ok a) t
  | fail e, t => post (.error e) t
  | spin, _ => True
  | ask q k, t => ∀ r, ∃ t', T t ⟨q, r⟩ = some t' ∧ (k r).Follows T post t'

variable {T : Typestate I τ} {t : τ}

lemma Follows.mono {post post' : Except ε α → τ → Prop} {p : Prog I ε α}
    (h : p.Follows T post t) (hpost : ∀ x t', post x t' → post' x t') : p.Follows T post' t := by
  induction p generalizing t with
  | ret a => exact hpost _ _ h
  | fail e => exact hpost _ _ h
  | spin => trivial
  | ask q k ih =>
    intro r
    obtain ⟨t', ht, hk⟩ := h r
    exact ⟨t', ht, ih r hk⟩

/-- A program may start in a phase that allows at least the same events. -/
lemma Follows.start {post : Except ε α → τ → Prop} {p : Prog I ε α} {t₀ : τ}
    (h : p.Follows T post t) (hstart : ∀ e t', T t e = some t' → T t₀ e = some t')
    (hpost : ∀ x, post x t → post x t₀) : p.Follows T post t₀ := by
  cases p with
  | ret a => exact hpost _ h
  | fail e => exact hpost _ h
  | spin => trivial
  | ask q k =>
    intro r
    obtain ⟨t', ht, hk⟩ := h r
    exact ⟨t', hstart _ _ ht, hk⟩

/-- A composition follows the typestate if its second part does from where the first ends. -/
lemma Follows.bind {mid : Except ε α → τ → Prop} {post : Except ε β → τ → Prop}
    {p : Prog I ε α} {f : α → Prog I ε β} (hp : p.Follows T mid t)
    (hf : ∀ a t', mid (.ok a) t' → (f a).Follows T post t')
    (hfail : ∀ e t', mid (.error e) t' → post (.error e) t') : (p >>= f).Follows T post t := by
  induction p generalizing t with
  | ret a => exact hf a t hp
  | fail e => exact hfail e t hp
  | spin => trivial
  | ask q k ih =>
    intro r
    obtain ⟨t', ht, hk⟩ := hp r
    exact ⟨t', ht, ih r hk⟩

lemma Follows.attempt {post : Except ε α → τ → Prop} {p : Prog I ε α}
    (h : p.Follows T post t) :
    (p.attempt : Prog I δ (Except ε α)).Follows T
      (fun x t' => ∃ y, x = .ok y ∧ post y t') t := by
  induction p generalizing t with
  | ret a => exact ⟨_, rfl, h⟩
  | fail e => exact ⟨_, rfl, h⟩
  | spin => trivial
  | ask q k ih =>
    intro r
    obtain ⟨t', ht, hk⟩ := h r
    exact ⟨t', ht, ih r hk⟩

/-- What goes on after an attempt has to fit both ways in which the attempt can end. -/
lemma Follows.attempt_bind {mid : Except ε α → τ → Prop} {post : Except δ β → τ → Prop}
    {p : Prog I ε α} {f : Except ε α → Prog I δ β} (hp : p.Follows T mid t)
    (hf : ∀ x t', mid x t' → (f x).Follows T post t') :
    (p.attempt >>= f).Follows T post t := by
  refine (Follows.attempt hp).bind ?_ ?_
  · rintro x t' ⟨y, hy, hmid⟩
    obtain rfl := Except.ok.inj hy
    exact hf x t' hmid
  · rintro e t' ⟨y, hy, -⟩
    exact absurd hy (by simp)

lemma follows_ofExcept {post : Except ε α → τ → Prop} {x : Except ε α} (h : post x t) :
    (ofExcept x : Prog I ε α).Follows T post t := by
  cases x <;> exact h

/-- A check asks nothing. -/
lemma follows_ofExcept_bind {post : Except ε β → τ → Prop} {x : Except ε α} {f : α → Prog I ε β}
    (hf : ∀ a, (f a).Follows T post t) (hfail : ∀ e, post (.error e) t) :
    (ofExcept x >>= f).Follows T post t := by
  cases x with
  | ok a => exact hf a
  | error e => exact hfail e

/-- A program whose queries are allowed in a phase and do not leave it stays in it. -/
lemma Asks.follows {Q : I.Query → Prop} {p : Prog I ε α} (h : p.Asks Q)
    (hstay : ∀ e : Event I, Q e.query → T t e = some t) : p.Follows T (fun _ t' => t' = t) t := by
  induction p with
  | ret a => rfl
  | fail e => rfl
  | spin => trivial
  | ask q k ih => exact fun r => ⟨t, hstay ⟨q, r⟩ h.1, ih r (h.2 r)⟩

/-- A program over a larger interface follows a typestate that does with its events what its
own typestate does. -/
lemma Follows.lift {J : Interface} {υ : Type} {f : Embedding I J} {U : Typestate J υ}
    (place : τ → υ) (hplace : ∀ t e t', T t e = some t' → U (place t) (f.event e) = some (place t'))
    {post : Except ε α → τ → Prop} {p : Prog I ε α} (h : p.Follows T post t) :
    (p.lift f).Follows U (fun x u => ∃ t', u = place t' ∧ post x t') (place t) := by
  induction p generalizing t with
  | ret a => exact ⟨t, rfl, h⟩
  | fail e => exact ⟨t, rfl, h⟩
  | spin => trivial
  | ask q k ih =>
    intro r
    obtain ⟨t', ht, hk⟩ := h (f.reply q r)
    have hevent : f.event ⟨q, f.reply q r⟩ = ⟨f.query q, r⟩ := by
      rw [Embedding.event, Equiv.symm_apply_apply]
    refine ⟨place t', ?_, ih _ hk⟩
    rw [← hevent]
    exact hplace t _ t' ht

/-- In phases that are not left, a program asks only what they allow with every reply. -/
lemma Follows.asks {post : Except ε α → τ → Prop} {Inv : τ → Prop} {Q : I.Query → Prop}
    {p : Prog I ε α} (h : p.Follows T post t)
    (hask : ∀ t q, Inv t → (∀ r, ∃ t', T t ⟨q, r⟩ = some t') → Q q)
    (hstep : ∀ t e t', Inv t → T t e = some t' → Inv t') (ht : Inv t) : p.Asks Q := by
  induction p generalizing t with
  | ret a => trivial
  | fail e => trivial
  | spin => trivial
  | ask q k ih =>
    refine ⟨hask t q ht fun r => ?_, fun r => ?_⟩
    · obtain ⟨t', htr, -⟩ := h r
      exact ⟨t', htr⟩
    · obtain ⟨t', htr, hk⟩ := h r
      exact ih r hk (hstep t ⟨q, r⟩ t' ht htr)

/-- The events of a run are allowed one after the other. -/
lemma Steps.follows {post : Except ε α → τ → Prop} {p p' : Prog I ε α} {es : List (Event I)}
    (h : Steps p es p') (hp : p.Follows T post t) :
    ∃ t', es.foldlM T t = some t' ∧ p'.Follows T post t' := by
  induction h generalizing t with
  | refl p => exact ⟨t, rfl, hp⟩
  | @ask q k r es p' _ ih =>
    obtain ⟨t₁, ht₁, hk⟩ := hp r
    obtain ⟨t₂, ht₂, hp'⟩ := ih hk
    refine ⟨t₂, ?_, hp'⟩
    rw [List.foldlM_cons, ht₁]
    exact ht₂

end Prog

/-- The program makes the steps to `p'` in the world, from `s` to `s'`, with the answered
events `tr`. -/
def StepsIn (W : World I σ) (p : Prog I ε α) (s : σ) (tr : List (σ × Event I)) (s' : σ)
    (p' : Prog I ε α) : Prop :=
  Serves W s tr s' ∧ p.Steps (tr.map Prod.snd) p'

/-- An invariant that depends on the phase holds in every state of a run that follows the
typestate. -/
lemma Serves.follows {W : World I σ} {T : Typestate I τ} {Inv : τ → σ → Prop}
    (hstable : ∀ t, Stable W (Inv t))
    (hreply : ∀ t t' s s' e, T t e = some t' → W.reply s e s' → Inv t s → Inv t' s')
    {s s' : σ} {tr : List (σ × Event I)} {t t' : τ} (h : Serves W s tr s')
    (htr : (tr.map Prod.snd).foldlM T t = some t') (hs : Inv t s) :
    (∀ x ∈ tr, ∃ t₁ t₂, T t₁ x.2 = some t₂ ∧ Inv t₁ x.1) ∧ Inv t' s' := by
  induction h generalizing t with
  | done s =>
    obtain rfl := Option.some.inj htr
    exact ⟨by simp, hs⟩
  | interfere hi _ ih => exact ih htr (hstable t _ _ hi hs)
  | @reply s₁ _ _ e tr hr _ ih =>
    rw [List.map_cons, List.foldlM_cons] at htr
    obtain ⟨t₁, ht₁, hrest⟩ := Option.bind_eq_some_iff.mp htr
    obtain ⟨hall, hend⟩ := ih hrest (hreply _ _ _ _ _ ht₁ hr hs)
    refine ⟨fun x hx => ?_, hend⟩
    rcases List.mem_cons.mp hx with rfl | hx
    · exact ⟨t, t₁, ht₁, hs⟩
    · exact hall x hx

/-- Every event of a program that follows the typestate is answered in a state with the
invariant of a phase that allows it. -/
lemma StepsIn.follows {W : World I σ} {T : Typestate I τ} {Inv : τ → σ → Prop}
    (hstable : ∀ t, Stable W (Inv t))
    (hreply : ∀ t t' s s' e, T t e = some t' → W.reply s e s' → Inv t s → Inv t' s')
    {post : Except ε α → τ → Prop} {p p' : Prog I ε α} {s s' : σ} {tr : List (σ × Event I)}
    {t : τ} (h : StepsIn W p s tr s' p') (hp : p.Follows T post t) (hs : Inv t s) :
    ∀ x ∈ tr, ∃ t₁ t₂, T t₁ x.2 = some t₂ ∧ Inv t₁ x.1 := by
  obtain ⟨t', htr, -⟩ := h.2.follows hp
  exact (h.1.follows hstable hreply htr hs).1

end Interaction
