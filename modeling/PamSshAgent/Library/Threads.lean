import PamSshAgent.Library.Halting
import PamSshAgent.Library.Typestate

/-!
# Threads over a shared state

Several programs run side by side: each step is a query of one of them, answered by the
state that they share, or a change made by others.  When every thread follows a typestate,
an invariant over the phases of all threads and the shared state holds in every
interleaving as soon as each single step keeps it.
-/

namespace Interaction

variable {I : Interface} {σ τ ι ε α : Type} [DecidableEq ι]

/-- The shared state and what is left to run of each thread. -/
structure Threads (I : Interface) (σ ι ε α : Type) where
  state : σ
  thread : ι → Prog I ε α

namespace Threads

variable {W : World I σ} {c c' : Threads I σ ι ε α}

/-- A thread has a query answered. -/
inductive StepOf (W : World I σ) (i : ι) : Threads I σ ι ε α → Threads I σ ι ε α → Prop
  | reply {s s' : σ} {thread : ι → Prog I ε α} {q : I.Query} {k : I.Reply q → Prog I ε α}
      {r : I.Reply q} (hi : thread i = .ask q k) (h : W.reply s ⟨q, r⟩ s') :
      StepOf W i ⟨s, thread⟩ ⟨s', Function.update thread i (k r)⟩

/-- A step of the system. -/
inductive Step (W : World I σ) : Threads I σ ι ε α → Threads I σ ι ε α → Prop
  | thread (i : ι) {c c' : Threads I σ ι ε α} (h : StepOf W i c c') : Step W c c'
  | interfere {s s' : σ} {thread : ι → Prog I ε α} (h : W.interfere s s') :
      Step W ⟨s, thread⟩ ⟨s', thread⟩

/-- Any number of steps. -/
abbrev Reaches (W : World I σ) : Threads I σ ι ε α → Threads I σ ι ε α → Prop :=
  Relation.ReflTransGen (Step W)

/-- A fact about the shared state that every reply and every change keeps. -/
lemma Reaches.state {P : σ → Prop} (hstable : Stable W P)
    (hreply : ∀ s e s', W.reply s e s' → P s → P s') (h : Reaches W c c') (hc : P c.state) :
    P c'.state := by
  induction h with
  | refl => exact hc
  | tail _ hstep ih =>
    cases hstep with
    | thread i hi =>
      cases hi with
      | reply _ h => exact hreply _ _ _ h ih
    | interfere h => exact hstable _ _ h ih

/-- Each thread follows its typestate, and the invariant of the phases holds. -/
def Keeps (T : ι → Typestate I τ) (post : ι → Except ε α → τ → Prop) (Inv : (ι → τ) → σ → Prop)
    (c : Threads I σ ι ε α) : Prop :=
  ∃ phase : ι → τ, (∀ i, (c.thread i).Follows (T i) (post i) (phase i)) ∧ Inv phase c.state

variable {T : ι → Typestate I τ} {post : ι → Except ε α → τ → Prop} {Inv : (ι → τ) → σ → Prop}

lemma Step.keeps (hstable : ∀ phase, Stable W (Inv phase))
    (hreply : ∀ phase i t e s s', T i (phase i) e = some t → W.reply s e s' → Inv phase s →
      Inv (Function.update phase i t) s')
    (h : Step W c c') (hc : c.Keeps T post Inv) : c'.Keeps T post Inv := by
  obtain ⟨phase, hfollows, hinv⟩ := hc
  cases h with
  | interfere h => exact ⟨phase, hfollows, hstable phase _ _ h hinv⟩
  | thread i h =>
    cases h with
    | @reply s s' thread q k r hi h =>
      have hask := hfollows i
      simp only [hi] at hask
      obtain ⟨t, ht, hk⟩ := hask r
      refine ⟨Function.update phase i t, fun j => ?_, hreply phase i t _ s s' ht h hinv⟩
      by_cases hj : j = i
      · subst hj
        simpa using hk
      · simpa [Function.update_of_ne hj] using hfollows j

/-- The invariant holds in every interleaving. -/
lemma Reaches.keeps (hstable : ∀ phase, Stable W (Inv phase))
    (hreply : ∀ phase i t e s s', T i (phase i) e = some t → W.reply s e s' → Inv phase s →
      Inv (Function.update phase i t) s')
    (h : Reaches W c c') (hc : c.Keeps T post Inv) : c'.Keeps T post Inv := by
  induction h with
  | refl => exact hc
  | tail _ hstep ih => exact hstep.keeps hstable hreply ih

/-- No thread has a loop whose bound could be used up. -/
lemma Reaches.ne_spin (h : Reaches W c c')
    (hc : ∀ i, (c.thread i).SpinsOnly fun _ => False) (i : ι) : c'.thread i ≠ .spin := by
  have hall : ∀ i, (c'.thread i).SpinsOnly fun _ => False := by
    induction h with
    | refl => exact hc
    | tail _ hstep ih =>
      cases hstep with
      | interfere h => exact ih
      | thread j h =>
        cases h with
        | @reply s s' thread q k r hj h =>
          intro i
          by_cases hi : i = j
          · subst hi
            intro es hsteps
            have hask := ih i
            simp only [hj] at hask
            simp only [Function.update_self] at hsteps
            exact hask _ (.ask hsteps)
          · simpa [Function.update_of_ne hi] using ih i
  intro hspin
  refine hall i [] ?_
  rw [hspin]
  exact .refl _

end Threads

end Interaction
