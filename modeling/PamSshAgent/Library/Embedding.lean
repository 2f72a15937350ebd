import PamSshAgent.Library.Interaction
import Mathlib.Logic.Equiv.Defs

/-!
# Programs over a larger interface

A program over one interface is also a program over every interface that contains it.  The
runs of the two programs correspond to each other.
-/

namespace Interaction

variable {I J K : Interface} {ε α β : Type}

/-- An interface is contained in another one: each of its queries is one of the other's,
with the same replies. -/
structure Embedding (I J : Interface) where
  /-- The query of the larger interface. -/
  query : I.Query → J.Query
  /-- The correspondence of the replies. -/
  reply : ∀ q, J.Reply (query q) ≃ I.Reply q

/-- The queries of two interfaces side by side. -/
def Interface.sum (I J : Interface) : Interface := ⟨I.Query ⊕ J.Query, Sum.elim I.Reply J.Reply⟩

namespace Embedding

/-- The left part of a sum. -/
def inl : Embedding I (I.sum J) := ⟨Sum.inl, fun _ => Equiv.refl _⟩

/-- The right part of a sum. -/
def inr : Embedding J (I.sum J) := ⟨Sum.inr, fun _ => Equiv.refl _⟩

/-- The composition of two embeddings. -/
def comp (f : Embedding J K) (g : Embedding I J) : Embedding I K :=
  ⟨f.query ∘ g.query, fun q => (f.reply (g.query q)).trans (g.reply q)⟩

/-- The event of the larger interface. -/
def event (f : Embedding I J) (e : Event I) : Event J :=
  ⟨f.query e.query, (f.reply e.query).symm e.reply⟩

/-- Events of the larger interface that are recorded with something, when they are those of the
smaller one. -/
lemma exists_recorded {σ : Type} {f : Embedding I J} {tr : List (σ × Event J)} {es : List (Event I)}
    (h : tr.map Prod.snd = es.map f.event) :
    ∃ tr' : List (σ × Event I), tr = tr'.map (Prod.map id f.event) ∧
      tr'.map Prod.snd = es := by
  induction tr generalizing es with
  | nil =>
    obtain rfl := List.map_eq_nil_iff.mp h.symm
    exact ⟨[], rfl, rfl⟩
  | cons x tr ih =>
    obtain ⟨e, es, rfl, he, hes⟩ := List.map_eq_cons_iff.mp h.symm
    obtain ⟨tr', rfl, rfl⟩ := ih hes.symm
    exact ⟨(x.1, e) :: tr', by rw [List.map_cons, Prod.map, he]; rfl, rfl⟩

end Embedding

namespace Prog

/-- The program over the larger interface. -/
def lift (f : Embedding I J) : Prog I ε α → Prog J ε α
  | ret a => ret a
  | fail e => fail e
  | spin => spin
  | ask q k => ask (f.query q) fun r => (k (f.reply q r)).lift f

/-- The runs of a program over a larger interface are its runs, event by event. -/
lemma ends_lift {f : Embedding I J} {p : Prog I ε α} {es : List (Event J)} {x : Except ε α} :
    (p.lift f).Ends es x ↔ ∃ es', es = es'.map f.event ∧ p.Ends es' x := by
  induction p generalizing es with
  | ret a => simp [lift]
  | fail e => simp [lift]
  | spin => simp [lift]
  | ask q k ih =>
    rw [lift, ends_ask]
    simp only [ih, ends_ask]
    constructor
    · rintro ⟨r, _, rfl, es', rfl, h⟩
      refine ⟨⟨q, f.reply q r⟩ :: es', ?_, _, es', rfl, h⟩
      rw [List.map_cons, Embedding.event, Equiv.symm_apply_apply]
    · rintro ⟨_, rfl, r, es', rfl, h⟩
      exact ⟨(f.reply q).symm r, es'.map f.event, rfl, es', rfl, by rwa [Equiv.apply_symm_apply]⟩

/-- The steps of a program over a larger interface are its steps. -/
lemma steps_lift {f : Embedding I J} {p : Prog I ε α} {es : List (Event J)} {p' : Prog J ε α}
    (h : (p.lift f).Steps es p') : ∃ es' p'', es = es'.map f.event ∧ p.Steps es' p'' := by
  induction p generalizing es with
  | ret a =>
    cases h with
    | refl => exact ⟨[], _, rfl, .refl _⟩
  | fail e =>
    cases h with
    | refl => exact ⟨[], _, rfl, .refl _⟩
  | spin =>
    cases h with
    | refl => exact ⟨[], _, rfl, .refl _⟩
  | ask q k ih =>
    cases h with
    | refl => exact ⟨[], _, rfl, .refl _⟩
    | @ask _ _ r es _ h =>
      obtain ⟨es', p'', rfl, hk⟩ := ih (f.reply q r) h
      refine ⟨⟨q, f.reply q r⟩ :: es', p'', ?_, .ask hk⟩
      rw [List.map_cons, Embedding.event, Equiv.symm_apply_apply]

lemma returns_lift {f : Embedding I J} {p : Prog I ε α} {es : List (Event J)} {a : α} :
    (p.lift f).Returns es a ↔ ∃ es', es = es'.map f.event ∧ p.Returns es' a :=
  ends_lift (x := .ok a)

/-- What a program asks over a larger interface, after the events `before` of that one. -/
lemma AsksAfter.lift {f : Embedding I J} {Q : List (Event J) → J.Query → Prop} {p : Prog I ε α}
    {before : List (Event J)} {es : List (Event I)}
    (h : p.AsksAfter (fun es q => Q (before ++ es.map f.event) (f.query q)) es) :
    (p.lift f).AsksAfter Q (before ++ es.map f.event) := by
  induction p generalizing es with
  | ret a => trivial
  | fail e => trivial
  | spin => trivial
  | ask q k ih =>
    refine ⟨h.1, fun r => ?_⟩
    have hk := ih (f.reply q r) (h.2 (f.reply q r))
    have hevent : f.event ⟨q, f.reply q r⟩ = ⟨f.query q, r⟩ := by
      rw [Embedding.event, Equiv.symm_apply_apply]
    rwa [List.map_append, ← List.append_assoc, List.map_cons, hevent] at hk

/-- A program that asks nothing but what is always fine. -/
lemma asksAfter_lift {f : Embedding I J} {Q : List (Event J) → J.Query → Prop}
    (h : ∀ before q, Q before (f.query q)) (p : Prog I ε α) (before : List (Event J)) :
    (p.lift f).AsksAfter Q before := by
  induction p generalizing before with
  | ret a => trivial
  | fail e => trivial
  | spin => trivial
  | ask q k ih => exact ⟨h before q, fun r => ih _ _⟩

end Prog

end Interaction
