import PamSshAgent.Library.Embedding

/-!
# Responders put together

The surroundings of a program often have parts that know nothing of each other: the files,
the peer, the clock.  A responder for a sum of interfaces is put together from one for each,
and each part keeps a state of its own.
-/

namespace Interaction

variable {I J K : Interface} {σ τ : Type}

namespace Prog

/-- The replies of two responders that share their state. -/
def Responder.sum (h : Responder I σ) (h' : Responder J σ) : Responder (I.sum J) σ
  | .inl q, s => h q s
  | .inr q, s => h' q s

/-- The responder works on the first part of the state. -/
def Responder.onFst (h : Responder I σ) : Responder I (σ × τ)
  | q, s => ((h q s.1).1, (h q s.1).2, s.2)

/-- The responder works on the second part of the state. -/
def Responder.onSnd (h : Responder I τ) : Responder I (σ × τ)
  | q, s => ((h q s.2).1, s.1, (h q s.2).2)

/-- The events of the left interface are answered by its responder. -/
lemma answers_inl {h : Responder I σ} {h' : Responder J σ} {es : List (Event I)} {s s' : σ} :
    Answers (h.sum h') s (es.map Embedding.inl.event) s' ↔ Answers h s es s' := by
  induction es generalizing s with
  | nil => exact Iff.rfl
  | cons e es ih => exact and_congr_right fun _ => ih

/-- The events of the right interface are answered by its responder. -/
lemma answers_inr {h : Responder I σ} {h' : Responder J σ} {es : List (Event J)} {s s' : σ} :
    Answers (h.sum h') s (es.map Embedding.inr.event) s' ↔ Answers h' s es s' := by
  induction es generalizing s with
  | nil => exact Iff.rfl
  | cons e es ih => exact and_congr_right fun _ => ih

lemma answers_onFst {h : Responder I σ} {es : List (Event I)} {s s' : σ × τ} :
    Answers h.onFst s es s' ↔ Answers h s.1 es s'.1 ∧ s'.2 = s.2 := by
  induction es generalizing s with
  | nil =>
    constructor
    · rintro rfl
      exact ⟨rfl, rfl⟩
    · rintro ⟨hfst, hsnd⟩
      exact Prod.ext hfst hsnd.symm
  | cons e es ih =>
    rw [Answers, Answers, ih, and_assoc]
    exact Iff.rfl

lemma answers_onSnd {h : Responder I τ} {es : List (Event I)} {s s' : σ × τ} :
    Answers h.onSnd s es s' ↔ Answers h s.2 es s'.2 ∧ s'.1 = s.1 := by
  induction es generalizing s with
  | nil =>
    constructor
    · rintro rfl
      exact ⟨rfl, rfl⟩
    · rintro ⟨hsnd, hfst⟩
      exact Prod.ext hfst.symm hsnd
  | cons e es ih =>
    rw [Answers, Answers, ih, and_assoc]
    exact Iff.rfl

end Prog

lemma Embedding.map_event_comp (f : Embedding J K) (g : Embedding I J) (es : List (Event I)) :
    es.map (f.comp g).event = (es.map g.event).map f.event := by
  rw [List.map_map]
  exact List.map_congr_left fun e _ => rfl

end Interaction
