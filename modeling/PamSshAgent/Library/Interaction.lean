import Mathlib.Tactic

/-!
# Programs that interact with their surroundings

A program that calls its operating system, a peer or a clock is a tree: each node asks a
query, and for each reply there is a program that goes on.  The surroundings are not part
of the tree; what they reply is quantified over when something is proved about the
program.  This file sets up such programs, the runs of a program against arbitrary replies
and the run against a given responder.
-/

namespace Interaction

/-- The queries a program can ask and, for each query, the type of its replies. -/
structure Interface where
  /-- What can be asked. -/
  Query : Type
  /-- What can come back. -/
  Reply : Query → Type

/-- A query together with the reply it got. -/
structure Event (I : Interface) where
  /-- The query. -/
  query : I.Query
  /-- Its reply. -/
  reply : I.Reply query

/-- A program over an interface, with errors of type `ε` and results of type `α`. -/
inductive Prog (I : Interface) (ε α : Type) : Type where
  /-- The program returns. -/
  | ret (a : α)
  /-- The program fails. -/
  | fail (e : ε)
  /-- The program is still running when its loop bound is used up. -/
  | spin
  /-- The program asks a query and goes on with the reply. -/
  | ask (q : I.Query) (k : I.Reply q → Prog I ε α)

namespace Prog

variable {I J : Interface} {ε δ α β : Type}

/-- Sequential composition; a failure ends the whole program. -/
def bind : Prog I ε α → (α → Prog I ε β) → Prog I ε β
  | ret a, f => f a
  | fail e, _ => fail e
  | spin, _ => spin
  | ask q k, f => ask q fun r => (k r).bind f

instance : Monad (Prog I ε) where
  pure := ret
  bind := bind

/-- Ask a query and return the reply. -/
def query (q : I.Query) : Prog I ε (I.Reply q) := ask q ret

/-- Return a value or fail with an error. -/
def ofExcept : Except ε α → Prog I ε α
  | .ok a => ret a
  | .error e => fail e

/-- Run a program and hand its failure, if any, to the caller as a value. -/
def attempt : Prog I ε α → Prog I δ (Except ε α)
  | ret a => ret (.ok a)
  | fail e => ret (.error e)
  | spin => spin
  | ask q k => ask q fun r => (k r).attempt

@[simp] lemma pure_eq (a : α) : (pure a : Prog I ε α) = ret a := rfl

@[simp] lemma ret_bind (a : α) (f : α → Prog I ε β) : (ret a : Prog I ε α) >>= f = f a := rfl

@[simp] lemma fail_bind (e : ε) (f : α → Prog I ε β) :
    (fail e : Prog I ε α) >>= f = fail e := rfl

@[simp] lemma spin_bind (f : α → Prog I ε β) : (spin : Prog I ε α) >>= f = spin := rfl

@[simp] lemma ask_bind (q : I.Query) (k : I.Reply q → Prog I ε α) (f : α → Prog I ε β) :
    (ask q k : Prog I ε α) >>= f = ask q fun r => k r >>= f := rfl

@[simp] lemma query_bind (q : I.Query) (f : I.Reply q → Prog I ε β) :
    (query q : Prog I ε (I.Reply q)) >>= f = ask q f := rfl

@[simp] lemma ofExcept_ok (a : α) : (ofExcept (.ok a) : Prog I ε α) = ret a := rfl

@[simp] lemma ofExcept_error (e : ε) : (ofExcept (.error e) : Prog I ε α) = fail e := rfl

lemma bind_bind {γ : Type} (p : Prog I ε α) (f : α → Prog I ε β) (g : β → Prog I ε γ) :
    p >>= f >>= g = p >>= fun a => f a >>= g := by
  induction p with
  | ret a => rfl
  | fail e => rfl
  | spin => rfl
  | ask q k ih =>
    rw [ask_bind, ask_bind, ask_bind]
    exact congrArg (ask q) (funext ih)

/-! ## Runs against arbitrary replies -/

/-- `Steps p es p'`: the program `p` can ask the queries of `es`, get the replies recorded
there, and be `p'` afterwards. -/
inductive Steps : Prog I ε α → List (Event I) → Prog I ε α → Prop
  | refl (p : Prog I ε α) : Steps p [] p
  | ask {q : I.Query} {k : I.Reply q → Prog I ε α} {r : I.Reply q} {es : List (Event I)}
      {p' : Prog I ε α} (h : Steps (k r) es p') : Steps (ask q k) (⟨q, r⟩ :: es) p'

/-- The program returns `a` after the events `es`. -/
def Returns (p : Prog I ε α) (es : List (Event I)) (a : α) : Prop := Steps p es (ret a)

/-- The program fails with `e` after the events `es`. -/
def Fails (p : Prog I ε α) (es : List (Event I)) (e : ε) : Prop := Steps p es (fail e)

lemma Steps.trans {p p' p'' : Prog I ε α} {es es' : List (Event I)} (h : Steps p es p')
    (h' : Steps p' es' p'') : Steps p (es ++ es') p'' := by
  induction h with
  | refl p => exact h'
  | ask _ ih => exact Steps.ask (ih h')

@[simp] lemma returns_ret {a b : α} {es : List (Event I)} :
    Returns (ret a : Prog I ε α) es b ↔ es = [] ∧ b = a := by
  constructor
  · intro h
    cases h
    exact ⟨rfl, rfl⟩
  · rintro ⟨rfl, rfl⟩
    exact Steps.refl _

@[simp] lemma not_returns_fail {e : ε} {a : α} {es : List (Event I)} :
    ¬ Returns (fail e : Prog I ε α) es a := by
  intro h
  cases h

@[simp] lemma not_returns_spin {a : α} {es : List (Event I)} :
    ¬ Returns (spin : Prog I ε α) es a := by
  intro h
  cases h

lemma returns_ask {q : I.Query} {k : I.Reply q → Prog I ε α} {es : List (Event I)} {a : α} :
    Returns (ask q k) es a ↔ ∃ r es', es = ⟨q, r⟩ :: es' ∧ Returns (k r) es' a := by
  constructor
  · intro h
    cases h with
    | ask h => exact ⟨_, _, rfl, h⟩
  · rintro ⟨r, es', rfl, h⟩
    exact Steps.ask h

@[simp] lemma fails_fail {e e' : ε} {es : List (Event I)} :
    Fails (fail e : Prog I ε α) es e' ↔ es = [] ∧ e' = e := by
  constructor
  · intro h
    cases h
    exact ⟨rfl, rfl⟩
  · rintro ⟨rfl, rfl⟩
    exact Steps.refl _

@[simp] lemma not_fails_ret {e : ε} {a : α} {es : List (Event I)} :
    ¬ Fails (ret a : Prog I ε α) es e := by
  intro h
  cases h

@[simp] lemma not_fails_spin {e : ε} {es : List (Event I)} :
    ¬ Fails (spin : Prog I ε α) es e := by
  intro h
  cases h

lemma fails_ask {q : I.Query} {k : I.Reply q → Prog I ε α} {es : List (Event I)} {e : ε} :
    Fails (ask q k) es e ↔ ∃ r es', es = ⟨q, r⟩ :: es' ∧ Fails (k r) es' e := by
  constructor
  · intro h
    cases h with
    | ask h => exact ⟨_, _, rfl, h⟩
  · rintro ⟨r, es', rfl, h⟩
    exact Steps.ask h

/-- A run of a composition splits into a run of each part. -/
lemma returns_bind {p : Prog I ε α} {f : α → Prog I ε β} {es : List (Event I)} {b : β} :
    Returns (p >>= f) es b ↔
      ∃ es₁ es₂ a, es = es₁ ++ es₂ ∧ Returns p es₁ a ∧ Returns (f a) es₂ b := by
  induction p generalizing es with
  | ret a =>
    constructor
    · intro h
      exact ⟨[], es, a, rfl, Steps.refl _, h⟩
    · rintro ⟨es₁, es₂, a', rfl, h₁, h₂⟩
      obtain ⟨rfl, rfl⟩ := returns_ret.mp h₁
      exact h₂
  | fail e =>
    constructor
    · intro h
      exact absurd h not_returns_fail
    · rintro ⟨_, _, _, _, h, _⟩
      exact absurd h not_returns_fail
  | spin =>
    constructor
    · intro h
      exact absurd h not_returns_spin
    · rintro ⟨_, _, _, _, h, _⟩
      exact absurd h not_returns_spin
  | ask q k ih =>
    rw [ask_bind, returns_ask]
    constructor
    · rintro ⟨r, es', rfl, h⟩
      obtain ⟨es₁, es₂, a, rfl, h₁, h₂⟩ := (ih r).mp h
      exact ⟨⟨q, r⟩ :: es₁, es₂, a, rfl, Steps.ask h₁, h₂⟩
    · rintro ⟨es₁, es₂, a, rfl, h₁, h₂⟩
      obtain ⟨r, es', rfl, h₁'⟩ := returns_ask.mp h₁
      exact ⟨r, es' ++ es₂, rfl, (ih r).mpr ⟨es', es₂, a, rfl, h₁', h₂⟩⟩

/-- A composition fails in its first part or, after that returned, in its second. -/
lemma fails_bind {p : Prog I ε α} {f : α → Prog I ε β} {es : List (Event I)} {e : ε} :
    Fails (p >>= f) es e ↔ Fails p es e ∨
      ∃ es₁ es₂ a, es = es₁ ++ es₂ ∧ Returns p es₁ a ∧ Fails (f a) es₂ e := by
  induction p generalizing es with
  | ret a =>
    constructor
    · intro h
      exact Or.inr ⟨[], es, a, rfl, Steps.refl _, h⟩
    · rintro (h | ⟨es₁, es₂, a', rfl, h₁, h₂⟩)
      · exact absurd h not_fails_ret
      · obtain ⟨rfl, rfl⟩ := returns_ret.mp h₁
        exact h₂
  | fail e' =>
    constructor
    · intro h
      exact Or.inl (by simpa using h)
    · rintro (h | ⟨_, _, _, _, h, _⟩)
      · simpa using h
      · exact absurd h not_returns_fail
  | spin =>
    constructor
    · intro h
      exact absurd h not_fails_spin
    · rintro (h | ⟨_, _, _, _, h, _⟩)
      · exact absurd h not_fails_spin
      · exact absurd h not_returns_spin
  | ask q k ih =>
    rw [ask_bind, fails_ask]
    constructor
    · rintro ⟨r, es', rfl, h⟩
      rcases (ih r).mp h with h | ⟨es₁, es₂, a, rfl, h₁, h₂⟩
      · exact Or.inl (Steps.ask h)
      · exact Or.inr ⟨⟨q, r⟩ :: es₁, es₂, a, rfl, Steps.ask h₁, h₂⟩
    · rintro (h | ⟨es₁, es₂, a, rfl, h₁, h₂⟩)
      · obtain ⟨r, es', rfl, h'⟩ := fails_ask.mp h
        exact ⟨r, es', rfl, (ih r).mpr (Or.inl h')⟩
      · obtain ⟨r, es', rfl, h₁'⟩ := returns_ask.mp h₁
        exact ⟨r, es' ++ es₂, rfl, (ih r).mpr (Or.inr ⟨es', es₂, a, rfl, h₁', h₂⟩)⟩

/-- The steps of a composition are steps of its first part or, after that returned, of its
second. -/
lemma steps_bind {p : Prog I ε α} {f : α → Prog I ε β} {es : List (Event I)} {p' : Prog I ε β}
    (h : Steps (p >>= f) es p') : (∃ p'', Steps p es p'') ∨
      ∃ es₁ es₂ a, es = es₁ ++ es₂ ∧ Returns p es₁ a ∧ Steps (f a) es₂ p' := by
  induction p generalizing es with
  | ret a => exact Or.inr ⟨[], es, a, rfl, .refl _, h⟩
  | fail e =>
    cases h with
    | refl => exact Or.inl ⟨_, .refl _⟩
  | spin =>
    cases h with
    | refl => exact Or.inl ⟨_, .refl _⟩
  | ask q k ih =>
    cases h with
    | refl => exact Or.inl ⟨_, .refl _⟩
    | @ask _ _ r es _ h =>
      rcases ih r h with ⟨p'', h⟩ | ⟨es₁, es₂, a, rfl, h₁, h₂⟩
      · exact Or.inl ⟨p'', .ask h⟩
      · exact Or.inr ⟨⟨q, r⟩ :: es₁, es₂, a, rfl, .ask h₁, h₂⟩

/-- The steps of an attempt are steps of what is attempted. -/
lemma steps_attempt {p : Prog I ε α} {es : List (Event I)} {p' : Prog I δ (Except ε α)}
    (h : Steps p.attempt es p') : ∃ p'', Steps p es p'' := by
  induction p generalizing es with
  | ret a =>
    cases h with
    | refl => exact ⟨_, .refl _⟩
  | fail e =>
    cases h with
    | refl => exact ⟨_, .refl _⟩
  | spin =>
    cases h with
    | refl => exact ⟨_, .refl _⟩
  | ask q k ih =>
    cases h with
    | refl => exact ⟨_, .refl _⟩
    | ask h =>
      obtain ⟨p'', hsteps⟩ := ih _ h
      exact ⟨p'', .ask hsteps⟩

@[simp] lemma returns_ofExcept {x : Except ε α} {es : List (Event I)} {a : α} :
    Returns (ofExcept x : Prog I ε α) es a ↔ es = [] ∧ x = .ok a := by
  cases x with
  | ok b => simp [eq_comm]
  | error e => simp

/-- What `attempt` hands to the caller is how the program ended. -/
lemma returns_attempt {p : Prog I ε α} {es : List (Event I)} {x : Except ε α} :
    Returns (p.attempt : Prog I δ (Except ε α)) es x ↔
      (∃ a, x = .ok a ∧ Returns p es a) ∨ ∃ e, x = .error e ∧ Fails p es e := by
  induction p generalizing es with
  | ret a =>
    simp only [attempt, returns_ret, not_fails_ret, and_false, exists_false, or_false]
    constructor
    · rintro ⟨rfl, rfl⟩
      exact ⟨a, rfl, rfl, rfl⟩
    · rintro ⟨a', rfl, rfl, rfl⟩
      exact ⟨rfl, rfl⟩
  | fail e =>
    simp only [attempt, returns_ret, not_returns_fail, and_false, exists_false, false_or,
      fails_fail]
    constructor
    · rintro ⟨rfl, rfl⟩
      exact ⟨e, rfl, rfl, rfl⟩
    · rintro ⟨e', rfl, rfl, rfl⟩
      exact ⟨rfl, rfl⟩
  | spin => simp [attempt]
  | ask q k ih =>
    simp only [attempt, returns_ask, fails_ask, ih]
    constructor
    · rintro ⟨r, es', rfl, ⟨a, rfl, h⟩ | ⟨e, rfl, h⟩⟩
      · exact Or.inl ⟨a, rfl, r, es', rfl, h⟩
      · exact Or.inr ⟨e, rfl, r, es', rfl, h⟩
    · rintro (⟨a, rfl, r, es', rfl, h⟩ | ⟨e, rfl, r, es', rfl, h⟩)
      · exact ⟨r, es', rfl, Or.inl ⟨a, rfl, h⟩⟩
      · exact ⟨r, es', rfl, Or.inr ⟨e, rfl, h⟩⟩

/-- The program ends after the events `es`, with a value or with an error. -/
def Ends (p : Prog I ε α) (es : List (Event I)) (x : Except ε α) : Prop :=
  Steps p es (ofExcept x)

@[simp] lemma ends_ret {a : α} {es : List (Event I)} {x : Except ε α} :
    Ends (ret a : Prog I ε α) es x ↔ es = [] ∧ x = .ok a := by
  cases x with
  | ok b => exact returns_ret.trans (by simp)
  | error e => exact iff_of_false not_fails_ret (by simp)

@[simp] lemma ends_fail {e : ε} {es : List (Event I)} {x : Except ε α} :
    Ends (fail e : Prog I ε α) es x ↔ es = [] ∧ x = .error e := by
  cases x with
  | ok b => exact iff_of_false not_returns_fail (by simp)
  | error e' => exact fails_fail.trans (by simp)

@[simp] lemma not_ends_spin {es : List (Event I)} {x : Except ε α} :
    ¬ Ends (spin : Prog I ε α) es x := by
  cases x with
  | ok a => exact not_returns_spin
  | error e => exact not_fails_spin

lemma ends_ask {q : I.Query} {k : I.Reply q → Prog I ε α} {es : List (Event I)}
    {x : Except ε α} : Ends (ask q k) es x ↔ ∃ r es', es = ⟨q, r⟩ :: es' ∧ Ends (k r) es' x := by
  cases x with
  | ok a => exact returns_ask
  | error e => exact fails_ask

lemma ends_ask_cons {q : I.Query} {r : I.Reply q} {k : I.Reply q → Prog I ε α}
    {es : List (Event I)} {x : Except ε α} :
    Ends (ask q k) (⟨q, r⟩ :: es) x ↔ Ends (k r) es x := by
  rw [ends_ask]
  constructor
  · rintro ⟨r', es', h, hk⟩
    obtain ⟨hevent, rfl⟩ := List.cons.inj h
    obtain rfl : r = r' := eq_of_heq (Event.mk.inj hevent).2
    exact hk
  · exact fun hk => ⟨r, es, rfl, hk⟩

/-- How a program ends is determined by its events. -/
lemma Ends.unique {p : Prog I ε α} {es : List (Event I)} {x y : Except ε α} (hx : p.Ends es x)
    (hy : p.Ends es y) : x = y := by
  induction p generalizing es with
  | ret a => rw [(ends_ret.mp hx).2, (ends_ret.mp hy).2]
  | fail e => rw [(ends_fail.mp hx).2, (ends_fail.mp hy).2]
  | spin => exact absurd hx not_ends_spin
  | ask q k ih =>
    obtain ⟨r, es', rfl, hk⟩ := ends_ask.mp hx
    exact ih r hk (ends_ask_cons.mp hy)

@[simp] lemma ends_ofExcept {x y : Except ε α} {es : List (Event I)} :
    Ends (ofExcept x : Prog I ε α) es y ↔ es = [] ∧ y = x := by
  cases x with
  | ok a => exact ends_ret
  | error e => exact ends_fail

lemma returns_attempt_iff_ends {p : Prog I ε α} {es : List (Event I)} {x : Except ε α} :
    Returns (p.attempt : Prog I δ (Except ε α)) es x ↔ Ends p es x := by
  rw [returns_attempt]
  cases x with
  | ok a => simp [Ends, Returns]
  | error e => simp [Ends, Fails]

/-- A composition ends with the error of its first part, or as its second part does. -/
lemma ends_bind {p : Prog I ε α} {f : α → Prog I ε β} {es : List (Event I)} {x : Except ε β} :
    Ends (p >>= f) es x ↔ (∃ e, x = .error e ∧ Ends p es (.error e)) ∨
      ∃ es₁ es₂ a, es = es₁ ++ es₂ ∧ Returns p es₁ a ∧ Ends (f a) es₂ x := by
  cases x with
  | ok b =>
    refine returns_bind.trans ⟨Or.inr, ?_⟩
    rintro (⟨e, he, -⟩ | h)
    · exact absurd he (by simp)
    · exact h
  | error e => exact fails_bind.trans (or_congr_left (by simp [Ends, Fails]))

/-- A program that cannot fail by itself never ends with an error. -/
lemma not_fails_attempt {p : Prog I ε α} {es : List (Event I)} {e : δ} :
    ¬ Fails (p.attempt : Prog I δ (Except ε α)) es e := by
  intro h
  induction p generalizing es with
  | ret a => exact not_fails_ret h
  | fail e' => exact not_fails_ret h
  | spin => exact not_fails_spin h
  | ask q k ih =>
    obtain ⟨r, es', -, h⟩ := fails_ask.mp h
    exact ih r h

/-- A composition after an attempt goes on whichever way the attempt ended. -/
lemma ends_attempt_bind {p : Prog I ε α} {f : Except ε α → Prog I δ β} {es : List (Event I)}
    {x : Except δ β} : Ends (p.attempt >>= f) es x ↔
      ∃ es₁ es₂ y, es = es₁ ++ es₂ ∧ Ends p es₁ y ∧ Ends (f y) es₂ x := by
  rw [ends_bind]
  simp only [returns_attempt_iff_ends]
  refine ⟨?_, Or.inr⟩
  rintro (⟨e, -, h⟩ | h)
  · exact absurd h not_fails_attempt
  · exact h

/-! ## Programs that return alike -/

/-- The two programs return the same after the same events; they may fail differently. -/
def ReturnsAlike (p p' : Prog I ε α) : Prop := ∀ es a, p.Returns es a ↔ p'.Returns es a

lemma ReturnsAlike.refl (p : Prog I ε α) : p.ReturnsAlike p := fun _ _ => Iff.rfl

/-- Programs that never return. -/
lemma returnsAlike_of_not {p p' : Prog I ε α} (h : ∀ es a, ¬ p.Returns es a)
    (h' : ∀ es a, ¬ p'.Returns es a) : p.ReturnsAlike p' :=
  fun es a => iff_of_false (h es a) (h' es a)

lemma ReturnsAlike.ask {q : I.Query} {k k' : I.Reply q → Prog I ε α}
    (h : ∀ r, (k r).ReturnsAlike (k' r)) : (ask q k).ReturnsAlike (ask q k') := by
  intro es a
  rw [returns_ask, returns_ask]
  exact exists_congr fun r => exists_congr fun es' => and_congr_right fun _ => h r es' a

lemma ReturnsAlike.bind {p p' : Prog I ε α} {f f' : α → Prog I ε β} (hp : p.ReturnsAlike p')
    (hf : ∀ a, (f a).ReturnsAlike (f' a)) : (p >>= f).ReturnsAlike (p' >>= f') := by
  intro es b
  rw [returns_bind, returns_bind]
  refine exists_congr fun es₁ => exists_congr fun es₂ => exists_congr fun a =>
    and_congr_right fun _ => ?_
  exact and_congr (hp es₁ a) (hf a es₂ b)

/-- After an attempt, if its error ends the program in any case. -/
lemma ReturnsAlike.attempt_bind {p p' : Prog I ε α} {f f' : Except ε α → Prog I δ β}
    (hp : p.ReturnsAlike p') (hf : ∀ a, (f (.ok a)).ReturnsAlike (f' (.ok a)))
    (herror : ∀ e es b, ¬ (f (.error e)).Returns es b)
    (herror' : ∀ e es b, ¬ (f' (.error e)).Returns es b) :
    (p.attempt >>= f).ReturnsAlike (p'.attempt >>= f') := by
  intro es b
  rw [returns_bind, returns_bind]
  constructor
  · rintro ⟨es₁, es₂, x, rfl, hx, hrest⟩
    rcases returns_attempt.mp hx with ⟨a, rfl, ha⟩ | ⟨e, rfl, -⟩
    · exact ⟨es₁, es₂, .ok a, rfl, returns_attempt.mpr (Or.inl ⟨a, rfl, (hp _ _).mp ha⟩),
        (hf a _ _).mp hrest⟩
    · exact absurd hrest (herror e _ _)
  · rintro ⟨es₁, es₂, x, rfl, hx, hrest⟩
    rcases returns_attempt.mp hx with ⟨a, rfl, ha⟩ | ⟨e, rfl, -⟩
    · exact ⟨es₁, es₂, .ok a, rfl, returns_attempt.mpr (Or.inl ⟨a, rfl, (hp _ _).mpr ha⟩),
        (hf a _ _).mpr hrest⟩
    · exact absurd hrest (herror' e _ _)

/-! ## The queries of a program -/

/-- Every query that the program can ask satisfies `Q`. -/
def Asks (Q : I.Query → Prop) : Prog I ε α → Prop
  | ask q k => Q q ∧ ∀ r, (k r).Asks Q
  | _ => True

lemma Asks.bind {Q : I.Query → Prop} {p : Prog I ε α} {f : α → Prog I ε β} (hp : p.Asks Q)
    (hf : ∀ a, (f a).Asks Q) : (p >>= f).Asks Q := by
  induction p with
  | ret a => exact hf a
  | fail e => trivial
  | spin => trivial
  | ask q k ih => exact ⟨hp.1, fun r => ih r (hp.2 r)⟩

lemma Asks.attempt {Q : I.Query → Prop} {p : Prog I ε α} (hp : p.Asks Q) :
    (p.attempt : Prog I δ (Except ε α)).Asks Q := by
  induction p with
  | ret a => trivial
  | fail e => trivial
  | spin => trivial
  | ask q k ih => exact ⟨hp.1, fun r => ih r (hp.2 r)⟩

lemma asks_query {Q : I.Query → Prop} {q : I.Query} (h : Q q) :
    (query q : Prog I ε (I.Reply q)).Asks Q :=
  ⟨h, fun _ => trivial⟩

lemma asks_ofExcept {Q : I.Query → Prop} (x : Except ε α) :
    (ofExcept x : Prog I ε α).Asks Q := by
  cases x <;> trivial

lemma Steps.asks {Q : I.Query → Prop} {p p' : Prog I ε α} {es : List (Event I)}
    (h : Steps p es p') (hp : p.Asks Q) : ∀ e ∈ es, Q e.query := by
  induction h with
  | refl p => simp
  | ask _ ih =>
    intro e he
    rcases List.mem_cons.mp he with rfl | he
    · exact hp.1
    · exact ih (hp.2 _) e he

/-- Every query that the program can ask satisfies `Q` together with the events before it, of
which the first are `before`. -/
def AsksAfter (Q : List (Event I) → I.Query → Prop) : Prog I ε α → List (Event I) → Prop
  | ask q k, before => Q before q ∧ ∀ r, (k r).AsksAfter Q (before ++ [⟨q, r⟩])
  | _, _ => True

lemma AsksAfter.bind {Q : List (Event I) → I.Query → Prop} {p : Prog I ε α}
    {f : α → Prog I ε β} {before : List (Event I)} (hp : p.AsksAfter Q before)
    (hf : ∀ a es, p.Returns es a → (f a).AsksAfter Q (before ++ es)) :
    (p >>= f).AsksAfter Q before := by
  induction p generalizing before with
  | ret a => simpa using hf a [] (.refl _)
  | fail e => trivial
  | spin => trivial
  | ask q k ih =>
    refine ⟨hp.1, fun r => ih r (hp.2 r) fun a es hreturns => ?_⟩
    rw [List.append_assoc]
    exact hf a _ (.ask hreturns)

lemma AsksAfter.mono {Q Q' : List (Event I) → I.Query → Prop} {p : Prog I ε α}
    {before : List (Event I)} (hp : p.AsksAfter Q before) (h : ∀ before q, Q before q → Q' before q) :
    p.AsksAfter Q' before := by
  induction p generalizing before with
  | ret a => trivial
  | fail e => trivial
  | spin => trivial
  | ask q k ih => exact ⟨h before q hp.1, fun r => ih r (hp.2 r)⟩

lemma AsksAfter.attempt {Q : List (Event I) → I.Query → Prop} {p : Prog I ε α}
    {before : List (Event I)} (hp : p.AsksAfter Q before) :
    (p.attempt : Prog I δ (Except ε α)).AsksAfter Q before := by
  induction p generalizing before with
  | ret a => trivial
  | fail e => trivial
  | spin => trivial
  | ask q k ih => exact ⟨hp.1, fun r => ih r (hp.2 r)⟩

lemma asksAfter_ofExcept {Q : List (Event I) → I.Query → Prop} (x : Except ε α)
    (before : List (Event I)) : (ofExcept x : Prog I ε α).AsksAfter Q before := by
  cases x <;> trivial

lemma Asks.asksAfter {Q : List (Event I) → I.Query → Prop} {Q' : I.Query → Prop}
    {p : Prog I ε α} (hp : p.Asks Q') (h : ∀ before q, Q' q → Q before q)
    (before : List (Event I)) : p.AsksAfter Q before := by
  induction p generalizing before with
  | ret a => trivial
  | fail e => trivial
  | spin => trivial
  | ask q k ih => exact ⟨h before q hp.1, fun r => ih r (hp.2 r) _⟩

/-- Each event of a run satisfies `Q` with the events before it. -/
lemma Steps.asksAfter {Q : List (Event I) → I.Query → Prop} {p p' : Prog I ε α}
    {es before : List (Event I)} (h : Steps p es p') (hp : p.AsksAfter Q before) :
    ∀ es₁ e es₂, es = es₁ ++ e :: es₂ → Q (before ++ es₁) e.query := by
  induction h generalizing before with
  | refl p => simp
  | @ask q k r es p' _ ih =>
    intro es₁ e es₂ hsplit
    cases es₁ with
    | nil =>
      obtain ⟨rfl, -⟩ := List.cons.inj hsplit
      rw [List.append_nil]
      exact hp.1
    | cons e₁ es₁ =>
      obtain ⟨rfl, htail⟩ := List.cons.inj hsplit
      have hlater := ih (hp.2 r) es₁ e es₂ htail
      rwa [List.append_assoc] at hlater

/-! ## The value against fixed replies -/

/-- How a program ends when each query always gets the same reply. -/
def eval (answer : (q : I.Query) → I.Reply q) : Prog I ε α → Option (Except ε α)
  | ret a => some (.ok a)
  | fail e => some (.error e)
  | spin => none
  | ask q k => (k (answer q)).eval answer

/-- A composition succeeds when its first part does and then its second. -/
lemma eval_bind_eq_ok {answer : (q : I.Query) → I.Reply q} {p : Prog I ε α}
    {f : α → Prog I ε β} {b : β} : (p >>= f).eval answer = some (.ok b) ↔
      ∃ a, p.eval answer = some (.ok a) ∧ (f a).eval answer = some (.ok b) := by
  induction p with
  | ret a => simp [eval]
  | fail e => simp [eval]
  | spin => simp [eval]
  | ask q k ih =>
    rw [ask_bind, eval, eval]
    exact ih (answer q)

lemma eval_ofExcept_eq_ok {answer : (q : I.Query) → I.Reply q} {x : Except ε α} {a : α} :
    (ofExcept x : Prog I ε α).eval answer = some (.ok a) ↔ x = .ok a := by
  cases x <;> simp [eval]

/-! ## The run against a responder -/

/-- A responder with a state: how it replies to each query. -/
abbrev Responder (I : Interface) (σ : Type) : Type := (q : I.Query) → σ → I.Reply q × σ

/-- The run of a program against a responder: how it ends, its events, and the state the
responder is left in. -/
def run {σ : Type} (h : Responder I σ) : Prog I ε α → σ → Prog I ε α × List (Event I) × σ
  | ask q k, s =>
    let (r, s') := h q s
    let (p', es, s'') := (k r).run h s'
    (p', ⟨q, r⟩ :: es, s'')
  | p, s => (p, [], s)

variable {σ : Type} (h : Responder I σ)

@[simp] lemma run_ret (a : α) (s : σ) : (ret a : Prog I ε α).run h s = (ret a, [], s) := rfl

@[simp] lemma run_fail (e : ε) (s : σ) : (fail e : Prog I ε α).run h s = (fail e, [], s) := rfl

@[simp] lemma run_spin (s : σ) : (spin : Prog I ε α).run h s = (spin, [], s) := rfl

@[simp] lemma run_ask (q : I.Query) (k : I.Reply q → Prog I ε α) (s : σ) :
    (ask q k).run h s =
      (((k (h q s).1).run h (h q s).2).1, ⟨q, (h q s).1⟩ :: ((k (h q s).1).run h (h q s).2).2.1,
        ((k (h q s).1).run h (h q s).2).2.2) := rfl

/-- The value of a program that has returned. -/
def returned : Prog I ε α → Option α
  | ret a => some a
  | _ => none

lemma returned_eq_some {p : Prog I ε α} {a : α} : p.returned = some a ↔ p = ret a := by
  cases p <;> simp [returned]

/-- A run against a responder is one of the runs against arbitrary replies. -/
lemma steps_run (p : Prog I ε α) (s : σ) : Steps p (p.run h s).2.1 (p.run h s).1 := by
  induction p generalizing s with
  | ret a => exact Steps.refl _
  | fail e => exact Steps.refl _
  | spin => exact Steps.refl _
  | ask q k ih => exact Steps.ask (ih _ _)

/-- What the responder keeps, and what its replies satisfy while it keeps it, holds of the whole
run. -/
lemma forall_mem_run {h : Responder I σ} {Inv : σ → Prop} {P : Event I → Prop}
    (hstep : ∀ q s, Inv s → P ⟨q, (h q s).1⟩ ∧ Inv (h q s).2) (p : Prog I ε α) {s : σ}
    (hs : Inv s) : ∀ e ∈ (p.run h s).2.1, P e := by
  induction p generalizing s with
  | ret a => simp
  | fail e => simp
  | spin => simp
  | ask q k ih =>
    obtain ⟨hreply, hnext⟩ := hstep q s hs
    exact List.forall_mem_cons.mpr ⟨hreply, ih _ hnext⟩

/-- The replies in the events are those of the responder, which they take from one state to
another. -/
def Answers (h : Responder I σ) : σ → List (Event I) → σ → Prop
  | s, [], s' => s = s'
  | s, e :: es, s' => (h e.query s).1 = e.reply ∧ Answers h (h e.query s).2 es s'

lemma answers_append {h : Responder I σ} {s s'' : σ} {es es' : List (Event I)} :
    Answers h s (es ++ es') s'' ↔ ∃ s', Answers h s es s' ∧ Answers h s' es' s'' := by
  induction es generalizing s with
  | nil => simp [Answers]
  | cons e es ih =>
    rw [List.cons_append, Answers, ih]
    simp only [Answers, and_assoc, exists_and_left]

/-- A run that returns is one of the runs against arbitrary replies, with the replies of the
responder. -/
lemma run_eq_ret_iff {h : Responder I σ} {p : Prog I ε α} {s s' : σ} {es : List (Event I)}
    {a : α} : p.run h s = (ret a, es, s') ↔ p.Returns es a ∧ Answers h s es s' := by
  induction p generalizing s es with
  | ret b =>
    rw [run_ret, returns_ret, Prod.mk.injEq, Prod.mk.injEq, ret.injEq]
    constructor
    · rintro ⟨rfl, rfl, rfl⟩
      exact ⟨⟨rfl, rfl⟩, rfl⟩
    · rintro ⟨⟨rfl, rfl⟩, hs⟩
      exact ⟨rfl, rfl, hs⟩
  | fail e => simp
  | spin => simp
  | ask q k ih =>
    rw [run_ask, returns_ask, Prod.mk.injEq, Prod.mk.injEq]
    constructor
    · rintro ⟨hret, rfl, hs⟩
      obtain ⟨hreturns, hanswers⟩ := (ih _).mp (Prod.ext hret (Prod.ext rfl hs))
      exact ⟨⟨_, _, rfl, hreturns⟩, rfl, hanswers⟩
    · rintro ⟨⟨r, es', rfl, hreturns⟩, hreply, hanswers⟩
      have hr : (h q s).1 = r := hreply
      subst hr
      have hrun := (ih (h q s).1).mpr ⟨hreturns, hanswers⟩
      rw [hrun]
      exact ⟨rfl, rfl, rfl⟩

/-- The program runs to the value `a`, and leaves the responder in the state `s'`. -/
def Yields (p : Prog I ε α) (s : σ) (a : α) (s' : σ) : Prop := ∃ es, p.run h s = (ret a, es, s')

variable {h} {s s' s'' : σ} {a : α} {b : β}

lemma yields_ret : (ret a : Prog I ε α).Yields h s a s := ⟨[], rfl⟩

lemma yields_ask {q : I.Query} {k : I.Reply q → Prog I ε α} {r : I.Reply q}
    (hq : h q s = (r, s')) (hk : (k r).Yields h s' a s'') : (ask q k).Yields h s a s'' := by
  obtain ⟨es, hk⟩ := hk
  exact ⟨⟨q, r⟩ :: es, by rw [run_ask, hq, hk]⟩

lemma Yields.bind {p : Prog I ε α} {f : α → Prog I ε β} (hp : p.Yields h s a s')
    (hf : (f a).Yields h s' b s'') : (p >>= f).Yields h s b s'' := by
  obtain ⟨es, hp⟩ := hp
  induction p generalizing s es with
  | ret c =>
    simp only [run_ret, Prod.mk.injEq, ret.injEq] at hp
    obtain ⟨rfl, -, rfl⟩ := hp
    exact hf
  | fail e => simp at hp
  | spin => simp at hp
  | ask q k ih =>
    simp only [run_ask, Prod.mk.injEq] at hp
    exact yields_ask rfl (ih _ _ (Prod.ext hp.1 (Prod.ext rfl hp.2.2)))

/-- An attempt runs as the program does, and returns how that ended. -/
lemma Yields.attempt {p : Prog I ε α} (hp : p.Yields h s a s') :
    (p.attempt : Prog I δ (Except ε α)).Yields h s (.ok a) s' := by
  obtain ⟨es, hp⟩ := hp
  induction p generalizing s es with
  | ret c =>
    simp only [run_ret, Prod.mk.injEq, ret.injEq] at hp
    obtain ⟨rfl, -, rfl⟩ := hp
    exact yields_ret
  | fail e => simp at hp
  | spin => simp at hp
  | ask q k ih =>
    simp only [run_ask, Prod.mk.injEq] at hp
    exact yields_ask rfl (ih _ _ (Prod.ext hp.1 (Prod.ext rfl hp.2.2)))

/-- The program runs to the error `e`. -/
def Aborts (h : Responder I σ) (p : Prog I ε α) (s : σ) (e : ε) : Prop :=
  ∃ es s', p.run h s = (fail e, es, s')

variable {e : ε}

lemma aborts_fail : (fail e : Prog I ε α).Aborts h s e := ⟨[], s, rfl⟩

lemma aborts_ask {q : I.Query} {k : I.Reply q → Prog I ε α} {r : I.Reply q}
    (hq : h q s = (r, s')) (hk : (k r).Aborts h s' e) : (ask q k).Aborts h s e := by
  obtain ⟨es, s'', hk⟩ := hk
  exact ⟨⟨q, r⟩ :: es, s'', by rw [run_ask, hq, hk]⟩

/-- A composition aborts with its first part. -/
lemma Aborts.bind {p : Prog I ε α} (hp : p.Aborts h s e) (f : α → Prog I ε β) :
    (p >>= f).Aborts h s e := by
  obtain ⟨es, s', hp⟩ := hp
  induction p generalizing s es with
  | ret a => simp at hp
  | fail e' =>
    simp only [run_fail, Prod.mk.injEq, fail.injEq] at hp
    obtain ⟨rfl, -, -⟩ := hp
    exact aborts_fail
  | spin => simp at hp
  | ask q k ih =>
    simp only [run_ask, Prod.mk.injEq] at hp
    exact aborts_ask rfl (ih _ _ (Prod.ext hp.1 (Prod.ext rfl hp.2.2)))

/-- A composition aborts with its second part. -/
lemma Yields.bind_aborts {p : Prog I ε α} {f : α → Prog I ε β} (hp : p.Yields h s a s')
    (hf : (f a).Aborts h s' e) : (p >>= f).Aborts h s e := by
  obtain ⟨es, hp⟩ := hp
  induction p generalizing s es with
  | ret c =>
    simp only [run_ret, Prod.mk.injEq, ret.injEq] at hp
    obtain ⟨rfl, -, rfl⟩ := hp
    exact hf
  | fail e => simp at hp
  | spin => simp at hp
  | ask q k ih =>
    simp only [run_ask, Prod.mk.injEq] at hp
    exact aborts_ask rfl (ih _ _ (Prod.ext hp.1 (Prod.ext rfl hp.2.2)))

/-- An attempt of a program that aborts returns the error. -/
lemma Aborts.attempt {p : Prog I ε α} (hp : p.Aborts h s e) :
    ∃ s', (p.attempt : Prog I δ (Except ε α)).Yields h s (.error e) s' := by
  obtain ⟨es, s', hp⟩ := hp
  refine ⟨s', ?_⟩
  induction p generalizing s es with
  | ret a => simp at hp
  | fail e' =>
    simp only [run_fail, Prod.mk.injEq, fail.injEq] at hp
    obtain ⟨rfl, -, rfl⟩ := hp
    exact yields_ret
  | spin => simp at hp
  | ask q k ih =>
    simp only [run_ask, Prod.mk.injEq] at hp
    exact yields_ask rfl (ih _ _ (Prod.ext hp.1 (Prod.ext rfl hp.2.2)))

/-- The events of a composition include those of its first part. -/
lemma events_subset_bind (p : Prog I ε α) (f : α → Prog I ε β) (s : σ) :
    (p.run h s).2.1 ⊆ ((p >>= f).run h s).2.1 := by
  induction p generalizing s with
  | ret a => exact List.nil_subset _
  | fail e => exact List.Subset.refl _
  | spin => exact List.Subset.refl _
  | ask q k ih =>
    rw [ask_bind, run_ask, run_ask]
    exact List.cons_subset_cons _ (ih _ _)

/-- The events of a composition include those of its second part. -/
lemma Yields.events_subset_bind {p : Prog I ε α} {f : α → Prog I ε β} (hp : p.Yields h s a s') :
    ((f a).run h s').2.1 ⊆ ((p >>= f).run h s).2.1 := by
  obtain ⟨es, hp⟩ := hp
  induction p generalizing s es with
  | ret c =>
    simp only [run_ret, Prod.mk.injEq, ret.injEq] at hp
    obtain ⟨rfl, -, rfl⟩ := hp
    exact List.Subset.refl _
  | fail e => simp at hp
  | spin => simp at hp
  | ask q k ih =>
    simp only [run_ask, Prod.mk.injEq] at hp
    rw [ask_bind, run_ask]
    exact List.subset_cons_of_subset _ (ih _ _ (Prod.ext hp.1 (Prod.ext rfl hp.2.2)))

end Prog

end Interaction
