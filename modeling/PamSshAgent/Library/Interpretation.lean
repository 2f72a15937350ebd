import PamSshAgent.Library.Interaction

/-!
# Programs whose queries are answered by programs

A layer between a program and its operating system answers each query of the program by a
program of its own.  A run over such a layer is a list of operations, each a query with its
reply and the events of the layer that led to it.
-/

namespace Interaction

variable {I J : Interface} {ε α : Type}

/-- A query with its reply, and the events of the layer below. -/
abbrev Operation (I J : Interface) : Type := Event I × List (Event J)

namespace Prog

/-- The program with each query answered by a program over another interface. -/
def interpret (h : ∀ q, Prog J ε (I.Reply q)) : Prog I ε α → Prog J ε α
  | ret a => ret a
  | fail e => fail e
  | spin => spin
  | ask q k => h q >>= fun r => (k r).interpret h

/-- Each operation is a run of the layer. -/
def Served (h : ∀ q, Prog J ε (I.Reply q)) (ops : List (Operation I J)) : Prop :=
  ∀ op ∈ ops, (h op.1.query).Returns op.2 op.1.reply

/-- The events are the beginning of an operation. -/
def Pending (h : ∀ q, Prog J ε (I.Reply q)) (es : List (Event J)) : Prop :=
  es = [] ∨ ∃ q p, (h q).Steps es p

/-- A run over a layer is a list of operations, the last of which may be incomplete. -/
lemma steps_interpret {h : ∀ q, Prog J ε (I.Reply q)} {p : Prog I ε α} {es : List (Event J)}
    {p' : Prog J ε α} (hs : (p.interpret h).Steps es p') :
    ∃ ops last, es = ops.flatMap Prod.snd ++ last ∧ Served h ops ∧ Pending h last ∧
      ∃ rest, p.Steps (ops.map Prod.fst) rest := by
  have hnone : ∀ p : Prog I ε α, ∃ ops last, ([] : List (Event J)) = ops.flatMap Prod.snd ++ last ∧
      Served h ops ∧ Pending h last ∧ ∃ rest, p.Steps (ops.map Prod.fst) rest :=
    fun p => ⟨[], [], rfl, by simp [Served], Or.inl rfl, p, .refl p⟩
  induction p generalizing es with
  | ret a =>
    cases hs with
    | refl => exact hnone _
  | fail e =>
    cases hs with
    | refl => exact hnone _
  | spin =>
    cases hs with
    | refl => exact hnone _
  | ask q k ih =>
    rcases steps_bind hs with ⟨p'', hq⟩ | ⟨es₁, es₂, r, rfl, hq, hk⟩
    · exact ⟨[], es, rfl, by simp [Served], Or.inr ⟨q, p'', hq⟩, _, .refl _⟩
    · obtain ⟨ops, last, rfl, hserved, hlast, rest, hrest⟩ := ih r hk
      refine ⟨(⟨q, r⟩, es₁) :: ops, last, by simp, ?_, hlast, rest, .ask hrest⟩
      intro op hop
      rcases List.mem_cons.mp hop with rfl | hop
      · exact hq
      · exact hserved op hop

/-! ## Layers with a state -/

variable {σ : Type}

/-- The program with each query answered by a program that also passes a state on. -/
def interpretFrom (h : ∀ q, σ → Prog J ε (I.Reply q × σ)) : Prog I ε α → σ → Prog J ε α
  | ret a, _ => ret a
  | fail e, _ => fail e
  | spin, _ => spin
  | ask q k, s => h q s >>= fun r => (k r.1).interpretFrom h r.2

/-- The operations are runs of the layer, one after the other. -/
inductive ServedFrom (h : ∀ q, σ → Prog J ε (I.Reply q × σ)) :
    σ → List (Operation I J) → σ → Prop
  | nil (s : σ) : ServedFrom h s [] s
  | cons {s s' s'' : σ} {q : I.Query} {r : I.Reply q} {es : List (Event J)}
      {ops : List (Operation I J)} (hop : (h q s).Returns es (r, s'))
      (hops : ServedFrom h s' ops s'') : ServedFrom h s ((⟨q, r⟩, es) :: ops) s''

/-- A run over a layer is a list of operations and the beginning of the one that the program
then waits for. -/
lemma steps_interpretFrom {h : ∀ q, σ → Prog J ε (I.Reply q × σ)} {p : Prog I ε α} {s : σ}
    {es : List (Event J)} {p' : Prog J ε α} (hs : (p.interpretFrom h s).Steps es p') :
    ∃ ops last s' rest, es = ops.flatMap Prod.snd ++ last ∧ ServedFrom h s ops s' ∧
      p.Steps (ops.map Prod.fst) rest ∧
      (last = [] ∨ ∃ q k p'', rest = ask q k ∧ (h q s').Steps last p'') := by
  have hnone : ∀ (p : Prog I ε α) (s : σ), ∃ ops last s' rest,
      ([] : List (Event J)) = ops.flatMap Prod.snd ++ last ∧ ServedFrom h s ops s' ∧
        p.Steps (ops.map Prod.fst) rest ∧
        (last = [] ∨ ∃ q k p'', rest = ask q k ∧ (h q s').Steps last p'') :=
    fun p s => ⟨[], [], s, p, rfl, .nil s, .refl p, Or.inl rfl⟩
  induction p generalizing es s with
  | ret a =>
    cases hs with
    | refl => exact hnone _ s
  | fail e =>
    cases hs with
    | refl => exact hnone _ s
  | spin =>
    cases hs with
    | refl => exact hnone _ s
  | ask q k ih =>
    rcases steps_bind hs with ⟨p'', hq⟩ | ⟨es₁, es₂, ⟨r, s'⟩, rfl, hq, hk⟩
    · exact ⟨[], es, s, _, rfl, .nil s, .refl _, Or.inr ⟨q, k, p'', rfl, hq⟩⟩
    · obtain ⟨ops, last, s'', rest, rfl, hserved, hrest, hlast⟩ := ih r hk
      exact ⟨(⟨q, r⟩, es₁) :: ops, last, s'', rest, by simp, .cons hq hserved, .ask hrest, hlast⟩

/-- A program over a layer returns what it returns on the operations of the layer. -/
lemma returns_interpretFrom {h : ∀ q, σ → Prog J ε (I.Reply q × σ)} {p : Prog I ε α} {s : σ}
    {es : List (Event J)} {a : α} : (p.interpretFrom h s).Returns es a ↔
      ∃ ops s', es = ops.flatMap Prod.snd ∧ ServedFrom h s ops s' ∧
        p.Returns (ops.map Prod.fst) a := by
  induction p generalizing es s with
  | ret b =>
    rw [interpretFrom, returns_ret]
    constructor
    · rintro ⟨rfl, rfl⟩
      exact ⟨[], s, rfl, .nil s, .refl _⟩
    · rintro ⟨ops, s', rfl, hserved, hreturns⟩
      obtain ⟨hops, rfl⟩ := returns_ret.mp hreturns
      obtain rfl := List.map_eq_nil_iff.mp hops
      exact ⟨rfl, rfl⟩
  | fail e =>
    constructor
    · intro hfail
      exact absurd hfail not_returns_fail
    · rintro ⟨ops, s', -, -, hfail⟩
      exact absurd hfail not_returns_fail
  | spin =>
    constructor
    · intro hspin
      exact absurd hspin not_returns_spin
    · rintro ⟨ops, s', -, -, hspin⟩
      exact absurd hspin not_returns_spin
  | ask q k ih =>
    rw [interpretFrom, returns_bind]
    constructor
    · rintro ⟨es₁, es₂, ⟨r, s'⟩, rfl, hq, hk⟩
      obtain ⟨ops, s'', rfl, hserved, hreturns⟩ := (ih r).mp hk
      exact ⟨(⟨q, r⟩, es₁) :: ops, s'', rfl, .cons hq hserved, .ask hreturns⟩
    · rintro ⟨ops, s'', rfl, hserved, hreturns⟩
      cases hserved with
      | nil => exact absurd hreturns (by intro h; cases h)
      | @cons _ s' _ q' r es₁ ops hop hops =>
        obtain ⟨r', es₂, hes, hk⟩ := returns_ask.mp hreturns
        obtain ⟨hevent, rfl⟩ := List.cons.inj hes
        obtain ⟨rfl, hr⟩ := Event.mk.inj hevent
        obtain rfl := eq_of_heq hr
        exact ⟨es₁, _, (r, s'), rfl, hop, (ih r).mpr ⟨ops, s'', rfl, hops, hk⟩⟩

/-- The query that a run waits for satisfies `Q` with the events of the run. -/
lemma Steps.asksAfter_ask {Q : List (Event I) → I.Query → Prop} {p : Prog I ε α} {q : I.Query}
    {k : I.Reply q → Prog I ε α} {es before : List (Event I)} (h : Steps p es (Prog.ask q k))
    (hp : p.AsksAfter Q before) : Q (before ++ es) q := by
  generalize hp' : Prog.ask q k = p' at h
  induction h generalizing before with
  | refl p =>
    subst hp'
    rw [List.append_nil]
    exact hp.1
  | @ask q' k' r es p' _ ih =>
    have hlater := ih (hp.2 r) hp'
    rwa [List.append_assoc] at hlater

/-- The operations of a layer keep an invariant of its state, the operations so far and the
events so far, if each operation does for the queries that the program may ask. -/
lemma ServedFrom.invariant {h : ∀ q, σ → Prog J ε (I.Reply q × σ)}
    {Q : List (Event I) → I.Query → Prop}
    {P : List (Event I) → σ → List (Event J) → Prop}
    (hstep : ∀ before s es q r s' es', P before s es → Q before q →
      (h q s).Returns es' (r, s') → P (before ++ [⟨q, r⟩]) s' (es ++ es'))
    {p rest : Prog I ε α} {s s' : σ} {ops : List (Operation I J)} {before : List (Event I)}
    {es : List (Event J)} (hserved : ServedFrom h s ops s') (hp : p.AsksAfter Q before)
    (hsteps : p.Steps (ops.map Prod.fst) rest) (hs : P before s es) :
    P (before ++ ops.map Prod.fst) s' (es ++ ops.flatMap Prod.snd) := by
  induction hserved generalizing p before es with
  | nil s => simpa using hs
  | @cons s s' s'' q r es' ops hop hops ih =>
    rw [List.map_cons] at hsteps
    cases hsteps with
    | ask hk =>
      have hlater := ih (hp.2 r) hk (hstep before s es q r s' es' hs hp.1 hop)
      simpa [List.append_assoc] using hlater

end Prog

end Interaction
