import PamSshAgent.Library.Embedding
import Mathlib.Logic.Relation

/-!
# Programs whose surroundings change under them

Between two queries of a program the state of its surroundings may be changed by others.
A world says what these changes are and how a query is answered in a state.  A run of a
program in a world is one of its runs against arbitrary replies in which every reply was
given by the state of that moment.  What such a run guarantees is shown with facts that
are stable, that is, kept by every change that others can make.
-/

namespace Interaction

variable {I : Interface} {σ ε α β : Type}

/-- Some replies to the first queries, as many as the state says, and others from then on. -/
def Prog.Responder.changing (before after : (q : I.Query) → I.Reply q) : Prog.Responder I ℕ
  | q, 0 => (after q, 0)
  | q, n + 1 => (before q, n)

/-- How the surroundings of a program behave. -/
structure World (I : Interface) (σ : Type) where
  /-- A change made by others. -/
  interfere : σ → σ → Prop
  /-- A query, answered in a state, and the state after it. -/
  reply : σ → Event I → σ → Prop

/-- `Serves W s tr s'`: from `s` on, the world gives the replies of `tr`, each in the state
recorded with it, and is then in `s'`; others interfere at any point. -/
inductive Serves (W : World I σ) : σ → List (σ × Event I) → σ → Prop
  | done (s : σ) : Serves W s [] s
  | interfere {s s' s'' : σ} {tr : List (σ × Event I)} (h : W.interfere s s')
      (h' : Serves W s' tr s'') : Serves W s tr s''
  | reply {s s' s'' : σ} {e : Event I} {tr : List (σ × Event I)} (h : W.reply s e s')
      (h' : Serves W s' tr s'') : Serves W s ((s, e) :: tr) s''

/-- The program runs in the world from `s` to `s'` with the answered events `tr`, and
returns `a`. -/
def Runs (W : World I σ) (p : Prog I ε α) (s : σ) (tr : List (σ × Event I)) (s' : σ)
    (a : α) : Prop :=
  Serves W s tr s' ∧ p.Returns (tr.map Prod.snd) a

/-- A fact that no interference makes false. -/
def Stable (W : World I σ) (P : σ → Prop) : Prop := ∀ s s', W.interfere s s' → P s → P s'

namespace Serves

variable {W : World I σ} {s s' : σ} {tr tr' : List (σ × Event I)}

lemma split (h : Serves W s (tr ++ tr') s') : ∃ m, Serves W s tr m ∧ Serves W m tr' s' := by
  generalize htr : tr ++ tr' = all at h
  induction h generalizing tr with
  | done s =>
    obtain ⟨rfl, rfl⟩ := List.append_eq_nil_iff.mp htr
    exact ⟨s, done s, done s⟩
  | interfere hi _ ih =>
    obtain ⟨m, h₁, h₂⟩ := ih htr
    exact ⟨m, interfere hi h₁, h₂⟩
  | @reply s₁ _ _ _ _ hr h ih =>
    cases tr with
    | nil =>
      subst htr
      exact ⟨s₁, done s₁, reply hr h⟩
    | cons e tr =>
      obtain ⟨rfl, htail⟩ := List.cons.inj htr
      obtain ⟨m, h₁, h₂⟩ := ih htail
      exact ⟨m, reply hr h₁, h₂⟩

lemma of_nil (h : Serves W s [] s') : Relation.ReflTransGen W.interfere s s' := by
  generalize htr : ([] : List (σ × Event I)) = tr at h
  induction h with
  | done s => exact Relation.ReflTransGen.refl
  | interfere hi _ ih => exact Relation.ReflTransGen.head hi (ih htr)
  | reply _ _ _ => exact absurd htr (by simp)

/-- The first event of a run: the changes before it, its reply, and the rest. -/
lemma of_cons {s₁ : σ} {e : Event I} (h : Serves W s ((s₁, e) :: tr) s') :
    ∃ s₂, Relation.ReflTransGen W.interfere s s₁ ∧ W.reply s₁ e s₂ ∧ Serves W s₂ tr s' := by
  generalize htr : (s₁, e) :: tr = all at h
  induction h with
  | done s => exact absurd htr (by simp)
  | interfere hi _ ih =>
    obtain ⟨s₂, h₁, h₂, h₃⟩ := ih htr
    exact ⟨s₂, Relation.ReflTransGen.head hi h₁, h₂, h₃⟩
  | reply hr h _ =>
    obtain ⟨hse, rfl⟩ := List.cons.inj htr
    obtain ⟨rfl, rfl⟩ := Prod.mk.inj hse
    exact ⟨_, Relation.ReflTransGen.refl, hr, h⟩

/-- A fact that every reply and every change keeps holds whenever a query is answered. -/
lemma keeps {P : σ → Prop} (hstable : Stable W P)
    (hreply : ∀ s e s', W.reply s e s' → P s → P s') (h : Serves W s tr s') (hs : P s) :
    ∀ x ∈ tr, P x.1 := by
  induction h with
  | done s => simp
  | interfere hi _ ih => exact ih (hstable _ _ hi hs)
  | reply hr _ ih =>
    intro x hx
    rcases List.mem_cons.mp hx with rfl | hx
    · exact hs
    · exact ih (hreply _ _ _ hr hs) x hx

/-- What serves the queries of an embedded interface only, serves them on their own. -/
lemma of_embedding {J : Interface} {f : Embedding I J} {V : World J σ} {tr : List (σ × Event J)}
    (hinterfere : ∀ s s', V.interfere s s' → W.interfere s s')
    (hreply : ∀ s e s', V.reply s (f.event e) s' → W.reply s e s') (h : Serves V s tr s')
    {es : List (Event I)} (htr : tr.map Prod.snd = es.map f.event) :
    ∃ tr', tr = tr'.map (Prod.map id f.event) ∧ tr'.map Prod.snd = es ∧ Serves W s tr' s' := by
  induction h generalizing es with
  | done s =>
    obtain rfl := List.map_eq_nil_iff.mp htr.symm
    exact ⟨[], rfl, rfl, .done s⟩
  | interfere hi _ ih =>
    obtain ⟨tr', htr', hes, hserves⟩ := ih htr
    exact ⟨tr', htr', hes, .interfere (hinterfere _ _ hi) hserves⟩
  | reply hr _ ih =>
    obtain ⟨e, es, rfl, rfl, hrest⟩ := List.map_eq_cons_iff.mp htr.symm
    obtain ⟨tr', rfl, rfl, hserves⟩ := ih hrest.symm
    exact ⟨(_, e) :: tr', rfl, rfl, .reply (hreply _ _ _ hr) hserves⟩

/-- Every query is answered in the state recorded with it. -/
lemma replies (h : Serves W s tr s') : ∀ x ∈ tr, ∃ s'', W.reply x.1 x.2 s'' := by
  induction h with
  | done s => simp
  | interfere _ _ ih => exact ih
  | reply hr _ ih => exact List.forall_mem_cons.mpr ⟨⟨_, hr⟩, ih⟩

/-- A state that gives all replies and stays as it is. -/
lemma of_constant {es : List (Event I)} (h : ∀ e ∈ es, W.reply s e s) :
    Serves W s (es.map fun e => (s, e)) s := by
  induction es with
  | nil => exact .done s
  | cons e es ih =>
    obtain ⟨hreply, hrest⟩ := List.forall_mem_cons.mp h
    exact .reply hreply (ih hrest)

/-- Once changed, a state that stays as it is serves the rest of the run. -/
lemma of_changed {before after : (q : I.Query) → I.Reply q} (hafter : ∀ q, W.reply s ⟨q, after q⟩ s)
    (p : Prog I ε α) :
    Serves W s ((p.run (.changing before after) 0).2.1.map fun e => (s, e)) s := by
  induction p with
  | ret a => exact .done s
  | fail e => exact .done s
  | spin => exact .done s
  | ask q k ih => exact .reply (hafter q) (ih (after q))

/-- A state that others change after the first `n` replies. -/
lemma of_change {before after : (q : I.Query) → I.Reply q} (hbefore : ∀ q, W.reply s ⟨q, before q⟩ s)
    (hchange : W.interfere s s') (hafter : ∀ q, W.reply s' ⟨q, after q⟩ s') (p : Prog I ε α)
    (n : ℕ) :
    Serves W s (((p.run (.changing before after) n).2.1.take n).map (fun e => (s, e)) ++
      ((p.run (.changing before after) n).2.1.drop n).map fun e => (s', e)) s' := by
  induction n generalizing p with
  | zero => exact .interfere hchange (of_changed hafter p)
  | succ n ih =>
    cases p with
    | ret a => exact .interfere hchange (.done s')
    | fail e => exact .interfere hchange (.done s')
    | spin => exact .interfere hchange (.done s')
    | ask q k => exact .reply (hbefore q) (ih (k (before q)))

end Serves

lemma Stable.changes {W : World I σ} {P : σ → Prop} (hP : Stable W P) {s s' : σ}
    (h : Relation.ReflTransGen W.interfere s s') (hs : P s) : P s' := by
  induction h with
  | refl => exact hs
  | tail _ hi ih => exact hP _ _ hi ih

namespace Runs

variable {W : World I σ} {s s' : σ} {tr : List (σ × Event I)}

lemma of_ret {a b : α} (h : Runs W (.ret a : Prog I ε α) s tr s' b) :
    tr = [] ∧ b = a ∧ Relation.ReflTransGen W.interfere s s' := by
  obtain ⟨hserves, hret⟩ := h
  obtain ⟨htr, rfl⟩ := Prog.returns_ret.mp hret
  obtain rfl := List.map_eq_nil_iff.mp htr
  exact ⟨rfl, rfl, hserves.of_nil⟩

lemma not_fail {e : ε} {a : α} : ¬ Runs W (.fail e : Prog I ε α) s tr s' a :=
  fun h => Prog.not_returns_fail h.2

lemma not_spin {a : α} : ¬ Runs W (.spin : Prog I ε α) s tr s' a :=
  fun h => Prog.not_returns_spin h.2

/-- A run of a program that asks. -/
lemma of_ask {q : I.Query} {k : I.Reply q → Prog I ε α} {a : α}
    (h : Runs W (.ask q k) s tr s' a) :
    ∃ r s₁ s₂ tr', tr = (s₁, ⟨q, r⟩) :: tr' ∧ Relation.ReflTransGen W.interfere s s₁ ∧
      W.reply s₁ ⟨q, r⟩ s₂ ∧ Runs W (k r) s₂ tr' s' a := by
  obtain ⟨hserves, hret⟩ := h
  obtain ⟨r, es, htr, hk⟩ := Prog.returns_ask.mp hret
  obtain ⟨⟨s₁, e⟩, tr', rfl, rfl, rfl⟩ := List.map_eq_cons_iff.mp htr
  obtain ⟨s₂, h₁, h₂, h₃⟩ := hserves.of_cons
  exact ⟨r, s₁, s₂, tr', rfl, h₁, h₂, h₃, hk⟩

/-- A run of a composition splits into a run of each part. -/
lemma of_bind {p : Prog I ε α} {f : α → Prog I ε β} {b : β} (h : Runs W (p >>= f) s tr s' b) :
    ∃ tr₁ tr₂ m a, tr = tr₁ ++ tr₂ ∧ Runs W p s tr₁ m a ∧ Runs W (f a) m tr₂ s' b := by
  obtain ⟨hserves, hret⟩ := h
  obtain ⟨es₁, es₂, a, htr, h₁, h₂⟩ := Prog.returns_bind.mp hret
  obtain ⟨tr₁, tr₂, rfl, rfl, rfl⟩ := List.map_eq_append_iff.mp htr
  obtain ⟨m, hs₁, hs₂⟩ := hserves.split
  exact ⟨tr₁, tr₂, m, a, rfl, ⟨hs₁, h₁⟩, ⟨hs₂, h₂⟩⟩

lemma of_ofExcept {x : Except ε α} {a : α} (h : Runs W (Prog.ofExcept x : Prog I ε α) s tr s' a) :
    tr = [] ∧ x = .ok a ∧ Relation.ReflTransGen W.interfere s s' := by
  cases x with
  | ok b =>
    obtain ⟨htr, rfl, hchanges⟩ := of_ret h
    exact ⟨htr, rfl, hchanges⟩
  | error e => exact absurd h not_fail

/-- The queries of a run are among those that the program can ask. -/
lemma asks {Q : I.Query → Prop} {p : Prog I ε α} {a : α} (h : Runs W p s tr s' a)
    (hp : p.Asks Q) : ∀ x ∈ tr, Q x.2.query :=
  fun x hx => h.2.asks hp x.2 (List.mem_map_of_mem hx)

/-- In a state that gives the replies of `answer` and stays as it is, the program has the
run with these replies. -/
lemma exists_of_eval {answer : (q : I.Query) → I.Reply q}
    (hreply : ∀ q, W.reply s ⟨q, answer q⟩ s) {p : Prog I ε α} {a : α}
    (h : p.eval answer = some (.ok a)) : ∃ tr, Runs W p s tr s a ∧ ∀ x ∈ tr, x.1 = s := by
  induction p with
  | ret b =>
    obtain rfl : b = a := Except.ok.inj (Option.some.inj h)
    exact ⟨[], ⟨.done s, .refl _⟩, by simp⟩
  | fail e => exact absurd h (by simp [Prog.eval])
  | spin => exact absurd h (by simp [Prog.eval])
  | ask q k ih =>
    obtain ⟨tr, ⟨hserves, hreturns⟩, hall⟩ := ih (answer q) h
    refine ⟨(s, ⟨q, answer q⟩) :: tr, ⟨.reply (hreply q) hserves, .ask hreturns⟩, ?_⟩
    intro x hx
    rcases List.mem_cons.mp hx with rfl | hx
    · rfl
    · exact hall x hx

/-- A program that returns while others change the state once. -/
lemma of_change {before after : (q : I.Query) → I.Reply q} (hbefore : ∀ q, W.reply s ⟨q, before q⟩ s)
    (hchange : W.interfere s s') (hafter : ∀ q, W.reply s' ⟨q, after q⟩ s') {p : Prog I ε α}
    {n : ℕ} {a : α} (h : (p.run (.changing before after) n).1.returned = some a) :
    Runs W p s (((p.run (.changing before after) n).2.1.take n).map (fun e => (s, e)) ++
      ((p.run (.changing before after) n).2.1.drop n).map fun e => (s', e)) s' a := by
  have hsteps := Prog.steps_run (.changing before after) p n
  rw [Prog.returned_eq_some.mp h] at hsteps
  refine ⟨Serves.of_change hbefore hchange hafter p n, ?_⟩
  rw [List.map_append, List.map_map, List.map_map]
  simpa [Function.comp_def, Prog.Returns] using hsteps

end Runs

end Interaction
