import PamSshAgent.Module.Phases

/-!
# The order of the calls

What the phases of a call say about the calls that were made: they are made in stages that
are not returned to, the helper is gone before the agent is contacted, a challenge is drawn
for each sign request, and a call that fails is the last one, unless it watches the helper: then
an end is made of the helper, and that is the last.
-/

namespace PamSshAgent

open Interaction

variable {strict : Bool}

/-! ## What the phases say about a run -/

/-- The stages of a call, in their order. -/
inductive Stage where
  | logging
  | files
  | helper
  | connecting
  | agent
deriving DecidableEq, Repr

/-- The place of a stage. -/
def Stage.rank : Stage → ℕ
  | logging => 0
  | files => 1
  | helper => 2
  | connecting => 3
  | agent => 4

/-- The stage that a call belongs to. -/
def stageOf : ModuleCalls.Query → Stage
  | .inl (.initLogging _) => .logging
  | .inr (.inl (.inl _)) => .files
  | .inr (.inl (.inr _)) => .helper
  | .inl (.connect _ _) => .connecting
  | .inr (.inr _) => .agent

/-- A call after which the module calls nothing any more: it has failed (the calls that watch a
helper excepted), or the agent has answered a sign request with something else than its refusal. -/
def LastCall (strict : Bool) : Event ModuleCalls → Prop
  | ⟨.inl _, .error _⟩ => True
  | ⟨.inr (.inl (.inl query)), reply⟩ => FatalFs strict ⟨query, reply⟩
  | ⟨.inr (.inl (.inr query)), reply⟩ => SpawnFailed ⟨query, reply⟩
  | ⟨.inr (.inr .listIdentities), reply⟩ => ∃ error : SACError, reply = .error error
  | ⟨.inr (.inr .fill), reply⟩ => reply = none
  | ⟨.inr (.inr (.sign _ _)), reply⟩ => reply ≠ .error .remoteFailure
  | _ => False

/-- The calls for the helper in a run. -/
def helperCalls (es : List (Event ModuleCalls)) : List (Event CmdCalls) :=
  es.filterMap fun
    | ⟨.inr (.inl (.inr query)), reply⟩ => some ⟨query, reply⟩
    | _ => none

/-- Process ids fit into an `i32`. -/
def SmallPids (calls : List (Event CmdCalls)) : Prop :=
  ∀ command child, (⟨.spawn command, .ok child⟩ : Event CmdCalls) ∈ calls → child.pid < 2 ^ 31

/-- Every child that was started has been waited for. -/
def HelperGone (es : List (Event ModuleCalls)) : Prop :=
  SmallPids (helperCalls es) → ∀ command child,
    (⟨.spawn command, .ok child⟩ : Event CmdCalls) ∈ helperCalls es → Reaped child (helperCalls es)

/-- A sign request is for an identity that the agent has listed, and for a challenge that was
drawn right before. -/
def SignsFresh (before : List (Event ModuleCalls)) : ModuleCalls.Query → Prop
  | .inr (.inr (.sign identity data)) => ∃ earlier identities,
      before = earlier ++ [authPart.event ⟨.fill, some data⟩] ∧
        authPart.event ⟨.listIdentities, .ok identities⟩ ∈ earlier ∧ identity ∈ identities
  | _ => True

/-- The order of the stages in a run. -/
structure StageOrder (strict : Bool) (es : List (Event ModuleCalls)) : Prop where
  /-- No stage is returned to. -/
  stages : es.Pairwise fun e e' => (stageOf e.query).rank ≤ (stageOf e'.query).rank
  /-- Logging is started once, and the agent is connected to once. -/
  once : es.Pairwise fun e e' => stageOf e'.query = .logging ∨ stageOf e'.query = .connecting →
    stageOf e.query ≠ stageOf e'.query
  /-- When the agent is contacted, the helper is gone. -/
  gone : ∀ before e after, es = before ++ e :: after → 3 ≤ (stageOf e.query).rank →
    HelperGone before
  fresh : ∀ before e after, es = before ++ e :: after → SignsFresh before e.query
  last : ∀ before e after, es = before ++ e :: after → LastCall strict e → after = []

/-- The order of the calls in a run. -/
structure CallOrder (strict : Bool) (es : List (Event ModuleCalls)) : Prop
    extends StageOrder strict es where
  /-- Once the helper is given up, it is killed and waited for, and nothing else is done. -/
  givenUp : SmallPids (helperCalls es) → ∀ before e after,
    es = before ++ helperPart.event e :: after → GivesUp (helperCalls before) e →
      ∀ x ∈ after, ∃ call, x = helperPart.event call ∧ call.query.EndsHelper
  /-- Behind a bad exit status there are only calls for what is left of the helper. -/
  unsuccessful : SmallPids (helperCalls es) → ∀ before pid exit after,
    es = before ++ helperPart.event ⟨.tryWait pid, .ok (some exit)⟩ :: after →
      exit.success = false →
        ∀ x ∈ after, ∃ call, x = helperPart.event call ∧ call.query.FollowsExit

variable {es : List (Event ModuleCalls)} {e : Event ModuleCalls} {t t' : ModulePhase}

/-- A place in a list with one more element is the last one or a place in the list. -/
lemma concat_eq_append_cons {γ : Type} {xs before after : List γ} {x y : γ}
    (h : xs ++ [y] = before ++ x :: after) :
    (before = xs ∧ x = y ∧ after = []) ∨ ∃ after', after = after' ++ [y] ∧
      xs = before ++ x :: after' := by
  rcases List.eq_nil_or_concat after with rfl | ⟨after', last, rfl⟩
  · obtain ⟨rfl, hlast⟩ := List.append_inj' h rfl
    exact Or.inl ⟨rfl, (List.cons.inj hlast).1.symm, rfl⟩
  · right
    rw [List.concat_eq_append, ← List.cons_append, ← List.append_assoc] at h
    obtain ⟨rfl, hlast⟩ := List.append_inj' h rfl
    obtain rfl := (List.cons.inj hlast).1
    exact ⟨after', by rw [List.concat_eq_append], rfl⟩

/-- One more call. -/
lemma StageOrder.concat (h : StageOrder strict es) (hclean : ∀ x ∈ es, ¬ LastCall strict x)
    (hstage : ∀ x ∈ es, (stageOf x.query).rank ≤ (stageOf e.query).rank)
    (honce : ∀ x ∈ es, stageOf e.query = .logging ∨ stageOf e.query = .connecting →
      stageOf x.query ≠ stageOf e.query)
    (hgone : 3 ≤ (stageOf e.query).rank → HelperGone es) (hfresh : SignsFresh es e.query) :
    StageOrder strict (es ++ [e]) := by
  refine ⟨?_, ?_, ?_, ?_, ?_⟩
  · rw [List.pairwise_append]
    exact ⟨h.stages, List.pairwise_singleton _ _, by simpa using hstage⟩
  · rw [List.pairwise_append]
    exact ⟨h.once, List.pairwise_singleton _ _, by simpa using honce⟩
  · intro before x after hsplit hrank
    rcases concat_eq_append_cons hsplit with ⟨rfl, rfl, -⟩ | ⟨after', -, hes⟩
    · exact hgone hrank
    · exact h.gone before x after' hes hrank
  · intro before x after hsplit
    rcases concat_eq_append_cons hsplit with ⟨rfl, rfl, -⟩ | ⟨after', -, hes⟩
    · exact hfresh
    · exact h.fresh before x after' hes
  · intro before x after hsplit hlast
    rcases concat_eq_append_cons hsplit with ⟨-, -, rfl⟩ | ⟨after', -, hes⟩
    · rfl
    · exact absurd hlast (hclean x (by rw [hes]; simp))

/-! ## One call -/

/-- What a call does to the phase. -/
inductive ModuleStep (strict : Bool) : ModulePhase → Event ModuleCalls → ModulePhase → Prop
  | logging (service : Text) (reply : Except Error Unit) : ModuleStep strict .start
      (setupPart.event ⟨.initLogging service, reply⟩) (setupPhase (.policy .files) reply)
  | file (e : Event FsCalls) (h : ¬ FatalFs strict e) :
      ModuleStep strict (.policy .files) (trustPart.event e) (.policy .files)
  | fileFailed (e : Event FsCalls) (h : FatalFs strict e) :
      ModuleStep strict (.policy .files) (trustPart.event e) (.policy .failed)
  | start (e : Event CmdCalls) (helper : HelperPhase) (h : helperTypestate .fresh e = some helper) :
      ModuleStep strict (.policy .files) (helperPart.event e) (.policy (.helper helper))
  | helper (phase phase' : HelperPhase) (e : Event CmdCalls)
      (h : helperTypestate phase e = some phase') :
      ModuleStep strict (.policy (.helper phase)) (helperPart.event e) (.policy (.helper phase'))
  | connect (phase : PolicyPhase) (h : phase.ready = true) (path : Text) (timeout : Option ℕ)
      (reply : Except Error Unit) : ModuleStep strict (.policy phase)
      (setupPart.event ⟨.connect path timeout, reply⟩) (setupPhase .connected reply)
  | now (time : SystemTime) : ModuleStep strict .connected (authPart.event ⟨.now, time⟩) .dated
  | list (identities : List Identity) : ModuleStep strict .dated
      (authPart.event ⟨.listIdentities, .ok identities⟩) (.listed identities)
  | listFailed (error : SACError) : ModuleStep strict .dated
      (authPart.event ⟨.listIdentities, .error error⟩) .failed
  | fill (identities : List Identity) (data : Challenge) : ModuleStep strict (.listed identities)
      (authPart.event ⟨.fill, some data⟩) (.challenged identities data)
  | fillFailed (identities : List Identity) : ModuleStep strict (.listed identities)
      (authPart.event ⟨.fill, none⟩) .failed
  | sign (identities : List Identity) (data : Challenge) (identity : Identity)
      (h : identity ∈ identities) (reply : Except SACError Signature) :
      ModuleStep strict (.challenged identities data)
      (authPart.event ⟨.sign identity data, reply⟩) (signPhase identities identity reply)

lemma policyStep_of_typestate {query : PolicyCalls.Query} {reply : PolicyCalls.Reply query}
    {phase phase' : PolicyPhase} (h : policyTypestate strict phase ⟨query, reply⟩ = some phase') :
    ModuleStep strict (.policy phase) (policyPart.event ⟨query, reply⟩) (.policy phase') := by
  have hnone {C : Prop} (h : (none : Option PolicyPhase) = some phase') : C := absurd h (by simp)
  cases phase with
  | files =>
    cases query with
    | inl query =>
      have h' : (if FatalFs strict ⟨query, reply⟩ then some PolicyPhase.failed else some .files) =
        some phase' := h
      split_ifs at h' with hfatal
      · obtain rfl := Option.some.inj h'
        exact .fileFailed ⟨query, reply⟩ hfatal
      · obtain rfl := Option.some.inj h'
        exact .file ⟨query, reply⟩ hfatal
    | inr query =>
      obtain ⟨helper, hhelper, rfl⟩ := Option.map_eq_some_iff.mp h
      exact .start ⟨query, reply⟩ helper hhelper
  | helper helper =>
    cases query with
    | inl query => exact hnone h
    | inr query =>
      obtain ⟨helper', hhelper, rfl⟩ := Option.map_eq_some_iff.mp h
      exact .helper helper helper' ⟨query, reply⟩ hhelper
  | failed => exact hnone h

/-- The typestate says no more than that. -/
lemma moduleStep_of_typestate (h : moduleTypestate strict t e = some t') :
    ModuleStep strict t e t' := by
  have hnone {C : Prop} (h : (none : Option ModulePhase) = some t') : C := absurd h (by simp)
  obtain ⟨query, reply⟩ := e
  cases t with
  | start =>
    cases query with
    | inl query =>
      cases query with
      | initLogging service =>
        obtain rfl := Option.some.inj h
        exact .logging service reply
      | connect path timeout => exact hnone h
    | inr query => exact hnone h
  | policy phase =>
    cases query with
    | inl query =>
      cases query with
      | initLogging service => exact hnone h
      | connect path timeout =>
        have h' : (if phase.ready = true then some (setupPhase .connected reply) else none) =
          some t' := h
        split_ifs at h' with hready
        obtain rfl := Option.some.inj h'
        exact .connect phase hready path timeout reply
    | inr query =>
      cases query with
      | inl query =>
        obtain ⟨phase', hphase, rfl⟩ := Option.map_eq_some_iff.mp h
        exact policyStep_of_typestate hphase
      | inr query => exact hnone h
  | connected =>
    cases query with
    | inl query => exact hnone h
    | inr query =>
      cases query with
      | inl query => exact hnone h
      | inr query =>
        cases query with
        | now =>
          obtain rfl := Option.some.inj h
          exact .now reply
        | _ => exact hnone h
  | dated =>
    cases query with
    | inl query => exact hnone h
    | inr query =>
      cases query with
      | inl query => exact hnone h
      | inr query =>
        cases query with
        | listIdentities =>
          rcases reply with error | identities
          · obtain rfl := Option.some.inj h
            exact .listFailed error
          · obtain rfl := Option.some.inj h
            exact .list identities
        | _ => exact hnone h
  | listed identities =>
    cases query with
    | inl query => exact hnone h
    | inr query =>
      cases query with
      | inl query => exact hnone h
      | inr query =>
        cases query with
        | fill =>
          rcases reply with _ | data
          · obtain rfl := Option.some.inj h
            exact .fillFailed identities
          · obtain rfl := Option.some.inj h
            exact .fill identities data
        | _ => exact hnone h
  | challenged identities data =>
    cases query with
    | inl query => exact hnone h
    | inr query =>
      cases query with
      | inl query => exact hnone h
      | inr query =>
        cases query with
        | sign identity data' =>
          have h' : (if data' = data ∧ identity ∈ identities then
            some (signPhase identities identity reply) else none) = some t' := h
          split_ifs at h' with hsign
          obtain ⟨rfl, hmem⟩ := hsign
          obtain rfl := Option.some.inj h'
          exact .sign identities data' identity hmem reply
        | _ => exact hnone h
  | signed => exact hnone h
  | failed => exact hnone h

/-! ## A whole run -/

/-- The phases from which a call goes on. -/
def ModulePhase.going : ModulePhase → Bool
  | .policy .failed | .policy (.helper .notStarted) | .signed | .failed => false
  | _ => true

/-- The last stage that a phase can have reached. -/
def ModulePhase.stage : ModulePhase → Stage
  | .start => .logging
  | .policy .files | .policy .failed => .files
  | .policy (.helper _) => .helper
  | .connected => .connecting
  | .dated | .listed _ | .challenged _ _ | .signed | .failed => .agent

/-- What a phase says about the calls before it. -/
def PhaseFacts (es : List (Event ModuleCalls)) : ModulePhase → Prop
  | .start => es = []
  | .policy .files | .policy .failed => helperCalls es = []
  | .policy (.helper phase) => (helperCalls es).foldlM helperTypestate .fresh = some phase
  | .connected | .dated | .signed | .failed => HelperGone es
  | .listed left => HelperGone es ∧ ∃ identities : List Identity,
      authPart.event ⟨.listIdentities, .ok identities⟩ ∈ es ∧ left ⊆ identities
  | .challenged left data => HelperGone es ∧ ∃ earlier, ∃ identities : List Identity,
      es = earlier ++ [authPart.event ⟨.fill, some data⟩] ∧
        authPart.event ⟨.listIdentities, .ok identities⟩ ∈ earlier ∧ left ⊆ identities

/-- A run up to a phase. -/
structure CallHistory (strict : Bool) (es : List (Event ModuleCalls)) (t : ModulePhase) : Prop where
  order : StageOrder strict es
  going : t.going = true → ∀ x ∈ es, ¬ LastCall strict x
  stage : ∀ x ∈ es, (stageOf x.query).rank ≤ t.stage.rank
  facts : PhaseFacts es t

lemma helperCalls_concat (es : List (Event ModuleCalls)) (e : Event ModuleCalls) :
    helperCalls (es ++ [e]) = helperCalls es ++ helperCalls [e] := List.filterMap_append

/-- A call that is none of the helper's. -/
lemma helperCalls_concat_of_ne (stage : Stage) (hstage : stageOf e.query = stage)
    (h : stage ≠ .helper) : helperCalls (es ++ [e]) = helperCalls es := by
  subst hstage
  have hnone : helperCalls [e] = [] := by
    obtain ⟨query, reply⟩ := e
    rcases query with query | (query | query) | query
    · rfl
    · rfl
    · exact absurd rfl h
    · rfl
  rw [helperCalls_concat, hnone, List.append_nil]

lemma HelperGone.concat (h : HelperGone es) (stage : Stage) (hstage : stageOf e.query = stage)
    (hne : stage ≠ .helper) : HelperGone (es ++ [e]) := by
  rw [HelperGone, helperCalls_concat_of_ne stage hstage hne]
  exact h

lemma helperGone_of_none (h : helperCalls es = []) : HelperGone es := by
  intro _ command child hspawn
  rw [h] at hspawn
  exact absurd hspawn (by simp)

/-- In a phase without a child that is to be waited for, every child has been. -/
lemma helperGone_of_phase {phase : HelperPhase} (hgone : phase.gone = true)
    (h : (helperCalls es).foldlM helperTypestate .fresh = some phase) : HelperGone es := by
  intro hpids command child hspawn
  have hist : PhaseHistory (helperCalls es) phase := phaseHistory_of_run h
  cases phase with
  | fresh => exact absurd hspawn (hist.2.2 command child)
  | notStarted => exact absurd hspawn (hist command child)
  | exempt =>
    obtain ⟨command', child', hmem, hlarge⟩ := hist
    exact absurd (hpids command' child' hmem) (Nat.not_lt.mpr hlarge)
  | alive child' received status =>
    obtain ⟨hstarted, -⟩ := hist
    obtain rfl := hstarted.spawned command child hspawn
    obtain ⟨st, rfl⟩ := Option.isSome_iff_exists.mp hgone
    exact Or.inl ⟨st, hstarted.collected st rfl⟩
  | failed child' status => exact absurd hgone (by simp [HelperPhase.gone])
  | killed child' status =>
    obtain ⟨hstarted, -⟩ := hist
    obtain rfl := hstarted.spawned command child hspawn
    obtain ⟨st, rfl⟩ := Option.isSome_iff_exists.mp hgone
    exact Or.inl ⟨st, hstarted.collected st rfl⟩
  | reaped child' =>
    obtain ⟨hstarted, -, hwait⟩ := hist
    obtain rfl := hstarted.spawned command child hspawn
    exact Or.inr hwait

lemma helperGone_of_policy {phase : PolicyPhase} (hgone : phase.gone = true)
    (h : PhaseFacts es (.policy phase)) : HelperGone es := by
  cases phase with
  | files => exact helperGone_of_none h
  | failed => exact helperGone_of_none h
  | helper helper => exact helperGone_of_phase hgone h

lemma identitiesAfter_subset (identity : Identity) (identities : List Identity) :
    identitiesAfter identity identities ⊆ identities :=
  fun _ hmem => (List.dropWhile_suffix _).subset (List.tail_subset _ hmem)

/-- A run goes on with a call of the same or a later stage. -/
lemma CallHistory.concat (h : CallHistory strict es t) (hgoing : t.going = true) (stage : Stage)
    (hstage : stageOf e.query = stage)
    (hrank : t.stage.rank ≤ stage.rank ∧ stage.rank ≤ t'.stage.rank)
    (honce : stage = .logging ∨ stage = .connecting → ∀ x ∈ es, stageOf x.query ≠ stage)
    (hgone : 3 ≤ stage.rank → HelperGone es) (hfresh : SignsFresh es e.query)
    (hlast : t'.going = true → ¬ LastCall strict e) (hfacts : PhaseFacts (es ++ [e]) t') :
    CallHistory strict (es ++ [e]) t' := by
  subst hstage
  have hclean := h.going hgoing
  refine ⟨h.order.concat hclean (fun x hx => (h.stage x hx).trans hrank.1)
    (fun x hx hstart => honce hstart x hx) hgone hfresh, ?_, ?_, hfacts⟩
  · intro hgoing' x hx
    rcases List.mem_append.mp hx with hx | hx
    · exact hclean x hx
    · obtain rfl := List.mem_singleton.mp hx
      exact hlast hgoing'
  · intro x hx
    rcases List.mem_append.mp hx with hx | hx
    · exact (h.stage x hx).trans (hrank.1.trans hrank.2)
    · obtain rfl := List.mem_singleton.mp hx
      exact hrank.2

lemma foldlM_helperCalls {e : Event CmdCalls} {phase phase' : HelperPhase}
    (h : helperTypestate phase e = some phase') :
    (helperCalls [helperPart.event e]).foldlM helperTypestate phase = some phase' := by
  have hcalls : helperCalls [helperPart.event e] = [e] := rfl
  rw [hcalls, List.foldlM_cons, h]
  rfl

lemma not_lastCall_list {identities : List Identity} :
    ¬ LastCall strict (authPart.event ⟨.listIdentities, .ok identities⟩) := by
  rintro ⟨error, herror⟩
  have hreply : (.ok identities : Except SACError (List Identity)) = .error error := herror
  exact absurd hreply (by simp)

lemma not_lastCall_fill {data : Challenge} :
    ¬ LastCall strict (authPart.event ⟨.fill, some data⟩) := by
  intro hnone
  have hreply : some data = none := hnone
  exact absurd hreply (by simp)

lemma not_lastCall_refused {identity : Identity} {data : Challenge} :
    ¬ LastCall strict (authPart.event ⟨.sign identity data, .error .remoteFailure⟩) :=
  fun hne => hne rfl

/-- A phase that allows a call for the helper is one from which the run goes on. -/
lemma going_of_helperStep {e : Event CmdCalls} {phase phase' : HelperPhase}
    (h : helperTypestate phase e = some phase') :
    (ModulePhase.policy (.helper phase)).going = true := by
  cases phase with
  | notStarted => exact absurd h (by simp [helperTypestate])
  | _ => rfl

lemma going_of_ready {phase : PolicyPhase} (h : phase.ready = true) :
    (ModulePhase.policy phase).going = true := by
  cases phase with
  | files => rfl
  | failed => exact absurd h (by simp [PolicyPhase.ready])
  | helper helper =>
    cases helper with
    | notStarted => exact absurd h (by simp [PolicyPhase.ready, HelperPhase.succeeded])
    | _ => rfl

/-- Of the calls for the helper only a start that fails is the last one. -/
lemma not_lastCall_helper {e : Event CmdCalls} {phase phase' : HelperPhase}
    (h : helperTypestate phase e = some phase')
    (hgoing : (ModulePhase.policy (.helper phase')).going = true) :
    ¬ LastCall strict (helperPart.event e) := by
  intro hlast
  obtain rfl := notStarted_of_step h hlast
  exact absurd hgoing (by simp [ModulePhase.going])

/-- What a run has reached, after one more call for the policy. -/
lemma CallHistory.concat_policy {phase phase' : PolicyPhase}
    (h : CallHistory strict es (.policy phase))
    (hgoing : (ModulePhase.policy phase).going = true) (stage : Stage)
    (hstage : stageOf e.query = stage)
    (hpolicy : stage = .files ∨ stage = .helper)
    (hrank : (ModulePhase.policy phase).stage.rank ≤ stage.rank ∧
      stage.rank ≤ (ModulePhase.policy phase').stage.rank)
    (hlast : (ModulePhase.policy phase').going = true → ¬ LastCall strict e)
    (hfacts : PhaseFacts (es ++ [e]) (.policy phase')) :
    CallHistory strict (es ++ [e]) (.policy phase') := by
  refine h.concat hgoing stage hstage hrank ?_ ?_ ?_ hlast hfacts
  · rcases hpolicy with rfl | rfl <;> simp
  · rcases hpolicy with rfl | rfl <;> simp [Stage.rank]
  · subst hstage
    obtain ⟨query, reply⟩ := e
    rcases query with (service | ⟨path, timeout⟩) | (query | query) | query
    · trivial
    · trivial
    · trivial
    · trivial
    · exact absurd hpolicy (by simp [stageOf])

/-- What a run has reached, after one more call to the agent. -/
lemma CallHistory.concat_agent {e : Event AuthCalls} (h : CallHistory strict es t)
    (hgoing : t.going = true) (hagent : t'.stage = .agent) (hgone : HelperGone es)
    (hfresh : SignsFresh es (authPart.event e).query)
    (hlast : t'.going = true → ¬ LastCall strict (authPart.event e))
    (hfacts : PhaseFacts (es ++ [authPart.event e]) t') :
    CallHistory strict (es ++ [authPart.event e]) t' := by
  refine h.concat hgoing .agent rfl ?_ ?_ (fun _ => hgone) hfresh hlast hfacts
  · rw [hagent]
    refine ⟨?_, le_rfl⟩
    cases t.stage <;> simp [Stage.rank]
  · simp

/-- What a run has reached, after one more call. -/
lemma CallHistory.step (h : CallHistory strict es t) (hstep : ModuleStep strict t e t') :
    CallHistory strict (es ++ [e]) t' := by
  have hfacts := h.facts
  cases hstep with
  | logging service reply =>
    obtain rfl : es = [] := hfacts
    have hfresh : SignsFresh [] (setupPart.event ⟨.initLogging service, reply⟩).query := trivial
    rcases reply with error | _
    · refine h.concat rfl .logging rfl ?_ (by simp) (by simp [Stage.rank]) hfresh ?_ ?_
      · simp [setupPhase, ModulePhase.stage, Stage.rank]
      · simp [setupPhase, ModulePhase.going]
      · exact helperGone_of_none rfl
    · refine h.concat rfl .logging rfl ?_ (by simp) (by simp [Stage.rank]) hfresh (fun _ => id) rfl
      simp [setupPhase, ModulePhase.stage, Stage.rank]
  | file e he =>
    refine h.concat_policy rfl .files rfl (Or.inl rfl) (by decide) (fun _ => he) ?_
    exact (helperCalls_concat_of_ne .files rfl (by decide)).trans hfacts
  | fileFailed e he =>
    refine h.concat_policy rfl .files rfl (Or.inl rfl) (by decide) (by simp [ModulePhase.going]) ?_
    exact (helperCalls_concat_of_ne .files rfl (by decide)).trans hfacts
  | start e helper he =>
    refine h.concat_policy rfl .helper rfl (Or.inr rfl) ?_ (not_lastCall_helper he) ?_
    · simp [ModulePhase.stage, Stage.rank]
    · have hnone : helperCalls es = [] := hfacts
      show (helperCalls (es ++ [helperPart.event e])).foldlM helperTypestate .fresh = some helper
      rw [helperCalls_concat, hnone]
      exact foldlM_helperCalls he
  | helper phase phase' e he =>
    refine h.concat_policy (going_of_helperStep he) .helper rfl (Or.inr rfl) ?_
      (not_lastCall_helper he) ?_
    · simp [ModulePhase.stage, Stage.rank]
    · have hbefore : (helperCalls es).foldlM helperTypestate .fresh = some phase := hfacts
      show (helperCalls (es ++ [helperPart.event e])).foldlM helperTypestate .fresh = some phase'
      rw [helperCalls_concat, List.foldlM_append, hbefore]
      exact foldlM_helperCalls he
  | connect phase hready path timeout reply =>
    have hgone : HelperGone es := helperGone_of_policy (PolicyPhase.gone_of_ready hready) hfacts
    have hearlier : (ModulePhase.policy phase).stage.rank < 3 := by
      cases phase <;> simp [ModulePhase.stage, Stage.rank]
    have hgoing : (ModulePhase.policy phase).going = true := going_of_ready hready
    have honce : ∀ x ∈ es, stageOf x.query ≠ .connecting := by
      intro x hx heq
      have hrank := h.stage x hx
      rw [heq] at hrank
      exact absurd (hrank.trans_lt hearlier) (by simp [Stage.rank])
    have hfresh : SignsFresh es (setupPart.event ⟨.connect path timeout, reply⟩).query := trivial
    have hgone' : HelperGone (es ++ [setupPart.event ⟨.connect path timeout, reply⟩]) :=
      hgone.concat .connecting rfl (by decide)
    rcases reply with error | _
    · refine h.concat hgoing .connecting rfl ⟨hearlier.le, ?_⟩ (fun _ => honce) (fun _ => hgone)
        hfresh (by simp [setupPhase, ModulePhase.going]) hgone'
      simp [setupPhase, ModulePhase.stage, Stage.rank]
    · refine h.concat hgoing .connecting rfl ⟨hearlier.le, ?_⟩ (fun _ => honce) (fun _ => hgone)
        hfresh (fun _ => id) hgone'
      simp [setupPhase, ModulePhase.stage, Stage.rank]
  | now time =>
    have hgone : HelperGone es := hfacts
    exact h.concat_agent rfl rfl hgone trivial (fun _ => id) (hgone.concat .agent rfl (by decide))
  | list identities =>
    have hgone : HelperGone es := hfacts
    refine h.concat_agent rfl rfl hgone trivial (fun _ => not_lastCall_list) ?_
    exact ⟨hgone.concat .agent rfl (by decide), identities, by simp, List.Subset.refl _⟩
  | listFailed error =>
    have hgone : HelperGone es := hfacts
    exact h.concat_agent rfl rfl hgone trivial (by simp [ModulePhase.going])
      (hgone.concat .agent rfl (by decide))
  | fill identities data =>
    obtain ⟨hgone, listed, hlisted, hsubset⟩ := hfacts
    refine h.concat_agent rfl rfl hgone trivial (fun _ => not_lastCall_fill) ?_
    exact ⟨hgone.concat .agent rfl (by decide), es, listed, rfl, hlisted, hsubset⟩
  | fillFailed identities =>
    obtain ⟨hgone, -⟩ := hfacts
    exact h.concat_agent rfl rfl hgone trivial (by simp [ModulePhase.going])
      (hgone.concat .agent rfl (by decide))
  | sign identities data identity hmem reply =>
    obtain ⟨hgone, earlier, listed, hes, hlisted, hsubset⟩ := hfacts
    have hfresh : SignsFresh es (authPart.event ⟨.sign identity data, reply⟩).query :=
      ⟨earlier, listed, hes, hlisted, hsubset hmem⟩
    have hgone' : HelperGone (es ++ [authPart.event ⟨.sign identity data, reply⟩]) :=
      hgone.concat .agent rfl (by decide)
    rcases reply with error | signature
    · cases error with
      | remoteFailure =>
        refine h.concat_agent rfl rfl hgone hfresh (fun _ => not_lastCall_refused) ?_
        refine ⟨hgone', listed, ?_, fun x hx => hsubset (identitiesAfter_subset _ _ hx)⟩
        rw [hes]
        simp [hlisted]
      | other text =>
        exact h.concat_agent rfl rfl hgone hfresh (by simp [signPhase, ModulePhase.going]) hgone'
    · exact h.concat_agent rfl rfl hgone hfresh (by simp [signPhase, ModulePhase.going]) hgone'

/-- A run keeps the order of the calls. -/
lemma callHistory_of_run (h : es.foldlM (moduleTypestate strict) .start = some t) :
    CallHistory strict es t := by
  induction es using List.reverseRecOn generalizing t with
  | nil =>
    obtain rfl := Option.some.inj h
    exact ⟨⟨by simp, by simp, by simp, by simp, by simp⟩, by simp, by simp, rfl⟩
  | append_singleton es e ih =>
    rw [List.foldlM_append] at h
    obtain ⟨before, hbefore, hlast⟩ := Option.bind_eq_some_iff.mp h
    rw [List.foldlM_cons] at hlast
    obtain ⟨after, hafter, hnil⟩ := Option.bind_eq_some_iff.mp hlast
    obtain rfl := Option.some.inj hnil
    exact (ih hbefore).step (moduleStep_of_typestate hafter)

lemma gone_of_moduleEnds {x : Except Error PamResultCode} (h : ModuleEnds x t) : t.gone = true := by
  rcases x with error | code
  · exact h.elim
  cases code with
  | authErr => exact h
  | success =>
    cases t with
    | policy phase => exact PolicyPhase.gone_of_ready h
    | _ => rfl

/-- A phase without a child that is to be waited for. -/
lemma CallHistory.helperGone (h : CallHistory strict es t) (hgone : t.gone = true) :
    HelperGone es := by
  have hfacts := h.facts
  cases t with
  | start =>
    obtain rfl : es = [] := hfacts
    exact helperGone_of_none rfl
  | policy phase => exact helperGone_of_policy hgone hfacts
  | listed identities => exact hfacts.1
  | challenged identities data => exact hfacts.1
  | _ => exact hfacts

/-! ## After a failure of the helper -/

/-- A call for the helper and the phases around it. -/
lemma CallHistory.helperStep {e : Event CmdCalls} (h : CallHistory strict es t)
    (hstep : moduleTypestate strict t (helperPart.event e) = some t') :
    ∃ phase phase', (helperCalls es).foldlM helperTypestate .fresh = some phase ∧
      helperTypestate phase e = some phase' ∧ t' = .policy (.helper phase') := by
  have hnone {C : Prop} (h : (none : Option ModulePhase) = some t') : C := absurd h (by simp)
  have hfacts := h.facts
  cases t with
  | policy phase =>
    obtain ⟨policy', hpolicy, rfl⟩ := Option.map_eq_some_iff.mp hstep
    cases phase with
    | files =>
      obtain ⟨helper', hhelper, rfl⟩ := Option.map_eq_some_iff.mp hpolicy
      have hcalls : helperCalls es = [] := hfacts
      exact ⟨.fresh, helper', by rw [hcalls]; rfl, hhelper, rfl⟩
    | helper helper =>
      obtain ⟨helper', hhelper, rfl⟩ := Option.map_eq_some_iff.mp hpolicy
      exact ⟨helper, helper', hfacts, hhelper, rfl⟩
    | failed => exact absurd hpolicy (by simp [policyTypestate])
  | _ => exact hnone hstep

/-- What surrounds a call for the helper in a run. -/
lemma exists_helperStep {before after : List (Event ModuleCalls)} {e : Event CmdCalls}
    (h : es.foldlM (moduleTypestate strict) .start = some t)
    (hsmall : SmallPids (helperCalls es)) (hsplit : es = before ++ helperPart.event e :: after) :
    ∃ phase phase', PhaseHistory (helperCalls before) phase ∧
      helperTypestate phase e = some phase' ∧ phase' ≠ .exempt ∧
        after.foldlM (moduleTypestate strict) (.policy (.helper phase')) = some t := by
  rw [hsplit, List.foldlM_append] at h
  obtain ⟨t₁, hbefore, hrest⟩ := Option.bind_eq_some_iff.mp h
  rw [List.foldlM_cons] at hrest
  obtain ⟨t₂, hstep, hafter⟩ := Option.bind_eq_some_iff.mp hrest
  obtain ⟨phase, phase', hphase, hhelper, rfl⟩ := (callHistory_of_run hbefore).helperStep hstep
  have hist := phaseHistory_of_run hphase
  refine ⟨phase, phase', hist, hhelper, ?_, hafter⟩
  rintro rfl
  obtain ⟨command, child, hmem, hlarge⟩ := phaseHistory_concat hhelper hist
  have hall : helperCalls es = helperCalls before ++ [e] ++ helperCalls after := by
    rw [hsplit, helperCalls, List.filterMap_append, List.append_assoc]
    rfl
  have hpid := hsmall command child (by rw [hall]; exact List.mem_append_left _ hmem)
  exact absurd hpid (Nat.not_lt.mpr hlarge)

/-- In phases of the helper that lead to no success, there are only calls for the helper. -/
lemma helperCalls_of_stuck {after : List (Event ModuleCalls)} {P : HelperPhase → Prop}
    {Q : CmdQuery → Prop} {phase : HelperPhase}
    (hstep : ∀ phase e phase', P phase → helperTypestate phase e = some phase' →
      Q e.query ∧ P phase')
    (hstuck : ∀ phase, P phase → phase.succeeded = false) (hphase : P phase)
    (h : after.foldlM (moduleTypestate strict) (.policy (.helper phase)) = some t) :
    ∀ x ∈ after, ∃ call, x = helperPart.event call ∧ Q call.query := by
  induction after generalizing phase with
  | nil => simp
  | cons x after ih =>
    rw [List.foldlM_cons] at h
    obtain ⟨t₁, hx, hrest⟩ := Option.bind_eq_some_iff.mp h
    obtain ⟨query, reply⟩ := x
    rcases query with (service | ⟨path, timeout⟩) | (query | query) | query
    · exact absurd hx (by simp [moduleTypestate])
    · -- the agent is connected to only after a success
      have hready : (if (PolicyPhase.helper phase).ready = true
          then some (setupPhase .connected reply) else none) = some t₁ := hx
      rw [if_neg (by simp [PolicyPhase.ready, hstuck phase hphase])] at hready
      exact absurd hready (by simp)
    · exact absurd hx (by simp [moduleTypestate, policyTypestate])
    · obtain ⟨policy', hpolicy, rfl⟩ := Option.map_eq_some_iff.mp hx
      obtain ⟨phase', hhelper, rfl⟩ := Option.map_eq_some_iff.mp hpolicy
      obtain ⟨hquery, hphase'⟩ := hstep phase ⟨query, reply⟩ phase' hphase hhelper
      exact List.forall_mem_cons.mpr ⟨⟨⟨query, reply⟩, rfl, hquery⟩, ih hphase' hrest⟩
    · exact absurd hx (by simp [moduleTypestate])

/-- A run keeps the order of the calls, also after a failure of the helper. -/
lemma callOrder_of_run (h : es.foldlM (moduleTypestate strict) .start = some t) :
    CallOrder strict es := by
  refine ⟨(callHistory_of_run h).order, ?_, ?_⟩
  · intro hsmall before e after hsplit hgives
    obtain ⟨phase, phase', hist, hstep, hexempt, hafter⟩ := exists_helperStep h hsmall hsplit
    refine helperCalls_of_stuck (P := fun phase => phase.ending = true)
      (fun _ _ _ hending hstep => ending_of_step hstep hending) (fun phase hending => ?_)
      (ending_of_givesUp hist hstep hgives hexempt) hafter
    cases phase with
    | failed child status => rfl
    | killed child status => rfl
    | reaped child => rfl
    | _ => exact absurd hending (by simp [HelperPhase.ending])
  · intro hsmall before pid exit after hsplit hbad
    obtain ⟨phase, phase', hist, hstep, hexempt, hafter⟩ := exists_helperStep h hsmall hsplit
    refine helperCalls_of_stuck (P := fun phase => phase.collected = some exit)
      (fun _ _ _ hcollected hstep => collected_of_step hstep hcollected)
      (fun phase hcollected => ?_) (collected_of_tryWait hstep hexempt) hafter
    cases phase with
    | alive child received status =>
      obtain rfl : status = some exit := hcollected
      exact hbad
    | exempt => exact absurd hcollected (by simp [HelperPhase.collected])
    | _ => rfl

/-- **The calls are made in order.**  However far a call of the module gets and whatever the
replies are: its calls come in stages that are not returned to; the helper is gone before the
agent is contacted; an identity that the agent has listed signs a challenge that was drawn right
before; after a failed call that the module does not tolerate, or a signature, it calls nothing any
more, and once the helper is given up, because of a call that watches it, of what it printed or of
the time, it is only killed and waited for. -/
theorem calls_in_order (fuel : ℕ) (crate : SshKeyCrate) (host : Host) (handle : PamHandleExt)
    (args : List CStr) (es : List (Event ModuleCalls))
    (rest : Prog ModuleCalls Error PamResultCode)
    (hrun : (smAuthenticate fuel crate host handle args).Steps es rest) :
    CallOrder (hasStrict args) es := by
  obtain ⟨t, ht, -⟩ := hrun.follows (t := ModulePhase.start) smAuthenticate_follows
  exact callOrder_of_run ht

/-- The strict call for `bob`, from the file, the helper and the agent to the answer. -/
def bobCall : Prog ModuleCalls Error PamResultCode × List (Event ModuleCalls) × Unit × Schedule :=
  (smAuthenticate 4 trustingCrate bobAgentHost ⟨.ok "bob", .ok "sudo"⟩ bobArgs).run bobWorld.respond
    ((), keyHelper)

lemma bobCall_steps :
    (smAuthenticate 4 trustingCrate bobAgentHost ⟨.ok "bob", .ok "sudo"⟩ bobArgs).Steps
      bobCall.2.1 bobCall.1 := by
  rw [bobCall]
  exact Prog.steps_run _ _ _

/-- The calls of that run are made in order. -/
theorem calls_in_order_bob : CallOrder (hasStrict bobArgs) bobCall.2.1 :=
  calls_in_order 4 trustingCrate bobAgentHost ⟨.ok "bob", .ok "sudo"⟩ bobArgs bobCall.2.1 bobCall.1
    bobCall_steps

end PamSshAgent
