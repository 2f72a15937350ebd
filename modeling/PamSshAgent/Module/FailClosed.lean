import PamSshAgent.Library.FailClosed
import PamSshAgent.Module.Order

/-!
# A call that meets a failure denies

Whatever fails on the way of a call (a file, the helper or one of the calls that watch it, the
agent, the random numbers, a signature) leads to the code for an authentication error.  The
exceptions are the refusals of the agent, polls and reads that were interrupted, reads that
found nothing yet, and in legacy mode files that do not exist.  Of these the key file may be
missing; a missing file of certificate authorities ends the call as well, but is not counted
here.
-/

namespace PamSshAgent

open Interaction

/-! ## The helper -/

/-- A helper that must not be trusted: it was not started, one of the calls that watch it
failed, it was killed, or it ended without success. -/
def HelperDenies : Event CmdCalls → Prop
  | ⟨.spawn _, .error _⟩ | ⟨.killGroup _, _⟩ => True
  | ⟨.tryWait _, .ok (some status)⟩ => status.success = false
  | e => FailedCall e

/-- The child ended without success. -/
def BadStatus : Option ExitStatus → Prop
  | some status => status.success = false
  | none => False

variable {es : List (Event CmdCalls)} {e : Event CmdCalls}

lemma terminateWith_neverReturns {α : Type} (child : Child) (status : Option ExitStatus)
    (error : Error) : (terminateWith child status error : Prog CmdCalls Error α).NeverReturns :=
  fun _ _ => not_returns_terminateWith

lemma setNonblocking_failsClosed (stream : Stream) :
    (setNonblocking stream).FailsClosed HelperDenies := by
  rw [setNonblocking, Prog.query_bind]
  refine Prog.failsClosed_ask ?_ fun flags => ?_
  · rintro (error | flags) hdenies
    · exact Prog.neverReturns_fail error
    · exact absurd hdenies (by simp [HelperDenies, FailedCall])
  refine (Prog.failsClosed_ofExcept flags).bind fun flags => ?_
  rw [Prog.query_bind]
  refine Prog.failsClosed_ask ?_ fun reply => Prog.failsClosed_ofExcept reply
  rintro (error | _) hdenies
  · exact Prog.neverReturns_fail error
  · exact absurd hdenies (by simp [HelperDenies, FailedCall])

lemma drainOutput_failsClosed (stream : Stream) (fuel : ℕ) (output : List UInt8) (eof : Bool) :
    (drainOutput stream fuel output eof).FailsClosed HelperDenies := by
  induction fuel generalizing output with
  | zero => exact Prog.failsClosed_spin
  | succ fuel ih =>
    rw [drainOutput, Prog.query_bind]
    refine Prog.failsClosed_ask ?_ ?_
    · rintro (error | chunk) hdenies
      · cases error with
        | wouldBlock => exact absurd rfl hdenies.1
        | interrupted => exact absurd rfl hdenies.2
        | _ => exact Prog.neverReturns_fail _
      · exact absurd hdenies (by simp [HelperDenies, FailedCall])
    · rintro (error | chunk)
      · cases error with
        | wouldBlock => exact Prog.failsClosed_ret _
        | interrupted => exact ih output
        | _ => exact Prog.failsClosed_fail _
      · cases chunk with
        | nil => exact Prog.failsClosed_ret _
        | cons byte chunk =>
          dsimp only
          split_ifs
          · exact Prog.failsClosed_fail _
          · exact ih _

lemma waitForOutput_failsClosed (stdoutEof stderrEof : Bool) (deadline : Instant) (fuel : ℕ) :
    (waitForOutput stdoutEof stderrEof deadline fuel).FailsClosed HelperDenies := by
  induction fuel with
  | zero => exact Prog.failsClosed_spin
  | succ fuel ih =>
    rw [waitForOutput, Prog.query_bind]
    refine Prog.failsClosed_ask
      (fun _ hdenies => absurd hdenies (by simp [HelperDenies, FailedCall])) fun now => ?_
    by_cases hremaining : deadline - now = 0
    · rw [if_pos hremaining]
      exact Prog.failsClosed_ret _
    rw [if_neg hremaining, Prog.query_bind]
    refine Prog.failsClosed_ask ?_ ?_
    · rintro (error | _) hdenies
      · cases error with
        | interrupted => exact absurd rfl hdenies
        | _ => exact Prog.neverReturns_fail _
      · exact absurd hdenies (by simp [HelperDenies, FailedCall])
    · rintro (error | _)
      · cases error with
        | interrupted => exact ih
        | _ => exact Prog.failsClosed_fail _
      · exact Prog.failsClosed_ret _

lemma drainBoth_failsClosed (running : Running) (collected : Collected) :
    (drainBoth running collected).FailsClosed HelperDenies := by
  rw [drainBoth]
  refine (drainOutput_failsClosed _ _ _ _).attempt_bind ?_
    fun _ error _ => Or.inl (terminateWith_neverReturns _ _ _)
  rintro (error | ⟨stdoutBytes, stdoutEof⟩)
  · exact (terminateWith_neverReturns _ _ _).failsClosed
  refine (drainOutput_failsClosed _ _ _ _).attempt_bind ?_
    fun _ error _ => Or.inl (terminateWith_neverReturns _ _ _)
  rintro (error | ⟨stderrBytes, stderrEof⟩)
  · exact (terminateWith_neverReturns _ _ _).failsClosed
  · exact Prog.failsClosed_ret _

lemma awaitProgress_failsClosed (running : Running) (collected : Collected) :
    (awaitProgress running collected).FailsClosed HelperDenies := by
  rw [awaitProgress, Prog.query_bind]
  refine Prog.failsClosed_ask (fun _ hdenies => absurd hdenies (by simp [HelperDenies, FailedCall]))
    fun now => ?_
  split_ifs
  · exact (terminateWith_neverReturns _ _ _).failsClosed
  refine (waitForOutput_failsClosed _ _ _ _).attempt_bind ?_
    fun _ error _ => Or.inl (terminateWith_neverReturns _ _ _)
  rintro (error | _)
  · exact (terminateWith_neverReturns _ _ _).failsClosed
  · exact Prog.failsClosed_ret _

/-- A status that is collected without success stays in the variable. -/
lemma denies_collectStatus {child : Child} {status status' : Option ExitStatus}
    (h : (collectStatus child status).Returns es status') :
    (∀ e ∈ es, HelperDenies e → BadStatus status') ∧ (status.isSome = true → status' = status) := by
  rw [collectStatus] at h
  split_ifs at h with hnone
  · rw [Prog.query_bind] at h
    obtain ⟨reply, rest, rfl, hrest⟩ := Prog.returns_ask.mp h
    rcases reply with error | result
    · exact absurd hrest not_returns_terminateWith
    · obtain ⟨rfl, rfl⟩ := Prog.returns_ret.mp hrest
      refine ⟨fun e he hdenies => ?_, fun hsome => ?_⟩
      · obtain rfl := List.mem_singleton.mp he
        cases status' with
        | none => exact absurd hdenies (by simp [HelperDenies, FailedCall])
        | some status => exact hdenies
      · rw [Option.isNone_iff_eq_none.mp hnone] at hsome
        exact absurd hsome (by simp)
  · obtain ⟨rfl, rfl⟩ := Prog.returns_ret.mp h
    exact ⟨by simp, fun _ => rfl⟩

lemma drainBoth_status {running : Running} {collected drained : Collected}
    (h : (drainBoth running collected).Returns es drained) : drained.status = collected.status := by
  rw [drainBoth] at h
  obtain ⟨_, _, stdout, -, -, h⟩ := Prog.returns_bind.mp h
  rcases stdout with error | ⟨stdoutBytes, stdoutEof⟩
  · exact absurd h not_returns_terminateWith
  obtain ⟨_, _, stderr, -, -, h⟩ := Prog.returns_bind.mp h
  rcases stderr with error | ⟨stderrBytes, stderrEof⟩
  · exact absurd h not_returns_terminateWith
  · rw [(Prog.returns_ret.mp h).2]

/-- The loop survives nothing but a status without success, and it keeps that. -/
lemma denies_collectOutput {running : Running} {fuel : ℕ} {collected collected' : Collected}
    (h : (collectOutput running fuel collected).Returns es collected') :
    (∀ e ∈ es, HelperDenies e → BadStatus collected'.status) ∧
      (collected.status.isSome = true → collected'.status = collected.status) := by
  induction fuel generalizing collected es with
  | zero => exact absurd h Prog.not_returns_spin
  | succ fuel ih =>
    rw [collectOutput] at h
    obtain ⟨es₁, es₂, drained, rfl, hdrain, hrest⟩ := Prog.returns_bind.mp h
    have hclean := drainBoth_failsClosed running collected es₁ drained hdrain
    have hsame := drainBoth_status hdrain
    split_ifs at hrest with hdone
    · obtain ⟨rfl, rfl⟩ := Prog.returns_ret.mp hrest
      rw [List.append_nil]
      exact ⟨fun e he hdenies => absurd hdenies (hclean e he), fun _ => hsame⟩
    · obtain ⟨es₃, es₄, status, rfl, hcollect, hrest₁⟩ := Prog.returns_bind.mp hrest
      obtain ⟨es₅, es₆, _, rfl, hawait, hloop⟩ := Prog.returns_bind.mp hrest₁
      obtain ⟨hstatus, hkept⟩ := denies_collectStatus hcollect
      have hawaited := awaitProgress_failsClosed running _ es₅ _ hawait
      obtain ⟨hlater, hkept'⟩ := ih hloop
      refine ⟨fun e he hdenies => ?_, fun hsome => ?_⟩
      · simp only [List.mem_append] at he
        rcases he with he | he | he | he
        · exact absurd hdenies (hclean e he)
        · -- the status is there now, so the rest of the loop keeps it
          have hbad := hstatus e he hdenies
          cases status with
          | none => exact hbad.elim
          | some status => exact hkept' rfl ▸ hbad
        · exact absurd hdenies (hawaited e he)
        · exact hlater e he hdenies
      · have hstatus' : status = collected.status := (hkept (hsame ▸ hsome)).trans hsame
        exact (hkept' (hstatus' ▸ hsome)).trans hstatus'

lemma takeStreams_failsClosed (executable : Text) (child : Child) :
    (takeStreams executable child).FailsClosed HelperDenies := by
  have hset : ∀ stream, ((setNonblocking stream).attempt >>= fun reply =>
      Prog.ofExcept (reply.mapError Error.io)).FailsClosed HelperDenies := fun stream =>
    (setNonblocking_failsClosed stream).attempt_bind (fun _ => Prog.failsClosed_ofExcept _)
      fun _ error _ => Or.inl (Prog.neverReturns_fail (Error.io error))
  rw [takeStreams]
  split_ifs
  · exact Prog.failsClosed_fail _
  · exact Prog.failsClosed_fail _
  · have hstderr := hset .stderr
    have hstdout := hset .stdout
    rw [← Prog.bind_bind]
    exact hstdout.bind fun _ => hstderr

/-- `run_inner` fails closed. -/
lemma runInner_failsClosed (fuel : ℕ) (command : List Text) (timeout : Duration) (uid : Uid)
    (gid : Option Gid) (prevent : Bool) :
    (runInner fuel command timeout uid gid prevent).FailsClosed HelperDenies := by
  cases command with
  | nil => exact Prog.failsClosed_fail _
  | cons executable args =>
  rw [runInner]
  split_ifs
  · exact Prog.failsClosed_fail _
  refine (Prog.failsClosed_ofExcept _).bind fun gid' => ?_
  refine Prog.failsClosed_ask (fun _ hdenies => absurd hdenies (by simp [HelperDenies, FailedCall]))
    fun euid => ?_
  refine Prog.failsClosed_ask (fun _ hdenies => absurd hdenies (by simp [HelperDenies, FailedCall]))
    fun start => ?_
  refine Prog.failsClosed_ask ?_ ?_
  · rintro (error | child) hdenies
    · exact Prog.neverReturns_fail _
    · exact absurd hdenies (by simp [HelperDenies, FailedCall])
  rintro (error | child)
  · exact Prog.failsClosed_fail _
  refine (takeStreams_failsClosed executable child).attempt_bind ?_
    fun _ error _ => Or.inl (terminateWith_neverReturns _ _ _)
  rintro (error | _)
  · exact (terminateWith_neverReturns _ _ _).failsClosed
  -- a status without success is found out when the output is checked
  intro es text h e he hdenies
  obtain ⟨es₁, es₂, collected, rfl, hloop, hcheck⟩ := Prog.returns_bind.mp h
  obtain ⟨rfl, hchecked⟩ := Prog.returns_ofExcept.mp hcheck
  rw [List.append_nil] at he
  obtain ⟨status, stdout, hstatus, hsuccess, -⟩ := checkOutput_eq_ok hchecked
  have hbad := (denies_collectOutput hloop).1 e he hdenies
  rw [hstatus] at hbad
  exact absurd hsuccess (by simp [show status.success = false from hbad])

/-! ## The policy -/

/-- A reply after which the policy must not be loaded. -/
def PolicyDenies (strict : Bool) : Event PolicyCalls → Prop
  | ⟨.inl query, reply⟩ => FatalFs strict ⟨query, reply⟩
  | ⟨.inr query, reply⟩ => HelperDenies ⟨query, reply⟩

variable {strict : Bool} {fuel : ℕ} {crate : SshKeyCrate} {host : Host} {sources : PolicySources}
  {mode : PolicyMode}

/-- Only a call to the file system that is not fatal leaves the files to be read. -/
lemma policyTypestate_eq_files {phase : PolicyPhase} {e : Event PolicyCalls}
    (h : policyTypestate strict phase e = some .files) :
    phase = .files ∧ ∃ call, e = fsPart.event call ∧ ¬ FatalFs strict call := by
  obtain ⟨query, reply⟩ := e
  cases phase with
  | files =>
    cases query with
    | inl query =>
      have h' : (if FatalFs strict ⟨query, reply⟩ then some PolicyPhase.failed else some .files) =
        some .files := h
      split_ifs at h' with hfatal
      · simp at h'
      · exact ⟨rfl, ⟨query, reply⟩, rfl, hfatal⟩
    | inr query =>
      obtain ⟨helper, -, hhelper⟩ := Option.map_eq_some_iff.mp h
      exact absurd hhelper (by simp)
  | helper helper =>
    cases query with
    | inl query => exact absurd h (by simp [policyTypestate])
    | inr query =>
      obtain ⟨helper', -, hhelper⟩ := Option.map_eq_some_iff.mp h
      exact absurd hhelper (by simp)
  | failed => exact absurd h (by simp [policyTypestate])

/-- As long as files are read, the calls are calls to the file system that are not fatal. -/
lemma fsCalls_of_files {es : List (Event PolicyCalls)}
    (h : es.foldlM (policyTypestate strict) .files = some .files) :
    ∀ e ∈ es, ∃ call, e = fsPart.event call ∧ ¬ FatalFs strict call := by
  induction es using List.reverseRecOn with
  | nil => simp
  | append_singleton es e ih =>
    rw [List.foldlM_append] at h
    obtain ⟨before, hbefore, hlast⟩ := Option.bind_eq_some_iff.mp h
    rw [List.foldlM_cons] at hlast
    obtain ⟨after, hafter, hnil⟩ := Option.bind_eq_some_iff.mp hlast
    obtain rfl := Option.some.inj hnil
    obtain ⟨rfl, hcall⟩ := policyTypestate_eq_files hafter
    intro x hx
    rcases List.mem_append.mp hx with hx | hx
    · exact ih hbefore x hx
    · rwa [List.mem_singleton.mp hx]

lemma fsCalls_of_itemsEnd {α : Type} {p : Prog PolicyCalls Error α} {es : List (Event PolicyCalls)}
    {a : α} (h : p.Follows (policyTypestate strict) ItemsEnd .files) (hreturns : p.Returns es a) :
    ∀ e ∈ es, ∃ call, e = fsPart.event call ∧ ¬ FatalFs strict call := by
  obtain ⟨phase, hphase, hends⟩ := Prog.Steps.follows hreturns h
  have hfiles : phase = .files := hends
  exact fsCalls_of_files (hfiles ▸ hphase)

/-- The parts that read files fail closed. -/
lemma failsClosed_of_itemsEnd {α : Type} {p : Prog PolicyCalls Error α}
    (h : p.Follows (policyTypestate strict) ItemsEnd .files) :
    p.FailsClosed (PolicyDenies strict) := by
  intro es a hreturns e he
  obtain ⟨call, rfl, hfatal⟩ := fsCalls_of_itemsEnd h hreturns e he
  exact hfatal

lemma helperItems_failsClosed :
    (sources.helperItems fuel crate host mode).FailsClosed (PolicyDenies (mode = .strict)) := by
  have houtput : ∀ path uid, (helperOutput fuel path uid sources.callingUser mode).FailsClosed
      (PolicyDenies (mode = .strict)) := by
    intro path uid
    cases mode with
    | legacy =>
      exact Prog.FailsClosed.lift (f := cmdPart) (runInner_failsClosed _ _ _ _ _ _)
    | strict =>
      exact Prog.FailsClosed.lift (f := cmdPart) (runInner_failsClosed _ _ _ _ _ _)
  rw [PolicySources.helperItems]
  split
  · refine (Prog.failsClosed_ofExcept _).bind fun uid => ?_
    refine (failsClosed_of_itemsEnd (helperPath_follows _ mode)).bind fun path => ?_
    exact (houtput path uid).bind fun buf => Prog.failsClosed_ofExcept _
  · exact Prog.failsClosed_ret _

lemma newWithMode_failsClosed :
    (IdentityFilter.newWithMode fuel crate host sources mode).FailsClosed
      (PolicyDenies (mode = .strict)) := by
  rw [IdentityFilter.newWithMode]
  refine (failsClosed_of_itemsEnd (fileItems_follows mode)).bind fun file => ?_
  refine (failsClosed_of_itemsEnd (caItems_follows mode)).bind fun ca => ?_
  exact helperItems_failsClosed.bind fun helper => Prog.failsClosed_ret _

/-! ## The agent -/

/-- A reply after which the exchange with the agent must not succeed. -/
def AgentDenies (crate : SshKeyCrate) (strict : Bool) : Event AuthCalls → Prop
  | ⟨.now, _⟩ => False
  | ⟨.listIdentities, reply⟩ => ∃ error : SACError, reply = .error error
  | ⟨.fill, reply⟩ => reply = none
  | ⟨.sign _ _, .error (error : SACError)⟩ => error ≠ .remoteFailure
  | ⟨.sign identity data, .ok (signature : Signature)⟩ =>
    verifySignature crate identity strict data signature ≠ .ok true

/-- An attempt whose result is `true` or the refusal of the agent. -/
lemma not_agentDenies_attempt {attempt : Attempt}
    (h : attempt.result crate strict = .ok true ∨ attempt.RemoteFailure crate strict) :
    ∀ e ∈ attempt.events, ¬ AgentDenies crate strict e := by
  obtain ⟨identity, outcome⟩ := attempt
  have hfill : ∀ data : Challenge, ¬ AgentDenies crate strict ⟨.fill, some data⟩ := by
    intro data hnone
    exact Option.some_ne_none data hnone
  cases outcome with
  | noRandom =>
    rcases h with h | h
    · exact absurd h (by simp [Attempt.result])
    · exact absurd (remoteFailure_iff.mp h) (by simp)
  | refused data error =>
    have hremote : error = .remoteFailure := by
      rcases h with h | h
      · exact absurd h (by simp [Attempt.result])
      · simpa using remoteFailure_iff.mp h
    refine List.forall_mem_cons.mpr ⟨hfill data, List.forall_mem_singleton.mpr ?_⟩
    exact fun hne => hne hremote
  | signed data signature =>
    have hverified : verifySignature crate identity strict data signature = .ok true := by
      rcases h with h | h
      · exact h
      · exact absurd (remoteFailure_iff.mp h) (by simp)
    refine List.forall_mem_cons.mpr ⟨hfill data, List.forall_mem_singleton.mpr ?_⟩
    exact fun hne => hne hverified

lemma signAndVerify_failsClosed (identity : Identity) :
    (signAndVerify crate identity strict).FailsClosed (AgentDenies crate strict) := by
  intro es result h
  have hends : (signAndVerify crate identity strict).Ends es (.ok result) := h
  obtain ⟨outcome, rfl, hresult⟩ := ends_signAndVerify.mp hends
  refine not_agentDenies_attempt (Or.inl ?_)
  cases result with
  | true => exact hresult.symm
  | false => exact absurd hresult.symm result_ne_false

lemma tryIdentities_failsClosed (policy : IdentityFilter) (now : SystemTime) (principal : Text)
    (identities : List Identity) : (tryIdentities crate policy now principal identities).FailsClosed
      (AgentDenies crate policy.strict) := by
  induction identities with
  | nil => exact Prog.failsClosed_ret _
  | cons identity rest ih =>
    rw [tryIdentities]
    split_ifs
    · exact ih
    · refine (signAndVerify_failsClosed identity).attempt_bind ?_ ?_
      · rintro (error | result)
        · dsimp only
          split_ifs
          · exact ih
          · exact Prog.failsClosed_fail _
        · exact Prog.failsClosed_ret _
      · intro es error hfails
        have hends : (signAndVerify crate identity policy.strict).Ends es (.error error) := hfails
        obtain ⟨outcome, rfl, hresult⟩ := ends_signAndVerify.mp hends
        dsimp only
        split_ifs with hrefused
        · exact Or.inr (not_agentDenies_attempt (Or.inr ⟨error, hresult.symm, hrefused⟩))
        · exact Or.inl (Prog.neverReturns_fail _)
    · exact ih

lemma authenticate_failsClosed (policy : IdentityFilter) (principal : Text) :
    (authenticate crate policy principal).FailsClosed (AgentDenies crate policy.strict) := by
  rw [authenticate]
  refine Prog.failsClosed_ask (fun _ => False.elim) fun now => Prog.failsClosed_ask ?_ ?_
  · rintro (error | identities) hdenies
    · exact Prog.neverReturns_fail _
    · obtain ⟨error, herror⟩ := hdenies
      exact absurd herror (by simp)
  · rintro (error | identities)
    · exact Prog.failsClosed_fail _
    · exact tryIdentities_failsClosed policy now principal identities

/-! ## The call -/

/-- A reply after which the call must not succeed. -/
def Denies (crate : SshKeyCrate) (strict : Bool) : Event ModuleCalls → Prop
  | ⟨.inl _, reply⟩ => ∃ error : Error, reply = .error error
  | ⟨.inr (.inl query), reply⟩ => PolicyDenies strict ⟨query, reply⟩
  | ⟨.inr (.inr query), reply⟩ => AgentDenies crate strict ⟨query, reply⟩

lemma setupCall_failsClosed (query : SetupQuery) :
    ((setupCall query).lift setupPart).FailsClosed (Denies crate strict) := by
  refine Prog.FailsClosed.lift (Prog.failsClosed_ask ?_ fun reply => Prog.failsClosed_ofExcept reply)
  rintro (error | _) hdenies
  · exact Prog.neverReturns_fail error
  · obtain ⟨error, herror⟩ := hdenies
    have hreply : (.ok () : Except Error Unit) = .error error := herror
    exact absurd hreply (by simp)

/-- The part of a call behind the policy fails closed. -/
lemma usePolicy_failsClosed (loaded : Loaded) :
    (usePolicy crate host loaded).FailsClosed (Denies crate loaded.policy.strict) := by
  rw [usePolicy]
  refine (Prog.failsClosed_ofExcept _).bind fun special => ?_
  split_ifs
  · exact Prog.failsClosed_ret _
  refine (Prog.failsClosed_ofExcept _).bind fun path => ?_
  refine (setupCall_failsClosed _).bind fun _ => ?_
  have hauth : ((authenticate crate loaded.policy loaded.context.callingUser).lift
      authPart).FailsClosed (Denies crate loaded.policy.strict) :=
    Prog.FailsClosed.lift (authenticate_failsClosed _ _)
  refine hauth.bind fun known => ?_
  cases known with
  | true => exact Prog.failsClosed_ret _
  | false => exact Prog.failsClosed_fail _

/-- No event of a call that succeeds denies. -/
lemma not_denies_of_run {es : List (Event ModuleCalls)}
    (h : (run fuel crate host handle args).Returns es ()) :
    ∀ e ∈ es, ¬ Denies crate (hasStrict args) e := by
  rw [run_eq] at h
  obtain ⟨es₁, es₂, loaded, rfl, hload, huse⟩ := Prog.returns_bind.mp h
  obtain ⟨calls, entries, rfl, hfrom⟩ := returns_loadPolicy.mp hload
  have hmode : decide (loaded.args.policyMode = .strict) = hasStrict args := by
    rw [Args.policyMode, parse_strict hfrom.parses]
    split_ifs with h <;> simp [h]
  have hstrict : loaded.policy.strict = hasStrict args := by
    rw [hfrom.policy, ← hmode]
    rfl
  intro e he hdenies
  rcases List.mem_append.mp he with he | he
  · -- the part up to the policy
    rcases List.mem_append.mp he with he | he
    · obtain rfl := List.mem_singleton.mp he
      obtain ⟨error, herror⟩ := hdenies
      have hreply : (.ok () : Except Error Unit) = .error error := herror
      exact absurd hreply (by simp)
    · obtain ⟨call, hcall, rfl⟩ := List.mem_map.mp he
      have hnew := returns_newWithMode.mpr ⟨entries, hfrom.sources, rfl⟩
      rw [← hmode] at hdenies
      exact newWithMode_failsClosed calls _ hnew call hcall hdenies
  · rw [← hstrict] at hdenies
    exact usePolicy_failsClosed loaded es₂ () huse e he hdenies

/-- **A call that meets a failure denies.**  When a call has ended, its helper is gone, if its
process id fits into an `i32`; and if one of its calls failed (logging, a file, the helper, the
connection, the listing, the random numbers, a sign request or the signature that came back), the
code is that of an authentication error.  Only the refusals of the agent, polls and reads that
were interrupted, reads that found nothing yet, and in legacy mode files that do not exist are
passed over. -/
theorem failure_denies (fuel : ℕ) (crate : SshKeyCrate) (host : Host) (handle : PamHandleExt)
    (args : List CStr) (es : List (Event ModuleCalls)) (code : PamResultCode)
    (hrun : (smAuthenticate fuel crate host handle args).Returns es code) :
    HelperGone es ∧ ((∃ e ∈ es, Denies crate (hasStrict args) e) → code = .authErr) := by
  constructor
  · obtain ⟨t, ht, hends⟩ := hrun.follows (t := ModulePhase.start) smAuthenticate_follows
    exact (callHistory_of_run ht).helperGone (gone_of_moduleEnds hends)
  rintro ⟨e, he, hdenies⟩
  obtain ⟨es₁, es₂, result, rfl, hends, hcode⟩ := Prog.returns_bind.mp hrun
  rw [Prog.returns_attempt_iff_ends] at hends
  rcases result with error | _
  · exact (Prog.returns_ret.mp hcode).2
  obtain ⟨rfl, rfl⟩ := Prog.returns_ret.mp hcode
  rw [List.append_nil] at he
  exact absurd hdenies (not_denies_of_run hends e he)

/-! ## A helper that cannot be started -/

/-- A call whose helper cannot be started. -/
def helperCall : Prog ModuleCalls Error PamResultCode × List (Event ModuleCalls) × Unit :=
  (smAuthenticate 3 keyLineCrate bobHost ⟨.ok "bob", .ok "sudo"⟩ helperArgs).run rootReplies ()

/-- The command that could not be started. -/
def notStarted : Event ModuleCalls → Option Command
  | ⟨.inr (.inl (.inr (.spawn command))), .error _⟩ => some command
  | _ => none

lemma denies_of_notStarted {e : Event ModuleCalls} {command : Command}
    (h : notStarted e = some command) : Denies crate strict e := by
  obtain ⟨query, reply⟩ := e
  rcases query with query | (query | query) | query
  · exact absurd h (by simp [notStarted])
  · exact absurd h (by simp [notStarted])
  · cases query with
    | spawn started =>
      rcases reply with error | child
      · trivial
      · exact absurd h (by simp [notStarted])
    | _ => exact absurd h (by simp [notStarted])
  · exact absurd h (by simp [notStarted])

lemma helperCall_ends : helperCall.1.returned = some .authErr ∧
    helperCall.2.1.findSome? notStarted = some keysCommand := by
  decide +kernel

lemma helperCall_steps :
    (smAuthenticate 3 keyLineCrate bobHost ⟨.ok "bob", .ok "sudo"⟩ helperArgs).Steps helperCall.2.1
      helperCall.1 := by
  rw [helperCall]
  exact Prog.steps_run _ _ _

/-- That call denies, because its helper could not be started. -/
theorem failure_denies_helper : ∃ code, helperCall.1 = .ret code ∧ HelperGone helperCall.2.1 ∧
    code = .authErr := by
  obtain ⟨hreturned, hfound⟩ := helperCall_ends
  have hsteps := helperCall_steps
  rw [Prog.returned_eq_some.mp hreturned] at hsteps
  obtain ⟨before, e, after, hsplit, hstarted, -⟩ := List.findSome?_eq_some_iff.mp hfound
  obtain ⟨hgone, hcode⟩ := failure_denies 3 keyLineCrate bobHost ⟨.ok "bob", .ok "sudo"⟩ helperArgs
    helperCall.2.1 .authErr hsteps
  refine ⟨.authErr, Prog.returned_eq_some.mp hreturned, hgone, hcode ⟨e, ?_, ?_⟩⟩
  · rw [hsplit]
    exact List.mem_append_right _ List.mem_cons_self
  · exact denies_of_notStarted hstarted

end PamSshAgent
