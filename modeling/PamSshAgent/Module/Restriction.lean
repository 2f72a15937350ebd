import PamSshAgent.Args.WithoutStrict
import PamSshAgent.Auth.Walk
import PamSshAgent.Module.Confinement
import PamSshAgent.Module.Sound
import PamSshAgent.Policy.Restriction

/-!
# Strict mode only restricts

A call that succeeds in strict mode succeeds in the same world without `strict`, with the
same trusted keys and the same sign requests.  The call is cut where the policy is loaded.
What comes before is the matter of the arguments and the policy; what comes after differs
in the timeout of the agent and in the check of security keys alone.
-/

namespace PamSshAgent

open Interaction

variable {fuel : ℕ} {crate : SshKeyCrate} {host : Host} {handle : PamHandleExt}
  {args : List CStr}

/-! ## The call in two parts -/

/-- What `run` has once the policy is loaded. -/
structure Loaded where
  context : PamContext
  args : Args
  policy : IdentityFilter

/-- `run` up to the policy. -/
def loadPolicy (fuel : ℕ) (crate : SshKeyCrate) (host : Host) (handle : PamHandleExt)
    (args : List CStr) : Prog ModuleCalls Error Loaded := do
  let context ← Prog.ofExcept (PamContext.new handle)
  (setupCall (.initLogging context.service)).lift setupPart
  let args ← Prog.ofExcept (Args.parse args host.unixEnvironment context.handle)
  Prog.ofExcept (checkStrictUsers host args context)
  let sources := args.policySources context
  let policy ← (if args.strict then IdentityFilter.newStrict fuel crate host sources
    else IdentityFilter.new fuel crate host sources).lift policyPart
  .ret { context, args, policy }

/-- `run` from the policy on. -/
def usePolicy (crate : SshKeyCrate) (host : Host) (loaded : Loaded) :
    Prog ModuleCalls Error Unit := do
  let special ← Prog.ofExcept (if loaded.args.sshdShortcut then
      checkSshdSpecialCase crate (some loaded.context.service) loaded.policy host.unixEnvironment
    else .ok false)
  if special then .ret ()
  else do
    let path ← Prog.ofExcept (getPath host loaded.args)
    (setupCall (.connect path loaded.args.agentTimeout)).lift setupPart
    match ← (authenticate crate loaded.policy loaded.context.callingUser).lift authPart with
    | true => .ret ()
    | false => .fail (.anyhow ["Agent did not know of any of the allowed keys"])

lemma run_eq (fuel : ℕ) (crate : SshKeyCrate) (host : Host) (handle : PamHandleExt)
    (args : List CStr) : run fuel crate host handle args =
      loadPolicy fuel crate host handle args >>= usePolicy crate host := by
  rw [run, loadPolicy]
  simp only [Prog.bind_bind, Prog.ret_bind]
  rfl

/-! ## Loading the policy -/

lemma returns_setupCall {query : SetupQuery} {es : List (Event SetupCalls)} {u : Unit} :
    (setupCall query).Returns es u ↔ es = [⟨query, .ok ()⟩] := by
  rw [setupCall, Prog.query_bind, Prog.returns_ask]
  constructor
  · rintro ⟨reply, es', rfl, h⟩
    obtain ⟨rfl, rfl⟩ := Prog.returns_ofExcept.mp h
    rfl
  · rintro rfl
    exact ⟨.ok (), [], rfl, Prog.returns_ofExcept.mpr ⟨rfl, rfl⟩⟩

/-- What the policy is loaded from, and what it is then. -/
structure LoadedFrom (fuel : ℕ) (crate : SshKeyCrate) (host : Host) (handle : PamHandleExt)
    (args : List CStr) (calls : List (Event PolicyCalls)) (entries : LoadedEntries)
    (loaded : Loaded) : Prop where
  context : PamContext.new handle = .ok loaded.context
  parses : Args.parse args host.unixEnvironment loaded.context.handle = .ok loaded.args
  users : checkStrictUsers host loaded.args loaded.context = .ok ()
  sources : SourcesLoad fuel crate host (loaded.args.policySources loaded.context)
    loaded.args.policyMode calls entries
  policy : loaded.policy =
    IdentityFilter.ofAuthorized entries.authorized (loaded.args.policyMode = .strict)

/-- The calls of the first part: logging is started, then the sources are loaded. -/
def loadEvents (loaded : Loaded) (calls : List (Event PolicyCalls)) : List (Event ModuleCalls) :=
  [⟨.initLogging loaded.context.service, .ok ()⟩].map setupPart.event ++
    calls.map policyPart.event

lemma returns_loadPolicy {es : List (Event ModuleCalls)} {loaded : Loaded} :
    (loadPolicy fuel crate host handle args).Returns es loaded ↔
      ∃ calls entries, es = loadEvents loaded calls ∧
        LoadedFrom fuel crate host handle args calls entries loaded := by
  have hmode : ∀ (parsed : Args) (context : PamContext), (if parsed.strict = true then
        IdentityFilter.newStrict fuel crate host (parsed.policySources context)
      else IdentityFilter.new fuel crate host (parsed.policySources context)) =
      IdentityFilter.newWithMode fuel crate host (parsed.policySources context)
        parsed.policyMode := by
    intro parsed context
    rw [Args.policyMode]
    split_ifs <;> rfl
  simp only [loadPolicy, hmode, Prog.returns_bind, Prog.returns_ofExcept, Prog.returns_lift,
    returns_setupCall, returns_newWithMode, Prog.returns_ret]
  constructor
  · rintro ⟨_, _, context, rfl, ⟨rfl, hcontext⟩, _, _, _, rfl, ⟨_, rfl, rfl⟩, _, _, parsed, rfl,
      ⟨rfl, hparse⟩, _, _, _, rfl, ⟨rfl, husers⟩, _, _, policy, rfl,
      ⟨calls, rfl, entries, hsources, rfl⟩, rfl, rfl⟩
    exact ⟨calls, entries, by simp [loadEvents], ⟨hcontext, hparse, husers, hsources, rfl⟩⟩
  · rintro ⟨calls, entries, rfl, ⟨hcontext, hparse, husers, hsources, hpolicy⟩⟩
    exact ⟨[], _, loaded.context, rfl, ⟨rfl, hcontext⟩, _, _, (), rfl,
      ⟨[⟨.initLogging loaded.context.service, .ok ()⟩], rfl, rfl⟩, [], _, loaded.args, rfl,
      ⟨rfl, hparse⟩, [], _, (), rfl, ⟨rfl, husers⟩, _, [], loaded.policy,
      (List.append_nil _).symm, ⟨calls, rfl, entries, hsources, hpolicy⟩, rfl, rfl⟩

/-! ## Using the policy -/

/-- The calls of the second part: the agent is connected to and asked. -/
def useEvents (path : Text) (timeout : Option ℕ) (calls : List (Event AuthCalls)) :
    List (Event ModuleCalls) :=
  [⟨.connect path timeout, .ok ()⟩].map setupPart.event ++ calls.map authPart.event

/-- A service other than sshd has to ask the agent. -/
lemma returns_usePolicy {es : List (Event ModuleCalls)} {loaded : Loaded}
    (hservice : loaded.context.service ≠ "sshd") : (usePolicy crate host loaded).Returns es () ↔
      ∃ path calls, es = useEvents path loaded.args.agentTimeout calls ∧
        getPath host loaded.args = .ok path ∧
        (authenticate crate loaded.policy loaded.context.callingUser).Returns calls true := by
  have hspecial : (if loaded.args.sshdShortcut = true then checkSshdSpecialCase crate
        (some loaded.context.service) loaded.policy host.unixEnvironment
      else .ok false) = .ok false := by
    split_ifs with hshortcut
    · exact if_pos hservice
    · rfl
  rw [usePolicy, hspecial, Prog.ofExcept_ok, Prog.ret_bind, if_neg Bool.false_ne_true]
  simp only [Prog.returns_bind, Prog.returns_ofExcept, Prog.returns_lift, returns_setupCall]
  constructor
  · rintro ⟨_, _, path, rfl, ⟨rfl, hpath⟩, _, _, _, rfl, ⟨_, rfl, rfl⟩, _, _, known, rfl,
      ⟨calls, rfl, hauth⟩, hend⟩
    cases known with
    | false => exact absurd hend Prog.not_returns_fail
    | true =>
      obtain ⟨rfl, -⟩ := Prog.returns_ret.mp hend
      exact ⟨path, calls, by simp [useEvents], hpath, hauth⟩
  · rintro ⟨path, calls, rfl, hpath, hauth⟩
    exact ⟨[], _, path, rfl, ⟨rfl, hpath⟩, _, _, (), rfl,
      ⟨[⟨.connect path loaded.args.agentTimeout, .ok ()⟩], rfl, rfl⟩, _, [], true,
      (List.append_nil _).symm, ⟨calls, rfl, hauth⟩, Prog.returns_ret.mpr ⟨rfl, rfl⟩⟩

/-- A walk that succeeds in strict mode succeeds without the check of security keys. -/
lemma ReferenceWalk.legacy {strict : Bool} {identities : List Identity} {attempts : List Attempt}
    (h : ReferenceWalk crate strict identities attempts (.ok true)) :
    ReferenceWalk crate false identities attempts (.ok true) := by
  obtain ⟨hfalse, -⟩ | ⟨before, last, rest, hattempts, hsplit, hbefore, hlast, hresult⟩ := h
  · exact absurd hfalse (by simp)
  refine Or.inr ⟨before, last, rest, hattempts, hsplit, fun attempt hattempt => ?_, fun hremote => ?_,
    ?_⟩
  · exact remoteFailure_iff.mpr (remoteFailure_iff.mp (hbefore attempt hattempt))
  · exact hlast (remoteFailure_iff.mpr (remoteFailure_iff.mp hremote))
  · obtain ⟨identity, outcome⟩ := last
    cases outcome with
    | noRandom => exact hresult
    | refused data error => exact hresult
    | signed data signature =>
      have hverify := verify_of_verifySignature hresult.symm
      have hlegacy : verifySignature crate identity false data signature = .ok true :=
        Except.bind_eq_ok_iff.mpr ⟨(), rfl, by rw [hverify]⟩
      exact hlegacy.symm

/-- An agent that satisfies the strict policy satisfies the legacy policy with the same keys. -/
lemma authenticate_legacy {items : List Authorized} {strict : Bool} {principal : Text}
    {calls : List (Event AuthCalls)}
    (h : (authenticate crate (IdentityFilter.ofAuthorized items strict) principal).Returns calls
      true) :
    (authenticate crate (IdentityFilter.ofAuthorized items false) principal).Returns calls true := by
  have hends : (authenticate crate (IdentityFilter.ofAuthorized items strict) principal).Ends calls
      (.ok true) := h
  obtain ⟨now, ⟨error, -, herror⟩ | ⟨identities, es, rfl, hloop⟩⟩ := ends_authenticate.mp hends
  · exact absurd herror (by simp)
  obtain ⟨attempts, rfl, hwalk⟩ := ends_listed_iff_walk.mp (ends_listed.mpr hloop)
  have helig : eligible crate (IdentityFilter.ofAuthorized items strict) now principal =
      eligible crate (IdentityFilter.ofAuthorized items false) now principal := by
    funext identity
    cases identity <;> rfl
  rw [helig] at hwalk
  exact ends_listed_iff_walk.mpr ⟨attempts, rfl, hwalk.legacy⟩

/-! ## The world -/

/-- What a call gets to see: the files, the helper and its clock, and the agent with the clock
and the random numbers.  The agent answers in time, so nothing depends on the timeout. -/
structure ModuleWorld (φ σ : Type) extends PolicyWorld φ σ where
  initLogging : Text → σ → Except Error Unit × σ
  connect : Text → σ → Except Error Unit × σ
  agent : Prog.Responder AuthCalls σ

namespace ModuleWorld

variable {φ σ : Type}

/-- What the world replies to the calls that set something up. -/
def setup (world : ModuleWorld φ σ) : Prog.Responder SetupCalls σ
  | .initLogging service, s => world.initLogging service s
  | .connect path _, s => world.connect path s

/-- What the world replies to a call of the module. -/
def respond (world : ModuleWorld φ σ) : Prog.Responder ModuleCalls (φ × σ) :=
  Prog.Responder.sum (Prog.Responder.onSnd world.setup)
    (Prog.Responder.sum world.toPolicyWorld.respond (Prog.Responder.onSnd world.agent))

variable {world : ModuleWorld φ σ} {s s' : φ × σ}

lemma answers_setup {calls : List (Event SetupCalls)} :
    Prog.Answers world.respond s (calls.map setupPart.event) s' ↔
      Prog.Answers world.setup s.2 calls s'.2 ∧ s'.1 = s.1 :=
  Prog.answers_inl.trans Prog.answers_onSnd

lemma answers_policy {calls : List (Event PolicyCalls)} :
    Prog.Answers world.respond s (calls.map policyPart.event) s' ↔
      Prog.Answers world.toPolicyWorld.respond s calls s' := by
  rw [policyPart, Embedding.map_event_comp]
  exact Prog.answers_inr.trans Prog.answers_inl

lemma answers_agent {calls : List (Event AuthCalls)} :
    Prog.Answers world.respond s (calls.map authPart.event) s' ↔
      Prog.Answers world.agent s.2 calls s'.2 ∧ s'.1 = s.1 := by
  rw [authPart, Embedding.map_event_comp]
  exact Prog.answers_inr.trans (Prog.answers_inr.trans Prog.answers_onSnd)

lemma answers_loadEvents {loaded : Loaded} {calls : List (Event PolicyCalls)} :
    Prog.Answers world.respond s (loadEvents loaded calls) s' ↔
      ∃ q, world.initLogging loaded.context.service s.2 = (.ok (), q) ∧
        Prog.Answers world.toPolicyWorld.respond (s.1, q) calls s' := by
  rw [loadEvents, Prog.answers_append]
  simp only [answers_setup, answers_policy]
  constructor
  · rintro ⟨⟨f, q⟩, ⟨⟨hreply, rfl⟩, rfl⟩, hcalls⟩
    exact ⟨_, Prod.ext hreply rfl, hcalls⟩
  · rintro ⟨q, hlog, hcalls⟩
    refine ⟨(s.1, q), ⟨⟨?_, ?_⟩, rfl⟩, hcalls⟩
    · exact congrArg Prod.fst hlog
    · exact congrArg Prod.snd hlog

/-- The second part does not depend on the timeout. -/
lemma answers_useEvents {path : Text} {timeout : Option ℕ} {calls : List (Event AuthCalls)} :
    Prog.Answers world.respond s (useEvents path timeout calls) s' ↔
      ∃ q, world.connect path s.2 = (.ok (), q) ∧ Prog.Answers world.agent q calls s'.2 ∧
        s'.1 = s.1 := by
  rw [useEvents, Prog.answers_append]
  simp only [answers_setup, answers_agent]
  constructor
  · rintro ⟨⟨f, q⟩, ⟨⟨hreply, rfl⟩, rfl⟩, hcalls, hfiles⟩
    exact ⟨_, Prod.ext hreply rfl, hcalls, hfiles⟩
  · rintro ⟨q, hconnect, hcalls, hfiles⟩
    refine ⟨(s.1, q), ⟨⟨?_, ?_⟩, rfl⟩, hcalls, hfiles⟩
    · exact congrArg Prod.fst hconnect
    · exact congrArg Prod.snd hconnect

end ModuleWorld

/-! ## The two calls -/

/-- The identity and the challenge of a sign request. -/
def signRequestOf : Event ModuleCalls → Option (Identity × Challenge)
  | ⟨.inr (.inr (.sign identity data)), _⟩ => some (identity, data)
  | _ => none

/-- The sign requests that the agent gets, in their order. -/
def signRequests (es : List (Event ModuleCalls)) : List (Identity × Challenge) :=
  es.filterMap signRequestOf

lemma signRequests_parts (loaded : Loaded) (calls : List (Event PolicyCalls)) (path : Text)
    (timeout : Option ℕ) (authCalls : List (Event AuthCalls)) :
    signRequests (loadEvents loaded calls ++ useEvents path timeout authCalls) =
      signRequests (authCalls.map authPart.event) := by
  have hpolicy : (calls.map policyPart.event).filterMap signRequestOf = [] := by
    refine List.filterMap_eq_nil_iff.mpr fun e he => ?_
    obtain ⟨call, -, rfl⟩ := List.mem_map.mp he
    rfl
  have hsetup : ∀ event : Event SetupCalls, signRequestOf (setupPart.event event) = none :=
    fun _ => rfl
  rw [signRequests, loadEvents, useEvents, List.filterMap_append, List.filterMap_append,
    List.filterMap_append, hpolicy]
  simp only [List.map_cons, List.map_nil, List.filterMap_cons, List.filterMap_nil, hsetup,
    List.nil_append, signRequests]

lemma Args.SameSources.policySources_eq {parsed parsed' : Args} (h : parsed.SameSources parsed')
    (context : PamContext) : parsed'.policySources context = parsed.policySources context := by
  rw [Args.policySources, Args.policySources, h.file, h.caKeysFile, h.authorizedKeysCommand,
    h.authorizedKeysCommandUser]

lemma Args.SameSources.getPath_eq {parsed parsed' : Args} (h : parsed.SameSources parsed')
    (host : Host) : getPath host parsed' = getPath host parsed := by
  rw [getPath, getPath, h.defaultSshAuthSock]

/-- The first part without `strict`: the same entries, from the same files and the helper. -/
lemma loadedFrom_withoutStrict {φ σ : Type} {world : PolicyWorld φ σ} {s s' : φ × σ}
    {calls : List (Event PolicyCalls)} {entries : LoadedEntries} {loaded : Loaded}
    (hstrict : hasStrict args = true)
    (h : LoadedFrom fuel crate host handle args calls entries loaded)
    (hanswers : Prog.Answers world.respond s calls s') :
    ∃ loaded' calls' t', loaded'.context = loaded.context ∧
      loaded.args.SameSources loaded'.args ∧
      loaded'.policy = IdentityFilter.ofAuthorized entries.authorized false ∧
      LoadedFrom fuel crate host handle (withoutStrict args) calls' entries loaded' ∧
      Prog.Answers world.respond s calls' t' ∧ t'.2 = s'.2 := by
  obtain ⟨parsed', hparse, hsame, hlegacy⟩ := parse_withoutStrict hstrict h.parses
  have hmode : loaded.args.policyMode = .strict :=
    if_pos ((parse_strict h.parses).trans hstrict)
  have hmode' : parsed'.policyMode = .legacy := if_neg (by simp [hlegacy])
  have hsources := h.sources
  rw [hmode] at hsources
  obtain ⟨calls', t', hsources', hanswers', ht'⟩ := PolicyWorld.sourcesLoad_legacy
    (fun configured hconfigured => parse_absolute h.parses hstrict hconfigured) hsources hanswers rfl
  let policy := IdentityFilter.ofAuthorized entries.authorized false
  refine ⟨⟨loaded.context, parsed', policy⟩, calls', t', rfl, hsame, rfl,
    ⟨h.context, hparse, ?_, ?_, ?_⟩, hanswers', ht'⟩
  · exact if_neg (by simp [hlegacy])
  · rw [hmode', hsame.policySources_eq]
    exact hsources'
  · rw [hmode']
    rfl

/-- **Strict mode only restricts.**  In every world in which a call with `strict` succeeds for a
service other than sshd, the call without `strict` succeeds too; the two load policies with the
same keys and the same keys of certificate authorities, and the agent gets the same sign requests
in the same order. -/
theorem strict_only_restricts {φ σ : Type} (world : ModuleWorld φ σ) (fuel : ℕ)
    (crate : SshKeyCrate) (host : Host) (handle : PamHandleExt) (args : List CStr)
    (hstrict : Text.bytes "strict" ∈ args) (hservice : handle.getService ≠ .ok "sshd")
    (s s' : φ × σ) (es : List (Event ModuleCalls))
    (h : (run fuel crate host handle args).run world.respond s = (.ret (), es, s')) :
    ∃ es' t', (run fuel crate host handle (withoutStrict args)).run world.respond s =
        (.ret (), es', t') ∧
      signRequests es' = signRequests es ∧
      ∃ loaded loaded' s₁ t₁,
        (loadPolicy fuel crate host handle args).Yields world.respond s loaded s₁ ∧
        (loadPolicy fuel crate host handle (withoutStrict args)).Yields world.respond s loaded'
          t₁ ∧
        loaded'.policy.keys = loaded.policy.keys ∧
        loaded'.policy.caKeys = loaded.policy.caKeys := by
  have hflag : hasStrict args = true := List.any_eq_true.mpr ⟨_, hstrict, by simp⟩
  obtain ⟨hreturns, hanswers⟩ := Prog.run_eq_ret_iff.mp h
  rw [run_eq] at hreturns
  obtain ⟨esLoad, esUse, loaded, rfl, hload, huse⟩ := Prog.returns_bind.mp hreturns
  obtain ⟨s₁, hanswersLoad, hanswersUse⟩ := Prog.answers_append.mp hanswers
  obtain ⟨calls, entries, rfl, hfrom⟩ := returns_loadPolicy.mp hload
  -- the service is the one that PAM reports
  have hother : loaded.context.service ≠ "sshd" := by
    obtain ⟨user, -, hnew⟩ := Except.bind_eq_ok_iff.mp hfrom.context
    obtain ⟨service, hget, hcontext⟩ := Except.bind_eq_ok_iff.mp hnew
    rw [← Except.ok.inj hcontext]
    rintro rfl
    exact hservice hget
  obtain ⟨path, authCalls, rfl, hpath, hauth⟩ := (returns_usePolicy hother).mp huse
  -- the policy
  obtain ⟨q, hlog, hpolicy⟩ := ModuleWorld.answers_loadEvents.mp hanswersLoad
  obtain ⟨loaded', calls', t₁, hcontext, hsame, hkeys, hfrom', hpolicy', ht₁⟩ :=
    loadedFrom_withoutStrict hflag hfrom hpolicy
  have hload' := returns_loadPolicy.mpr ⟨calls', entries, rfl, hfrom'⟩
  have hanswersLoad' : Prog.Answers world.respond s (loadEvents loaded' calls') t₁ :=
    ModuleWorld.answers_loadEvents.mpr ⟨q, hcontext ▸ hlog, hpolicy'⟩
  -- the agent
  obtain ⟨q', hconnect, hagent, -⟩ := ModuleWorld.answers_useEvents.mp hanswersUse
  let esUse' := useEvents path loaded'.args.agentTimeout authCalls
  have huse' : (usePolicy crate host loaded').Returns esUse' () := by
    rw [hfrom.policy] at hauth
    refine (returns_usePolicy (hcontext ▸ hother)).mpr ⟨path, authCalls, rfl, ?_, ?_⟩
    · exact (hsame.getPath_eq host).trans hpath
    · rw [hkeys, hcontext]
      exact authenticate_legacy hauth
  have hanswersUse' : Prog.Answers world.respond t₁ esUse' (t₁.1, s'.2) :=
    ModuleWorld.answers_useEvents.mpr ⟨q', ht₁ ▸ hconnect, hagent, rfl⟩
  refine ⟨loadEvents loaded' calls' ++ esUse', (t₁.1, s'.2), ?_, ?_, loaded, loaded', s₁, t₁,
    ⟨_, Prog.run_eq_ret_iff.mpr ⟨hload, hanswersLoad⟩⟩,
    ⟨_, Prog.run_eq_ret_iff.mpr ⟨hload', hanswersLoad'⟩⟩, ?_, ?_⟩
  · rw [run_eq]
    exact Prog.run_eq_ret_iff.mpr ⟨Prog.returns_bind.mpr ⟨_, _, _, rfl, hload', huse'⟩,
      Prog.answers_append.mpr ⟨t₁, hanswersLoad', hanswersUse'⟩⟩
  · rw [signRequests_parts, signRequests_parts]
  · rw [hfrom.policy, hkeys]
    rfl
  · rw [hfrom.policy, hkeys]
    rfl

/-! ## A strict call that succeeds -/

/-- The authorized-keys file and the helper are those of root; both are symbolic links. -/
def bobFs : Fs :=
  tableFs [dirNode 0 0o755 [("keys", 1), ("bin", 2)], dirNode 0 0o755 [("bob", 3), ("first", 4)],
    dirNode 0 0o755 [("helper", 5), ("real", 6)], linkNode 0 "first",
    ⟨0, 0o644, .file printedKey⟩, linkNode 0 "/bin/real", ⟨0, 0o755, .file []⟩]

/-- The helper prints the key, and the agent holds it. -/
def bobWorld : ModuleWorld Unit Schedule where
  fs := bobFs
  files query s := (bobFs.answer query, s)
  helper := Schedule.responder
  gives query _ := bobFs.gives_answer query
  readToString _ _ := rfl
  sameHelper _ _ _ _ := rfl
  initLogging _ s := (.ok (), s)
  connect _ s := (.ok (), s)
  agent
    | .now, s => ((0 : SystemTime), s)
    | .listIdentities, s => (.ok [.publicKey lineKey], s)
    | .fill, s => (some (Vector.replicate challengeSize 7), s)
    | .sign _ _, s => (.ok ⟨.ed25519, []⟩, s)

/-- Every signature verifies. -/
def trustingCrate : SshKeyCrate := { lineWiseCrate with verify := fun _ _ _ => .ok () }

/-- The host with the account of `bob` and the socket of an agent. -/
def bobAgentHost : Host :=
  { bobHost with var := fun name => if name = "SSH_AUTH_SOCK" then some (some "/agent") else none }

/-- Strict arguments with a file for each user and a helper. -/
def bobArgs : List CStr := cstrs ["strict", "file=/keys/%u", "authorized_keys_command=/bin/helper"]

/-- The strict call for `bob`. -/
def bobRun : Prog ModuleCalls Error Unit × List (Event ModuleCalls) × Unit × Schedule :=
  (run 4 trustingCrate bobAgentHost ⟨.ok "bob", .ok "sudo"⟩ bobArgs).run bobWorld.respond
    ((), keyHelper)

/-- The challenge is signed with the one key. -/
lemma bobRun_succeeds : bobRun.1.returned = some () ∧ signRequests bobRun.2.1 =
    [(.publicKey lineKey, Vector.replicate challengeSize 7)] := by
  decide +kernel

/-- Without `strict` that call succeeds too, with the same keys and the same sign request. -/
theorem strict_only_restricts_bob :
    ∃ es' t', (run 4 trustingCrate bobAgentHost ⟨.ok "bob", .ok "sudo"⟩ (withoutStrict bobArgs)).run
        bobWorld.respond ((), keyHelper) = (.ret (), es', t') ∧
      signRequests es' = [(.publicKey lineKey, Vector.replicate challengeSize 7)] ∧
      ∃ loaded loaded' s₁ t₁,
        (loadPolicy 4 trustingCrate bobAgentHost ⟨.ok "bob", .ok "sudo"⟩ bobArgs).Yields
          bobWorld.respond ((), keyHelper) loaded s₁ ∧
        (loadPolicy 4 trustingCrate bobAgentHost ⟨.ok "bob", .ok "sudo"⟩
          (withoutStrict bobArgs)).Yields bobWorld.respond ((), keyHelper) loaded' t₁ ∧
        loaded'.policy.keys = loaded.policy.keys ∧
        loaded'.policy.caKeys = loaded.policy.caKeys := by
  obtain ⟨hreturned, hrequests⟩ := bobRun_succeeds
  have hret := Prog.returned_eq_some.mp hreturned
  have hrun : bobRun = (.ret (), bobRun.2) := by rw [← hret]
  generalize bobRun.2 = rest at hrun hrequests
  rw [bobRun] at hrun
  obtain ⟨es', t', hlegacy, hsame, hpolicies⟩ := strict_only_restricts bobWorld 4 trustingCrate
    bobAgentHost ⟨.ok "bob", .ok "sudo"⟩ bobArgs (by decide) (by simp) ((), keyHelper) rest.2 rest.1
    hrun
  exact ⟨es', t', hlegacy, hsame.trans hrequests, hpolicies⟩

end PamSshAgent
