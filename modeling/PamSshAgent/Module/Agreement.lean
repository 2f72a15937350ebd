import PamSshAgent.Library.Interleaving
import PamSshAgent.Module.Exact

/-!
# Calls, agents and the holders of keys

Any number of calls are made at the same time, and what answers as an agent may be anyone: it may
ask the holder of a key for a signature, pass on what another call has asked for, or reply with a
signature that it has seen before.  As long as challenges do not repeat and signatures cannot be
forged, a call that succeeds by the agent has been vouched for by the holder of a trusted key,
during this call and for no other.
-/

namespace PamSshAgent

open Interaction Interleaving

/-- What happens: a call of the module gets an answer, or the holder of a key signs with it. -/
abbrev Act (ι : Type) : Type := Action ι (Event ModuleCalls) (KeyData × List UInt8)

variable {ι : Type}

/-- A call draws a challenge. -/
def drawn (i : ι) (data : Challenge) : Act ι := .own i (authPart.event ⟨.fill, some data⟩)

/-- The holder of a key signs a challenge. -/
def signs (key : KeyData) (data : Challenge) : Act ι := .other (key, data.toList)

/-- A call gets a signature from its agent. -/
def answered (i : ι) (identity : Identity) (data : Challenge) (signature : Signature) : Act ι :=
  .own i (authPart.event ⟨.sign identity data, .ok signature⟩)

/-- Challenges do not repeat, and signatures are not forged. -/
structure Ideal (crate : SshKeyCrate) (history : List (Act ι)) : Prop where
  fresh : ∀ before i data after, history = before ++ drawn i data :: after →
    (∀ j, drawn j data ∉ before) ∧ ∀ key, signs key data ∉ before
  unforged : ∀ before i identity data signature after,
    history = before ++ answered i identity data signature :: after →
      crate.verify identity.keyData data.toList signature = .ok () →
        signs identity.keyData data ∈ before

/-- The holder of the key of the identity signs a challenge of the call, after the call has drawn
it and before it gets the signature. -/
def SignedFor (history : List (Act ι)) (i : ι) (identity : Identity) (data : Challenge)
    (signature : Signature) : Prop :=
  ∃ before between between' after, history = before ++ drawn i data :: (between ++
    signs identity.keyData data :: (between' ++ answered i identity data signature :: after))

/-- A call of the module. -/
structure Call where
  host : Host
  handle : PamHandleExt
  args : List CStr

/-- The call ends with success after these events. -/
def Call.Succeeds (call : Call) (fuel : ℕ) (crate : SshKeyCrate) (es : List (Event ModuleCalls)) :
    Prop :=
  (smAuthenticate fuel crate call.host call.handle call.args).Returns es .success

/-- What a call that has loaded its policy succeeds with: a key that sshd passes on, or a signature
by the holder of a trusted key. -/
def Backed (crate : SshKeyCrate) (host : Host) (entries : LoadedEntries) (loaded : Loaded)
    (history : List (Act ι)) (i : ι) : Prop :=
  (∃ key, PassedOn crate host loaded key ∧ entries.Key key.keyData) ∨
    ∃ now identity data signature,
      Trusted crate entries now loaded.context.callingUser identity ∧
        SignedFor history i identity data signature ∧
        (loaded.policy.strict = true → validateSkSignature identity signature = .ok ())

/-- What the success of calls says about the holders of keys. -/
structure Agreement [DecidableEq ι] (fuel : ℕ) (crate : SshKeyCrate) (call : ι → Call)
    (history : List (Act ι)) : Prop where
  /-- Behind a success without sshd there is the holder of a key that the policy trusts which the
  calls of this call have loaded. -/
  authentic : ∀ i, (call i).Succeeds fuel crate (actsOf i history) →
    ∃ calls entries loaded rest, actsOf i history = loadEvents loaded calls ++ rest ∧
      LoadedFrom fuel crate (call i).host (call i).handle (call i).args calls entries loaded ∧
      Backed crate (call i).host entries loaded history i
  /-- What is signed for one call is not used for another. -/
  separate : ∀ i j identity identity' data signature signature',
    SignedFor history i identity data signature →
      SignedFor history j identity' data signature' → i = j

variable {crate : SshKeyCrate} {history : List (Act ι)} {i j : ι} {data : Challenge}

/-- A challenge is drawn once. -/
lemma Ideal.drawn_unique {before before' after after' : List (Act ι)}
    (hideal : Ideal crate history) (h : history = before ++ drawn i data :: after)
    (h' : history = before' ++ drawn j data :: after') : i = j := by
  rcases List.append_eq_append_iff.mp (h.symm.trans h') with
    ⟨between, rfl, hrest⟩ | ⟨between, rfl, hrest⟩
  · cases between with
    | nil =>
      obtain ⟨hact, -⟩ := List.cons.inj hrest
      exact (Action.own.inj hact).1
    | cons act between =>
      obtain ⟨rfl, -⟩ := List.cons.inj hrest
      exact absurd (by simp) ((hideal.fresh _ _ _ _ h').1 i)
  · cases between with
    | nil =>
      obtain ⟨hact, -⟩ := List.cons.inj hrest
      exact (Action.own.inj hact).1.symm
    | cons act between =>
      obtain ⟨rfl, -⟩ := List.cons.inj hrest
      exact absurd (by simp) ((hideal.fresh _ _ _ _ h).1 j)

/-- A signature for a challenge of the call has been made during the call. -/
lemma Ideal.signedFor {identity : Identity} {signature : Signature}
    {before between after : List (Act ι)} (hideal : Ideal crate history)
    (h : history = before ++ drawn i data ::
      (between ++ answered i identity data signature :: after))
    (hverify : crate.verify identity.keyData data.toList signature = .ok ()) :
    SignedFor history i identity data signature := by
  have hearlier : history =
      (before ++ drawn i data :: between) ++ answered i identity data signature :: after := by
    rw [h]
    simp
  rcases List.mem_append.mp (hideal.unforged _ _ _ _ _ _ hearlier hverify) with hmem | hmem
  · exact absurd hmem ((hideal.fresh _ _ _ _ h).2 _)
  · rcases List.mem_cons.mp hmem with heq | hmem
    · exact absurd heq (by simp [signs, drawn])
    · obtain ⟨between, between', rfl⟩ := List.append_of_mem hmem
      exact ⟨before, between, between', after, by rw [h]; simp⟩

/-- A call that succeeds. -/
lemma Ideal.backed [DecidableEq ι] {fuel : ℕ} {call : Call} (hideal : Ideal crate history)
    (hsuccess : call.Succeeds fuel crate (actsOf i history)) : ∃ calls entries loaded rest,
      actsOf i history = loadEvents loaded calls ++ rest ∧
        LoadedFrom fuel crate call.host call.handle call.args calls entries loaded ∧
        Backed crate call.host entries loaded history i := by
  obtain ⟨calls, entries, loaded, rest, hacts, hfrom, hvouched⟩ := vouched_of_returns hsuccess
  refine ⟨calls, entries, loaded, rest, hacts, hfrom, ?_⟩
  cases hvouched with
  | sshd key passed listed => exact Or.inl ⟨key, passed, listed⟩
  | agent passed path connected now identities attempts signed =>
    right
    obtain ⟨before, identity, data, signature, rfl, hprefix, -, hformat, hverify⟩ := signed
    have hmem : identity ∈ trustedOf crate entries now loaded.context.callingUser identities :=
      hprefix.subset (by simp)
    have htrusted := (List.mem_filter.mp hmem).2
    refine ⟨now, identity, data, signature, by simpa using htrusted, ?_, hformat⟩
    -- the last two calls are the challenge and the signature
    obtain ⟨earlier, hevents⟩ : ∃ earlier, actsOf i history =
        earlier ++ authPart.event ⟨.fill, some data⟩ ::
          ([] ++ authPart.event ⟨.sign identity data, .ok signature⟩ :: []) := by
      refine ⟨loadEvents loaded calls ++ useEvents path loaded.args.agentTimeout
        (listedTrace now identities (before.flatMap Attempt.events)), ?_⟩
      rw [hacts]
      simp [useEvents, listedTrace, Attempt.events]
    obtain ⟨_, _, _, hhistory⟩ := exists_split_pair hevents
    exact hideal.signedFor hhistory hverify

/-- **Agreement.**  However calls interleave, and whatever their agents do: for each call that
succeeds by its agent the holder of a key that its policy trusts has signed a challenge of this
call, while the call waited for it, and this challenge is the one of no other call. -/
theorem calls_agree [DecidableEq ι] (fuel : ℕ) (crate : SshKeyCrate) (call : ι → Call)
    (history : List (Act ι)) (hideal : Ideal crate history) :
    Agreement fuel crate call history := by
  constructor
  case authentic =>
    exact fun i hsuccess => hideal.backed hsuccess
  case separate =>
    rintro i j identity identity' data _ _ ⟨before, _, _, _, h⟩ ⟨before', _, _, _, h'⟩
    exact hideal.drawn_unique h h'

/-! ## A call for `bob` -/

/-- A scheme in which the message itself is its signature. -/
def echoCrate : SshKeyCrate :=
  { keyLineCrate with
    verify := fun _ message signature => if signature.bytes = message then .ok () else .error () }

/-- The call. -/
def bobSudo : Call := ⟨bobAgentHost, ⟨.ok "bob", .ok "sudo"⟩, cstrs ["file=/keys"]⟩

/-- What it loads. -/
def bobLoaded : Loaded :=
  ⟨⟨"bob", "sudo"⟩, { file := "/keys" }, IdentityFilter.ofAuthorized [.key lineKey.keyData] false⟩

/-- The challenge that a call draws. -/
def sevens : Challenge := Vector.replicate challengeSize 7

/-- The signature that it gets. -/
def sevensSigned : Signature := ⟨.ed25519, sevens.toList⟩

/-- What the agent is asked for. -/
def sevensCalls : List (Event AuthCalls) :=
  listedTrace 0 [.publicKey lineKey]
    [⟨.fill, some sevens⟩, ⟨.sign (.publicKey lineKey) sevens, .ok sevensSigned⟩]

variable {loaded : Loaded} {calls : List (Event PolicyCalls)}

/-- What a call does before it draws the challenge. -/
def beforeSevens (loaded : Loaded) (calls : List (Event PolicyCalls)) : List (Event ModuleCalls) :=
  loadEvents loaded calls ++
    useEvents "/agent" loaded.args.agentTimeout (listedTrace 0 [.publicKey lineKey] [])

/-- The holder of the key signs for a call. -/
def sevensHistory (loaded : Loaded) (calls : List (Event PolicyCalls)) : List (Act Unit) :=
  (beforeSevens loaded calls).map (.own ()) ++ [drawn () sevens, signs lineKey.keyData sevens,
    answered () (.publicKey lineKey) sevens sevensSigned]

lemma actsOf_sevensHistory : actsOf () (sevensHistory loaded calls) =
    loadEvents loaded calls ++ useEvents "/agent" loaded.args.agentTimeout sevensCalls := by
  have hlast : actsOf () [drawn () sevens, signs lineKey.keyData sevens,
      answered () (.publicKey lineKey) sevens sevensSigned] = [authPart.event ⟨.fill, some sevens⟩,
        authPart.event ⟨.sign (.publicKey lineKey) sevens, .ok sevensSigned⟩] := rfl
  rw [sevensHistory, actsOf_append, actsOf_own, beforeSevens, List.append_assoc, hlast]
  simp [useEvents, sevensCalls, listedTrace]

/-- The last three actions of that history are the only ones of their kind. -/
lemma sevensHistory_split {before after : List (Act Unit)} {act : Act Unit}
    (h : sevensHistory loaded calls = before ++ act :: after) :
    (∃ e ∈ beforeSevens loaded calls, act = .own () e) ∨
      (act = drawn () sevens ∧ before = (beforeSevens loaded calls).map (.own ())) ∨
      (act = signs lineKey.keyData sevens) ∨
      (act = answered () (.publicKey lineKey) sevens sevensSigned ∧
        before = (beforeSevens loaded calls).map (.own ()) ++
          [drawn () sevens, signs lineKey.keyData sevens]) := by
  rw [sevensHistory] at h
  rcases List.append_eq_append_iff.mp h with ⟨between, rfl, hrest⟩ | ⟨between, hfirst, hrest⟩
  · rcases between with _ | ⟨_, _ | ⟨_, _ | ⟨_, _ | ⟨_, between⟩⟩⟩⟩
    · obtain ⟨rfl, -⟩ := List.cons.inj hrest
      simp
    · simp at hrest
      simp [hrest]
    · simp at hrest
      simp [hrest]
    · simp at hrest
    · simp at hrest
  · cases between with
    | nil =>
      obtain ⟨rfl, -⟩ := List.cons.inj hrest
      rw [List.append_nil] at hfirst
      exact Or.inr (Or.inl ⟨rfl, hfirst.symm⟩)
    | cons first between =>
      obtain ⟨rfl, -⟩ := List.cons.inj hrest
      have hmem : act ∈ (beforeSevens loaded calls).map (Action.own ()) := by
        rw [hfirst]
        simp
      obtain ⟨e, he, rfl⟩ := List.mem_map.mp hmem
      exact Or.inl ⟨e, he, rfl⟩

/-- The call of the agent in a call of the module, if it is one. -/
def agentQuery : ModuleCalls.Query → Option AuthQuery
  | .inr (.inr query) => some query
  | _ => none

lemma agentQuery_event (e : Event AuthCalls) : agentQuery (authPart.event e).query = some e.query :=
  rfl

lemma agentQuery_beforeSevens {e : Event ModuleCalls} {query : AuthQuery}
    (he : e ∈ beforeSevens loaded calls) (hquery : agentQuery e.query = some query) :
    query = .now ∨ query = .listIdentities := by
  -- only the last two calls are made to the agent
  have hagent : (beforeSevens loaded calls).filterMap (fun e => agentQuery e.query) =
      [.now, .listIdentities] := by
    have hnone : ∀ e : Event PolicyCalls, agentQuery (policyPart.event e).query = none :=
      fun _ => rfl
    have hpolicy : (calls.map policyPart.event).filterMap (fun e => agentQuery e.query) = [] := by
      simp [List.filterMap_map, hnone]
    rw [beforeSevens, loadEvents, List.filterMap_append, List.filterMap_append, hpolicy]
    rfl
  have hmem : query ∈ (beforeSevens loaded calls).filterMap fun e => agentQuery e.query :=
    List.mem_filterMap.mpr ⟨e, he, hquery⟩
  rw [hagent] at hmem
  simpa using hmem

/-- Equal actions of a call with its agent are of the same kind. -/
lemma query_eq_of_own {i : ι} {e e' : Event AuthCalls}
    (h : (Action.own i (authPart.event e) : Act ι) = .own j (authPart.event e')) :
    e.query = e'.query := by
  have hevent := congrArg (fun e => agentQuery e.query) (Action.own.inj h).2
  exact Option.some.inj hevent

lemma sevensHistory_ideal : Ideal echoCrate (sevensHistory loaded calls) := by
  constructor
  case fresh =>
    rintro before i data after h
    rcases sevensHistory_split h with ⟨e, he, heq⟩ | ⟨-, rfl⟩ | heq | ⟨heq, -⟩
    · obtain rfl := (Action.own.inj heq).2
      exact absurd (agentQuery_beforeSevens he (agentQuery_event _)) (by simp)
    · refine ⟨fun j hmem => ?_, fun key hmem => ?_⟩
      · obtain ⟨e, he, hdrawn⟩ := List.mem_map.mp hmem
        obtain rfl := (Action.own.inj hdrawn).2
        exact absurd (agentQuery_beforeSevens he (agentQuery_event _)) (by simp)
      · obtain ⟨e, -, hsigned⟩ := List.mem_map.mp hmem
        exact absurd hsigned (by simp [signs])
    · exact absurd heq (by simp [drawn, signs])
    · exact absurd (query_eq_of_own heq) (by simp)
  case unforged =>
    rintro before i identity data signature after h -
    rcases sevensHistory_split h with ⟨e, he, heq⟩ | ⟨heq, -⟩ | heq | ⟨heq, rfl⟩
    · obtain rfl := (Action.own.inj heq).2
      exact absurd (agentQuery_beforeSevens he (agentQuery_event _)) (by simp)
    · exact absurd (query_eq_of_own heq) (by simp)
    · exact absurd heq (by simp [answered, signs])
    · obtain ⟨rfl, rfl⟩ := AuthQuery.sign.inj (query_eq_of_own heq)
      simp [Identity.keyData]

/-- A call for `bob` that loads the key succeeds by this agent. -/
lemma succeeds_sevens {fuel : ℕ} {call : Call} {entries : LoadedEntries}
    (hloads : LoadedFrom fuel echoCrate call.host call.handle call.args calls entries loaded)
    (hservice : loaded.context.service ≠ "sshd")
    (hpath : getPath call.host loaded.args = .ok "/agent")
    (hauth : (authenticate echoCrate loaded.policy loaded.context.callingUser).Returns sevensCalls
      true) : call.Succeeds fuel echoCrate (actsOf () (sevensHistory loaded calls)) := by
  refine returns_smAuthenticate.mpr ?_
  rw [run_eq, actsOf_sevensHistory]
  exact Prog.returns_bind.mpr ⟨_, _, loaded, rfl,
    returns_loadPolicy.mpr ⟨calls, entries, rfl, hloads⟩,
    (returns_usePolicy hservice).mpr ⟨"/agent", sevensCalls, rfl, hpath, hauth⟩⟩

/-- The policy is read from one file. -/
lemma bobSudo_loads : LoadedFrom 0 echoCrate bobSudo.host bobSudo.handle bobSudo.args keyLineCalls
    ⟨[⟨[], lineKey⟩], [], []⟩ bobLoaded := by
  refine
    { context := rfl
      parses := by decide +kernel
      users := rfl
      sources := ⟨keyLineCalls, [], [], rfl, Or.inl ⟨keyLine, ?_, ?_⟩, ⟨rfl, rfl⟩, ⟨rfl, rfl⟩⟩
      policy := rfl }
  · have hcall : (fsCall (.readToString (Text.bytes "/keys"))).Ends
        [⟨.readToString (Text.bytes "/keys"), .ok keyLine⟩] (.ok keyLine) :=
      ends_fsCall.mpr ⟨.ok keyLine, rfl, rfl⟩
    exact Prog.returns_lift.mpr ⟨_, rfl, hcall⟩
  · refine ⟨?_, trivial, rfl⟩
    decide +kernel

lemma bobSudo_succeeds :
    bobSudo.Succeeds 0 echoCrate (actsOf () (sevensHistory bobLoaded keyLineCalls)) :=
  succeeds_sevens bobSudo_loads (by decide) rfl (.ask (.ask (.ask (.ask (.refl _)))))

/-- The holder of the key has signed for the call of `bob`. -/
theorem calls_agree_bob :
    bobSudo.Succeeds 0 echoCrate (actsOf () (sevensHistory bobLoaded keyLineCalls)) ∧
      Agreement 0 echoCrate (fun _ => bobSudo) (sevensHistory bobLoaded keyLineCalls) :=
  ⟨bobSudo_succeeds, calls_agree 0 echoCrate (fun _ => bobSudo) _ sevensHistory_ideal⟩

end PamSshAgent
