import PamSshAgent.Args.Fields
import PamSshAgent.Auth.Walk
import PamSshAgent.Module.Authenticate
import PamSshAgent.Policy.Roles

/-!
# What a successful authentication means

`sm_authenticate` returns success only for a key that sshd vouches for and that the policy
lists, or after the agent has signed a challenge of this call with an identity that the
policy accepts.
-/

namespace PamSshAgent

open Interaction

/-! ## The conditions of success -/

/-- The certificate is valid for the user at a reading of the clock. -/
structure CertAccepted (crate : SshKeyCrate) (cert : Certificate) (now : SystemTime)
    (user : Text) : Prop where
  epoch : 0 ≤ now
  valid : crate.validateAt cert (now / 10 ^ 9).toNat
    [crate.fingerprint cert.signatureKey .sha256] = .ok ()
  certType : cert.certType = .user
  principal : user ∈ cert.validPrincipals
  noOptions : cert.criticalOptions = []

/-- The policy trusts the identity to log in as the user. -/
def Trusted (crate : SshKeyCrate) (loaded : LoadedEntries) (now : SystemTime) (user : Text) :
    Identity → Prop
  | .publicKey key => loaded.Key key.keyData
  | .certificate cert => loaded.CaKey cert.signatureKey ∧ CertAccepted crate cert now user

/-- sshd vouches for a key that the policy lists, and the shortcut is on. -/
def ShortcutSuccess (crate : SshKeyCrate) (host : Host) (args : List CStr) (context : PamContext)
    (loaded : LoadedEntries) : Prop :=
  (Text.bytes "strict" ∉ args ∨ Text.bytes "sshd_shortcut" ∈ args) ∧ context.service = "sshd" ∧
    ∃ text key, host.var "SSH_AUTH_INFO_0" = some (some text) ∧ crate.fromOpenssh text = .ok key ∧
      loaded.Key key.keyData

/-- The calls of `authenticate` end with a challenge and a signature over it by an identity
that the agent listed and that the policy trusts. -/
def AgentSuccess (crate : SshKeyCrate) (context : PamContext) (loaded : LoadedEntries)
    (calls : List (Event AuthCalls)) : Prop :=
  ∃ now identities before identity data signature,
    calls = listedTrace now identities
      (before ++ [⟨.fill, some data⟩, ⟨.sign identity data, .ok signature⟩]) ∧
    identity ∈ identities ∧ crate.verify identity.keyData data.toList signature = .ok () ∧
    Trusted crate loaded now context.callingUser identity

variable {fuel : ℕ} {crate : SshKeyCrate} {host : Host} {handle : PamHandleExt}
  {policy : IdentityFilter} {loaded : LoadedEntries} {context : PamContext}

/-! ## The two ways to succeed -/

/-- What `validate_cert` checks. -/
lemma validateCert_eq_true {cert : Certificate} {now : SystemTime} {user : Text}
    (h : validateCert crate cert now user = true) : CertAccepted crate cert now user := by
  rw [validateCert] at h
  by_cases hepoch : now < 0
  · exact absurd h (by simp [hepoch])
  rw [if_neg hepoch] at h
  cases hvalid : crate.validateAt cert (now / 10 ^ 9).toNat
      [crate.fingerprint cert.signatureKey .sha256] with
  | error error => exact absurd h (by rw [hvalid]; simp)
  | ok _ =>
    rw [hvalid] at h
    dsimp only at h
    split_ifs at h with htype hprincipal
    refine ⟨not_lt.mp hepoch, hvalid, not_not.mp htype, ?_, List.isEmpty_iff.mp h⟩
    simpa using hprincipal

/-- An identity that the loop does not pass over is trusted. -/
lemma trusted_of_eligible {now : SystemTime} {user : Text} {identity : Identity}
    (hfilter : ∀ identity, policy.filter identity = true ↔ loaded.Accepts identity)
    (h : eligible crate policy now user identity = true) :
    Trusted crate loaded now user identity := by
  rw [eligible, Bool.and_eq_true] at h
  have haccepts := (hfilter identity).mp h.1
  cases identity with
  | publicKey key => exact haccepts
  | certificate cert => exact ⟨haccepts, validateCert_eq_true (by simpa [certRejected] using h.2)⟩

/-- A signature that `sign_and_verify` accepts verifies. -/
lemma verify_of_verifySignature {strict : Bool} {identity : Identity} {data : Challenge}
    {signature : Signature} (h : verifySignature crate identity strict data signature = .ok true) :
    crate.verify identity.keyData data.toList signature = .ok () := by
  obtain ⟨_, -, hverify⟩ := Except.bind_eq_ok_iff.mp h
  cases hresult : crate.verify identity.keyData data.toList signature with
  | ok _ => rfl
  | error _ => simp [hresult] at hverify

/-- Success against the agent. -/
lemma agentSuccess_of_returns {calls : List (Event AuthCalls)}
    (hfilter : ∀ identity, policy.filter identity = true ↔ loaded.Accepts identity)
    (h : (authenticate crate policy context.callingUser).Returns calls true) :
    AgentSuccess crate context loaded calls := by
  have hends : (authenticate crate policy context.callingUser).Ends calls (.ok true) := h
  obtain ⟨now, ⟨error, -, herror⟩ | ⟨identities, es, rfl, hwalk⟩⟩ := ends_authenticate.mp hends
  · exact absurd herror (by simp)
  obtain ⟨attempts, rfl, ⟨hfalse, -⟩ | ⟨before, last, rest, rfl, hsplit, -, -, hresult⟩⟩ :=
    ends_listed_iff_walk.mp (ends_listed.mpr hwalk)
  · exact absurd hfalse (by simp)
  obtain ⟨identity, outcome⟩ := last
  have hmem : identity ∈ identities.filter (eligible crate policy now context.callingUser) := by
    rw [hsplit]
    simp
  obtain ⟨hlisted, helig⟩ := List.mem_filter.mp hmem
  cases outcome with
  | noRandom => exact absurd hresult (by simp [Attempt.result])
  | refused data error => exact absurd hresult (by simp [Attempt.result])
  | signed data signature =>
    refine ⟨now, identities, before.flatMap Attempt.events, identity, data, signature, ?_, hlisted,
      verify_of_verifySignature hresult.symm, trusted_of_eligible hfilter helig⟩
    rw [List.flatMap_append]
    rfl

/-- Success by the shortcut. -/
lemma shortcutSuccess_of_special {args : List CStr} {parsed : Args}
    (hfilter : ∀ identity, policy.filter identity = true ↔ loaded.Accepts identity)
    (hparse : Args.parse args host.unixEnvironment context.handle = .ok parsed)
    (h : (if parsed.sshdShortcut then
        checkSshdSpecialCase crate (some context.service) policy host.unixEnvironment
      else .ok false) = .ok true) : ShortcutSuccess crate host args context loaded := by
  by_cases hon : parsed.sshdShortcut = true
  swap
  · rw [if_neg hon] at h
    exact absurd (Except.ok.inj h) Bool.false_ne_true
  rw [if_pos hon, checkSshdSpecialCase] at h
  by_cases hservice : context.service ≠ "sshd"
  · rw [if_pos hservice] at h
    exact absurd (Except.ok.inj h) Bool.false_ne_true
  rw [if_neg hservice] at h
  refine ⟨parse_sshdShortcut hparse hon, not_not.mp hservice, ?_⟩
  cases hvar : host.unixEnvironment.getEnv "SSH_AUTH_INFO_0" with
  | none =>
    rw [hvar] at h
    exact absurd (Except.ok.inj h) Bool.false_ne_true
  | some text =>
    rw [hvar] at h
    dsimp only at h
    cases hkey : crate.fromOpenssh text with
    | error error => simp [hkey] at h
    | ok key =>
      rw [hkey] at h
      refine ⟨text, key, Option.join_eq_some_iff.mp hvar, hkey, ?_⟩
      exact (hfilter (.publicKey key)).mp (Except.ok.inj h)

/-! ## The whole call -/

/-- The mode in which a call loads its policy. -/
def Args.policyMode (args : Args) : PolicyMode := if args.strict then .strict else .legacy

/-- How a call that succeeded came to its success: the policy was loaded, and then it was
the shortcut or the agent. -/
lemma success_of_doAuthenticate {args : List CStr} {parsed : Args}
    {es : List (Event ModuleCalls)}
    (hparse : Args.parse args host.unixEnvironment context.handle = .ok parsed)
    (h : (doAuthenticate fuel crate host parsed context).Returns es ()) :
    ∃ policyCalls rest loaded, es = policyCalls.map policyPart.event ++ rest ∧
      SourcesLoad fuel crate host (parsed.policySources context) parsed.policyMode policyCalls
        loaded ∧
      (ShortcutSuccess crate host args context loaded ∨
        ∃ connected agentCalls, rest = connected ++ agentCalls.map authPart.event ∧
          AgentSuccess crate context loaded agentCalls) := by
  rw [doAuthenticate] at h
  obtain ⟨es₁, rest, policy, rfl, hload, hrest⟩ := Prog.returns_bind.mp h
  obtain ⟨policyCalls, rfl, hnew⟩ := Prog.returns_lift.mp hload
  have hmode : (if parsed.strict = true then
        IdentityFilter.newStrict fuel crate host (parsed.policySources context)
      else IdentityFilter.new fuel crate host (parsed.policySources context)) =
      IdentityFilter.newWithMode fuel crate host (parsed.policySources context)
        parsed.policyMode := by
    rw [Args.policyMode]
    split_ifs <;> rfl
  rw [hmode] at hnew
  obtain ⟨loaded, hloaded, rfl⟩ := returns_newWithMode.mp hnew
  have hfilter := loaded.filter_authorized (decide (parsed.policyMode = .strict))
  refine ⟨policyCalls, rest, loaded, rfl, hloaded, ?_⟩
  -- after the policy, the shortcut comes before the agent
  obtain ⟨es₂, es₃, special, rfl, hspecial, hrest₁⟩ := Prog.returns_bind.mp hrest
  obtain ⟨rfl, hcheck⟩ := Prog.returns_ofExcept.mp hspecial
  cases special with
  | true => exact Or.inl (shortcutSuccess_of_special hfilter hparse hcheck)
  | false =>
    right
    rw [if_neg Bool.false_ne_true] at hrest₁
    obtain ⟨es₄, es₅, path, rfl, hpath, hrest₂⟩ := Prog.returns_bind.mp hrest₁
    obtain ⟨rfl, -⟩ := Prog.returns_ofExcept.mp hpath
    obtain ⟨connected, es₆, _, rfl, -, hrest₃⟩ := Prog.returns_bind.mp hrest₂
    obtain ⟨es₇, es₈, known, rfl, hauth, hend⟩ := Prog.returns_bind.mp hrest₃
    obtain ⟨agentCalls, rfl, hreturns⟩ := Prog.returns_lift.mp hauth
    cases known with
    | false => exact absurd hend Prog.not_returns_fail
    | true =>
      obtain ⟨rfl, -⟩ := Prog.returns_ret.mp hend
      exact ⟨connected, agentCalls, by simp, agentSuccess_of_returns hfilter hreturns⟩

/-- **A call that returns success has loaded its policy, and then either sshd vouched for a
key that the policy lists, with the shortcut on, or the agent signed a challenge of this call
with an identity that it had listed and that the policy trusts.** -/
theorem success_sound (fuel : ℕ) (crate : SshKeyCrate) (host : Host) (handle : PamHandleExt)
    (args : List CStr) (es : List (Event ModuleCalls))
    (h : (smAuthenticate fuel crate host handle args).Returns es .success) :
    ∃ context parsed first policyCalls rest loaded, PamContext.new handle = .ok context ∧
      Args.parse args host.unixEnvironment context.handle = .ok parsed ∧
      es = first ++ policyCalls.map policyPart.event ++ rest ∧
      SourcesLoad fuel crate host (parsed.policySources context) parsed.policyMode policyCalls
        loaded ∧
      (ShortcutSuccess crate host args context loaded ∨
        ∃ connected agentCalls, rest = connected ++ agentCalls.map authPart.event ∧
          AgentSuccess crate context loaded agentCalls) := by
  rw [smAuthenticate] at h
  obtain ⟨es₁, es₂, result, rfl, hrun, hcode⟩ := Prog.returns_bind.mp h
  rw [Prog.returns_attempt_iff_ends] at hrun
  cases result with
  | error error => exact absurd (Prog.returns_ret.mp hcode).2 (by simp)
  | ok _ =>
  obtain ⟨rfl, -⟩ := Prog.returns_ret.mp hcode
  have hreturns : (run fuel crate host handle args).Returns es₁ () := hrun
  rw [run] at hreturns
  obtain ⟨es₃, es₄, context, rfl, hcontext, hrest⟩ := Prog.returns_bind.mp hreturns
  obtain ⟨rfl, hnew⟩ := Prog.returns_ofExcept.mp hcontext
  obtain ⟨first, es₅, _, rfl, -, hrest₁⟩ := Prog.returns_bind.mp hrest
  obtain ⟨es₆, es₇, parsed, rfl, hargs, hrest₂⟩ := Prog.returns_bind.mp hrest₁
  obtain ⟨rfl, hparse⟩ := Prog.returns_ofExcept.mp hargs
  obtain ⟨es₈, es₉, _, rfl, hstrict, hauth⟩ := Prog.returns_bind.mp hrest₂
  obtain ⟨rfl, -⟩ := Prog.returns_ofExcept.mp hstrict
  obtain ⟨policyCalls, rest, loaded, rfl, hloaded, hsuccess⟩ :=
    success_of_doAuthenticate hparse hauth
  exact ⟨context, parsed, first, policyCalls, rest, loaded, hnew, hparse, by simp, hloaded,
    hsuccess⟩

/-! ## A login through sshd -/

/-- A host where sshd passes on a key. -/
def sshdHost : Host where
  getUserByName _ := none
  hostname := .error "no host name"
  var name := if name = "SSH_AUTH_INFO_0" then some (some keyLine) else none

/-- A call for `bob` by sshd. -/
def sshdHandle : PamHandleExt := ⟨.ok "bob", .ok "sshd"⟩

/-- Logging is started, and the authorized-keys file is read. -/
def sshdCalls : List (Event ModuleCalls) :=
  setupPart.event ⟨.initLogging "sshd", .ok ()⟩ :: keyLineCalls.map policyPart.event

lemma sshd_succeeds :
    (smAuthenticate 0 keyLineCrate sshdHost sshdHandle (cstrs ["file=/keys"])).Returns sshdCalls
      .success := by
  have hinit : (setupCall (.initLogging "sshd")).Returns [⟨.initLogging "sshd", .ok ()⟩] () :=
    Prog.returns_ask.mpr ⟨.ok (), [], rfl, Prog.returns_ret.mpr ⟨rfl, rfl⟩⟩
  have hparse : Args.parse (cstrs ["file=/keys"]) sshdHost.unixEnvironment
      (PamContext.handle ⟨"bob", "sshd"⟩) = .ok { file := "/keys" } := by
    decide +kernel
  have hspecial : checkSshdSpecialCase keyLineCrate (some "sshd")
      (IdentityFilter.ofAuthorized [.key lineKey.keyData] false) sshdHost.unixEnvironment =
        .ok true := by
    decide +kernel
  have hauth : (doAuthenticate 0 keyLineCrate sshdHost { file := "/keys" } ⟨"bob", "sshd"⟩).Returns
      (keyLineCalls.map policyPart.event) () := by
    refine Prog.returns_bind.mpr ⟨_, [], _, (List.append_nil _).symm,
      Prog.returns_lift.mpr ⟨keyLineCalls, rfl, keyLine_loads 0 sshdHost⟩, ?_⟩
    exact Prog.returns_bind.mpr ⟨[], [], true, rfl, Prog.returns_ofExcept.mpr ⟨rfl, hspecial⟩,
      Prog.returns_ret.mpr ⟨rfl, rfl⟩⟩
  have hrun : (run 0 keyLineCrate sshdHost sshdHandle (cstrs ["file=/keys"])).Returns sshdCalls
      () := by
    refine Prog.returns_bind.mpr ⟨[], sshdCalls, ⟨"bob", "sshd"⟩, rfl,
      Prog.returns_ofExcept.mpr ⟨rfl, rfl⟩, ?_⟩
    refine Prog.returns_bind.mpr ⟨[setupPart.event ⟨.initLogging "sshd", .ok ()⟩], _, (), rfl,
      Prog.returns_lift.mpr ⟨_, rfl, hinit⟩, ?_⟩
    refine Prog.returns_bind.mpr ⟨[], _, _, rfl, Prog.returns_ofExcept.mpr ⟨rfl, hparse⟩, ?_⟩
    exact Prog.returns_bind.mpr ⟨[], _, (), rfl, Prog.returns_ofExcept.mpr ⟨rfl, rfl⟩, hauth⟩
  exact Prog.returns_bind.mpr ⟨sshdCalls, [], .ok (), (List.append_nil _).symm,
    Prog.returns_attempt_iff_ends.mpr hrun, Prog.returns_ret.mpr ⟨rfl, rfl⟩⟩

/-- That call succeeds by the shortcut or by the agent. -/
theorem success_sound_sshd : ∃ context parsed first policyCalls rest loaded,
    PamContext.new sshdHandle = .ok context ∧
      Args.parse (cstrs ["file=/keys"]) sshdHost.unixEnvironment context.handle = .ok parsed ∧
      sshdCalls = first ++ policyCalls.map policyPart.event ++ rest ∧
      SourcesLoad 0 keyLineCrate sshdHost (parsed.policySources context) parsed.policyMode
        policyCalls loaded ∧
      (ShortcutSuccess keyLineCrate sshdHost (cstrs ["file=/keys"]) context loaded ∨
        ∃ connected agentCalls, rest = connected ++ agentCalls.map authPart.event ∧
          AgentSuccess keyLineCrate context loaded agentCalls) :=
  success_sound 0 keyLineCrate sshdHost sshdHandle (cstrs ["file=/keys"]) sshdCalls sshd_succeeds

end PamSshAgent
