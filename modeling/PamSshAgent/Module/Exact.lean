import PamSshAgent.Module.Restriction

/-!
# Exactly when a call succeeds

A call succeeds in exactly these runs: its policy loads, and then either sshd vouches for a
key that the policy lists, or the agent refuses to sign with some of the trusted identities,
in the order in which it listed them, and signs with the next one.
-/

namespace PamSshAgent

open Interaction

variable {fuel : ℕ} {crate : SshKeyCrate} {host : Host} {handle : PamHandleExt}
  {args : List CStr} {policy : IdentityFilter} {entries : LoadedEntries} {loaded : Loaded}
  {now : SystemTime} {user : Text} {strict : Bool}

/-! ## The shortcut -/

/-- The shortcut is on, the service is sshd, and it passes on the key. -/
def PassedOn (crate : SshKeyCrate) (host : Host) (loaded : Loaded) (key : PublicKey) : Prop :=
  loaded.args.sshdShortcut = true ∧ loaded.context.service = "sshd" ∧
    ∃ text, host.unixEnvironment.getEnv "SSH_AUTH_INFO_0" = some text ∧
      crate.fromOpenssh text = .ok key

/-- The shortcut is off, the service is not sshd, or sshd passes on nothing. -/
def NothingPassedOn (host : Host) (loaded : Loaded) : Prop :=
  loaded.args.sshdShortcut = false ∨ loaded.context.service ≠ "sshd" ∨
    host.unixEnvironment.getEnv "SSH_AUTH_INFO_0" = none

/-- What `do_authenticate` finds out before it turns to the agent. -/
def special (crate : SshKeyCrate) (host : Host) (loaded : Loaded) : Except Error Bool :=
  if loaded.args.sshdShortcut then
    checkSshdSpecialCase crate (some loaded.context.service) loaded.policy host.unixEnvironment
  else .ok false

/-- Nothing is passed on, so the agent has to vouch. -/
lemma special_of_nothing (h : NothingPassedOn host loaded) :
    special crate host loaded = .ok false := by
  rw [special]
  split_ifs with hshortcut
  swap
  · rfl
  rw [checkSshdSpecialCase]
  rcases h with h | h | h
  · exact absurd h (by simp [hshortcut])
  · exact if_pos h
  · by_cases hservice : loaded.context.service = "sshd"
    · rw [if_neg (not_not.mpr hservice), h]
    · exact if_pos hservice

/-- A key that is passed on is looked up in the policy. -/
lemma special_of_passed {key : PublicKey} (h : PassedOn crate host loaded key) :
    special crate host loaded = .ok (loaded.policy.filter (.publicKey key)) := by
  obtain ⟨hshortcut, hservice, text, hvar, hkey⟩ := h
  rw [special, if_pos hshortcut, checkSshdSpecialCase, if_neg (not_not.mpr hservice), hvar]
  dsimp only
  rw [hkey]

/-- In all other cases what is passed on is no key. -/
lemma special_cases {found : Bool} (h : special crate host loaded = .ok found) :
    NothingPassedOn host loaded ∨ ∃ key, PassedOn crate host loaded key := by
  by_cases hnothing : NothingPassedOn host loaded
  · exact Or.inl hnothing
  right
  simp only [NothingPassedOn, not_or, ne_eq, not_not, Bool.not_eq_false] at hnothing
  obtain ⟨hshortcut, hservice, hvar⟩ := hnothing
  obtain ⟨text, htext⟩ := Option.ne_none_iff_exists'.mp hvar
  rw [special, if_pos hshortcut, checkSshdSpecialCase, if_neg (not_not.mpr hservice), htext] at h
  dsimp only at h
  cases hkey : crate.fromOpenssh text with
  | error error => simp [hkey] at h
  | ok key => exact ⟨key, hshortcut, hservice, text, htext, hkey⟩

/-! ## The agent -/

lemma validateCert_iff {cert : Certificate} :
    validateCert crate cert now user = true ↔ CertAccepted crate cert now user := by
  refine ⟨validateCert_eq_true, fun h => ?_⟩
  rw [validateCert, if_neg (not_lt.mpr h.epoch), h.valid]
  simp [h.certType, h.principal, h.noOptions]

lemma eligible_iff {identity : Identity}
    (hfilter : ∀ identity, policy.filter identity = true ↔ entries.Accepts identity) :
    eligible crate policy now user identity = true ↔ Trusted crate entries now user identity := by
  rw [eligible, Bool.and_eq_true, hfilter]
  cases identity with
  | publicKey key => simp [certRejected, Trusted, LoadedEntries.Accepts]
  | certificate cert =>
    simp only [certRejected, Bool.not_not, validateCert_iff]
    exact Iff.rfl

open scoped Classical in
/-- The identities that the policy trusts, in their order. -/
noncomputable def trustedOf (crate : SshKeyCrate) (entries : LoadedEntries) (now : SystemTime)
    (user : Text) (identities : List Identity) : List Identity :=
  identities.filter fun identity => decide (Trusted crate entries now user identity)

open scoped Classical in
lemma filter_eligible (hfilter : ∀ identity, policy.filter identity = true ↔ entries.Accepts identity)
    (identities : List Identity) : identities.filter (eligible crate policy now user) =
      trustedOf crate entries now user identities := by
  refine List.filter_congr fun identity _ => ?_
  rw [Bool.eq_iff_iff, eligible_iff hfilter, decide_eq_true_iff]

/-- The agent refuses to sign with the first of the identities, and signs with the next one;
in strict mode the signature of a security key is checked as well. -/
def AgentVouches (crate : SshKeyCrate) (strict : Bool) (identities : List Identity)
    (attempts : List Attempt) : Prop :=
  ∃ before identity data signature,
    attempts = before ++ [⟨identity, .signed data signature⟩] ∧
    attempts.map Attempt.identity <+: identities ∧
    (∀ attempt ∈ before, ∃ data, attempt.outcome = .refused data .remoteFailure) ∧
    (strict = true → validateSkSignature identity signature = .ok ()) ∧
    crate.verify identity.keyData data.toList signature = .ok ()

lemma verifySignature_eq_ok_true {identity : Identity} {data : Challenge} {signature : Signature} :
    verifySignature crate identity strict data signature = .ok true ↔
      (strict = true → validateSkSignature identity signature = .ok ()) ∧
        crate.verify identity.keyData data.toList signature = .ok () := by
  constructor
  · intro h
    refine ⟨?_, verify_of_verifySignature h⟩
    rintro rfl
    obtain ⟨_, hformat, -⟩ := Except.bind_eq_ok_iff.mp h
    exact hformat
  · rintro ⟨hformat, hverify⟩
    refine Except.bind_eq_ok_iff.mpr ⟨(), ?_, by rw [hverify]⟩
    split_ifs with hstrict
    · exact hformat hstrict
    · rfl

lemma referenceWalk_true_iff {identities : List Identity} {attempts : List Attempt} :
    ReferenceWalk crate strict identities attempts (.ok true) ↔
      AgentVouches crate strict identities attempts := by
  constructor
  · rintro (⟨hfalse, -⟩ | ⟨before, ⟨identity, outcome⟩, rest, rfl, hsplit, hbefore, -, hresult⟩)
    · exact absurd hfalse (by simp)
    cases outcome with
    | noRandom => exact absurd hresult (by simp [Attempt.result])
    | refused data error => exact absurd hresult (by simp [Attempt.result])
    | signed data signature =>
      obtain ⟨hformat, hverify⟩ := verifySignature_eq_ok_true.mp hresult.symm
      exact ⟨before, identity, data, signature, rfl, ⟨rest, hsplit.symm⟩,
        fun attempt hattempt => remoteFailure_iff.mp (hbefore attempt hattempt), hformat, hverify⟩
  · rintro ⟨before, identity, data, signature, rfl, ⟨rest, hsplit⟩, hbefore, hformat, hverify⟩
    refine Or.inr ⟨before, _, rest, rfl, hsplit.symm,
      fun attempt hattempt => remoteFailure_iff.mpr (hbefore attempt hattempt), fun hremote => ?_,
      (verifySignature_eq_ok_true.mpr ⟨hformat, hverify⟩).symm⟩
    exact absurd (remoteFailure_iff.mp hremote) (by simp)

lemma returns_authenticate_iff {calls : List (Event AuthCalls)}
    (hfilter : ∀ identity, policy.filter identity = true ↔ entries.Accepts identity) :
    (authenticate crate policy user).Returns calls true ↔ ∃ now identities attempts,
      calls = listedTrace now identities (attempts.flatMap Attempt.events) ∧
        AgentVouches crate policy.strict (trustedOf crate entries now user identities)
          attempts := by
  simp only [← filter_eligible hfilter, ← referenceWalk_true_iff]
  constructor
  · intro h
    have hends : (authenticate crate policy user).Ends calls (.ok true) := h
    obtain ⟨now, ⟨error, -, herror⟩ | ⟨identities, es, rfl, hloop⟩⟩ := ends_authenticate.mp hends
    · exact absurd herror (by simp)
    obtain ⟨attempts, rfl, hwalk⟩ := ends_listed_iff_walk.mp (ends_listed.mpr hloop)
    exact ⟨now, identities, attempts, rfl, hwalk⟩
  · rintro ⟨now, identities, attempts, rfl, hwalk⟩
    exact ends_listed_iff_walk.mpr ⟨attempts, rfl, hwalk⟩

/-! ## The call -/

/-- The part of `do_authenticate` that turns to the agent. -/
def askAgent (crate : SshKeyCrate) (host : Host) (loaded : Loaded) :
    Prog ModuleCalls Error Unit := do
  let path ← Prog.ofExcept (getPath host loaded.args)
  (setupCall (.connect path loaded.args.agentTimeout)).lift setupPart
  match ← (authenticate crate loaded.policy loaded.context.callingUser).lift authPart with
  | true => .ret ()
  | false => .fail (.anyhow ["Agent did not know of any of the allowed keys"])

lemma usePolicy_eq (crate : SshKeyCrate) (host : Host) (loaded : Loaded) :
    usePolicy crate host loaded = Prog.ofExcept (special crate host loaded) >>= fun found =>
      if found then .ret () else askAgent crate host loaded := rfl

lemma returns_askAgent {es : List (Event ModuleCalls)} :
    (askAgent crate host loaded).Returns es () ↔
      ∃ path calls, es = useEvents path loaded.args.agentTimeout calls ∧
        getPath host loaded.args = .ok path ∧
        (authenticate crate loaded.policy loaded.context.callingUser).Returns calls true := by
  rw [askAgent]
  simp only [Prog.returns_bind, Prog.returns_ofExcept, Prog.returns_lift, returns_setupCall]
  constructor
  · rintro ⟨_, _, path, rfl, ⟨rfl, hpath⟩, _, _, _, rfl, ⟨_, rfl, rfl⟩, _, _, known, rfl,
      ⟨calls, rfl, hauth⟩, hend⟩
    cases known with
    | false => exact absurd hend Prog.not_returns_fail
    | true =>
      obtain ⟨rfl, -⟩ := Prog.returns_ret.mp hend
      exact ⟨path, calls, by simp [useEvents], hpath, hauth⟩
  · rintro ⟨path, calls, rfl, hpath, hauth⟩
    exact ⟨[], _, path, rfl, ⟨rfl, hpath⟩, _, _, (), rfl,
      ⟨[⟨.connect path loaded.args.agentTimeout, .ok ()⟩], rfl, rfl⟩, _, [], true,
      (List.append_nil _).symm, ⟨calls, rfl, hauth⟩, Prog.returns_ret.mpr ⟨rfl, rfl⟩⟩

/-- Sshd has passed on no key, or one that the policy does not list. -/
def NotPassedOn (crate : SshKeyCrate) (host : Host) (entries : LoadedEntries) (loaded : Loaded) :
    Prop :=
  NothingPassedOn host loaded ∨ ∃ key, PassedOn crate host loaded key ∧ ¬ entries.Key key.keyData

/-- How a call goes on to its success once the policy is loaded. -/
inductive Vouched (crate : SshKeyCrate) (host : Host) (entries : LoadedEntries) (loaded : Loaded) :
    List (Event ModuleCalls) → Prop
  /-- Sshd vouches for a key that the policy lists. -/
  | sshd (key : PublicKey) (passed : PassedOn crate host loaded key)
      (listed : entries.Key key.keyData) : Vouched crate host entries loaded []
  /-- The agent signs. -/
  | agent (passed : NotPassedOn crate host entries loaded) (path : Text)
      (connected : getPath host loaded.args = .ok path) (now : SystemTime)
      (identities : List Identity) (attempts : List Attempt)
      (signed : AgentVouches crate loaded.policy.strict
        (trustedOf crate entries now loaded.context.callingUser identities) attempts) :
      Vouched crate host entries loaded (useEvents path loaded.args.agentTimeout
        (listedTrace now identities (attempts.flatMap Attempt.events)))

/-- The shortcut decides between sshd and the agent. -/
lemma special_iff {found : Bool}
    (hfilter : ∀ identity, loaded.policy.filter identity = true ↔ entries.Accepts identity) :
    special crate host loaded = .ok found ↔
      (found = true ∧ ∃ key, PassedOn crate host loaded key ∧ entries.Key key.keyData) ∨
        (found = false ∧ NotPassedOn crate host entries loaded) := by
  have hkey : ∀ key : PublicKey, loaded.policy.filter (.publicKey key) = true ↔
      entries.Key key.keyData := fun key => hfilter (.publicKey key)
  constructor
  · intro h
    rcases special_cases h with hnothing | ⟨key, hpassed⟩
    · obtain rfl := Except.ok.inj (h.symm.trans (special_of_nothing hnothing))
      exact Or.inr ⟨rfl, Or.inl hnothing⟩
    · obtain rfl := Except.ok.inj (h.symm.trans (special_of_passed hpassed))
      by_cases hlisted : entries.Key key.keyData
      · exact Or.inl ⟨(hkey key).mpr hlisted, key, hpassed, hlisted⟩
      · exact Or.inr ⟨Bool.eq_false_iff.mpr fun h => hlisted ((hkey key).mp h),
          Or.inr ⟨key, hpassed, hlisted⟩⟩
  · rintro (⟨rfl, key, hpassed, hlisted⟩ | ⟨rfl, hnothing | ⟨key, hpassed, hlisted⟩⟩)
    · rw [special_of_passed hpassed, (hkey key).mpr hlisted]
    · exact special_of_nothing hnothing
    · rw [special_of_passed hpassed, Bool.eq_false_iff.mpr fun h => hlisted ((hkey key).mp h)]

lemma returns_usePolicy_iff {es : List (Event ModuleCalls)}
    (hfilter : ∀ identity, loaded.policy.filter identity = true ↔ entries.Accepts identity) :
    (usePolicy crate host loaded).Returns es () ↔ Vouched crate host entries loaded es := by
  rw [usePolicy_eq, Prog.returns_bind]
  simp only [Prog.returns_ofExcept, special_iff hfilter]
  constructor
  · rintro ⟨_, es, found, rfl, ⟨rfl, ⟨rfl, key, hpassed, hlisted⟩ | ⟨rfl, hpassed⟩⟩, hrest⟩
    · obtain ⟨rfl, -⟩ := Prog.returns_ret.mp hrest
      exact .sshd key hpassed hlisted
    · obtain ⟨path, calls, rfl, hpath, hauth⟩ := returns_askAgent.mp hrest
      obtain ⟨now, identities, attempts, rfl, hsigned⟩ := (returns_authenticate_iff hfilter).mp hauth
      exact .agent hpassed path hpath now identities attempts hsigned
  · rintro (⟨key, hpassed, hlisted⟩ | ⟨hpassed, path, hpath, now, identities, attempts, hsigned⟩)
    · exact ⟨[], [], true, rfl, ⟨rfl, Or.inl ⟨rfl, key, hpassed, hlisted⟩⟩,
        Prog.returns_ret.mpr ⟨rfl, rfl⟩⟩
    · exact ⟨[], _, false, rfl, ⟨rfl, Or.inr ⟨rfl, hpassed⟩⟩, returns_askAgent.mpr ⟨path, _, rfl,
        hpath, (returns_authenticate_iff hfilter).mpr ⟨now, identities, attempts, rfl, hsigned⟩⟩⟩

/-- The policy of a call accepts what its entries accept. -/
lemma LoadedFrom.filter {calls : List (Event PolicyCalls)}
    (h : LoadedFrom fuel crate host handle args calls entries loaded) (identity : Identity) :
    loaded.policy.filter identity = true ↔ entries.Accepts identity := by
  rw [h.policy]
  exact entries.filter_authorized _ identity

/-- A call succeeds as `run` does. -/
lemma returns_smAuthenticate {es : List (Event ModuleCalls)} :
    (smAuthenticate fuel crate host handle args).Returns es .success ↔
      (run fuel crate host handle args).Returns es () := by
  rw [smAuthenticate, Prog.returns_bind]
  constructor
  · rintro ⟨es₁, es₂, result, rfl, hends, hcode⟩
    rw [Prog.returns_attempt_iff_ends] at hends
    rcases result with error | _
    · exact absurd (Prog.returns_ret.mp hcode).2 (by simp)
    · obtain ⟨rfl, -⟩ := Prog.returns_ret.mp hcode
      rw [List.append_nil]
      exact hends
  · intro h
    exact ⟨es, [], .ok (), (List.append_nil _).symm, Prog.returns_attempt_iff_ends.mpr h,
      Prog.returns_ret.mpr ⟨rfl, rfl⟩⟩

/-- A call that succeeds has loaded its policy, and someone has vouched for the user. -/
lemma vouched_of_returns {es : List (Event ModuleCalls)}
    (h : (smAuthenticate fuel crate host handle args).Returns es .success) :
    ∃ calls entries loaded rest, es = loadEvents loaded calls ++ rest ∧
      LoadedFrom fuel crate host handle args calls entries loaded ∧
      Vouched crate host entries loaded rest := by
  rw [returns_smAuthenticate, run_eq, Prog.returns_bind] at h
  obtain ⟨es₁, rest, loaded, rfl, hload, huse⟩ := h
  obtain ⟨calls, entries, rfl, hfrom⟩ := returns_loadPolicy.mp hload
  exact ⟨calls, entries, loaded, rest, rfl, hfrom, (returns_usePolicy_iff hfrom.filter).mp huse⟩

/-- **Exactly when a call succeeds.**  The runs of a call that end with success are those in which
logging is started, every configured source of the policy loads, and then either sshd has passed
on a key that the policy lists; or it has not, the agent is found and connected to, and of the
identities that it lists and the policy trusts it refuses some, in their order, and signs the
challenge for the next one. -/
theorem success_iff (fuel : ℕ) (crate : SshKeyCrate) (host : Host) (handle : PamHandleExt)
    (args : List CStr) (es : List (Event ModuleCalls)) :
    (smAuthenticate fuel crate host handle args).Returns es .success ↔
      ∃ calls entries loaded rest, es = loadEvents loaded calls ++ rest ∧
        LoadedFrom fuel crate host handle args calls entries loaded ∧
        Vouched crate host entries loaded rest := by
  refine ⟨vouched_of_returns, ?_⟩
  rintro ⟨calls, entries, loaded, rest, rfl, hfrom, hvouched⟩
  rw [returns_smAuthenticate, run_eq, Prog.returns_bind]
  exact ⟨_, rest, loaded, rfl, returns_loadPolicy.mpr ⟨calls, entries, rfl, hfrom⟩,
    (returns_usePolicy_iff hfrom.filter).mpr hvouched⟩

end PamSshAgent
