import PamSshAgent.Auth.Agent

/-!
# The walk over the identities

A reference for `authenticate`.  Of the identities that the agent lists, the eligible ones
are tried in order, each with a challenge of its own.  An attempt that ends with the remote
failure of the agent is passed over, and the first one that does not decides.
-/

namespace PamSshAgent

open Interaction

/-- The policy accepts the identity, and it is no certificate that is rejected. -/
def eligible (crate : SshKeyCrate) (policy : IdentityFilter) (now : SystemTime)
    (principal : Text) (identity : Identity) : Bool :=
  policy.filter identity && !certRejected crate now principal identity

/-- How far an attempt came. -/
inductive Outcome where
  /-- No random data. -/
  | noRandom
  /-- The agent answered the sign request with an error. -/
  | refused (data : Challenge) (error : SACError)
  /-- The agent returned a signature. -/
  | signed (data : Challenge) (signature : Signature)

/-- An attempt to authenticate with an identity. -/
structure Attempt where
  identity : Identity
  outcome : Outcome

namespace Attempt

/-- The calls of an attempt: a new challenge, and a sign request for it. -/
def events (attempt : Attempt) : List (Event AuthCalls) :=
  match attempt.outcome with
  | .noRandom => [⟨.fill, (none : Option Challenge)⟩]
  | .refused data error =>
    [⟨.fill, some data⟩, ⟨.sign attempt.identity data, .error error⟩]
  | .signed data signature =>
    [⟨.fill, some data⟩, ⟨.sign attempt.identity data, .ok signature⟩]

/-- How an attempt ended. -/
def result (crate : SshKeyCrate) (strict : Bool) (attempt : Attempt) : Except Error Bool :=
  match attempt.outcome with
  | .noRandom => .error (.anyhow ["Failed to obtain random data"])
  | .refused _ error => .error (.agent error)
  | .signed data signature => verifySignature crate attempt.identity strict data signature

/-- The attempt ended with the remote failure of the agent. -/
def RemoteFailure (crate : SshKeyCrate) (strict : Bool) (attempt : Attempt) : Prop :=
  ∃ error, attempt.result crate strict = .error error ∧
    error.downcastAgent = some .remoteFailure

end Attempt

/-- The reference: the attempts are made with the first eligible identities, and either
each eligible identity ended with a remote failure, or the last attempt is the first one
that did not, and its result is the result. -/
def ReferenceWalk (crate : SshKeyCrate) (strict : Bool) (identities : List Identity)
    (attempts : List Attempt) (x : Except Error Bool) : Prop :=
  x = .ok false ∧ attempts.map Attempt.identity = identities ∧
      (∀ attempt ∈ attempts, attempt.RemoteFailure crate strict) ∨
    ∃ before last rest, attempts = before ++ [last] ∧
      identities = attempts.map Attempt.identity ++ rest ∧
      (∀ attempt ∈ before, attempt.RemoteFailure crate strict) ∧
      ¬ last.RemoteFailure crate strict ∧ x = last.result crate strict

/-- The trace of a call whose listing succeeded. -/
def listedTrace (now : SystemTime) (identities : List Identity) (es : List (Event AuthCalls)) :
    List (Event AuthCalls) :=
  ⟨.now, now⟩ :: ⟨.listIdentities, .ok identities⟩ :: es

/-- The identity in a sign request. -/
def signRequest (event : Event AuthCalls) : Option Identity :=
  match event.query with
  | .sign identity _ => some identity
  | _ => none

variable {crate : SshKeyCrate} {policy : IdentityFilter} {now : SystemTime} {principal : Text}
  {strict : Bool} {es : List (Event AuthCalls)} {x : Except Error Bool}

/-! ## One attempt -/

lemma ends_signAndVerify {identity : Identity} :
    (signAndVerify crate identity strict).Ends es x ↔
      ∃ outcome, es = (Attempt.mk identity outcome).events ∧
        x = (Attempt.mk identity outcome).result crate strict := by
  rw [signAndVerify, Prog.query_bind, Prog.ends_ask]
  constructor
  · rintro ⟨reply, es', rfl, hfill⟩
    cases reply with
    | none =>
      obtain ⟨rfl, rfl⟩ := Prog.ends_fail.mp hfill
      exact ⟨.noRandom, rfl, rfl⟩
    | some data =>
      obtain ⟨answer, es'', rfl, hsign⟩ := Prog.ends_ask.mp hfill
      cases answer with
      | error error =>
        obtain ⟨rfl, rfl⟩ := Prog.ends_fail.mp hsign
        exact ⟨.refused data error, rfl, rfl⟩
      | ok signature =>
        obtain ⟨rfl, rfl⟩ := Prog.ends_ofExcept.mp hsign
        exact ⟨.signed data signature, rfl, rfl⟩
  · rintro ⟨outcome, rfl, rfl⟩
    cases outcome with
    | noRandom => exact ⟨none, [], rfl, Prog.ends_fail.mpr ⟨rfl, rfl⟩⟩
    | refused data error =>
      refine ⟨some data, _, rfl, Prog.ends_ask.mpr ⟨.error error, [], rfl, ?_⟩⟩
      exact Prog.ends_fail.mpr ⟨rfl, rfl⟩
    | signed data signature =>
      refine ⟨some data, _, rfl, Prog.ends_ask.mpr ⟨.ok signature, [], rfl, ?_⟩⟩
      exact Prog.ends_ofExcept.mpr ⟨rfl, rfl⟩

lemma validateSkSignature_not_agent {identity : Identity} {signature : Signature} {error : Error}
    (h : validateSkSignature identity signature = .error error) : error.downcastAgent = none := by
  unfold validateSkSignature at h
  dsimp only at h
  split at h
  · simp at h
  · split_ifs at h
    · obtain rfl := Except.error.inj h
      rfl
    · obtain rfl := Except.error.inj h
      rfl

/-- Neither a rejected signature nor a wrong one counts as a remote failure. -/
lemma verifySignature_not_agent {identity : Identity} {data : Challenge} {signature : Signature}
    {error : Error} (h : verifySignature crate identity strict data signature = .error error) :
    error.downcastAgent = none := by
  unfold verifySignature at h
  cases hformat : (if strict then validateSkSignature identity signature else .ok ()) with
  | error e =>
    rw [hformat] at h
    obtain rfl := Except.error.inj h
    split_ifs at hformat
    exact validateSkSignature_not_agent hformat
  | ok _ =>
    rw [hformat, Except.ok_bind] at h
    split at h
    · simp at h
    · obtain rfl := Except.error.inj h
      rfl

/-- Only the agent's own answer to a sign request is a remote failure. -/
lemma remoteFailure_iff {attempt : Attempt} : attempt.RemoteFailure crate strict ↔
    ∃ data, attempt.outcome = .refused data .remoteFailure := by
  obtain ⟨identity, outcome⟩ := attempt
  cases outcome with
  | noRandom => simp [Attempt.RemoteFailure, Attempt.result, Error.anyhow, Error.downcastAgent]
  | refused data error => simp [Attempt.RemoteFailure, Attempt.result, Error.downcastAgent]
  | signed data signature =>
    refine iff_of_false ?_ (by simp)
    rintro ⟨error, herror, hremote⟩
    rw [verifySignature_not_agent herror] at hremote
    simp at hremote

/-- A signature that verifies is the only way to `true`, and nothing leads to `false`. -/
lemma result_ne_false {attempt : Attempt} : attempt.result crate strict ≠ .ok false := by
  obtain ⟨identity, outcome⟩ := attempt
  cases outcome with
  | noRandom => simp [Attempt.result]
  | refused data error => simp [Attempt.result]
  | signed data signature =>
    intro h
    obtain ⟨_, -, hverify⟩ := Except.bind_eq_ok_iff.mp h
    split at hverify <;> simp at hverify

/-! ## The loop -/

/-- The loop passes over what is not eligible. -/
lemma tryIdentities_filter (identities : List Identity) :
    tryIdentities crate policy now principal identities =
      tryIdentities crate policy now principal
        (identities.filter (eligible crate policy now principal)) := by
  induction identities with
  | nil => rfl
  | cons identity rest ih =>
    by_cases helig : eligible crate policy now principal identity = true
    · rw [List.filter_cons_of_pos helig, tryIdentities, tryIdentities, ih]
    · rw [List.filter_cons_of_neg helig, ← ih, tryIdentities]
      simp only [eligible, Bool.and_eq_true, Bool.not_eq_true', not_and, Bool.not_eq_false] at helig
      split_ifs with hfilter hcert
      · rfl
      · exact absurd (helig hfilter) hcert
      · rfl

lemma tryIdentities_cons {identity : Identity} {rest : List Identity}
    (helig : eligible crate policy now principal identity = true) :
    tryIdentities crate policy now principal (identity :: rest) = (do
      match ← (signAndVerify crate identity policy.strict).attempt with
      | .ok res => .ret res
      | .error error =>
        if error.downcastAgent = some .remoteFailure then
          tryIdentities crate policy now principal rest
        else .fail error) := by
  simp only [eligible, Bool.and_eq_true, Bool.not_eq_true'] at helig
  rw [tryIdentities, if_pos helig.1]
  exact if_neg (by simp [helig.2])

lemma referenceWalk_nil {attempts : List Attempt} :
    ReferenceWalk crate strict [] attempts x ↔ attempts = [] ∧ x = .ok false := by
  constructor
  · rintro (⟨hx, hall, -⟩ | ⟨before, last, rest, rfl, hsplit, -⟩)
    · exact ⟨List.map_eq_nil_iff.mp hall, hx⟩
    · simp at hsplit
  · rintro ⟨rfl, hx⟩
    exact Or.inl ⟨hx, rfl, by simp⟩

/-- The reference walk over one more identity. -/
lemma referenceWalk_cons {identity : Identity} {rest : List Identity} {attempts : List Attempt} :
    ReferenceWalk crate strict (identity :: rest) attempts x ↔
      ∃ outcome more, attempts = ⟨identity, outcome⟩ :: more ∧
        ((Attempt.mk identity outcome).RemoteFailure crate strict ∧
            ReferenceWalk crate strict rest more x ∨
          ¬ (Attempt.mk identity outcome).RemoteFailure crate strict ∧ more = [] ∧
            x = (Attempt.mk identity outcome).result crate strict) := by
  constructor
  · rintro (⟨hx, hall, hremote⟩ | ⟨before, last, left, rfl, hsplit, hbefore, hlast, hx⟩)
    · obtain ⟨⟨_, outcome⟩, more, rfl, rfl, hmore⟩ := List.map_eq_cons_iff.mp hall
      simp only [List.mem_cons, forall_eq_or_imp] at hremote
      exact ⟨outcome, more, rfl, Or.inl ⟨hremote.1, Or.inl ⟨hx, hmore, hremote.2⟩⟩⟩
    · cases before with
      | nil =>
        obtain ⟨_, outcome⟩ := last
        obtain ⟨rfl, -⟩ := List.cons.inj hsplit
        exact ⟨outcome, [], rfl, Or.inr ⟨hlast, rfl, hx⟩⟩
      | cons first before =>
        obtain ⟨_, outcome⟩ := first
        obtain ⟨rfl, hrest⟩ := List.cons.inj hsplit
        simp only [List.mem_cons, forall_eq_or_imp] at hbefore
        refine ⟨outcome, before ++ [last], rfl, Or.inl ⟨hbefore.1, Or.inr ?_⟩⟩
        exact ⟨before, last, left, rfl, hrest, hbefore.2, hlast, hx⟩
  · rintro ⟨outcome, more, rfl, ⟨hremote, hwalk⟩ | ⟨hlast, rfl, hx⟩⟩
    · rcases hwalk with ⟨hx, rfl, hall⟩ | ⟨before, last, left, rfl, rfl, hbefore, hlast, hx⟩
      · exact Or.inl ⟨hx, rfl, by simpa using ⟨hremote, hall⟩⟩
      · refine Or.inr ⟨⟨identity, outcome⟩ :: before, last, left, rfl, rfl, ?_, hlast, hx⟩
        simpa using ⟨hremote, hbefore⟩
    · exact Or.inr ⟨[], ⟨identity, outcome⟩, rest, rfl, rfl, by simp, hlast, hx⟩

/-- The loop over eligible identities ends as the reference walk does. -/
lemma ends_tryIdentities {identities : List Identity}
    (helig : ∀ identity ∈ identities, eligible crate policy now principal identity = true) :
    (tryIdentities crate policy now principal identities).Ends es x ↔
      ∃ attempts, es = attempts.flatMap Attempt.events ∧
        ReferenceWalk crate policy.strict identities attempts x := by
  induction identities generalizing es with
  | nil =>
    rw [tryIdentities, Prog.ends_ret]
    simp only [referenceWalk_nil]
    constructor
    · rintro ⟨rfl, rfl⟩
      exact ⟨[], rfl, rfl, rfl⟩
    · rintro ⟨attempts, rfl, rfl, rfl⟩
      exact ⟨rfl, rfl⟩
  | cons identity rest ih =>
    simp only [List.mem_cons, forall_eq_or_imp] at helig
    rw [tryIdentities_cons helig.1, Prog.ends_attempt_bind]
    simp only [referenceWalk_cons, ends_signAndVerify]
    constructor
    · rintro ⟨es₁, es₂, y, rfl, ⟨outcome, rfl, hy⟩, hrest⟩
      cases y with
      | ok res =>
        obtain ⟨rfl, rfl⟩ := Prog.ends_ret.mp hrest
        -- the attempt has a result, so the loop ends with it
        have hlast : ¬ (Attempt.mk identity outcome).RemoteFailure crate policy.strict := by
          rintro ⟨error, herror, -⟩
          rw [← hy] at herror
          simp at herror
        exact ⟨[⟨identity, outcome⟩], by simp, outcome, [], rfl, Or.inr ⟨hlast, rfl, hy⟩⟩
      | error error =>
        dsimp only at hrest
        split_ifs at hrest with hremote
        -- the agent refused, and the loop goes on with the rest
        · obtain ⟨attempts, rfl, hwalk⟩ := (ih helig.2).mp hrest
          exact ⟨⟨identity, outcome⟩ :: attempts, rfl, outcome, attempts, rfl,
            Or.inl ⟨⟨error, hy.symm, hremote⟩, hwalk⟩⟩
        -- any other error ends the whole call
        · obtain ⟨rfl, rfl⟩ := Prog.ends_fail.mp hrest
          have hlast : ¬ (Attempt.mk identity outcome).RemoteFailure crate policy.strict := by
            rintro ⟨error', herror, hremote'⟩
            rw [← hy] at herror
            obtain rfl := Except.error.inj herror
            exact hremote hremote'
          exact ⟨[⟨identity, outcome⟩], by simp, outcome, [], rfl, Or.inr ⟨hlast, rfl, hy⟩⟩
    · rintro ⟨attempts, rfl, outcome, more, rfl, ⟨⟨error, herror, hremote⟩, hwalk⟩ |
        ⟨hlast, rfl, rfl⟩⟩
      · refine ⟨_, more.flatMap Attempt.events, .error error, rfl, ⟨outcome, rfl, herror.symm⟩, ?_⟩
        dsimp only
        rw [if_pos hremote]
        exact (ih helig.2).mpr ⟨more, rfl, hwalk⟩
      · refine ⟨_, [], _, by simp, ⟨outcome, rfl, rfl⟩, ?_⟩
        cases hresult : (Attempt.mk identity outcome).result crate policy.strict with
        | ok res => exact Prog.ends_ret.mpr ⟨rfl, rfl⟩
        | error error =>
          dsimp only
          rw [if_neg fun hremote => hlast ⟨error, hresult, hremote⟩]
          exact Prog.ends_fail.mpr ⟨rfl, rfl⟩

/-! ## The whole call -/

/-- A call ends with the error of the listing, or as the loop over what was listed. -/
lemma ends_authenticate : (authenticate crate policy principal).Ends es x ↔
    ∃ now, (∃ error, es = [⟨.now, now⟩, ⟨.listIdentities, .error error⟩] ∧
        x = .error (.agent error)) ∨
      ∃ identities es', es = listedTrace now identities es' ∧
        (tryIdentities crate policy now principal identities).Ends es' x := by
  rw [authenticate, Prog.query_bind, Prog.ends_ask]
  constructor
  · rintro ⟨now, es', rfl, hlist⟩
    obtain ⟨reply, es'', rfl, hloop⟩ := Prog.ends_ask.mp hlist
    cases reply with
    | error error =>
      obtain ⟨rfl, rfl⟩ := Prog.ends_fail.mp hloop
      exact ⟨now, Or.inl ⟨error, rfl, rfl⟩⟩
    | ok identities => exact ⟨now, Or.inr ⟨identities, es'', rfl, hloop⟩⟩
  · rintro ⟨now, ⟨error, rfl, rfl⟩ | ⟨identities, es', rfl, hloop⟩⟩
    · refine ⟨now, _, rfl, Prog.ends_ask.mpr ⟨.error error, [], rfl, ?_⟩⟩
      exact Prog.ends_fail.mpr ⟨rfl, rfl⟩
    · exact ⟨now, _, rfl, Prog.ends_ask.mpr ⟨.ok identities, es', rfl, hloop⟩⟩

lemma ends_listed {identities : List Identity} :
    (authenticate crate policy principal).Ends (listedTrace now identities es) x ↔
      (tryIdentities crate policy now principal identities).Ends es x := by
  rw [authenticate, Prog.query_bind, listedTrace]
  exact Prog.ends_ask_cons.trans Prog.ends_ask_cons

/-- A call whose listing succeeded follows the reference walk over the eligible identities. -/
lemma ends_listed_iff_walk {identities : List Identity} :
    (authenticate crate policy principal).Ends (listedTrace now identities es) x ↔
      ∃ attempts, es = attempts.flatMap Attempt.events ∧ ReferenceWalk crate policy.strict
        (identities.filter (eligible crate policy now principal)) attempts x := by
  rw [ends_listed, tryIdentities_filter]
  exact ends_tryIdentities fun identity hidentity => (List.mem_filter.mp hidentity).2

lemma signRequests_of_remoteFailure {attempts : List Attempt}
    (h : ∀ attempt ∈ attempts, attempt.RemoteFailure crate strict) :
    (attempts.flatMap Attempt.events).filterMap signRequest = attempts.map Attempt.identity := by
  induction attempts with
  | nil => rfl
  | cons attempt attempts ih =>
    simp only [List.mem_cons, forall_eq_or_imp] at h
    obtain ⟨data, hdata⟩ := remoteFailure_iff.mp h.1
    rw [List.flatMap_cons, List.filterMap_append, ih h.2]
    simp [Attempt.events, hdata, List.filterMap_cons, signRequest]

/-- The sign requests of the reference walk are the first identities, one request each. -/
lemma signRequests_of_walk {identities : List Identity} {attempts : List Attempt}
    (h : ReferenceWalk crate strict identities attempts x) :
    (attempts.flatMap Attempt.events).filterMap signRequest <+: identities := by
  rcases h with ⟨-, rfl, hremote⟩ | ⟨before, last, rest, rfl, rfl, hbefore, -, -⟩
  · rw [signRequests_of_remoteFailure hremote]
  · rw [List.flatMap_append, List.filterMap_append, signRequests_of_remoteFailure hbefore,
      List.map_append, List.append_assoc, List.prefix_append_right_inj]
    obtain ⟨identity, outcome⟩ := last
    cases outcome <;> simp [Attempt.events, List.filterMap_cons, signRequest]

/-- **`authenticate` is the reference walk.**  Its runs are those of the walk over the
eligible identities; the sign requests are the first of these; the result is `false` exactly
when each of them ended with a remote failure; and identities that are not eligible change
neither the result nor the trace. -/
theorem authenticate_reference (crate : SshKeyCrate) (policy : IdentityFilter) (principal : Text) :
    (∀ es x, (authenticate crate policy principal).Ends es x ↔
      ∃ now, (∃ error, es = [⟨.now, now⟩, ⟨.listIdentities, .error error⟩] ∧
          x = .error (.agent error)) ∨
        ∃ identities, ∃ attempts : List Attempt,
          es = listedTrace now identities (attempts.flatMap Attempt.events) ∧
          ReferenceWalk crate policy.strict
            (identities.filter (eligible crate policy now principal)) attempts x) ∧
    (∀ now identities es x,
      (authenticate crate policy principal).Ends (listedTrace now identities es) x →
        es.filterMap signRequest <+: identities.filter (eligible crate policy now principal)) ∧
    (∀ es, (authenticate crate policy principal).Ends es (.ok false) ↔
      ∃ now identities, ∃ attempts : List Attempt,
        es = listedTrace now identities (attempts.flatMap Attempt.events) ∧
          attempts.map Attempt.identity =
            identities.filter (eligible crate policy now principal) ∧
          ∀ attempt ∈ attempts, attempt.RemoteFailure crate policy.strict) ∧
    ∀ now identities identities' es x,
      identities.filter (eligible crate policy now principal) =
          identities'.filter (eligible crate policy now principal) →
        ((authenticate crate policy principal).Ends (listedTrace now identities es) x ↔
          (authenticate crate policy principal).Ends (listedTrace now identities' es) x) := by
  have hruns : ∀ es x, (authenticate crate policy principal).Ends es x ↔
      ∃ now, (∃ error, es = [⟨.now, now⟩, ⟨.listIdentities, .error error⟩] ∧
          x = .error (.agent error)) ∨
        ∃ identities, ∃ attempts : List Attempt,
          es = listedTrace now identities (attempts.flatMap Attempt.events) ∧
          ReferenceWalk crate policy.strict
            (identities.filter (eligible crate policy now principal)) attempts x := by
    intro es x
    rw [ends_authenticate]
    refine exists_congr fun now => or_congr_right ?_
    constructor
    · rintro ⟨identities, es', rfl, hloop⟩
      obtain ⟨attempts, rfl, hwalk⟩ := ends_listed_iff_walk.mp (ends_listed.mpr hloop)
      exact ⟨identities, attempts, rfl, hwalk⟩
    · rintro ⟨identities, attempts, rfl, hwalk⟩
      exact ⟨identities, _, rfl, ends_listed.mp (ends_listed_iff_walk.mpr ⟨attempts, rfl, hwalk⟩)⟩
  refine ⟨hruns, ?_, ?_, ?_⟩
  · intro now identities es x h
    obtain ⟨attempts, rfl, hwalk⟩ := ends_listed_iff_walk.mp h
    exact signRequests_of_walk hwalk
  · intro es
    rw [hruns]
    constructor
    · rintro ⟨now, ⟨error, -, hfalse⟩ | ⟨identities, attempts, rfl, hwalk⟩⟩
      · simp at hfalse
      · rcases hwalk with ⟨-, hall, hremote⟩ | ⟨before, last, rest, -, -, -, -, hfalse⟩
        · exact ⟨now, identities, attempts, rfl, hall, hremote⟩
        · exact absurd hfalse.symm result_ne_false
    · rintro ⟨now, identities, attempts, rfl, hall, hremote⟩
      exact ⟨now, Or.inr ⟨identities, attempts, rfl, Or.inl ⟨rfl, hall, hremote⟩⟩⟩
  · intro now identities identities' es x hsame
    rw [ends_listed_iff_walk, ends_listed_iff_walk, hsame]

end PamSshAgent
