import PamSshAgent.Library.Interaction
import PamSshAgent.Policy.Filter

/-!
# Authentication against an agent

`authenticate` asks the agent for its identities and tries those that the policy accepts,
one by one, until one of them does not end with the agent's refusal to sign.  What it calls
is the clock, the random number generator and the agent; each may reply anything.
-/

namespace PamSshAgent

open Interaction

/-- `SystemTime`, in nanoseconds since the epoch. -/
abbrev SystemTime := ℤ

/-- `CHALLENGE_SIZE`. -/
def challengeSize : ℕ := 32

/-- The random bytes that the agent has to sign. -/
abbrev Challenge := Vector UInt8 challengeSize

/-- A call that `authenticate` makes. -/
inductive AuthQuery where
  /-- `SystemTime::now`. -/
  | now
  /-- `SSHAgent::list_identities`. -/
  | listIdentities
  /-- `getrandom::fill`. -/
  | fill
  /-- `SSHAgent::sign_with_ref`. -/
  | sign (identity : Identity) (data : Challenge)
deriving DecidableEq

/-- What a call replies; a random number generator that fails says nothing. -/
@[reducible] def AuthQuery.Reply : AuthQuery → Type
  | now => SystemTime
  | listIdentities => Except SACError (List Identity)
  | fill => Option Challenge
  | sign _ _ => Except SACError Signature

/-- The calls that `authenticate` makes. -/
abbrev AuthCalls : Interface := ⟨AuthQuery, AuthQuery.Reply⟩

/-- `validate_sk_signature`. -/
def validateSkSignature (identity : Identity) (signature : Signature) : Except Error Unit :=
  let key := identity.keyData
  let expected :=
    if key.isSkEd25519 then some Algorithm.skEd25519
    else if key.isSkEcdsaP256 then some Algorithm.skEcdsaSha2NistP256
    else none
  match expected with
  | none => .ok ()
  | some expected =>
    if signature.algorithm ≠ expected ∨ signature.bytes.length < 5 then
      .error (.anyhow ["Invalid security-key signature format"])
    else
      let flags := signature.bytes.getD (signature.bytes.length - 5) 0
      if flags &&& 0x01 = 0 ∨ flags &&& 0x04 = 0 then
        .error (.anyhow ["Security-key signature requires user presence and verification"])
      else .ok ()

/-- `validate_cert`. -/
def validateCert (crate : SshKeyCrate) (cert : Certificate) (time : SystemTime)
    (principal : Text) : Bool :=
  if time < 0 then false
  else
    match crate.validateAt cert (time / 10 ^ 9).toNat
        [crate.fingerprint cert.signatureKey .sha256] with
    | .error _ => false
    | .ok () =>
      if cert.certType ≠ .user then false
      else if !cert.validPrincipals.any (· = principal) then false
      else cert.criticalOptions.isEmpty

/-- What `sign_and_verify` does with a signature. -/
def verifySignature (crate : SshKeyCrate) (identity : Identity) (strict : Bool) (data : Challenge)
    (signature : Signature) : Except Error Bool := do
  let _ ← (if strict then validateSkSignature identity signature else .ok ())
  match crate.verify identity.keyData data.toList signature with
  | .ok () => .ok true
  | .error () => .error .signature

/-- `sign_and_verify`. -/
def signAndVerify (crate : SshKeyCrate) (identity : Identity) (strict : Bool) :
    Prog AuthCalls Error Bool := do
  match ← Prog.query (I := AuthCalls) .fill with
  | none => .fail (.anyhow ["Failed to obtain random data"])
  | some (data : Challenge) =>
    match ← Prog.query (I := AuthCalls) (.sign identity data) with
    | .error error => .fail (.agent error)
    | .ok signature => Prog.ofExcept (verifySignature crate identity strict data signature)

/-- The identity is a certificate that `validate_cert` rejects. -/
def certRejected (crate : SshKeyCrate) (now : SystemTime) (principal : Text) : Identity → Bool
  | .publicKey _ => false
  | .certificate cert => !validateCert crate cert now principal

/-- The loop of `authenticate`. -/
def tryIdentities (crate : SshKeyCrate) (policy : IdentityFilter) (now : SystemTime)
    (principal : Text) : List Identity → Prog AuthCalls Error Bool
  | [] => .ret false
  | identity :: rest =>
    if policy.filter identity then
      if certRejected crate now principal identity then
        tryIdentities crate policy now principal rest
      else do
        match ← (signAndVerify crate identity policy.strict).attempt with
        | .ok res => .ret res
        | .error error =>
          if error.downcastAgent = some .remoteFailure then
            tryIdentities crate policy now principal rest
          else .fail error
    else tryIdentities crate policy now principal rest

/-- `authenticate`. -/
def authenticate (crate : SshKeyCrate) (policy : IdentityFilter) (principal : Text) :
    Prog AuthCalls Error Bool := do
  let now ← Prog.query (I := AuthCalls) .now
  match ← Prog.query (I := AuthCalls) .listIdentities with
  | .error error => .fail (.agent error)
  | .ok (identities : List Identity) => tryIdentities crate policy now principal identities

end PamSshAgent
