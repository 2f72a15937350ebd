import Mathlib.Data.Finset.Basic
import PamSshAgent.SshKey

/-!
# The policy

The text of an authorized-keys file or of a helper is parsed into keys that may log in and
keys of certificate authorities.  An `IdentityFilter` holds the two sets.
-/

namespace PamSshAgent

/-- `PolicyMode`. -/
inductive PolicyMode where
  | legacy
  | strict
deriving DecidableEq, Repr

/-- `Authorized`: a key with the role that the policy gives it. -/
inductive Authorized where
  | key (key : KeyData)
  | caKey (key : KeyData)
deriving DecidableEq, Repr

/-- `IdentityFilter`. -/
structure IdentityFilter where
  keys : Finset KeyData
  caKeys : Finset KeyData
  strict : Bool

/-- `MAX_POLICY_ENTRIES`. -/
def maxPolicyEntries : ℕ := 1024

/-- The option that marks the key of a certificate authority. -/
def certAuthority : Text := "cert-authority"

/-- The role of an entry in legacy mode. -/
def authorizeLegacy (caKeys : Bool) (entry : Entry) : Authorized :=
  let keyData := entry.publicKey.keyData
  if !caKeys && !entry.configOpts.any (· = certAuthority) then .key keyData else .caKey keyData

/-- One round of the loop in `from_str_strict`: the entry with the given index. -/
def authorizeStrict (what : Text) (caKeys : Bool) (authorized : List Authorized)
    (entry : Except Text Entry × ℕ) : Except Error (List Authorized) :=
  match entry with
  | (.error error, index) =>
    .error (.anyhow ["Failed to parse line ", what, ":", Text.ofUid index, ": ", error])
  | (.ok entry, index) =>
    let options := entry.configOpts
    let isCa := caKeys || options = [certAuthority]
    if (!isCa && !options.isEmpty) || (isCa && !options.isEmpty && options ≠ [certAuthority]) then
      .error (.anyhow ["Unsupported authorized_keys options at ", what, ":", Text.ofUid index])
    else if maxPolicyEntries ≤ authorized.length then
      .error (.anyhow ["Trusted-key policy exceeds ", Text.ofUid maxPolicyEntries, " entries"])
    else
      let key := entry.publicKey.keyData
      .ok (authorized ++ [if isCa then .caKey key else .key key])

/-- `from_str_strict`. -/
def fromStrStrict (crate : SshKeyCrate) (buf what : Text) (caKeys : Bool) :
    Except Error (List Authorized) :=
  (crate.authorizedKeys buf).zipIdx.foldlM (authorizeStrict what caKeys) []

/-- `parse_policy`; in legacy mode a line that does not parse is skipped. -/
def parsePolicy (crate : SshKeyCrate) (buf what : Text) (caKeys : Bool) (mode : PolicyMode) :
    Except Error (List Authorized) :=
  if mode = .strict then fromStrStrict crate buf what caKeys
  else .ok ((crate.authorizedKeys buf).filterMap fun entry =>
    match entry with
    | .ok entry => some (authorizeLegacy caKeys entry)
    | .error _ => none)

namespace IdentityFilter

/-- One round of the loop in `IdentityFilter::from`. -/
def insert (sets : Finset KeyData × Finset KeyData) (item : Authorized) :
    Finset KeyData × Finset KeyData :=
  match item with
  | .key key => (Insert.insert key sets.1, sets.2)
  | .caKey caKey => (sets.1, Insert.insert caKey sets.2)

/-- `IdentityFilter::from`. -/
def ofAuthorized (authorized : List Authorized) (strict : Bool) : IdentityFilter :=
  let sets := authorized.foldl insert (∅, ∅)
  { keys := sets.1, caKeys := sets.2, strict }

/-- `IdentityFilter::filter`. -/
def filter (policy : IdentityFilter) : Identity → Bool
  | .publicKey key => key.keyData ∈ policy.keys
  | .certificate cert => cert.signatureKey ∈ policy.caKeys

end IdentityFilter

end PamSshAgent
