import PamSshAgent.Cmd.Run
import PamSshAgent.Library.Embedding
import PamSshAgent.Policy.Filter
import PamSshAgent.StrictUser
import PamSshAgent.Trust.Path

/-!
# Loading the policy

`IdentityFilter::new_with_mode` loads the authorized-keys file, the file of certificate
authorities and the output of the helper, as far as they are configured.  Legacy mode reads
files as they are and skips lines that do not parse; strict mode checks where the files lie
and accepts no line that it does not understand.
-/

namespace PamSshAgent

open Interaction

/-- The calls that are made while the policy is loaded. -/
abbrev PolicyCalls : Interface := FsCalls.sum CmdCalls

/-- The calls to the file system among them. -/
def fsPart : Embedding FsCalls PolicyCalls := .inl

/-- The calls of `run_inner` among them. -/
def cmdPart : Embedding CmdCalls PolicyCalls := .inr

/-- `MAX_DURATION`. -/
def maxDuration : Duration := Duration.fromSecs 10

/-- The contents of a file in `from_file`. -/
def fileContents (fuel : ℕ) (filename : OsStr) : PolicyMode → Prog PolicyCalls Error Text
  | .legacy => (fsCall (.readToString filename)).lift fsPart
  | .strict => (readStrictFile fuel filename 0).lift fsPart

/-- `from_file`. -/
def fromFile (fuel : ℕ) (crate : SshKeyCrate) (filename : OsStr) (caKeys : Bool)
    (mode : PolicyMode) : Prog PolicyCalls Error (List Authorized) := do
  let contents ← fileContents fuel filename mode
  match Text.fromUtf8 filename with
  | none => .fail (.anyhow ["invalid filename"])
  | some what => Prog.ofExcept (parsePolicy crate contents what caKeys mode)

/-- The path of the helper that `from_command` runs. -/
def helperPath (command : Text) : PolicyMode → Prog PolicyCalls Error Text
  | .legacy => .ret command
  | .strict => do
    let canonical ← (validateTrustPath command.bytes 0).lift fsPart
    match Text.fromUtf8 canonical with
    | some command => .ret command
    | none => .fail (.anyhow ["Strict helper path is not valid UTF-8"])

/-- The output of the helper in `from_command`. -/
def helperOutput (fuel : ℕ) (command : Text) (uid : Uid) (callingUser : Text) :
    PolicyMode → Prog PolicyCalls Error Text
  | .legacy => (Cmd.run fuel [command, callingUser] maxDuration uid none).lift cmdPart
  | .strict =>
    (Cmd.runWithoutDescendants fuel [command, callingUser] maxDuration uid none).lift cmdPart

/-- `from_command`. -/
def fromCommand (fuel : ℕ) (crate : SshKeyCrate) (command : Text) (uid : Uid)
    (callingUser : Text) (mode : PolicyMode) : Prog PolicyCalls Error (List Authorized) := do
  let command ← helperPath command mode
  let buf ← helperOutput fuel command uid callingUser mode
  Prog.ofExcept (parsePolicy crate buf (command ++ (":(output):" : Text)) false mode)

/-- The arguments of `IdentityFilter::new` that say where the policy comes from. -/
structure PolicySources where
  authorizedKeysFile : OsStr
  caKeysFile : Option OsStr
  authorizedKeysCommand : Option Text
  authorizedKeysCommandUser : Option Text
  callingUser : Text

namespace PolicySources

variable (sources : PolicySources) (fuel : ℕ) (crate : SshKeyCrate) (host : Host)
  (mode : PolicyMode)

/-- What the authorized-keys file contributes; in legacy mode it may be missing. -/
def fileItems : Prog PolicyCalls Error (List Authorized) := do
  match ← (fromFile fuel crate sources.authorizedKeysFile false mode).attempt with
  | .ok keys => .ret keys
  | .error error =>
    if mode = .legacy ∧ error.downcastIo = some .notFound then .ret [] else .fail error

/-- What the file of certificate authorities contributes. -/
def caItems : Prog PolicyCalls Error (List Authorized) :=
  match sources.caKeysFile with
  | some caKeysFile => fromFile fuel crate caKeysFile true mode
  | none => .ret []

/-- The user that the helper runs as. -/
def helperUser : Text := sources.authorizedKeysCommandUser.getD sources.callingUser

/-- What the output of the helper contributes. -/
def helperItems : Prog PolicyCalls Error (List Authorized) :=
  match sources.authorizedKeysCommand with
  | some cmd => do
    let uid ← Prog.ofExcept (host.getUid sources.helperUser)
    fromCommand fuel crate cmd uid sources.callingUser mode
  | none => .ret []

end PolicySources

/-- `IdentityFilter::new_with_mode`. -/
def IdentityFilter.newWithMode (fuel : ℕ) (crate : SshKeyCrate) (host : Host)
    (sources : PolicySources) (mode : PolicyMode) : Prog PolicyCalls Error IdentityFilter := do
  let file ← sources.fileItems fuel crate mode
  let ca ← sources.caItems fuel crate mode
  let helper ← sources.helperItems fuel crate host mode
  .ret (IdentityFilter.ofAuthorized (file ++ ca ++ helper) (mode = .strict))

/-- `IdentityFilter::new`. -/
def IdentityFilter.new (fuel : ℕ) (crate : SshKeyCrate) (host : Host) (sources : PolicySources) :
    Prog PolicyCalls Error IdentityFilter :=
  newWithMode fuel crate host sources .legacy

/-- `IdentityFilter::new_strict`. -/
def IdentityFilter.newStrict (fuel : ℕ) (crate : SshKeyCrate) (host : Host)
    (sources : PolicySources) : Prog PolicyCalls Error IdentityFilter :=
  newWithMode fuel crate host sources .strict

end PamSshAgent
