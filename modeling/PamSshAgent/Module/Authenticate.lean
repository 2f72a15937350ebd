import PamSshAgent.Args.Parse
import PamSshAgent.Auth.Agent
import PamSshAgent.Policy.Load

/-!
# The module

`sm_authenticate` reads the PAM items, parses its arguments, loads the policy and then
succeeds for a key that sshd vouches for or for an identity that the agent signs with.
-/

namespace PamSshAgent

open Interaction

/-- The other calls of the module: the start of logging and the connection to the agent. -/
inductive SetupQuery where
  /-- `init_logging`. -/
  | initLogging (service : Text)
  /-- `agent_connection::connect`. -/
  | connect (path : Text) (timeout : Option ℕ)

/-- The calls that set something up; each may fail. -/
abbrev SetupCalls : Interface := ⟨SetupQuery, fun _ => Except Error Unit⟩

/-- All calls of the module. -/
abbrev ModuleCalls : Interface := SetupCalls.sum (PolicyCalls.sum AuthCalls)

/-- The calls that set something up among them. -/
def setupPart : Embedding SetupCalls ModuleCalls := .inl

/-- The calls that load the policy among them. -/
def policyPart : Embedding PolicyCalls ModuleCalls := Embedding.comp .inr .inl

/-- The calls of `authenticate` among them. -/
def authPart : Embedding AuthCalls ModuleCalls := Embedding.comp .inr .inr

/-- A call that sets something up and whose error is passed on by `?`. -/
def setupCall (query : SetupQuery) : Prog SetupCalls Error Unit := do
  Prog.ofExcept (← Prog.query (I := SetupCalls) query)

/-- `check_sshd_special_case`. -/
def checkSshdSpecialCase (crate : SshKeyCrate) (service : Option Text) (policy : IdentityFilter)
    (env : Environment) : Except Error Bool :=
  match service with
  | none => .ok false
  | some service =>
    if service ≠ "sshd" then .ok false
    else
      match env.getEnv "SSH_AUTH_INFO_0" with
      | none => .ok false
      | some key =>
        match crate.fromOpenssh key with
        | .error _ =>
          .error (.sshKey "failed to parse key in SSH_AUTH_INFO_0 environment variable")
        | .ok key => .ok (policy.filter (.publicKey key))

/-- `get_path`. -/
def getPath (host : Host) (args : Args) : Except Error Text :=
  match host.var "SSH_AUTH_SOCK" with
  | some (some path) => .ok path
  | some none => .error (.anyhow ["Failed to read environment variable SSH_AUTH_SOCK"])
  | none =>
    match args.defaultSshAuthSock with
    | some path => .ok path
    | none => .error
        (.anyhow ["SSH_AUTH_SOCK not set and the default_ssh_auth_sock parameter is not set"])

/-- Where the policy of a call comes from. -/
def Args.policySources (args : Args) (context : PamContext) : PolicySources where
  authorizedKeysFile := args.file.bytes
  caKeysFile := args.caKeysFile.map Text.bytes
  authorizedKeysCommand := args.authorizedKeysCommand
  authorizedKeysCommandUser := args.authorizedKeysCommandUser
  callingUser := context.callingUser

/-- `do_authenticate`. -/
def doAuthenticate (fuel : ℕ) (crate : SshKeyCrate) (host : Host) (args : Args)
    (context : PamContext) : Prog ModuleCalls Error Unit := do
  let sources := args.policySources context
  let filter ← (if args.strict then IdentityFilter.newStrict fuel crate host sources
    else IdentityFilter.new fuel crate host sources).lift policyPart
  let special ← Prog.ofExcept (if args.sshdShortcut then
      checkSshdSpecialCase crate (some context.service) filter host.unixEnvironment
    else .ok false)
  if special then .ret ()
  else do
    let path ← Prog.ofExcept (getPath host args)
    (setupCall (.connect path args.agentTimeout)).lift setupPart
    match ← (authenticate crate filter context.callingUser).lift authPart with
    | true => .ret ()
    | false => .fail (.anyhow ["Agent did not know of any of the allowed keys"])

/-- The checks of strict mode in `run`. -/
def checkStrictUsers (host : Host) (args : Args) (context : PamContext) : Except Error Unit := do
  if args.strict then
    let callingUid ← validateStrictUser host context.callingUser
    if args.authorizedKeysCommand.isSome then
      let helperUid ← (match args.authorizedKeysCommandUser with
        | some user => validateStrictUser host user
        | none => .ok callingUid)
      if helperUid = 0 then
        .error (.anyhow ["strict mode requires a non-root helper user"])
      else .ok ()
    else .ok ()
  else .ok ()

/-- `run`. -/
def run (fuel : ℕ) (crate : SshKeyCrate) (host : Host) (handle : PamHandleExt)
    (args : List CStr) : Prog ModuleCalls Error Unit := do
  let context ← Prog.ofExcept (PamContext.new handle)
  (setupCall (.initLogging context.service)).lift setupPart
  let args ← Prog.ofExcept (Args.parse args host.unixEnvironment context.handle)
  Prog.ofExcept (checkStrictUsers host args context)
  doAuthenticate fuel crate host args context

/-- `PamResultCode`, by the codes that the module returns. -/
inductive PamResultCode where
  | success
  | authErr
deriving DecidableEq, Repr

/-- `sm_authenticate`. -/
def smAuthenticate (fuel : ℕ) (crate : SshKeyCrate) (host : Host) (handle : PamHandleExt)
    (args : List CStr) : Prog ModuleCalls Error PamResultCode := do
  match ← (run fuel crate host handle args).attempt with
  | .ok () => .ret .success
  | .error _ => .ret .authErr

end PamSshAgent
