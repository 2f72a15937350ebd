import PamSshAgent.Rust.Error

/-!
# The environment of the module

`Environment` and `PamHandleExt` are the two traits through which the module reads the
machine it runs on and the PAM transaction it serves.  A value of either is a set of
answers; within one call of the module equal questions get equal answers.
-/

namespace PamSshAgent

/-- The answers of the trait `Environment`. -/
structure Environment where
  getHomedir : Text → Except Error Text
  getHostname : Except Error Text
  getFqdn : Except Error Text
  getUid : Text → Except Error Uid
  getEnv : Text → Option Text

/-- The answers of the trait `PamHandleExt`. -/
structure PamHandleExt where
  getCallingUser : Except Error Text
  getService : Except Error Text

/-- `PamContext`: the two PAM items, read once at the start of a call. -/
structure PamContext where
  callingUser : Text
  service : Text

/-- `PamContext::new`. -/
def PamContext.new (handle : PamHandleExt) : Except Error PamContext := do
  let callingUser ← handle.getCallingUser
  let service ← handle.getService
  return { callingUser, service }

/-- The implementation of `PamHandleExt` by `PamContext`. -/
def PamContext.handle (context : PamContext) : PamHandleExt where
  getCallingUser := .ok context.callingUser
  getService := .ok context.service

/-- An account as `uzers` reports it; the name and the home directory are the lossy
texts that the module takes from it. -/
structure User where
  name : Text
  uid : Uid
  homeDir : Text

/-- What the operating system tells the process: the accounts, the host name (an error
message when it cannot be obtained) and the environment variables, where `some none`
stands for a value that is not UTF-8. -/
structure Host where
  getUserByName : Text → Option User
  hostname : Except Text Text
  var : Text → Option (Option Text)

/-- `get_uid`. -/
def Host.getUid (host : Host) (user : Text) : Except Error Uid :=
  match host.getUserByName user with
  | some user => .ok user.uid
  | none => .error (.anyhow ["Failed to look up user with username ", user])

/-- The free function `get_hostname`. -/
def Host.getHostname (host : Host) : Except Error Text :=
  match host.hostname with
  | .ok name => .ok name
  | .error e => .error (.anyhow ["Failed to obtain hostname: ", e])

/-- The implementation of `Environment` by `UnixEnvironment`. -/
def Host.unixEnvironment (host : Host) : Environment where
  getHomedir user :=
    match host.getUserByName user with
    | some user => .ok user.homeDir
    | none => .error (.anyhow ["homedir for ", user, " not found"])
  getHostname := do
    let hostname ← host.getHostname
    return hostname.takeWhile (· ≠ '.')
  getFqdn := host.getHostname
  getUid := host.getUid
  getEnv name := (host.var name).join

/-- Two environments that agree on everything except what `get_homedir` answers. -/
structure AgreeExceptHomedir (env env' : Environment) : Prop where
  hostname : env.getHostname = env'.getHostname
  fqdn : env.getFqdn = env'.getFqdn
  uid : env.getUid = env'.getUid
  var : env.getEnv = env'.getEnv

end PamSshAgent
