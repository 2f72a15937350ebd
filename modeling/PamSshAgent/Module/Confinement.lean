import PamSshAgent.Args.Fields
import PamSshAgent.Cmd.Child
import PamSshAgent.Module.Authenticate
import PamSshAgent.Policy.Roles

/-!
# What strict mode lets the helper do

The checks that confine the helper of a strict call are made in four places: the arguments,
the two users, the path of the helper and the process that runs it.  Together they say what
is executed, by whom and with which restrictions.
-/

namespace PamSshAgent

open Interaction

variable {host : Host} {context : PamContext} {parsed : Args} {args : List CStr}
  {env : Environment} {handle : PamHandleExt}

/-! ## The arguments and the users -/

/-- The name is plain and is that of the account. -/
structure LocalAccount (host : Host) (name : Text) (user : User) : Prop where
  plain : isPlainName name = true
  found : host.getUserByName name = some user
  sameName : user.name = name

lemma parse_strict (h : Args.parse args env handle = .ok parsed) :
    parsed.strict = hasStrict args := by
  obtain ⟨st, -, hfinish⟩ := Except.bind_eq_ok_iff.mp h
  unfold ParseState.finish at hfinish
  split_ifs at hfinish
  obtain rfl := Except.ok.inj hfinish
  rfl

/-- In strict mode the path of the helper is absolute. -/
lemma parse_absolute {configured : Text} (h : Args.parse args env handle = .ok parsed)
    (hstrict : hasStrict args = true) (hcommand : parsed.authorizedKeysCommand = some configured) :
    configured.isAbsolutePath = true := by
  obtain ⟨st, -, hfinish⟩ := Except.bind_eq_ok_iff.mp h
  unfold ParseState.finish at hfinish
  split_ifs at hfinish with hper habsolute
  obtain rfl := Except.ok.inj hfinish
  have hcommand' : st.authorizedKeysCommand = some configured := hcommand
  rw [hcommand'] at habsolute
  simpa [hstrict] using habsolute

lemma localAccount_of_validate {name : Text} {uid : Uid}
    (h : validateStrictUser host name = .ok uid) :
    ∃ user, LocalAccount host name user ∧ user.uid = uid := by
  obtain ⟨hplain, user, hfound, hname, huid⟩ := validateStrictUser_eq_ok h
  exact ⟨user, ⟨hplain, hfound, hname⟩, huid⟩

/-- The users that the check of strict mode lets pass. -/
lemma checkStrictUsers_eq_ok (h : checkStrictUsers host parsed context = .ok ())
    (hstrict : parsed.strict = true) (hcommand : parsed.authorizedKeysCommand.isSome = true) :
    (∃ user, LocalAccount host context.callingUser user) ∧
      ∃ user, LocalAccount host
        (parsed.authorizedKeysCommandUser.getD context.callingUser) user ∧ user.uid ≠ 0 := by
  rw [checkStrictUsers, if_pos hstrict] at h
  obtain ⟨callingUid, hcalling, hrest⟩ := Except.bind_eq_ok_iff.mp h
  obtain ⟨caller, hcaller, huid⟩ := localAccount_of_validate hcalling
  rw [if_pos hcommand] at hrest
  obtain ⟨helperUid, hhelper, hroot⟩ := Except.bind_eq_ok_iff.mp hrest
  have hnonroot : helperUid ≠ 0 := by
    rintro rfl
    exact absurd hroot (by simp)
  refine ⟨⟨caller, hcaller⟩, ?_⟩
  cases huser : parsed.authorizedKeysCommandUser with
  | none =>
    rw [huser] at hhelper
    obtain rfl := Except.ok.inj hhelper
    exact ⟨caller, hcaller, huid ▸ hnonroot⟩
  | some name =>
    rw [huser] at hhelper
    obtain ⟨user, huser, rfl⟩ := localAccount_of_validate hhelper
    exact ⟨user, huser, hnonroot⟩

/-! ## What the policy starts -/

/-- The helper that is started while the policy is loaded, after the calls `before`. -/
structure PolicyHelper (host : Host) (sources : PolicySources) (before : List (Event PolicyCalls))
    (command : Command) : Prop where
  path : ∃ configured calls, sources.authorizedKeysCommand = some configured ∧
    (validateTrustPath configured.bytes 0).Returns calls command.program.bytes ∧
      calls.map fsPart.event <:+: before
  args : command.args = [sources.callingUser]
  uid : host.getUid sources.helperUser = .ok command.uid
  gid : defaultLowPrivilegeGid = .ok command.gid
  limited : command.preventDescendants = true
  groups : ∃ (euid : Uid) (start : Instant), [cmdPart.event ⟨.geteuid, euid⟩,
    cmdPart.event ⟨.now, start⟩] <:+ before ∧ (euid = 0 → command.clearGroups = true)

/-- What the policy starts, after the calls `before`. -/
def PolicySpawn (host : Host) (sources : PolicySources) (before : List (Event PolicyCalls)) :
    PolicyCalls.Query → Prop
  | .inr (.spawn command) => PolicyHelper host sources before command
  | _ => True

variable {sources : PolicySources} {fuel : ℕ} {crate : SshKeyCrate}

lemma fsCalls_policySpawn {ε α : Type} (p : Prog FsCalls ε α) (before : List (Event PolicyCalls)) :
    (p.lift fsPart).AsksAfter (PolicySpawn host sources) before :=
  Prog.asksAfter_lift (fun _ _ => trivial) p before

lemma fromFile_policySpawn (filename : OsStr) (caKeys : Bool) (before : List (Event PolicyCalls)) :
    (fromFile fuel crate filename caKeys .strict).AsksAfter (PolicySpawn host sources) before := by
  refine (fsCalls_policySpawn _ before).bind fun contents _ _ => ?_
  split
  · trivial
  · exact Prog.asksAfter_ofExcept _ _

/-- What `run_inner` starts for the policy. -/
lemma policyHelper_of_spawnedAs {configured command : Text} {uid : Uid}
    {before : List (Event PolicyCalls)} {calls : List (Event FsCalls)}
    (hconfigured : sources.authorizedKeysCommand = some configured)
    (hcalls : (validateTrustPath configured.bytes 0).Returns calls command.bytes)
    (hbefore : calls.map fsPart.event <:+: before)
    (huid : host.getUid sources.helperUser = .ok uid) (es : List (Event CmdCalls)) (query : CmdQuery)
    (h : SpawnedAs command [sources.callingUser] uid none true es query) :
    PolicySpawn host sources (before ++ es.map cmdPart.event) (cmdPart.query query) := by
  cases query with
  | spawn started =>
    obtain ⟨-, euid, start, lowGid, hsuffix, hgid, rfl⟩ := h
    refine ⟨⟨configured, calls, hconfigured, hcalls, List.infix_append_of_infix_left hbefore⟩,
      rfl, huid, hgid, rfl, euid, start, ?_, fun hroot => ?_⟩
    · exact (hsuffix.map cmdPart.event).trans (List.suffix_append _ _)
    · simp [helperCommand, hroot]
  | _ => trivial

/-- The helper is started at its canonical path. -/
lemma helperItems_policySpawn (before : List (Event PolicyCalls)) :
    (sources.helperItems fuel crate host .strict).AsksAfter (PolicySpawn host sources) before := by
  rw [PolicySources.helperItems]
  split
  swap
  · trivial
  rename_i configured hconfigured
  refine (Prog.asksAfter_ofExcept _ before).bind fun uid es huid => ?_
  obtain ⟨rfl, hgetUid⟩ := Prog.returns_ofExcept.mp huid
  rw [fromCommand]
  refine Prog.AsksAfter.bind ?_ fun command es₁ hpath => ?_
  · refine (fsCalls_policySpawn _ _).bind fun canonical _ _ => ?_
    split <;> trivial
  refine Prog.AsksAfter.bind ?_ fun _ _ _ => Prog.asksAfter_ofExcept _ _
  obtain ⟨calls, rfl, hcalls⟩ := returns_helperPath hpath
  have hspawned := runInner_spawnedAs fuel command [sources.callingUser] maxDuration uid none true []
  have hbefore : calls.map fsPart.event <:+: before ++ [] ++ calls.map fsPart.event :=
    List.infix_append_right
  have hlift := (hspawned.mono (policyHelper_of_spawnedAs hconfigured hcalls hbefore hgetUid)).lift
  rwa [List.map_nil, List.append_nil] at hlift

lemma newStrict_policySpawn (fuel : ℕ) (crate : SshKeyCrate) (before : List (Event PolicyCalls)) :
    (IdentityFilter.newStrict fuel crate host sources).AsksAfter (PolicySpawn host sources)
      before := by
  rw [IdentityFilter.newStrict, IdentityFilter.newWithMode]
  refine Prog.AsksAfter.bind ?_ fun _ _ _ => Prog.AsksAfter.bind ?_ fun _ _ _ =>
    (helperItems_policySpawn _).bind fun _ _ _ => trivial
  · refine (fromFile_policySpawn _ _ before).attempt.bind fun items _ _ => ?_
    rcases items with error | keys
    · dsimp only
      split_ifs <;> trivial
    · trivial
  · rw [PolicySources.caItems]
    split
    · exact fromFile_policySpawn _ _ _
    · trivial

/-! ## What the module starts -/

/-- The calls to the file system among those of the module. -/
def trustPart : Embedding FsCalls ModuleCalls := Embedding.comp policyPart fsPart

/-- The calls of `run_inner` among those of the module. -/
def helperPart : Embedding CmdCalls ModuleCalls := Embedding.comp policyPart cmdPart

/-- What a strict call has checked before it starts the program as its helper. -/
structure HelperChecked (host : Host) (handle : PamHandleExt) (args : List CStr)
    (context : PamContext) (parsed : Args) (configured : Text) (account : User)
    (before : List (Event ModuleCalls)) (program : Text) : Prop where
  items : PamContext.new handle = .ok context
  parses : Args.parse args host.unixEnvironment context.handle = .ok parsed
  helper : parsed.authorizedKeysCommand = some configured
  absolute : configured.isAbsolutePath = true
  /-- The program is the path that `validate_trust_path` returned for the helper. -/
  canonical : ∃ calls, (validateTrustPath configured.bytes 0).Returns calls program.bytes ∧
    calls.map trustPart.event <:+: before
  caller : ∃ user, LocalAccount host context.callingUser user
  runsAs : LocalAccount host (parsed.authorizedKeysCommandUser.getD context.callingUser) account
  nonRoot : account.uid ≠ 0

/-- The helper that a strict call starts, after the calls `before`. -/
structure StrictHelper (host : Host) (handle : PamHandleExt) (args : List CStr)
    (context : PamContext) (parsed : Args) (configured : Text) (account : User)
    (before : List (Event ModuleCalls)) (command : Command) : Prop extends
    HelperChecked host handle args context parsed configured account before command.program where
  arguments : command.args = [context.callingUser]
  uid : command.uid = account.uid
  gid : defaultLowPrivilegeGid = .ok command.gid
  limited : command.preventDescendants = true
  groups : ∃ (euid : Uid) (start : Instant), [helperPart.event ⟨.geteuid, euid⟩,
    helperPart.event ⟨.now, start⟩] <:+ before ∧ (euid = 0 → command.clearGroups = true)

/-- What a strict call starts, after the calls `before`. -/
def StrictSpawn (host : Host) (handle : PamHandleExt) (args : List CStr)
    (before : List (Event ModuleCalls)) : ModuleCalls.Query → Prop
  | .inr (.inl (.inr (.spawn command))) => ∃ context parsed configured account,
      StrictHelper host handle args context parsed configured account before command
  | _ => True

/-- What the policy starts fits the checks made before it is loaded. -/
lemma strictSpawn_of_policySpawn (before : List (Event ModuleCalls))
    (hcontext : PamContext.new handle = .ok context)
    (hparsed : Args.parse args host.unixEnvironment context.handle = .ok parsed)
    (hstrict : hasStrict args = true) (husers : checkStrictUsers host parsed context = .ok ())
    (es : List (Event PolicyCalls)) (query : PolicyCalls.Query)
    (h : PolicySpawn host (parsed.policySources context) es query) :
    StrictSpawn host handle args (before ++ es.map policyPart.event) (policyPart.query query) := by
  have hmode : parsed.strict = true := (parse_strict hparsed).trans hstrict
  rcases query with query | query
  · trivial
  cases query with
  | spawn command =>
    obtain ⟨⟨configured, calls, hconfigured, hcalls, hinfix⟩, hargs, huid, hgid, hlimited, euid,
      start, hsuffix, hgroups⟩ := h
    have hcommand : parsed.authorizedKeysCommand = some configured := hconfigured
    obtain ⟨hcaller, account, haccount, hnonroot⟩ :=
      checkStrictUsers_eq_ok husers hmode (by rw [hcommand]; rfl)
    have haccountUid : command.uid = account.uid := by
      have hfound : host.getUserByName (parsed.policySources context).helperUser = some account :=
        haccount.found
      rw [Host.getUid, hfound] at huid
      exact (Except.ok.inj huid).symm
    refine ⟨context, parsed, configured, account, ⟨hcontext, hparsed, hcommand,
      parse_absolute hparsed hstrict hcommand, ⟨calls, hcalls, ?_⟩, hcaller, haccount, hnonroot⟩,
      hargs, haccountUid, hgid, hlimited, euid, start, ?_, hgroups⟩
    · have hmap := hinfix.map policyPart.event
      rw [List.map_map] at hmap
      exact List.infix_append_of_infix_right hmap
    · exact (hsuffix.map policyPart.event).trans (List.suffix_append _ _)
  | _ => trivial

/-- A strict call starts only such helpers. -/
lemma run_strictSpawn (hstrict : hasStrict args = true) :
    (run fuel crate host handle args).AsksAfter (StrictSpawn host handle args) [] := by
  rw [run]
  refine (Prog.asksAfter_ofExcept _ _).bind fun context es₁ hcontext => ?_
  refine (Prog.asksAfter_lift (fun _ _ => trivial) _ _).bind fun _ es₂ _ => ?_
  refine (Prog.asksAfter_ofExcept _ _).bind fun parsed es₃ hparsed => ?_
  refine (Prog.asksAfter_ofExcept _ _).bind fun _ es₄ husers => ?_
  have hparse := (Prog.returns_ofExcept.mp hparsed).2
  have hmode : parsed.strict = true := (parse_strict hparse).trans hstrict
  rw [doAuthenticate, if_pos hmode]
  refine Prog.AsksAfter.bind ?_ fun policy _ _ => ?_
  · have hlift := ((newStrict_policySpawn fuel crate []).mono (strictSpawn_of_policySpawn
      ([] ++ es₁ ++ es₂ ++ es₃ ++ es₄) (Prog.returns_ofExcept.mp hcontext).2 hparse
      hstrict (Prog.returns_ofExcept.mp husers).2)).lift
    rwa [List.map_nil, List.append_nil] at hlift
  · refine (Prog.asksAfter_ofExcept _ _).bind fun special _ _ => ?_
    split_ifs
    · trivial
    refine (Prog.asksAfter_ofExcept _ _).bind fun path _ _ => ?_
    refine (Prog.asksAfter_lift (fun _ _ => trivial) _ _).bind fun _ _ _ => ?_
    refine (Prog.asksAfter_lift (fun _ _ => trivial) _ _).bind fun known _ _ => ?_
    cases known <;> trivial

/-- What is executed for a strict call, and with which credentials. -/
structure Confined (host : Host) (handle : PamHandleExt) (args : List CStr) (context : PamContext)
    (parsed : Args) (configured : Text) (account : User) (before : List (Event ModuleCalls))
    (program : Text) (argv : List Text) (credentials : Credentials) : Prop extends
    HelperChecked host handle args context parsed configured account before program where
  arguments : argv = [program, context.callingUser]
  uid : credentials.uid = account.uid
  gid : defaultLowPrivilegeGid = .ok credentials.gid
  processLimit : credentials.processLimit = some 0
  /-- The supplementary groups are empty if the process runs as root. -/
  groups : ∃ (euid : Uid) (start : Instant), [helperPart.event ⟨.geteuid, euid⟩,
    helperPart.event ⟨.now, start⟩] <:+ before ∧ (euid = 0 → credentials.groups = [])

/-- **The helper of a strict call is confined.**  Whatever a strict call starts and a child
executes, the program is the canonical path of the configured absolute path, checked for
root; it runs as the plain local account of the helper, which is not root, in the group of low
privilege, without further processes and, if the module runs as root, without further groups;
and its only argument is the plain local user that logs in. -/
theorem strict_helper_confined (fuel : ℕ) (crate : SshKeyCrate) (host : Host)
    (handle : PamHandleExt) (args : List CStr) (hstrict : Text.bytes "strict" ∈ args)
    (es : List (Event ModuleCalls)) (rest : Prog ModuleCalls Error Unit)
    (hrun : (run fuel crate host handle args).Steps es rest) (before after : List (Event ModuleCalls))
    (command : Command) (reply : Except IoError Child)
    (hspawn : es = before ++ helperPart.event ⟨.spawn command, reply⟩ :: after)
    (start credentials : Credentials) (program : Text) (argv : List Text)
    (hexec : Executes command start program argv credentials) :
    ∃ context parsed configured account, Confined host handle args context parsed configured
      account before program argv credentials := by
  have hflag : hasStrict args = true := List.any_eq_true.mpr ⟨_, hstrict, by simp⟩
  obtain ⟨context, parsed, configured, account, hhelper⟩ :=
    hrun.asksAfter (run_strictSpawn hflag) before _ after hspawn
  rw [List.nil_append] at hhelper
  obtain ⟨rfl, rfl, huid, hgid, hlimit, hgroups⟩ := hexec.restricted
  obtain ⟨euid, now, hsuffix, hroot⟩ := hhelper.groups
  refine ⟨context, parsed, configured, account, hhelper.toHelperChecked, ?_, ?_, ?_,
    hlimit hhelper.limited, euid, now, hsuffix, fun hzero => hgroups (hroot hzero)⟩
  · rw [hhelper.arguments]
  · exact huid.trans hhelper.uid
  · rw [hgid]
    exact hhelper.gid

/-! ## A helper of root -/

/-- A host with the account of `bob`. -/
def bobHost : Host where
  getUserByName name := if name = "bob" then some ⟨"bob", 1000, "/home/bob"⟩ else none
  hostname := .error "no host name"
  var _ := none

/-- A file system in which every name is that of an empty file of root. -/
def emptyFilesFs : Fs where
  node id := if id.ino = 0 then ⟨0, 0o755, .dir fun _ => some ⟨0, 1⟩⟩ else ⟨0, 0o644, .file []⟩
  root := ⟨0, 0⟩
  cwd := []

/-- The replies to a process of root that can start no helper and has no agent. -/
def rootReplies : Prog.Responder ModuleCalls Unit
  | .inl _, s => (.ok (), s)
  | .inr (.inl (.inl query)), s => (emptyFilesFs.answer query, s)
  | .inr (.inl (.inr query)), s =>
    match query with
    | .geteuid => ((0 : Uid), s)
    | .now => ((0 : Instant), s)
    | .spawn _ | .getFlags _ | .setNonblocking _ _ | .read _ _ | .tryWait _ | .poll _ _ =>
      (.error .notFound, s)
    | .killGroup _ | .kill _ | .wait _ => ((), s)
  | .inr (.inr query), s =>
    match query with
    | .now => ((0 : SystemTime), s)
    | .listIdentities | .sign _ _ => (.error .remoteFailure, s)
    | .fill => (none, s)

/-- Strict arguments with a helper. -/
def helperArgs : List CStr := cstrs ["strict", "file=/%u", "authorized_keys_command=/keys"]

/-- A strict call for `bob` with these replies. -/
def helperRun : Prog ModuleCalls Error Unit × List (Event ModuleCalls) × Unit :=
  (run 3 keyLineCrate bobHost ⟨.ok "bob", .ok "sudo"⟩ helperArgs).run rootReplies ()

/-- The command that a call starts. -/
def startedCommand : Event ModuleCalls → Option Command
  | ⟨.inr (.inl (.inr (.spawn command))), _⟩ => some command
  | _ => none

/-- The helper of that call. -/
def keysCommand : Command := helperCommand "/keys" ["bob"] 0 1000 65534 true

/-- The first command that a call starts is started by one of its calls. -/
lemma exists_start {es : List (Event ModuleCalls)} {command : Command}
    (h : es.findSome? startedCommand = some command) : ∃ before reply after,
      es = before ++ helperPart.event ⟨.spawn command, reply⟩ :: after := by
  obtain ⟨before, e, after, hsplit, hstarted, -⟩ := List.findSome?_eq_some_iff.mp h
  obtain ⟨query, reply⟩ := e
  rcases query with query | (query | query) | query
  · exact absurd hstarted (by simp [startedCommand])
  · exact absurd hstarted (by simp [startedCommand])
  · cases query with
    | spawn started =>
      obtain rfl := Option.some.inj hstarted
      exact ⟨before, reply, after, hsplit⟩
    | _ => exact absurd hstarted (by simp [startedCommand])
  · exact absurd hstarted (by simp [startedCommand])

lemma helperRun_starts : ∃ before reply after,
    helperRun.2.1 = before ++ helperPart.event ⟨.spawn keysCommand, reply⟩ :: after := by
  have hfirst : helperRun.2.1.findSome? startedCommand = some keysCommand := by
    decide +kernel
  exact exists_start hfirst

lemma helperRun_steps : (run 3 keyLineCrate bobHost ⟨.ok "bob", .ok "sudo"⟩ helperArgs).Steps
    helperRun.2.1 helperRun.1 := by
  rw [helperRun]
  exact Prog.steps_run _ _ _

/-- The child, started by root, executes the helper. -/
lemma keysCommand_executes : Executes keysCommand ⟨0, 0, [0], none⟩ "/keys" ["/keys", "bob"]
    ⟨1000, 65534, [], some 0⟩ := by
  refine ⟨[⟨.setProcessGroup 0, .ok ()⟩, ⟨.setProcessLimit 0, .ok ()⟩, ⟨.setGroups [], .ok ()⟩,
    ⟨.setGid 65534, .ok ()⟩, ⟨.setUid 1000, .ok ()⟩], [], keysCommand.env, .ok (), .ret (), ?_, rfl⟩
  exact .ask (.ask (.ask (.ask (.ask (.ask (.refl _))))))

/-- The helper of that call is confined. -/
theorem strict_helper_confined_root : ∃ before context parsed configured account,
    Confined bobHost ⟨.ok "bob", .ok "sudo"⟩ helperArgs context parsed configured account before
      "/keys" ["/keys", "bob"] ⟨1000, 65534, [], some 0⟩ := by
  obtain ⟨before, reply, after, hspawn⟩ := helperRun_starts
  exact ⟨before, strict_helper_confined 3 keyLineCrate bobHost ⟨.ok "bob", .ok "sudo"⟩ helperArgs
    (by decide) helperRun.2.1 helperRun.1 helperRun_steps before after keysCommand
    reply hspawn ⟨0, 0, [0], none⟩ ⟨1000, 65534, [], some 0⟩ "/keys" ["/keys", "bob"]
    keysCommand_executes⟩

end PamSshAgent
