import PamSshAgent.Cmd.Kill

/-!
# The child's side of the helper

Between `fork` and `exec` the child enters its process group and then makes the calls of
`pre_exec`.  If one of them fails the child does not go on, so that a program that is
executed has all the restrictions of its `Command`.
-/

namespace PamSshAgent

open Interaction

/-- A system call of the child. -/
inductive ChildQuery where
  /-- `setpgid`. -/
  | setProcessGroup (group : ℕ)
  /-- `setrlimit` with `RLIMIT_NPROC`. -/
  | setProcessLimit (limit : ℕ)
  /-- `setgroups`. -/
  | setGroups (groups : List Gid)
  /-- `setgid`. -/
  | setGid (gid : Gid)
  /-- `setuid`. -/
  | setUid (uid : Uid)
  /-- `execve`. -/
  | exec (program : Text) (argv : List Text) (env : List (Text × Text))
deriving DecidableEq

/-- The system calls of the child; each may fail. -/
abbrev ChildCalls : Interface := ⟨ChildQuery, fun _ => Except IoError Unit⟩

/-- A call after whose failure the child does not go on. -/
def childCall (query : ChildQuery) : Prog ChildCalls IoError Unit := do
  Prog.ofExcept (← Prog.query (I := ChildCalls) query)

/-- The closure that `run_inner` gives to `pre_exec`. -/
def preExec (command : Command) : Prog ChildCalls IoError Unit := do
  (if command.preventDescendants then childCall (.setProcessLimit 0) else .ret ())
  (if command.clearGroups then childCall (.setGroups []) else .ret ())
  childCall (.setGid command.gid)
  childCall (.setUid command.uid)

/-- The child of `Command::spawn`. -/
def childMain (command : Command) : Prog ChildCalls IoError Unit := do
  childCall (.setProcessGroup command.processGroup)
  preExec command
  childCall (.exec command.program (command.program :: command.args) command.env)

/-- What the child is allowed. -/
structure Credentials where
  uid : Uid
  gid : Gid
  groups : List Gid
  processLimit : Option ℕ
deriving DecidableEq, Repr

/-- The credentials after a call. -/
def Credentials.after (credentials : Credentials) : Event ChildCalls → Credentials
  | ⟨.setProcessLimit limit, .ok ()⟩ => { credentials with processLimit := some limit }
  | ⟨.setGroups groups, .ok ()⟩ => { credentials with groups }
  | ⟨.setGid gid, .ok ()⟩ => { credentials with gid }
  | ⟨.setUid uid, .ok ()⟩ => { credentials with uid }
  | _ => credentials

/-- The child executes the program with the credentials, after it was started with others. -/
def Executes (command : Command) (start : Credentials) (program : Text) (argv : List Text)
    (credentials : Credentials) : Prop :=
  ∃ before after env reply rest,
    (childMain command).Steps (before ++ ⟨.exec program argv env, reply⟩ :: after) rest ∧
      credentials = before.foldl Credentials.after start

/-! ## What a program is executed with -/

variable {command : Command}

lemma returns_childCall {query : ChildQuery} {es : List (Event ChildCalls)} :
    (childCall query).Returns es () ↔ es = [⟨query, .ok ()⟩] := by
  rw [childCall, Prog.query_bind, Prog.returns_ask]
  constructor
  · rintro ⟨reply, es', rfl, hreply⟩
    obtain ⟨rfl, rfl⟩ := Prog.returns_ofExcept.mp hreply
    rfl
  · rintro rfl
    exact ⟨.ok (), [], rfl, Prog.returns_ofExcept.mpr ⟨rfl, rfl⟩⟩

lemma returns_childCall_if {needed : Bool} {query : ChildQuery} {es : List (Event ChildCalls)} :
    (if needed then childCall query else .ret ()).Returns es () ↔
      es = if needed then [⟨query, .ok ()⟩] else [] := by
  cases needed with
  | true => exact returns_childCall
  | false => exact Prog.returns_ret.trans (and_iff_left rfl)

/-- The calls of a closure that did not fail. -/
lemma returns_preExec {es : List (Event ChildCalls)} : (preExec command).Returns es () ↔
    es = (if command.preventDescendants then [⟨.setProcessLimit 0, .ok ()⟩] else []) ++
      ((if command.clearGroups then [⟨.setGroups [], .ok ()⟩] else []) ++
        [⟨.setGid command.gid, .ok ()⟩, ⟨.setUid command.uid, .ok ()⟩]) := by
  constructor
  · intro h
    obtain ⟨es₁, es₂, _, rfl, hlimit, hrest⟩ := Prog.returns_bind.mp h
    obtain ⟨es₃, es₄, _, rfl, hgroups, hrest'⟩ := Prog.returns_bind.mp hrest
    obtain ⟨es₅, es₆, _, rfl, hgid, huid⟩ := Prog.returns_bind.mp hrest'
    rw [returns_childCall_if.mp hlimit, returns_childCall_if.mp hgroups,
      returns_childCall.mp hgid, returns_childCall.mp huid]
    rfl
  · rintro rfl
    refine Prog.returns_bind.mpr ⟨_, _, (), rfl, returns_childCall_if.mpr rfl, ?_⟩
    refine Prog.returns_bind.mpr ⟨_, _, (), rfl, returns_childCall_if.mpr rfl, ?_⟩
    exact Prog.returns_bind.mpr ⟨[_], [_], (), rfl, returns_childCall.mpr rfl,
      returns_childCall.mpr rfl⟩

/-- What is executed, and the credentials that the calls before it leave. -/
def ExecutedAs (command : Command) (before : List (Event ChildCalls)) : ChildQuery → Prop
  | .exec program argv _ => program = command.program ∧ argv = command.program :: command.args ∧
      ∀ start : Credentials, ∃ credentials, credentials = before.foldl Credentials.after start ∧
        credentials.uid = command.uid ∧ credentials.gid = command.gid ∧
        (command.preventDescendants = true → credentials.processLimit = some 0) ∧
        (command.clearGroups = true → credentials.groups = [])
  | _ => True

lemma childCall_executedAs (query : ChildQuery) {before : List (Event ChildCalls)}
    (h : ExecutedAs command before query) :
    (childCall query).AsksAfter (ExecutedAs command) before :=
  ⟨h, fun _ => Prog.asksAfter_ofExcept _ _⟩

/-- A program is executed only after all calls of the closure. -/
lemma childMain_executedAs (command : Command) :
    (childMain command).AsksAfter (ExecutedAs command) [] := by
  rw [childMain]
  refine (childCall_executedAs (.setProcessGroup _) trivial).bind fun _ es₁ hgroup => ?_
  refine Prog.AsksAfter.bind ?_ fun _ es₂ hclosure =>
    childCall_executedAs (.exec _ _ _) ⟨rfl, rfl, ?_⟩
  · rw [preExec]
    refine Prog.AsksAfter.bind ?_ fun _ _ _ => Prog.AsksAfter.bind ?_ fun _ _ _ => ?_
    · split_ifs
      · exact childCall_executedAs (.setProcessLimit 0) trivial
      · trivial
    · split_ifs
      · exact childCall_executedAs (.setGroups []) trivial
      · trivial
    · exact (childCall_executedAs (.setGid _) trivial).bind fun _ _ _ =>
        childCall_executedAs (.setUid _) trivial
  · intro start
    rw [returns_childCall.mp hgroup, returns_preExec.mp hclosure]
    refine ⟨_, rfl, ?_⟩
    cases command.preventDescendants <;> cases command.clearGroups <;>
      simp [Credentials.after]

/-- A program that is executed has all the restrictions of its command. -/
lemma Executes.restricted {start credentials : Credentials} {program : Text} {argv : List Text}
    (h : Executes command start program argv credentials) :
    program = command.program ∧ argv = command.program :: command.args ∧
      credentials.uid = command.uid ∧ credentials.gid = command.gid ∧
      (command.preventDescendants = true → credentials.processLimit = some 0) ∧
      (command.clearGroups = true → credentials.groups = []) := by
  obtain ⟨before, after, env, reply, rest, hsteps, rfl⟩ := h
  have hexec : ExecutedAs command ([] ++ before) (.exec program argv env) :=
    hsteps.asksAfter (childMain_executedAs command) before _ after rfl
  obtain ⟨hprogram, hargv, hcredentials⟩ := hexec
  obtain ⟨credentials, rfl, hrestricted⟩ := hcredentials start
  exact ⟨hprogram, hargv, hrestricted⟩

/-! ## What `run_inner` starts -/

/-- The call does not start a child. -/
def CmdQuery.NoSpawn : CmdQuery → Prop
  | .spawn _ => False
  | _ => True

/-- What `run_inner` starts, after the calls `before`. -/
def SpawnedAs (executable : Text) (args : List Text) (uid : Uid) (gid : Option Gid)
    (prevent : Bool) (before : List (Event CmdCalls)) : CmdQuery → Prop
  | .spawn command => executable.isAbsolutePath = true ∧ ∃ euid start lowGid,
      [⟨.geteuid, euid⟩, ⟨.now, start⟩] <:+ before ∧ gidOrDefault gid = .ok lowGid ∧
        command = helperCommand executable args euid uid lowGid prevent
  | _ => True

/-- After the start of the child no other one is started. -/
lemma runStarted_noSpawn (running : Running) (fuel : ℕ) :
    (runStarted running fuel).Asks CmdQuery.NoSpawn := by
  have hstarted : ∀ phase event phase', childTypestate phase event = some phase' →
      phase ≠ .fresh → phase' ≠ .fresh := by
    intro phase event phase' hstep hphase
    rw [childTypestate.eq_def] at hstep
    split at hstep <;> grind
  refine (runStarted_follows running fuel).asks (fun phase query hphase hreplies => ?_)
    (fun phase event phase' hphase hstep => hstarted phase event phase' hstep hphase)
    (show Phase.running running.child.pid ≠ .fresh by simp)
  cases query with
  | spawn command =>
    obtain ⟨phase', hstep⟩ := hreplies (.ok ⟨0, true, true⟩)
    exact absurd (Option.ite_none_right_eq_some.mp hstep).1 hphase
  | _ => trivial

lemma runInner_spawnedAs (fuel : ℕ) (executable : Text) (args : List Text) (timeout : Duration)
    (uid : Uid) (gid : Option Gid) (prevent : Bool) (before : List (Event CmdCalls)) :
    (runInner fuel (executable :: args) timeout uid gid prevent).AsksAfter
      (SpawnedAs executable args uid gid prevent) before := by
  rw [runInner]
  by_cases habsolute : executable.isAbsolutePath = true
  swap
  · rw [if_pos (by simpa using habsolute)]
    trivial
  rw [if_neg (by simpa using habsolute)]
  cases hgid : gidOrDefault gid with
  | error error => trivial
  | ok lowGid =>
  refine ⟨trivial, fun euid => ⟨trivial, fun start => ⟨⟨habsolute, euid, start, lowGid,
    ⟨before, by simp⟩, hgid, rfl⟩, ?_⟩⟩⟩
  rintro (error | child)
  · trivial
  · have hrest := runStarted_noSpawn
      { executable, timeout, deadline := start + timeout, child, fuel } fuel
    refine hrest.asksAfter ?_ _
    intro before query hquery
    cases query with
    | spawn command => exact hquery.elim
    | _ => trivial

end PamSshAgent
