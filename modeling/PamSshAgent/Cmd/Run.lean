import PamSshAgent.Library.Interaction
import PamSshAgent.Rust.Duration
import PamSshAgent.Rust.Error

/-!
# Running the helper

`run_inner` starts a command in a process group of its own, reads what it writes on two
pipes until both are at their end and the exit status is collected, and kills the group on
any error or when the deadline has passed.
-/

namespace PamSshAgent

open Interaction

/-- `MAX_OUTPUT_BYTES`. -/
def maxOutputBytes : ℕ := 1024 * 1024

/-- The size of the buffer in `drain_output`. -/
def chunkSize : ℕ := 8192

/-- `ChildStdout` and `ChildStderr`, the pipes from the child. -/
inductive Stream where
  | stdout
  | stderr
deriving DecidableEq, Repr

/-- A process id. -/
abbrev Pid := ℕ

/-- `gid_t`. -/
abbrev Gid := ℕ

/-- `Command`, with what its `pre_exec` sets up in the child. -/
structure Command where
  program : Text
  args : List Text
  env : List (Text × Text)
  processGroup : ℕ
  preventDescendants : Bool
  clearGroups : Bool
  gid : Gid
  uid : Uid
deriving DecidableEq, Repr

/-- `Child`: its id, and which pipes it has. -/
structure Child where
  pid : Pid
  stdout : Bool
  stderr : Bool
deriving DecidableEq, Repr

/-- `ExitStatus`; a process ended by a signal has no code. -/
structure ExitStatus where
  code : Option ℤ
deriving DecidableEq, Repr

/-- `ExitStatus::success`. -/
def ExitStatus.success (status : ExitStatus) : Bool := status.code = some 0

/-- A system call of `run_inner`. -/
inductive CmdQuery where
  /-- `geteuid`. -/
  | geteuid
  /-- `Instant::now`. -/
  | now
  /-- `Command::spawn`. -/
  | spawn (command : Command)
  /-- `fcntl` with `F_GETFL`. -/
  | getFlags (stream : Stream)
  /-- `fcntl` with `F_SETFL` and `O_NONBLOCK`. -/
  | setNonblocking (stream : Stream) (flags : ℕ)
  /-- `Read::read` into a buffer of the given size. -/
  | read (stream : Stream) (size : ℕ)
  /-- `waitpid` with `WNOHANG`. -/
  | tryWait (pid : Pid)
  /-- `poll` on the pipes that are open, for at most the given milliseconds. -/
  | poll (streams : List (Option Stream)) (milliseconds : ℕ)
  /-- `kill` of the process group with `SIGKILL`. -/
  | killGroup (pid : Pid)
  /-- `kill` of the process with `SIGKILL`. -/
  | kill (pid : Pid)
  /-- `waitpid`. -/
  | wait (pid : Pid)
deriving DecidableEq

/-- What a system call replies. -/
@[reducible] def CmdQuery.Reply : CmdQuery → Type
  | geteuid => Uid
  | now => Instant
  | spawn _ => Except IoError Child
  | getFlags _ => Except IoError ℕ
  | setNonblocking _ _ => Except IoError Unit
  | read _ _ => Except IoError (List UInt8)
  | tryWait _ => Except IoError (Option ExitStatus)
  | poll _ _ => Except IoError Unit
  | killGroup _ | kill _ | wait _ => Unit

/-- The system calls of `run_inner`. -/
abbrev CmdCalls : Interface := ⟨CmdQuery, CmdQuery.Reply⟩

/-- `default_low_privilege_gid`, on systems other than macOS. -/
def defaultLowPrivilegeGid : Except Error Gid := .ok 65534

/-- The group that the child runs in. -/
def gidOrDefault : Option Gid → Except Error Gid
  | some gid => .ok gid
  | none => defaultLowPrivilegeGid

/-- `set_nonblocking`. -/
def setNonblocking (stream : Stream) : Prog CmdCalls IoError Unit := do
  let flags ← Prog.ofExcept (← Prog.query (I := CmdCalls) (.getFlags stream))
  Prog.ofExcept (← Prog.query (I := CmdCalls) (.setNonblocking stream flags))

/-- `terminate_and_reap`.  A `Child` whose status has been collected keeps it, and then
`Child::kill` and `Child::wait` make no system call. -/
def terminateAndReap (child : Child) (status : Option ExitStatus) : Prog CmdCalls Error Unit := do
  if child.pid < 2 ^ 31 then
    Prog.query (I := CmdCalls) (.killGroup child.pid)
  if status.isNone then do
    Prog.query (I := CmdCalls) (.kill child.pid)
    Prog.query (I := CmdCalls) (.wait child.pid)

/-- `drain_output`: what has been read, and whether the end was reached; `fuel` bounds the
number of reads. -/
def drainOutput (stream : Stream) : (fuel : ℕ) → List UInt8 → Bool →
    Prog CmdCalls IoError (List UInt8 × Bool)
  | 0, _, _ => .spin
  | fuel + 1, output, eof => do
    match ← Prog.query (I := CmdCalls) (.read stream chunkSize) with
    | .ok [] => .ret (output, true)
    | .ok (chunk : List UInt8) =>
      if maxOutputBytes < output.length + chunk.length then
        .fail (.invalidData "output limit exceeded")
      else drainOutput stream fuel (output ++ chunk) eof
    | .error .wouldBlock => .ret (output, eof)
    | .error .interrupted => drainOutput stream fuel output eof
    | .error error => .fail error

/-- The time that `wait_for_output` hands to `poll`. -/
def pollMillis (noOpenStreams : Bool) (remaining : Duration) : ℕ :=
  if noOpenStreams then max 1 (min remaining.asMillis 10)
  else max 1 (min remaining.asMillis (2 ^ 31 - 1))

/-- `wait_for_output`; `fuel` bounds the number of polls. -/
def waitForOutput (stdoutEof stderrEof : Bool) (deadline : Instant) :
    (fuel : ℕ) → Prog CmdCalls IoError Unit
  | 0 => .spin
  | fuel + 1 => do
    let now ← Prog.query (I := CmdCalls) .now
    let remaining : Duration := deadline - now
    if remaining = 0 then .ret ()
    else do
      let descriptors := [if stdoutEof then none else some Stream.stdout,
        if stderrEof then none else some Stream.stderr]
      let noOpenStreams := descriptors.all Option.isNone
      match ← Prog.query (I := CmdCalls) (.poll descriptors (pollMillis noOpenStreams remaining)) with
      | .ok () => .ret ()
      | .error .interrupted => waitForOutput stdoutEof stderrEof deadline fuel
      | .error error => .fail error

/-- The variables of the loop in `run_inner`. -/
structure Collected where
  stdoutBytes : List UInt8
  stderrBytes : List UInt8
  stdoutEof : Bool
  stderrEof : Bool
  status : Option ExitStatus
deriving DecidableEq, Repr

/-- What the loop of `run_inner` works with: the command, the child, the deadline, and the
bound on the rounds of the inner loops. -/
structure Running where
  executable : Text
  timeout : Duration
  deadline : Instant
  child : Child
  fuel : ℕ

/-- Kill the child and report an error. -/
def terminateWith {α : Type} (child : Child) (status : Option ExitStatus) (error : Error) :
    Prog CmdCalls Error α := do
  terminateAndReap child status
  .fail error

/-- The part of a round in which the exit status may be collected. -/
def collectStatus (child : Child) (status : Option ExitStatus) :
    Prog CmdCalls Error (Option ExitStatus) := do
  if status.isNone then do
    match ← Prog.query (I := CmdCalls) (.tryWait child.pid) with
    | .ok result => .ret result
    | .error error => terminateWith child status (.io error)
  else .ret status

/-- The part of a round that waits for more, unless the deadline has passed. -/
def awaitProgress (running : Running) (collected : Collected) : Prog CmdCalls Error Unit := do
  let child := running.child
  let now ← Prog.query (I := CmdCalls) .now
  if running.deadline ≤ now then
    terminateWith child collected.status (.anyhow ["Timed out waiting for command '",
      running.executable, "' after ", running.timeout.debug])
  else do
    match ← (waitForOutput collected.stdoutEof collected.stderrEof running.deadline
        running.fuel).attempt with
    | .error error => terminateWith child collected.status (.io error)
    | .ok () => .ret ()

/-- The part of a round that reads from both pipes. -/
def drainBoth (running : Running) (collected : Collected) : Prog CmdCalls Error Collected := do
  let child := running.child
  match ← (drainOutput .stdout running.fuel collected.stdoutBytes
      collected.stdoutEof).attempt with
  | .error error =>
    terminateWith child collected.status (.anyhow ["failed reading stdout: ", error.display])
  | .ok (stdoutBytes, stdoutEof) => do
    match ← (drainOutput .stderr running.fuel collected.stderrBytes
        collected.stderrEof).attempt with
    | .error error =>
      terminateWith child collected.status (.anyhow ["failed reading stderr: ", error.display])
    | .ok (stderrBytes, stderrEof) =>
      .ret { collected with stdoutBytes, stdoutEof, stderrBytes, stderrEof }

/-- The loop of `run_inner`; `fuel` bounds the number of rounds. -/
def collectOutput (running : Running) : (fuel : ℕ) → Collected → Prog CmdCalls Error Collected
  | 0, _ => .spin
  | fuel + 1, collected => do
    let collected ← drainBoth running collected
    if collected.status.isSome && collected.stdoutEof && collected.stderrEof then .ret collected
    else do
      let status ← collectStatus running.child collected.status
      let collected := { collected with status }
      awaitProgress running collected
      collectOutput running fuel collected

/-- What `run_inner` makes of the collected output. -/
def checkOutput (executable : Text) (collected : Collected) : Except Error Text := do
  match collected.status with
  | none => .error (.anyhow ["command status was not collected"])
  | some status =>
    if !status.success then
      let code := match status.code with
        | none => ("caught signal" : Text)
        | some code => (toString code : Text)
      .error (.anyhow ["Non-zero exit status from '", executable, "': ", code])
    else if (Text.fromUtf8 collected.stderrBytes).isNone then .error .utf8
    else
      match Text.fromUtf8 collected.stdoutBytes with
      | none => .error .utf8
      | some text => .ok text.trimEnd

/-- The pipes of the child are there and made non-blocking. -/
def takeStreams (executable : Text) (child : Child) : Prog CmdCalls Error Unit := do
  if !child.stdout then .fail (.anyhow ["failed to get stdout from ", executable])
  else if !child.stderr then .fail (.anyhow ["failed to get stderr from ", executable])
  else do
    Prog.ofExcept ((← (setNonblocking .stdout).attempt).mapError Error.io)
    Prog.ofExcept ((← (setNonblocking .stderr).attempt).mapError Error.io)

/-- The `Command` that `run_inner` builds. -/
def helperCommand (executable : Text) (args : List Text) (euid effectiveUid : Uid) (gid : Gid)
    (preventDescendants : Bool) : Command where
  program := executable
  args := args
  env := [("LANG", "C"), ("LC_ALL", "C"), ("PATH", "/usr/bin:/bin")]
  processGroup := 0
  preventDescendants := preventDescendants
  clearGroups := decide (euid = 0)
  gid := gid
  uid := effectiveUid

/-- `run_inner`. -/
def runInner (fuel : ℕ) (command : List Text) (timeout : Duration) (effectiveUid : Uid)
    (effectiveGid : Option Gid) (preventDescendants : Bool) : Prog CmdCalls Error Text := do
  match command with
  | [] => .fail (.anyhow ["command must not be empty"])
  | executable :: args =>
    if !executable.isAbsolutePath then
      .fail (.anyhow ["command executable must be an absolute path: ", executable])
    else do
      let gid ← Prog.ofExcept (gidOrDefault effectiveGid)
      let euid ← Prog.query (I := CmdCalls) .geteuid
      let cmd := helperCommand executable args euid effectiveUid gid preventDescendants
      let start ← Prog.query (I := CmdCalls) .now
      let deadline : Instant := start + timeout
      match ← Prog.query (I := CmdCalls) (.spawn cmd) with
      | .error error => .fail (.io error)
      | .ok (child : Child) =>
        match ← (takeStreams executable child).attempt with
        | .error error => terminateWith child none error
        | .ok () => do
          let collected ← collectOutput { executable, timeout, deadline, child, fuel } fuel
            { stdoutBytes := [], stderrBytes := [], stdoutEof := false, stderrEof := false,
              status := none }
          Prog.ofExcept (checkOutput executable collected)

/-- `cmd::run`. -/
def Cmd.run (fuel : ℕ) (command : List Text) (timeout : Duration) (effectiveUid : Uid)
    (effectiveGid : Option Gid) : Prog CmdCalls Error Text :=
  runInner fuel command timeout effectiveUid effectiveGid false

/-- `cmd::run_without_descendants`. -/
def Cmd.runWithoutDescendants (fuel : ℕ) (command : List Text) (timeout : Duration)
    (effectiveUid : Uid) (effectiveGid : Option Gid) : Prog CmdCalls Error Text :=
  runInner fuel command timeout effectiveUid effectiveGid true

end PamSshAgent
