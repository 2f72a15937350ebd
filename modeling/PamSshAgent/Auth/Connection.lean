import PamSshAgent.Library.Embedding
import PamSshAgent.Library.Interpretation
import PamSshAgent.Rust.Duration
import PamSshAgent.Rust.Error

/-!
# The connection to the agent

`agent_connection::connect` opens a socket that is usable until a deadline: each read, write
and flush on it first looks at the clock and allows the call the time that is left.  The
client of the agent protocol works on that socket.
-/

namespace PamSshAgent

open Interaction

/-- A call on the stream that the client of the agent is given. -/
inductive StreamQuery where
  /-- `Read::read` into a buffer of the given size. -/
  | read (size : ℕ)
  /-- `Write::write`. -/
  | write (buffer : List UInt8)
  /-- `Write::flush`. -/
  | flush
deriving DecidableEq

/-- What a call on the stream returns if it does not fail. -/
@[reducible] def StreamQuery.Result : StreamQuery → Type
  | read _ => List UInt8
  | write _ => ℕ
  | flush => Unit

/-- The calls on the stream. -/
abbrev StreamCalls : Interface := ⟨StreamQuery, fun call => Except IoError call.Result⟩

/-- The two timeouts of a socket. -/
inductive Direction where
  | read
  | write
deriving DecidableEq, Repr

/-- A system call of `agent_connection`. -/
inductive SocketQuery where
  /-- `Instant::now`. -/
  | now
  /-- `Client::connect`, without a deadline. -/
  | connectPlain (path : List UInt8)
  /-- `socket`. -/
  | socket
  /-- `fcntl` with `F_SETFD` and `FD_CLOEXEC`. -/
  | setCloexec
  /-- `fcntl` with `F_GETFL`. -/
  | getFlags
  /-- `fcntl` with `F_SETFL`. -/
  | setFlags (flags : ℕ)
  /-- `connect`. -/
  | connect (path : List UInt8)
  /-- `poll` for the given milliseconds; the reply is the number of ready descriptors. -/
  | poll (milliseconds : ℕ)
  /-- `getsockopt` with `SO_ERROR`; the reply is the error that the number stands for. -/
  | socketError
  /-- `UnixStream::set_read_timeout` and `UnixStream::set_write_timeout`. -/
  | setTimeout (direction : Direction) (duration : Duration)
  /-- A call of `UnixStream`. -/
  | transfer (call : StreamQuery)
deriving DecidableEq

/-- What a system call replies. -/
@[reducible] def SocketQuery.Reply : SocketQuery → Type
  | now => Instant
  | connectPlain _ => Except SACError Unit
  | socket | setCloexec | setFlags _ | connect _ | setTimeout _ _ => Except IoError Unit
  | getFlags | poll _ => Except IoError ℕ
  | socketError => Except IoError (Option IoError)
  | transfer call => Except IoError call.Result

/-- The system calls of `agent_connection`. -/
abbrev SocketCalls : Interface := ⟨SocketQuery, SocketQuery.Reply⟩

/-- `O_NONBLOCK`. -/
def nonblock : ℕ := 0o4000

/-- The length of `sun_path`. -/
def sunPathLength : ℕ := 108

/-- The error of the system is `EINPROGRESS`. -/
def IoError.inProgress : IoError → Bool
  | .other errno _ => errno = 115
  | _ => false

/-- The time that `wait_for_connect` hands to `poll`. -/
def connectMillis (remaining : Duration) : ℕ := max 1 (min remaining.asMillis (2 ^ 31 - 1))

/-- The error of `wait_for_connect` at the deadline. -/
def connectTimedOut : IoError := .timedOut "SSH-agent connection timed out"

/-- `wait_for_connect`; `fuel` bounds the number of polls. -/
def waitForConnect (deadline : Instant) : (fuel : ℕ) → Prog SocketCalls IoError Unit
  | 0 => .spin
  | fuel + 1 => do
    let now ← Prog.query (I := SocketCalls) .now
    let remaining : Duration := deadline - now
    if remaining = 0 then .fail connectTimedOut
    else do
      match ← Prog.query (I := SocketCalls) (.poll (connectMillis remaining)) with
      | .ok 0 => .fail connectTimedOut
      | .error .interrupted => waitForConnect deadline fuel
      | .error error => .fail error
      | .ok _ => do
        match ← Prog.ofExcept (← Prog.query (I := SocketCalls) .socketError) with
        | none => .ret ()
        | some error => .fail error

/-- What `connect_unix` makes of the result of `connect`. -/
def finishConnect (fuel : ℕ) (deadline : Instant) :
    Except IoError Unit → Prog SocketCalls IoError Unit
  | .ok () => .ret ()
  | .error error =>
    if error.inProgress then waitForConnect deadline fuel
    else .fail error

/-- `connect_unix`. -/
def connectUnix (fuel : ℕ) (path : List UInt8) (deadline : Instant) :
    Prog SocketCalls IoError Unit := do
  if path.isEmpty ∨ path.contains 0 ∨ sunPathLength ≤ path.length then
    .fail (.invalidInput "invalid Unix socket path")
  else do
    Prog.ofExcept (← Prog.query (I := SocketCalls) .socket)
    Prog.ofExcept (← Prog.query (I := SocketCalls) .setCloexec)
    let statusFlags ← Prog.ofExcept (← Prog.query (I := SocketCalls) .getFlags)
    Prog.ofExcept (← Prog.query (I := SocketCalls) (.setFlags (statusFlags ||| nonblock)))
    finishConnect fuel deadline (← Prog.query (I := SocketCalls) (.connect path))
    Prog.ofExcept (← Prog.query (I := SocketCalls) (.setFlags statusFlags))

/-- `DeadlineStream`. -/
structure DeadlineStream where
  deadline : Instant

namespace DeadlineStream

/-- The error of an operation at the deadline. -/
def timedOut : IoError := .timedOut "SSH-agent operation timed out"

/-- `DeadlineStream::remaining`. -/
def remaining (self : DeadlineStream) : Prog SocketCalls IoError Duration := do
  let now ← Prog.query (I := SocketCalls) .now
  let remaining : Duration := self.deadline - now
  if remaining = 0 then .fail timedOut else .ret remaining

/-- `DeadlineStream::map_timeout`. -/
def mapTimeout : IoError → IoError
  | .timedOut _ | .wouldBlock => timedOut
  | error => error

/-- A call that may take the time that is left. -/
def limited (self : DeadlineStream) (direction : Direction) (call : StreamQuery) :
    Prog SocketCalls IoError call.Result := do
  let remaining ← self.remaining
  Prog.ofExcept (← Prog.query (I := SocketCalls) (.setTimeout direction remaining))
  Prog.ofExcept ((← Prog.query (I := SocketCalls) (.transfer call)).mapError mapTimeout)

/-- `<DeadlineStream as Read>::read`. -/
def read (self : DeadlineStream) (size : ℕ) : Prog SocketCalls IoError (List UInt8) :=
  self.limited .read (.read size)

/-- `<DeadlineStream as Write>::write`. -/
def write (self : DeadlineStream) (buffer : List UInt8) : Prog SocketCalls IoError ℕ :=
  self.limited .write (.write buffer)

/-- `<DeadlineStream as Write>::flush`. -/
def flush (self : DeadlineStream) : Prog SocketCalls IoError Unit :=
  self.limited .write .flush

/-- The calls of the stream. -/
def call (self : DeadlineStream) : (call : StreamQuery) → Prog SocketCalls IoError call.Result
  | .read size => self.read size
  | .write buffer => self.write buffer
  | .flush => self.flush

end DeadlineStream

/-- `Client`, by the stream it works on. -/
inductive AgentStream where
  /-- A `UnixStream`. -/
  | plain
  | limited (stream : DeadlineStream)

/-- `connect`. -/
def connect (fuel : ℕ) (path : List UInt8) :
    Option Duration → Prog SocketCalls Error AgentStream
  | none => do
    match ← Prog.query (I := SocketCalls) (.connectPlain path) with
    | .ok () => .ret .plain
    | .error error => .fail (.agent error)
  | some timeout => do
    let now ← Prog.query (I := SocketCalls) .now
    let deadline : Instant := now + timeout
    match ← (connectUnix fuel path deadline).attempt with
    | .ok () => .ret (.limited { deadline })
    | .error error => .fail (.io error)

/-- How the calls of a client are answered: those on the stream by the stream, the others by
the system. -/
def AgentStream.answer {K : Interface} (stream : AgentStream) :
    (q : (StreamCalls.sum K).Query) → Prog (SocketCalls.sum K) Error ((StreamCalls.sum K).Reply q)
  | .inl call =>
    match stream with
    | .plain => Prog.query (I := SocketCalls.sum K) (.inl (.transfer call))
    | .limited stream => ((stream.call call).attempt).lift .inl
  | .inr q => Prog.query (I := SocketCalls.sum K) (.inr q)

/-- A client of the agent works on the connection; `K` is what else it calls. -/
def exchange {K : Interface} {α : Type} (fuel : ℕ) (path : List UInt8) (timeout : Option Duration)
    (client : Prog (StreamCalls.sum K) Error α) : Prog (SocketCalls.sum K) Error α := do
  let stream ← (connect fuel path timeout).lift .inl
  client.interpret stream.answer

end PamSshAgent
