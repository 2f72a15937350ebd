import PamSshAgent.Auth.Connection
import PamSshAgent.Library.Typestate

/-!
# The socket of a connection

`connect_unix` makes a socket non-blocking for the time of `connect`, waits until the system
has decided about the connection, asks for its error and puts the flags back.  This file puts
the function beside a socket of the system, which settles a pending connection at any moment,
and shows what can be said of the socket that is returned.
-/

namespace PamSshAgent

open Interaction

/-! ## A socket of the system -/

/-- `sun_path` of the address: all zeros first, then the path is copied over. -/
def sunPath (path : List UInt8) : List UInt8 :=
  path ++ List.replicate (sunPathLength - path.length) 0

/-- `address_len`, with `sun_path` at offset 2. -/
def addressLen (path : List UInt8) : ℕ := 2 + path.length + 1

/-- The path that the system takes out of an address: the bytes in front of the first zero, as
far as the length says.  An address that starts with a zero names no file. -/
def filePath (address : List UInt8) (length : ℕ) : Option (List UInt8) :=
  let bytes := (address.take (length - 2)).takeWhile (· ≠ 0)
  if bytes.isEmpty then none else some bytes

/-- How far a connection is. -/
inductive ConnectionState where
  | unconnected
  /-- `connect` has returned, but the other side has not answered. -/
  | pending (path : Option (List UInt8))
  | connected (path : Option (List UInt8))
  /-- The other side has refused; the error has not been asked for. -/
  | refused (error : IoError)

/-- A socket. -/
structure Socket where
  cloexec : Bool
  flags : ℕ
  connection : ConnectionState

/-- The system answers a call.  A socket is created with the flags `initial`; `connect` leaves a
connection pending only on a non-blocking socket; a socket is ready when no connection is
pending; and the error of a socket is reported once. -/
inductive Socket.Replies (initial : ℕ) : Socket → Event SocketCalls → Socket → Prop
  | now (s : Socket) (instant : Instant) : Replies initial s ⟨.now, instant⟩ s
  | connectPlain (s : Socket) (path : List UInt8) (reply : Except SACError Unit) :
      Replies initial s ⟨.connectPlain path, reply⟩ s
  | socket (s : Socket) : Replies initial s ⟨.socket, .ok ()⟩ ⟨false, initial, .unconnected⟩
  | socketFails (s : Socket) (error : IoError) : Replies initial s ⟨.socket, .error error⟩ s
  | setCloexec (s : Socket) : Replies initial s ⟨.setCloexec, .ok ()⟩ { s with cloexec := true }
  | setCloexecFails (s : Socket) (error : IoError) :
      Replies initial s ⟨.setCloexec, .error error⟩ s
  | getFlags (s : Socket) (flags : ℕ) (h : s.flags = flags) :
      Replies initial s ⟨.getFlags, .ok flags⟩ s
  | getFlagsFails (s : Socket) (error : IoError) : Replies initial s ⟨.getFlags, .error error⟩ s
  | setFlags (s : Socket) (flags : ℕ) :
      Replies initial s ⟨.setFlags flags, .ok ()⟩ { s with flags := flags }
  | setFlagsFails (s : Socket) (flags : ℕ) (error : IoError) :
      Replies initial s ⟨.setFlags flags, .error error⟩ s
  | connect (s : Socket) (path : List UInt8) : Replies initial s ⟨.connect path, .ok ()⟩
      { s with connection := .connected (filePath (sunPath path) (addressLen path)) }
  | connectPending (s : Socket) (path : List UInt8) (error : IoError)
      (herror : error.inProgress = true) (h : s.flags &&& nonblock ≠ 0) :
      Replies initial s ⟨.connect path, .error error⟩
        { s with connection := .pending (filePath (sunPath path) (addressLen path)) }
  | connectFails (s : Socket) (path : List UInt8) (error : IoError)
      (herror : error.inProgress = false) : Replies initial s ⟨.connect path, .error error⟩ s
  | ready (s : Socket) (milliseconds count : ℕ) (h : ∀ path, s.connection ≠ .pending path) :
      Replies initial s ⟨.poll milliseconds, .ok count⟩ s
  | notReady (s : Socket) (milliseconds : ℕ) : Replies initial s ⟨.poll milliseconds, .ok 0⟩ s
  | pollFails (s : Socket) (milliseconds : ℕ) (error : IoError) :
      Replies initial s ⟨.poll milliseconds, .error error⟩ s
  | noError (s : Socket) (h : ∀ error, s.connection ≠ .refused error) :
      Replies initial s ⟨.socketError, .ok none⟩ s
  | socketError (s : Socket) (error : IoError) (h : s.connection = .refused error) :
      Replies initial s ⟨.socketError, .ok (some error)⟩ { s with connection := .unconnected }
  | socketErrorFails (s : Socket) (error : IoError) :
      Replies initial s ⟨.socketError, .error error⟩ s
  | setTimeout (s : Socket) (direction : Direction) (duration : Duration)
      (reply : Except IoError Unit) :
      Replies initial s ⟨.setTimeout direction duration, reply⟩ s
  | transfer (s : Socket) (call : StreamQuery) (reply : Except IoError call.Result) :
      Replies initial s ⟨.transfer call, reply⟩ s

/-- A pending connection is settled by the other side. -/
inductive Socket.Settles : Socket → Socket → Prop
  | accepted (s : Socket) (path : Option (List UInt8)) (h : s.connection = .pending path) :
      Settles s { s with connection := .connected path }
  | refused (s : Socket) (path : Option (List UInt8)) (error : IoError)
      (h : s.connection = .pending path) : Settles s { s with connection := .refused error }

/-- The system, as far as it concerns the socket. -/
def socketWorld (initial : ℕ) : World SocketCalls Socket := ⟨Socket.Settles, Socket.Replies initial⟩

/-! ## The phases of `connect_unix` -/

/-- How far `connect_unix` is; the flags are those it has read. -/
inductive ConnectPhase where
  | start
  | opened
  | exec
  | known (flags : ℕ)
  | nonblocking (flags : ℕ)
  /-- The connection is pending. -/
  | waiting (flags : ℕ)
  /-- The socket is ready. -/
  | ready (flags : ℕ)
  | reached (flags : ℕ)
  | done
  | failed

/-- The phase after a call that may fail. -/
def ConnectPhase.after {α : Type} (phase : ConnectPhase) : Except IoError α → ConnectPhase
  | .ok _ => phase
  | .error _ => .failed

/-- The phase after `connect`. -/
def connectedPhase (flags : ℕ) : Except IoError Unit → ConnectPhase
  | .ok _ => .reached flags
  | .error error => if error.inProgress then .waiting flags else .failed

/-- The phase after `poll`. -/
def polledPhase (flags : ℕ) : Except IoError ℕ → ConnectPhase
  | .ok 0 => .failed
  | .ok _ => .ready flags
  | .error .interrupted => .waiting flags
  | .error _ => .failed

/-- The phase after the error of the socket has been asked for. -/
def errorPhase (flags : ℕ) : Except IoError (Option IoError) → ConnectPhase
  | .ok none => .reached flags
  | _ => .failed

/-- The calls that each phase allows. -/
def connectTypestate (path : List UInt8) : Typestate SocketCalls ConnectPhase
  | .start, ⟨.socket, reply⟩ => some (ConnectPhase.opened.after reply)
  | .opened, ⟨.setCloexec, reply⟩ => some (ConnectPhase.exec.after reply)
  | .exec, ⟨.getFlags, .ok flags⟩ => some (.known flags)
  | .exec, ⟨.getFlags, .error _⟩ => some .failed
  | .known flags, ⟨.setFlags flags', reply⟩ =>
    if flags' = flags ||| nonblock then some ((ConnectPhase.nonblocking flags).after reply)
    else none
  | .nonblocking flags, ⟨.connect path', reply⟩ =>
    if path' = path then some (connectedPhase flags reply) else none
  | .waiting flags, ⟨.now, _⟩ => some (.waiting flags)
  | .waiting flags, ⟨.poll _, reply⟩ => some (polledPhase flags reply)
  | .ready flags, ⟨.socketError, reply⟩ => some (errorPhase flags reply)
  | .reached flags, ⟨.setFlags flags', reply⟩ =>
    if flags' = flags then some (ConnectPhase.done.after reply) else none
  | _, _ => none

/-- How `connect_unix` ends. -/
def ConnectEnds : Except IoError Unit → ConnectPhase → Prop
  | .ok _, phase => phase = .done
  | .error _, _ => True

variable {initial flags : ℕ} {path : List UInt8}

lemma waitForConnect_follows (deadline : Instant) (fuel : ℕ) :
    (waitForConnect deadline fuel).Follows (connectTypestate path)
      (fun x phase => x = .ok () → phase = .reached flags) (.waiting flags) := by
  induction fuel with
  | zero => trivial
  | succ fuel ih =>
    intro now
    refine ⟨.waiting flags, rfl, ?_⟩
    show Prog.Follows _ _ (if (deadline - now : Duration) = 0 then _ else _) _
    split
    · exact fun h => absurd h (by simp)
    · intro reply
      refine ⟨polledPhase flags reply, rfl, ?_⟩
      rcases reply with error | _ | count
      · cases error with
        | interrupted => exact ih
        | _ => exact fun h => absurd h (by simp)
      · exact fun h => absurd h (by simp)
      · intro reply
        refine ⟨errorPhase flags reply, rfl, ?_⟩
        rcases reply with error | _ | error
        · exact fun h => absurd h (by simp)
        · exact fun _ => rfl
        · exact fun h => absurd h (by simp)

lemma finishConnect_follows (fuel : ℕ) (deadline : Instant) (reply : Except IoError Unit) :
    (finishConnect fuel deadline reply).Follows (connectTypestate path)
      (fun x phase => x = .ok () → phase = .reached flags) (connectedPhase flags reply) := by
  cases reply with
  | ok _ => exact fun _ => rfl
  | error error =>
    rw [finishConnect, connectedPhase]
    by_cases hpending : error.inProgress = true
    · rw [if_pos hpending, if_pos hpending]
      exact waitForConnect_follows deadline fuel
    · rw [if_neg hpending, if_neg hpending]
      exact fun h => absurd h (by simp)

lemma connectUnix_follows (fuel : ℕ) (path : List UInt8) (deadline : Instant) :
    (connectUnix fuel path deadline).Follows (connectTypestate path) ConnectEnds .start := by
  rw [connectUnix]
  split
  · trivial
  rintro (error | _)
  · exact ⟨.failed, rfl, trivial⟩
  refine ⟨.opened, rfl, ?_⟩
  rintro (error | _)
  · exact ⟨.failed, rfl, trivial⟩
  refine ⟨.exec, rfl, ?_⟩
  rintro (error | flags)
  · exact ⟨.failed, rfl, trivial⟩
  refine ⟨.known flags, rfl, ?_⟩
  rintro (error | _)
  · exact ⟨.failed, by simp [connectTypestate, ConnectPhase.after], trivial⟩
  refine ⟨.nonblocking flags, by simp [connectTypestate, ConnectPhase.after], ?_⟩
  intro reply
  refine ⟨connectedPhase flags reply, by simp [connectTypestate], ?_⟩
  refine (finishConnect_follows fuel deadline reply).bind ?_ fun _ _ _ => trivial
  rintro _ phase hreached
  obtain rfl := hreached rfl
  rintro (error | _)
  · exact ⟨.failed, by simp [connectTypestate, ConnectPhase.after], trivial⟩
  · exact ⟨.done, by simp [connectTypestate, ConnectPhase.after], rfl⟩

/-! ## What is known of the socket -/

/-- The address of a path that `connect_unix` accepts names the file with this path. -/
lemma filePath_sunPath (hne : path ≠ []) (hzero : 0 ∉ path) :
    filePath (sunPath path) (addressLen path) = some path := by
  have hall : ∀ b ∈ path, (fun b : UInt8 => decide (b ≠ 0)) b = true := by
    intro b hb
    simp only [decide_eq_true_eq]
    rintro rfl
    exact hzero hb
  have htake : ((sunPath path).take (addressLen path - 2)).takeWhile (· ≠ 0) = path := by
    rw [show addressLen path - 2 = path.length + 1 by rw [addressLen]; omega, sunPath,
      List.take_length_add_append, List.takeWhile_append_of_pos hall]
    cases sunPathLength - path.length <;> simp [List.replicate_succ]
  rw [filePath, htake, if_neg (by simpa using hne)]

/-- What is known of the socket in each phase. -/
def ConnectPhase.Knows (initial : ℕ) (path : List UInt8) : ConnectPhase → Socket → Prop
  | start, _ | failed, _ => True
  | opened, s => s = ⟨false, initial, .unconnected⟩
  | exec, s => s = ⟨true, initial, .unconnected⟩
  | known flags, s => flags = initial ∧ s = ⟨true, initial, .unconnected⟩
  | nonblocking flags, s => flags = initial ∧ s = ⟨true, initial ||| nonblock, .unconnected⟩
  | waiting flags, s => flags = initial ∧ s.cloexec = true ∧
    (s.connection = .pending (some path) ∨ s.connection = .connected (some path) ∨
      ∃ error, s.connection = .refused error)
  | ready flags, s => flags = initial ∧ s.cloexec = true ∧
    (s.connection = .connected (some path) ∨ ∃ error, s.connection = .refused error)
  | reached flags, s => flags = initial ∧ s.cloexec = true ∧ s.connection = .connected (some path)
  | done, s => s = ⟨true, initial, .connected (some path)⟩

/-- Only what is known of a pending connection can change, and it is known to be pending in no
phase but `waiting`. -/
lemma knows_stable (initial : ℕ) (path : List UInt8) (phase : ConnectPhase) :
    Stable (socketWorld initial) (phase.Knows initial path) := by
  intro s s' hsettles hknows
  have hpending : ∃ p, s.connection = .pending p := by
    cases hsettles with
    | accepted p h => exact ⟨p, h⟩
    | refused p _ h => exact ⟨p, h⟩
  obtain ⟨p, hp⟩ := hpending
  cases phase with
  | start | failed => trivial
  | opened | exec | done =>
    obtain rfl := hknows
    exact absurd hp (by simp)
  | known | nonblocking =>
    obtain ⟨rfl, rfl⟩ := hknows
    exact absurd hp (by simp)
  | reached =>
    obtain ⟨-, -, hconnected⟩ := hknows
    exact absurd (hp.symm.trans hconnected) (by simp)
  | ready =>
    obtain ⟨-, -, hconnected | ⟨error, hrefused⟩⟩ := hknows
    · exact absurd (hp.symm.trans hconnected) (by simp)
    · exact absurd (hp.symm.trans hrefused) (by simp)
  | waiting flags =>
    obtain ⟨hflags, hcloexec, hconnection⟩ := hknows
    obtain rfl : p = some path := by
      rcases hconnection with h | h | ⟨error, h⟩
      · simpa using hp.symm.trans h
      · exact absurd (hp.symm.trans h) (by simp)
      · exact absurd (hp.symm.trans h) (by simp)
    cases hsettles with
    | accepted p h =>
      obtain rfl : p = some path := by simpa using h.symm.trans hp
      exact ⟨hflags, hcloexec, Or.inr (Or.inl rfl)⟩
    | refused p error h => exact ⟨hflags, hcloexec, Or.inr (Or.inr ⟨error, rfl⟩)⟩

/-- Each reply leads to what is known in the next phase. -/
lemma knows_reply (hne : path ≠ []) (hzero : 0 ∉ path) {phase phase' : ConnectPhase}
    {s s' : Socket} {e : Event SocketCalls}
    (h : connectTypestate path phase e = some phase') (hreply : (socketWorld initial).reply s e s')
    (hs : phase.Knows initial path s) : phase'.Knows initial path s' := by
  have hfile := filePath_sunPath hne hzero
  obtain ⟨query, reply⟩ := e
  cases phase with
  | start =>
    cases query with
    | socket =>
      obtain rfl := Option.some.inj h
      cases hreply with
      | socket => exact rfl
      | socketFails => trivial
    | _ => exact absurd h (by simp [connectTypestate])
  | opened =>
    cases query with
    | setCloexec =>
      obtain rfl := Option.some.inj h
      obtain rfl := hs
      cases hreply with
      | setCloexec => exact rfl
      | setCloexecFails => trivial
    | _ => exact absurd h (by simp [connectTypestate])
  | exec =>
    cases query with
    | getFlags =>
      obtain rfl := hs
      cases hreply with
      | getFlags flags hflags =>
        obtain rfl := Option.some.inj h
        exact ⟨hflags.symm, rfl⟩
      | getFlagsFails =>
        obtain rfl := Option.some.inj h
        trivial
    | _ => exact absurd h (by simp [connectTypestate])
  | known flags =>
    cases query with
    | setFlags flags' =>
      rw [connectTypestate, Option.ite_none_right_eq_some] at h
      obtain ⟨rfl, heq⟩ := h
      obtain rfl := Option.some.inj heq
      obtain ⟨rfl, rfl⟩ := hs
      cases hreply with
      | setFlags => exact ⟨rfl, rfl⟩
      | setFlagsFails => trivial
    | _ => exact absurd h (by simp [connectTypestate])
  | nonblocking flags =>
    cases query with
    | connect path' =>
      rw [connectTypestate, Option.ite_none_right_eq_some] at h
      obtain ⟨rfl, heq⟩ := h
      obtain rfl := Option.some.inj heq
      obtain ⟨rfl, rfl⟩ := hs
      cases hreply with
      | connect => exact ⟨rfl, rfl, by rw [hfile]⟩
      | connectPending _ error herror =>
        rw [connectedPhase, if_pos herror]
        exact ⟨rfl, rfl, Or.inl (by rw [hfile])⟩
      | connectFails _ error herror =>
        rw [connectedPhase, if_neg (by simp [herror])]
        trivial
    | _ => exact absurd h (by simp [connectTypestate])
  | waiting flags =>
    cases query with
    | now =>
      obtain rfl := Option.some.inj h
      cases hreply
      exact hs
    | poll milliseconds =>
      obtain rfl := Option.some.inj h
      obtain ⟨rfl, hcloexec, hconnection⟩ := hs
      cases hreply with
      | ready _ count hready =>
        cases count with
        | zero => trivial
        | succ count => exact ⟨rfl, hcloexec, hconnection.resolve_left (hready _)⟩
      | notReady => trivial
      | pollFails _ error =>
        cases error with
        | interrupted => exact ⟨rfl, hcloexec, hconnection⟩
        | _ => trivial
    | _ => exact absurd h (by simp [connectTypestate])
  | ready flags =>
    cases query with
    | socketError =>
      obtain rfl := Option.some.inj h
      obtain ⟨rfl, hcloexec, hconnection⟩ := hs
      cases hreply with
      | noError hnone =>
        refine ⟨rfl, hcloexec, hconnection.resolve_right ?_⟩
        rintro ⟨error, hrefused⟩
        exact hnone error hrefused
      | socketError => trivial
      | socketErrorFails => trivial
    | _ => exact absurd h (by simp [connectTypestate])
  | reached flags =>
    cases query with
    | setFlags flags' =>
      rw [connectTypestate, Option.ite_none_right_eq_some] at h
      obtain ⟨rfl, heq⟩ := h
      obtain rfl := Option.some.inj heq
      obtain ⟨rfl, hcloexec, hconnection⟩ := hs
      cases hreply with
      | setFlags =>
        cases s
        obtain rfl := hcloexec
        obtain rfl := hconnection
        rfl
      | setFlagsFails => trivial
    | _ => exact absurd h (by simp [connectTypestate])
  | done | failed => exact absurd h (by simp [connectTypestate])

/-- The paths that `connect_unix` refuses. -/
def UnusablePath (path : List UInt8) : Prop :=
  path.isEmpty ∨ path.contains 0 ∨ sunPathLength ≤ path.length

/-- What `connect_unix` does to its socket. -/
structure SocketHandled (initial : ℕ) (path : List UInt8) (tr : List (Socket × Event SocketCalls))
    (s' : Socket) (p' : Prog SocketCalls IoError Unit) : Prop where
  /-- `connect` is called for the file with the path, on a socket that is non-blocking and that a
  child does not inherit; the address has room for the path and the zero behind it. -/
  called : ∀ x ∈ tr, ∀ path', x.2.query = .connect path' →
    filePath (sunPath path') (addressLen path') = some path ∧
    (sunPath path').length = sunPathLength ∧ addressLen path' ≤ 2 + sunPathLength ∧
    x.1 = ⟨true, initial ||| nonblock, .unconnected⟩
  /-- What is returned is connected to that file and has its own flags back. -/
  returned : p' = .ret () → s' = ⟨true, initial, .connected (some path)⟩
  /-- For other paths no socket is made, and the call fails. -/
  refused : UnusablePath path → tr = [] ∧ p' = .fail (.invalidInput "invalid Unix socket path")

/-- However the system answers, and whenever the other side accepts or refuses, a socket that
`connect_unix` returns is connected to the file with the path, has the flags that it was created
with and is not inherited. -/
theorem connectUnix_handled (fuel : ℕ) (path : List UInt8) (deadline : Instant) (initial : ℕ)
    (s s' : Socket) (tr : List (Socket × Event SocketCalls)) (p' : Prog SocketCalls IoError Unit)
    (h : StepsIn (socketWorld initial) (connectUnix fuel path deadline) s tr s' p') :
    SocketHandled initial path tr s' p' := by
  by_cases hpath : UnusablePath path
  · have hfail : connectUnix fuel path deadline =
        .fail (.invalidInput "invalid Unix socket path") := by
      rw [connectUnix]
      exact if_pos hpath
    have hsteps := h.2
    rw [hfail] at hsteps
    generalize hes : tr.map Prod.snd = es at hsteps
    cases hsteps
    obtain rfl := List.map_eq_nil_iff.mp hes
    exact ⟨by simp, by simp, fun _ => ⟨rfl, rfl⟩⟩
  · have hne : path ≠ [] := by
      rintro rfl
      exact hpath (Or.inl rfl)
    have hzero : 0 ∉ path := fun hmem => hpath (Or.inr (Or.inl (by simpa using hmem)))
    have hlength : path.length < sunPathLength := by
      by_contra hlong
      exact hpath (Or.inr (Or.inr (by omega)))
    obtain ⟨phase, hphase, hends⟩ := h.2.follows (connectUnix_follows fuel path deadline)
    obtain ⟨hall, hknows⟩ := h.1.follows (knows_stable initial path)
      (fun _ _ _ _ _ ht hreply hs => knows_reply hne hzero ht hreply hs) hphase trivial
    refine ⟨?_, ?_, fun hbad => absurd hbad hpath⟩
    · rintro ⟨socket, ⟨query, reply⟩⟩ hx path' (rfl : query = _)
      obtain ⟨before, after, hstep, hbefore⟩ := hall _ hx
      cases before with
      | nonblocking flags =>
        obtain ⟨-, hsocket⟩ := hbefore
        by_cases hsame : path' = path
        · subst hsame
          refine ⟨filePath_sunPath hne hzero, ?_, ?_, hsocket⟩
          · rw [sunPath, List.length_append, List.length_replicate]
            omega
          · rw [addressLen]
            omega
        · exact absurd hstep (by simp [connectTypestate, hsame])
      | _ => exact absurd hstep (by simp [connectTypestate])
    · rintro rfl
      obtain rfl : phase = .done := hends
      exact hknows

/-- An agent that accepts the connection to `/a` while `poll` waits for it. -/
lemma exists_stepsIn_pending : ∃ tr s', StepsIn (socketWorld 2)
    (connectUnix 1 [47, 97] (Duration.fromSecs 5)) ⟨false, 0, .unconnected⟩ tr s' (.ret ()) := by
  exact ⟨_, _, .reply (.socket _) (.reply (.setCloexec _) (.reply (.getFlags _ 2 rfl)
    (.reply (.setFlags _ (2 ||| nonblock))
    (.reply (.connectPending _ [47, 97] (.other 115 "Operation now in progress") rfl (by decide))
    (.reply (.now _ 0) (.interfere (.accepted _ _ rfl)
    (.reply (.ready _ (connectMillis (Duration.fromSecs 5)) 1 (by simp))
    (.reply (.noError _ (by simp)) (.reply (.setFlags _ 2) (.done _)))))))))),
    .ask (.ask (.ask (.ask (.ask (.ask (.ask (.ask (.ask (.refl _)))))))))⟩

theorem connectUnix_handled_pending : ∃ tr s', SocketHandled 2 [47, 97] tr s' (.ret ()) := by
  obtain ⟨tr, s', h⟩ := exists_stepsIn_pending
  exact ⟨tr, s', connectUnix_handled 1 [47, 97] (Duration.fromSecs 5) 2 _ s' tr _ h⟩

end PamSshAgent
