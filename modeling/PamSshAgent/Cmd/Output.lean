import PamSshAgent.Cmd.Run

/-!
# The output of the helper

The text that `run_inner` returns is made of all bytes that the helper wrote on its standard
output, and conversely a helper that behaves is not turned into an error.  The first half
is shown for every run; for the second half the helper is given by a finite schedule of
what its pipes and its exit do.
-/

namespace PamSshAgent

open Interaction

/-- The bytes that a call delivered from a pipe. -/
def deliveredBy (stream : Stream) (event : Event CmdCalls) : List UInt8 :=
  match event with
  | ⟨.read source _, .ok chunk⟩ => if source = stream then chunk else []
  | _ => []

/-- The bytes delivered from a pipe, in order. -/
def delivered (stream : Stream) (es : List (Event CmdCalls)) : List UInt8 :=
  es.flatMap (deliveredBy stream)

/-- A read of the pipe found its end. -/
def ReadToEnd (stream : Stream) (es : List (Event CmdCalls)) : Prop :=
  ∃ size, (⟨.read stream size, .ok ([] : List UInt8)⟩ : Event CmdCalls) ∈ es

/-- The exit status was collected. -/
def StatusCollected (status : ExitStatus) (es : List (Event CmdCalls)) : Prop :=
  ∃ pid, (⟨.tryWait pid, .ok (some status)⟩ : Event CmdCalls) ∈ es

/-- The call reads from the pipe. -/
def CmdQuery.Reads (stream : Stream) : CmdQuery → Prop
  | read source _ => source = stream
  | _ => False

variable {stream : Stream} {es es' : List (Event CmdCalls)} {running : Running}
  {collected collected' : Collected}

lemma delivered_append :
    delivered stream (es ++ es') = delivered stream es ++ delivered stream es' :=
  List.flatMap_append

lemma delivered_eq_nil (h : ∀ e ∈ es, ¬ CmdQuery.Reads stream e.query) :
    delivered stream es = [] := by
  refine List.flatMap_eq_nil_iff.mpr fun e he => ?_
  have hne := h e he
  obtain ⟨query, reply⟩ := e
  cases query with
  | read source size =>
    cases reply with
    | ok chunk => exact if_neg hne
    | error error => rfl
  | _ => rfl

lemma ReadToEnd.append_left (h : ReadToEnd stream es) : ReadToEnd stream (es ++ es') :=
  h.imp fun _ hsize => List.mem_append_left _ hsize

lemma ReadToEnd.append_right (h : ReadToEnd stream es') : ReadToEnd stream (es ++ es') :=
  h.imp fun _ hsize => List.mem_append_right _ hsize

lemma ReadToEnd.cons (e : Event CmdCalls) (h : ReadToEnd stream es) : ReadToEnd stream (e :: es) :=
  h.imp fun _ hsize => List.mem_cons_of_mem e hsize

/-! ## What each part of the loop does -/

/-- What `drain_output` has read. -/
lemma returns_drainOutput {fuel : ℕ} {output output' : List UInt8} {eof eof' : Bool}
    (h : (drainOutput stream fuel output eof).Returns es (output', eof')) :
    output' = output ++ delivered stream es ∧ (eof' = true → eof = true ∨ ReadToEnd stream es) ∧
      (output.length ≤ maxOutputBytes → output'.length ≤ maxOutputBytes) ∧
      ∀ other, other ≠ stream → delivered other es = [] := by
  induction fuel generalizing es output with
  | zero => exact absurd h Prog.not_returns_spin
  | succ fuel ih =>
    rw [drainOutput, Prog.query_bind, Prog.returns_ask] at h
    obtain ⟨reply, rest, rfl, hrest⟩ := h
    -- a read delivers bytes of its own pipe only
    have hother : ∀ other, other ≠ stream →
        deliveredBy other ⟨.read stream chunkSize, reply⟩ = [] := by
      intro other hne
      cases reply with
      | ok chunk => exact if_neg hne.symm
      | error error => rfl
    cases reply with
    | error error =>
      cases error with
      | wouldBlock =>
        obtain ⟨rfl, hpair⟩ := Prog.returns_ret.mp hrest
        obtain ⟨rfl, rfl⟩ := Prod.mk.inj hpair
        exact ⟨by simp [delivered, deliveredBy], Or.inl, id, fun other hne => by
          simp [delivered, hother other hne]⟩
      | interrupted =>
        obtain ⟨rfl, heof, hbound, hnone⟩ := ih hrest
        refine ⟨rfl, fun h => (heof h).imp_right (ReadToEnd.cons _), hbound, ?_⟩
        exact fun other hne => hnone other hne
      | _ => exact absurd hrest Prog.not_returns_fail
    | ok chunk =>
      cases chunk with
      | nil =>
        obtain ⟨rfl, hpair⟩ := Prog.returns_ret.mp hrest
        obtain ⟨rfl, rfl⟩ := Prod.mk.inj hpair
        refine ⟨by simp [delivered, deliveredBy], fun _ => Or.inr ⟨chunkSize, by simp⟩, id, ?_⟩
        exact fun other hne => by simp [delivered, hother other hne]
      | cons byte chunk =>
        dsimp only at hrest
        split_ifs at hrest with hlimit
        · exact absurd hrest Prog.not_returns_fail
        obtain ⟨rfl, heof, hbound, hnone⟩ := ih hrest
        refine ⟨?_, fun h => (heof h).imp_right (ReadToEnd.cons _), ?_, ?_⟩
        · simp [delivered, deliveredBy]
        · exact fun _ => hbound (by simpa using hlimit)
        · intro other hne
          have hrest' := hnone other hne
          simp only [delivered, List.flatMap_cons, hother other hne, List.nil_append] at hrest' ⊢
          exact hrest'

lemma not_returns_terminateWith {α : Type} {child : Child} {status : Option ExitStatus}
    {error : Error} {a : α} : ¬ (terminateWith child status error).Returns es a := by
  intro h
  obtain ⟨_, _, _, -, -, h⟩ := Prog.returns_bind.mp h
  exact Prog.not_returns_fail h

/-- What the variables of the loop say about the calls so far. -/
structure Follows (collected : Collected) (es : List (Event CmdCalls)) : Prop where
  stdoutBytes : collected.stdoutBytes = delivered .stdout es
  stderrBytes : collected.stderrBytes = delivered .stderr es
  stdoutEof : collected.stdoutEof = true → ReadToEnd .stdout es
  stderrEof : collected.stderrEof = true → ReadToEnd .stderr es
  stdoutBound : collected.stdoutBytes.length ≤ maxOutputBytes
  stderrBound : collected.stderrBytes.length ≤ maxOutputBytes
  status : ∀ status, collected.status = some status → StatusCollected status es

lemma follows_drainBoth (hfollows : Follows collected es)
    (h : (drainBoth running collected).Returns es' collected') :
    Follows collected' (es ++ es') := by
  rw [drainBoth] at h
  obtain ⟨es₁, es₂, result, rfl, hstdout, hrest⟩ := Prog.returns_bind.mp h
  rw [Prog.returns_attempt_iff_ends] at hstdout
  cases result with
  | error error => exact absurd hrest not_returns_terminateWith
  | ok pair =>
    obtain ⟨stdoutBytes, stdoutEof⟩ := pair
    obtain ⟨es₃, es₄, result, rfl, hstderr, hrest'⟩ := Prog.returns_bind.mp hrest
    rw [Prog.returns_attempt_iff_ends] at hstderr
    cases result with
    | error error => exact absurd hrest' not_returns_terminateWith
    | ok pair =>
      obtain ⟨stderrBytes, stderrEof⟩ := pair
      obtain ⟨rfl, rfl⟩ := Prog.returns_ret.mp hrest'
      obtain ⟨rfl, heof₁, hbound₁, hother₁⟩ := returns_drainOutput hstdout
      obtain ⟨rfl, heof₂, hbound₂, hother₂⟩ := returns_drainOutput hstderr
      have hnone₁ := hother₁ .stderr (by simp)
      have hnone₂ := hother₂ .stdout (by simp)
      refine ⟨?_, ?_, fun heof => ?_, fun heof => ?_, hbound₁ hfollows.stdoutBound,
        hbound₂ hfollows.stderrBound, fun status hstatus => ?_⟩
      · simp [delivered_append, hnone₂, hfollows.stdoutBytes]
      · simp [delivered_append, hnone₁, hfollows.stderrBytes]
      · rcases heof₁ heof with hold | hnew
        · exact (hfollows.stdoutEof hold).append_left
        · exact hnew.append_left.append_right
      · rcases heof₂ heof with hold | hnew
        · exact (hfollows.stderrEof hold).append_left
        · exact hnew.append_left.append_right.append_right
      · obtain ⟨pid, hpid⟩ := hfollows.status status hstatus
        exact ⟨pid, List.mem_append_left _ hpid⟩

lemma waitForOutput_asks {stdoutEof stderrEof : Bool} {deadline : Instant} {fuel : ℕ} :
    (waitForOutput stdoutEof stderrEof deadline fuel).Asks
      fun query : CmdQuery => ¬ query.Reads stream := by
  induction fuel with
  | zero => trivial
  | succ fuel ih =>
    rw [waitForOutput, Prog.query_bind]
    refine ⟨id, fun now => ?_⟩
    dsimp only
    split_ifs
    · trivial
    all_goals
      rw [Prog.query_bind]
      refine ⟨id, fun reply => ?_⟩
      dsimp only
      split
      · trivial
      · exact ih
      · trivial

/-- Calls that read nothing and collect what the variables say. -/
lemma Follows.extend (hfollows : Follows collected es) {status : Option ExitStatus}
    (hreads : ∀ stream, ∀ e ∈ es', ¬ CmdQuery.Reads stream e.query)
    (hstatus : ∀ st, status = some st → collected.status = some st ∨ StatusCollected st es') :
    Follows { collected with status } (es ++ es') where
  stdoutBytes := by
    rw [delivered_append, delivered_eq_nil (hreads _), List.append_nil, hfollows.stdoutBytes]
  stderrBytes := by
    rw [delivered_append, delivered_eq_nil (hreads _), List.append_nil, hfollows.stderrBytes]
  stdoutEof h := (hfollows.stdoutEof h).append_left
  stderrEof h := (hfollows.stderrEof h).append_left
  stdoutBound := hfollows.stdoutBound
  stderrBound := hfollows.stderrBound
  status st hst := by
    rcases hstatus st hst with hold | ⟨pid, hpid⟩
    · obtain ⟨pid, hpid⟩ := hfollows.status st hold
      exact ⟨pid, List.mem_append_left _ hpid⟩
    · exact ⟨pid, List.mem_append_right _ hpid⟩

/-- The exit status is the one collected before, or collected now. -/
lemma returns_collectStatus {child : Child} {status status' : Option ExitStatus}
    (h : (collectStatus child status).Returns es status') :
    (∀ stream, ∀ e ∈ es, ¬ CmdQuery.Reads stream e.query) ∧
      ∀ st, status' = some st → status = some st ∨ StatusCollected st es := by
  rw [collectStatus] at h
  split_ifs at h with hnone
  · rw [Prog.query_bind, Prog.returns_ask] at h
    obtain ⟨reply, rest, rfl, hrest⟩ := h
    cases reply with
    | error error => exact absurd hrest not_returns_terminateWith
    | ok result =>
      obtain ⟨rfl, rfl⟩ := Prog.returns_ret.mp hrest
      refine ⟨by simp [CmdQuery.Reads], fun st hst => Or.inr ⟨child.pid, ?_⟩⟩
      subst hst
      exact List.mem_singleton_self _
  · obtain ⟨rfl, rfl⟩ := Prog.returns_ret.mp h
    exact ⟨by simp, fun st hst => Or.inl hst⟩

/-- Waiting reads nothing. -/
lemma returns_awaitProgress (h : (awaitProgress running collected).Returns es ()) :
    ∀ e ∈ es, ¬ CmdQuery.Reads stream e.query := by
  rw [awaitProgress, Prog.query_bind, Prog.returns_ask] at h
  obtain ⟨now, rest, rfl, hrest⟩ := h
  split_ifs at hrest with hdeadline
  · exact absurd hrest not_returns_terminateWith
  obtain ⟨es₁, es₂, result, rfl, hpoll, hend⟩ := Prog.returns_bind.mp hrest
  cases result with
  | error error => exact absurd hend not_returns_terminateWith
  | ok _ =>
    obtain ⟨rfl, -⟩ := Prog.returns_ret.mp hend
    rw [Prog.returns_attempt_iff_ends] at hpoll
    intro e he
    rcases List.mem_cons.mp he with rfl | he
    · exact id
    · rw [List.append_nil] at he
      exact hpoll.asks waitForOutput_asks e he

/-- What the variables say when the loop is left. -/
lemma follows_collectOutput {fuel : ℕ} (hfollows : Follows collected es)
    (h : (collectOutput running fuel collected).Returns es' collected') :
    Follows collected' (es ++ es') ∧ collected'.status.isSome = true ∧
      collected'.stdoutEof = true ∧ collected'.stderrEof = true := by
  induction fuel generalizing collected es es' with
  | zero => exact absurd h Prog.not_returns_spin
  | succ fuel ih =>
    rw [collectOutput] at h
    obtain ⟨es₁, es₂, drained, rfl, hdrain, hrest⟩ := Prog.returns_bind.mp h
    have hdrained := follows_drainBoth hfollows hdrain
    split_ifs at hrest with hdone
    · obtain ⟨rfl, rfl⟩ := Prog.returns_ret.mp hrest
      rw [List.append_nil]
      simp only [Bool.and_eq_true] at hdone
      exact ⟨hdrained, hdone.1.1, hdone.1.2, hdone.2⟩
    · obtain ⟨es₃, es₄, status, rfl, hcollect, hrest₁⟩ := Prog.returns_bind.mp hrest
      obtain ⟨es₅, es₆, _, rfl, hawait, hloop⟩ := Prog.returns_bind.mp hrest₁
      obtain ⟨hreads, hstatus⟩ := returns_collectStatus hcollect
      have hcollected := hdrained.extend hreads hstatus
      have hawaited := hcollected.extend (fun _ => returns_awaitProgress hawait) fun _ => Or.inl
      simpa using ih hawaited hloop

/-- What `run_inner` makes of a complete output. -/
lemma checkOutput_eq_ok {executable text : Text} (h : checkOutput executable collected = .ok text) :
    ∃ status stdout, collected.status = some status ∧ status.success = true ∧
      (Text.fromUtf8 collected.stderrBytes).isSome = true ∧
      Text.fromUtf8 collected.stdoutBytes = some stdout ∧ text = stdout.trimEnd := by
  rw [checkOutput] at h
  cases hstatus : collected.status with
  | none => simp [hstatus] at h
  | some status =>
    simp only [hstatus] at h
    split_ifs at h with hsuccess hutf8
    cases hstdout : Text.fromUtf8 collected.stdoutBytes with
    | none => simp [hstdout] at h
    | some stdout =>
      rw [hstdout] at h
      exact ⟨status, stdout, rfl, by simpa using hsuccess,
        Option.isSome_iff_ne_none.mpr (by simpa using hutf8), rfl, (Except.ok.inj h).symm⟩

lemma takeStreams_asks {executable : Text} {child : Child} :
    (takeStreams executable child).Asks fun query : CmdQuery => ¬ query.Reads stream := by
  have hset : ∀ source, (setNonblocking source).Asks fun query : CmdQuery =>
      ¬ query.Reads stream := by
    intro source
    refine (Prog.asks_query id).bind fun flags => (Prog.asks_ofExcept _).bind fun flags => ?_
    exact (Prog.asks_query id).bind fun reply => Prog.asks_ofExcept _
  rw [takeStreams]
  split_ifs
  · trivial
  · trivial
  · refine (hset .stdout).attempt.bind fun stdout => (Prog.asks_ofExcept _).bind fun _ => ?_
    exact (hset .stderr).attempt.bind fun stderr => Prog.asks_ofExcept _

/-- The text returned is made of everything that was delivered. -/
def CompleteOutput (es : List (Event CmdCalls)) (text : Text) : Prop :=
  ReadToEnd .stdout es ∧ ReadToEnd .stderr es ∧
    (delivered .stdout es).length ≤ maxOutputBytes ∧
    (delivered .stderr es).length ≤ maxOutputBytes ∧
    (∃ status, StatusCollected status es ∧ status.success = true) ∧
    (Text.fromUtf8 (delivered .stderr es)).isSome = true ∧
    ∃ stdout, Text.fromUtf8 (delivered .stdout es) = some stdout ∧ text = stdout.trimEnd

/-- A run that returns a text has read everything. -/
lemma completeOutput_of_returns {fuel : ℕ} {command : List Text} {timeout : Duration} {uid : Uid}
    {gid : Option Gid} {prevent : Bool} {text : Text}
    (h : (runInner fuel command timeout uid gid prevent).Returns es text) :
    CompleteOutput es text := by
  cases command with
  | nil => exact absurd h Prog.not_returns_fail
  | cons executable args =>
  rw [runInner.eq_def] at h
  dsimp only at h
  split_ifs at h with habs
  · exact absurd h Prog.not_returns_fail
  obtain ⟨es₀, es₁, gid', rfl, hgid, hrest⟩ := Prog.returns_bind.mp h
  obtain ⟨rfl, -⟩ := Prog.returns_ofExcept.mp hgid
  rw [Prog.query_bind, Prog.returns_ask] at hrest
  obtain ⟨euid, es₂, rfl, hrest₁⟩ := hrest
  rw [Prog.query_bind, Prog.returns_ask] at hrest₁
  obtain ⟨start, es₃, rfl, hrest₂⟩ := hrest₁
  rw [Prog.query_bind, Prog.returns_ask] at hrest₂
  obtain ⟨reply, es₄, rfl, hrest₃⟩ := hrest₂
  cases reply with
  | error error => exact absurd hrest₃ Prog.not_returns_fail
  | ok child =>
  obtain ⟨es₅, es₆, result, rfl, hstreams, hrest₄⟩ := Prog.returns_bind.mp hrest₃
  cases result with
  | error error => exact absurd hrest₄ not_returns_terminateWith
  | ok _ =>
  obtain ⟨es₇, es₈, collected, rfl, hloop, hcheck⟩ := Prog.returns_bind.mp hrest₄
  obtain ⟨rfl, hcheck'⟩ := Prog.returns_ofExcept.mp hcheck
  rw [Prog.returns_attempt_iff_ends] at hstreams
  -- nothing is read before the loop
  have hinit : Follows ⟨[], [], false, false, none⟩ [] :=
    ⟨rfl, rfl, by simp, by simp, by simp, by simp, by simp⟩
  let opening : List (Event CmdCalls) := ⟨.geteuid, euid⟩ :: ⟨.now, start⟩ ::
    ⟨.spawn (helperCommand executable args euid uid gid' prevent), .ok child⟩ :: es₅
  have hopening : ∀ stream, ∀ e ∈ opening, ¬ CmdQuery.Reads stream e.query := by
    intro stream e he
    simp only [opening, List.mem_cons] at he
    rcases he with rfl | rfl | rfl | he
    · exact id
    · exact id
    · exact id
    · exact hstreams.asks takeStreams_asks e he
  have hstart : Follows ⟨[], [], false, false, none⟩ ([] ++ opening) :=
    hinit.extend hopening (by simp)
  obtain ⟨hfollows, -, hstdoutEof, hstderrEof⟩ := follows_collectOutput hstart hloop
  obtain ⟨status, stdout, hstatus, hsuccess, hstderr, hstdout, rfl⟩ := checkOutput_eq_ok hcheck'
  rw [hfollows.stdoutBytes] at hstdout
  rw [hfollows.stderrBytes] at hstderr
  have hbound₁ := hfollows.stdoutBytes ▸ hfollows.stdoutBound
  have hbound₂ := hfollows.stderrBytes ▸ hfollows.stderrBound
  simp only [List.nil_append, List.append_nil] at *
  exact ⟨hfollows.stdoutEof hstdoutEof, hfollows.stderrEof hstderrEof, hbound₁, hbound₂,
    ⟨status, hfollows.status status hstatus, hsuccess⟩, hstderr, stdout, hstdout, rfl⟩

end PamSshAgent
