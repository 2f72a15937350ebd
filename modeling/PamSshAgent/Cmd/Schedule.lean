import PamSshAgent.Cmd.Output

/-!
# A helper on a schedule

A schedule says what the pipes of the helper deliver to the reads that follow, how often
the helper is found running before its exit status can be collected, which polls are
interrupted and what the clock shows.  It is finite: after it the pipes are at their end.
-/

namespace PamSshAgent

open Interaction

/-- What a pipe replies to a read: some bytes, at least one, or nothing yet. -/
inductive ReadStep where
  | data (first : UInt8) (rest : List UInt8)
  | wouldBlock
  | interrupted

/-- The bytes of a reply. -/
def ReadStep.bytes : ReadStep → List UInt8
  | data first rest => first :: rest
  | _ => []

/-- What a helper and the clock do from now on. -/
structure Schedule where
  pid : Pid
  euid : Uid
  stdout : List ReadStep
  stderr : List ReadStep
  /-- How often `try_wait` finds the helper running. -/
  running : ℕ
  status : ExitStatus
  /-- Whether each of the next polls is interrupted. -/
  polls : List Bool
  clock : ℕ → Instant
  /-- The number of clock readings so far. -/
  readings : ℕ

namespace Schedule

/-- What a pipe does from now on. -/
def steps (schedule : Schedule) : Stream → List ReadStep
  | .stdout => schedule.stdout
  | .stderr => schedule.stderr

/-- The schedule with another future of a pipe. -/
def withSteps (schedule : Schedule) (steps : List ReadStep) : Stream → Schedule
  | .stdout => { schedule with stdout := steps }
  | .stderr => { schedule with stderr := steps }

/-- The bytes that a pipe still has to deliver. -/
def bytes (schedule : Schedule) (stream : Stream) : List UInt8 :=
  (schedule.steps stream).flatMap ReadStep.bytes

/-- The replies of a helper on a schedule. -/
def responder : Prog.Responder CmdCalls Schedule
  | .geteuid, schedule => (schedule.euid, schedule)
  | .now, schedule =>
    (schedule.clock schedule.readings, { schedule with readings := schedule.readings + 1 })
  | .spawn _, schedule => (.ok ⟨schedule.pid, true, true⟩, schedule)
  | .getFlags _, schedule => (.ok 0, schedule)
  | .setNonblocking _ _, schedule => (.ok (), schedule)
  | .read stream _, schedule =>
    match schedule.steps stream with
    | [] => (.ok [], schedule)
    | .data first rest :: left => (.ok (first :: rest), schedule.withSteps left stream)
    | .wouldBlock :: left => (.error .wouldBlock, schedule.withSteps left stream)
    | .interrupted :: left => (.error .interrupted, schedule.withSteps left stream)
  | .tryWait _, schedule =>
    match schedule.running with
    | 0 => (.ok (some schedule.status), schedule)
    | left + 1 => (.ok none, { schedule with running := left })
  | .poll _ _, schedule =>
    match schedule.polls with
    | [] => (.ok (), schedule)
    | interrupted :: left =>
      (if interrupted then .error .interrupted else .ok (), { schedule with polls := left })
  | .killGroup _, schedule | .kill _, schedule | .wait _, schedule => ((), schedule)

@[simp] lemma steps_withSteps (schedule : Schedule) (steps : List ReadStep) (stream : Stream) :
    (schedule.withSteps steps stream).steps stream = steps := by
  cases stream <;> rfl

@[simp] lemma withSteps_withSteps (schedule : Schedule) (steps steps' : List ReadStep)
    (stream : Stream) :
    (schedule.withSteps steps stream).withSteps steps' stream =
      schedule.withSteps steps' stream := by
  cases stream <;> rfl

lemma withSteps_steps (schedule : Schedule) (stream : Stream) :
    schedule.withSteps (schedule.steps stream) stream = schedule := by
  cases stream <;> rfl

end Schedule

variable {schedule : Schedule} {stream : Stream}

/-! ## The parts of the loop on a schedule -/

/-- A pipe is drained, up to its end or to a reply that uses up a part of the schedule,
unless it delivers more than the limit. -/
def PipeOutcome (schedule : Schedule) (stream : Stream) (output : List UInt8) (eof : Bool)
    (drain : Prog CmdCalls IoError (List UInt8 × Bool)) : Prop :=
  (∃ error, drain.Aborts Schedule.responder schedule error ∧
    maxOutputBytes < output.length + (schedule.bytes stream).length) ∨
  ∃ left output' eof', drain.Yields Schedule.responder schedule (output', eof')
      (schedule.withSteps left stream) ∧
    output' ++ left.flatMap ReadStep.bytes = output ++ schedule.bytes stream ∧
    output'.length ≤ maxOutputBytes ∧ left.length ≤ (schedule.steps stream).length ∧
    (eof' = true ∧ left = [] ∨ eof' = eof ∧ left.length < (schedule.steps stream).length)

/-- A read after which the loop goes on. -/
lemma PipeOutcome.next {left : List ReadStep} {output output₁ : List UInt8} {eof : Bool}
    {reply : Except IoError (List UInt8)}
    {k : Except IoError (List UInt8) → Prog CmdCalls IoError (List UInt8 × Bool)}
    (hreply : Schedule.responder (.read stream chunkSize) schedule =
      (reply, schedule.withSteps left stream))
    (hless : left.length < (schedule.steps stream).length)
    (hbytes : output₁ ++ left.flatMap ReadStep.bytes = output ++ schedule.bytes stream)
    (h : PipeOutcome (schedule.withSteps left stream) stream output₁ eof (k reply)) :
    PipeOutcome schedule stream output eof (.ask (.read stream chunkSize) k) := by
  have hleft : (schedule.withSteps left stream).bytes stream = left.flatMap ReadStep.bytes := by
    rw [Schedule.bytes, Schedule.steps_withSteps]
  rcases h with ⟨error, hrun, hlimit⟩ | ⟨left', output', eof', hrun, hout, hle, hlen, hend⟩
  · left
    refine ⟨error, Prog.aborts_ask hreply hrun, ?_⟩
    have hlength := congrArg List.length hbytes
    rw [List.length_append, List.length_append] at hlength
    rw [hleft] at hlimit
    omega
  · right
    rw [Schedule.withSteps_withSteps] at hrun
    rw [Schedule.steps_withSteps] at hlen hend
    refine ⟨left', output', eof', Prog.yields_ask hreply hrun, ?_, hle, ?_, ?_⟩
    · rw [hout, hleft, hbytes]
    · exact hlen.trans hless.le
    · exact hend.imp_right fun h => ⟨h.1, h.2.trans hless⟩

lemma drainOutput_outcome {fuel : ℕ} {output : List UInt8} (eof : Bool)
    (hfuel : (schedule.steps stream).length < fuel) (hbound : output.length ≤ maxOutputBytes) :
    PipeOutcome schedule stream output eof (drainOutput stream fuel output eof) := by
  generalize hsteps : schedule.steps stream = steps at hfuel
  induction steps generalizing schedule fuel output with
  | nil =>
    -- nothing is left to deliver, so the read finds the end of the stream
    obtain ⟨fuel, rfl⟩ := Nat.exists_eq_succ_of_ne_zero (Nat.ne_of_gt hfuel)
    right
    refine ⟨[], output, true, ?_, by simp [Schedule.bytes, hsteps], hbound, Nat.zero_le _,
      Or.inl ⟨rfl, rfl⟩⟩
    rw [drainOutput, Prog.query_bind]
    refine Prog.yields_ask (r := .ok []) ?_ Prog.yields_ret
    simp only [Schedule.responder, hsteps]
    rw [← hsteps, Schedule.withSteps_steps]
  | cons step left ih =>
    obtain ⟨fuel, rfl⟩ := Nat.exists_eq_succ_of_ne_zero (Nat.ne_zero_of_lt hfuel)
    rw [List.length_cons] at hfuel
    have hbytes : schedule.bytes stream = step.bytes ++ left.flatMap ReadStep.bytes := by
      rw [Schedule.bytes, hsteps, List.flatMap_cons]
    have hless : left.length < (schedule.steps stream).length := by
      rw [hsteps, List.length_cons]
      omega
    rw [drainOutput, Prog.query_bind]
    cases step with
    | data first rest =>
      have hreply : Schedule.responder (.read stream chunkSize) schedule =
          (.ok (first :: rest), schedule.withSteps left stream) := by
        simp only [Schedule.responder, hsteps]
      by_cases hover : maxOutputBytes < output.length + (first :: rest).length
      · -- the chunk does not fit
        left
        refine ⟨.invalidData "output limit exceeded", Prog.aborts_ask hreply ?_, ?_⟩
        · dsimp only
          rw [if_pos hover]
          exact Prog.aborts_fail
        · rw [hbytes, List.length_append]
          exact hover.trans_le (Nat.add_le_add_left (Nat.le_add_right _ _) _)
      · have hbound' : (output ++ first :: rest).length ≤ maxOutputBytes := by
          rw [List.length_append]
          omega
        have hmore := ih hbound' (Schedule.steps_withSteps schedule left stream)
          (Nat.lt_of_succ_lt_succ hfuel)
        have hkept : output ++ first :: rest ++ left.flatMap ReadStep.bytes =
            output ++ schedule.bytes stream := by
          rw [hbytes, List.append_assoc]
          rfl
        refine PipeOutcome.next hreply hless hkept ?_
        dsimp only
        rw [if_neg hover]
        exact hmore
    | wouldBlock =>
      right
      refine ⟨left, output, eof, Prog.yields_ask (r := .error .wouldBlock) ?_ Prog.yields_ret,
        by rw [hbytes]; rfl, hbound, hless.le, Or.inr ⟨rfl, hless⟩⟩
      simp only [Schedule.responder, hsteps]
    | interrupted =>
      have hreply : Schedule.responder (.read stream chunkSize) schedule =
          (.error .interrupted, schedule.withSteps left stream) := by
        simp only [Schedule.responder, hsteps]
      have hmore := ih hbound (Schedule.steps_withSteps schedule left stream)
        (Nat.lt_of_succ_lt_succ hfuel)
      exact PipeOutcome.next hreply hless (congrArg (output ++ ·) hbytes.symm) hmore

/-- What the clock showed, reading after reading. -/
def clockReadings (es : List (Event CmdCalls)) : List Instant :=
  es.filterMap fun
    | ⟨.now, now⟩ => some now
    | _ => none

/-- A reading of the clock reached the deadline. -/
def Late (deadline : Instant) (es : List (Event CmdCalls)) : Prop :=
  ∃ now ∈ clockReadings es, deadline ≤ now

lemma mem_clockReadings {es : List (Event CmdCalls)} {now : Instant} :
    now ∈ clockReadings es ↔ (⟨.now, now⟩ : Event CmdCalls) ∈ es := by
  rw [clockReadings, List.mem_filterMap]
  constructor
  · rintro ⟨⟨query, reply⟩, he, heq⟩
    cases query with
    | now => exact Option.some.inj heq ▸ he
    | _ => exact absurd heq (by simp)
  · exact fun h => ⟨_, h, rfl⟩

lemma Late.mono {deadline : Instant} {es es' : List (Event CmdCalls)} (h : Late deadline es)
    (hsub : es ⊆ es') : Late deadline es' := by
  obtain ⟨now, hnow, hle⟩ := h
  exact ⟨now, mem_clockReadings.mpr (hsub (mem_clockReadings.mp hnow)), hle⟩

/-- Waiting ends, and only uses up polls and readings of the clock. -/
lemma yields_waitForOutput {fuel : ℕ} (stdoutEof stderrEof : Bool) (deadline : Instant)
    (hfuel : schedule.polls.length < fuel) :
    ∃ polls readings, (waitForOutput stdoutEof stderrEof deadline fuel).Yields Schedule.responder
        schedule () { schedule with polls, readings } ∧ polls.length ≤ schedule.polls.length := by
  induction fuel generalizing schedule with
  | zero => exact absurd hfuel (Nat.not_lt_zero _)
  | succ fuel ih =>
    rw [waitForOutput, Prog.query_bind]
    by_cases hover : deadline - schedule.clock schedule.readings = 0
    · refine ⟨schedule.polls, schedule.readings + 1, Prog.yields_ask rfl ?_, le_rfl⟩
      rw [if_pos hover]
      exact Prog.yields_ret
    -- the wait goes on only after a poll that was interrupted
    cases hpolls : schedule.polls with
    | nil =>
      refine ⟨[], schedule.readings + 1, Prog.yields_ask rfl ?_, le_rfl⟩
      rw [if_neg hover, Prog.query_bind, ← hpolls]
      refine Prog.yields_ask (r := .ok ()) ?_ Prog.yields_ret
      simp only [Schedule.responder, hpolls]
    | cons interrupted polls =>
      rw [hpolls, List.length_cons] at hfuel
      cases interrupted with
      | false =>
        refine ⟨polls, schedule.readings + 1, Prog.yields_ask rfl ?_, by simp⟩
        rw [if_neg hover, Prog.query_bind]
        refine Prog.yields_ask (r := .ok ()) ?_ Prog.yields_ret
        simp only [Schedule.responder, hpolls]
        rfl
      | true =>
        let polled : Schedule := { schedule with polls, readings := schedule.readings + 1 }
        have hpolled : polled.polls.length < fuel := Nat.lt_of_succ_lt_succ hfuel
        obtain ⟨polls', readings', hrun, hle⟩ := ih hpolled
        refine ⟨polls', readings', Prog.yields_ask rfl ?_, hle.trans (Nat.le_succ _)⟩
        rw [if_neg hover, Prog.query_bind]
        refine Prog.yields_ask (r := .error .interrupted) ?_ hrun
        simp only [Schedule.responder, hpolls]
        rfl

/-- What the child still has to do before its status is collected. -/
def Schedule.untilExit (schedule : Schedule) (status : Option ExitStatus) : ℕ :=
  schedule.running + if status.isNone then 1 else 0

/-- Asking for the status of a child that has not been collected brings its exit closer. -/
lemma yields_collectStatus (child : Child) {status : Option ExitStatus}
    (hstatus : ∀ st, status = some st → st = schedule.status) :
    ∃ status' left, (collectStatus child status).Yields Schedule.responder schedule status'
        { schedule with running := left } ∧
      (∀ st, status' = some st → st = schedule.status) ∧
      (status.isNone → Schedule.untilExit { schedule with running := left } status' <
        schedule.untilExit status) ∧
      Schedule.untilExit { schedule with running := left } status' ≤
        schedule.untilExit status := by
  rw [collectStatus]
  cases status with
  | some st => exact ⟨some st, schedule.running, Prog.yields_ret, hstatus, by simp, le_rfl⟩
  | none =>
    rw [if_pos Option.isNone_none, Prog.query_bind]
    cases hrunning : schedule.running with
    | zero =>
      refine ⟨some schedule.status, 0, Prog.yields_ask (r := .ok (some schedule.status)) ?_
        Prog.yields_ret, by simp, ?_, ?_⟩
      · simp only [Schedule.responder, hrunning]
        rw [← hrunning]
      · simp [Schedule.untilExit]
      · simp [Schedule.untilExit]
    | succ left =>
      refine ⟨none, left, Prog.yields_ask (r := .ok none) ?_ Prog.yields_ret, by simp, ?_, ?_⟩
      · simp only [Schedule.responder, hrunning]
      · simp [Schedule.untilExit, hrunning]
      · simp [Schedule.untilExit, hrunning]

/-- Before the deadline the loop waits. -/
lemma yields_awaitProgress {running : Running} {collected : Collected}
    (hfuel : schedule.polls.length < running.fuel)
    (hlate : ¬ Late running.deadline
      ((awaitProgress running collected).run Schedule.responder schedule).2.1) :
    ∃ polls readings, (awaitProgress running collected).Yields Schedule.responder schedule ()
        { schedule with polls, readings } ∧ polls.length ≤ schedule.polls.length := by
  rw [awaitProgress, Prog.query_bind] at hlate ⊢
  have hbefore : ¬ running.deadline ≤ schedule.clock schedule.readings := by
    intro hle
    refine hlate ⟨_, mem_clockReadings.mpr ?_, hle⟩
    rw [Prog.run_ask]
    exact List.mem_cons_self
  let looked : Schedule := { schedule with readings := schedule.readings + 1 }
  have hlooked : looked.polls.length < running.fuel := hfuel
  obtain ⟨polls, readings, hwait, hpolls⟩ := yields_waitForOutput collected.stdoutEof
    collected.stderrEof running.deadline hlooked
  refine ⟨polls, readings, Prog.yields_ask rfl ?_, hpolls⟩
  rw [if_neg hbefore]
  exact hwait.attempt.bind Prog.yields_ret

/-! ## The loop on a schedule -/

/-- What the variables of the loop say about the schedule that is left. -/
structure OnSchedule (schedule : Schedule) (collected : Collected) : Prop where
  stdoutEof : collected.stdoutEof = true → schedule.stdout = []
  stderrEof : collected.stderrEof = true → schedule.stderr = []
  status : ∀ status, collected.status = some status → status = schedule.status
  stdoutLimit : collected.stdoutBytes.length ≤ maxOutputBytes
  stderrLimit : collected.stderrBytes.length ≤ maxOutputBytes

/-- No pipe delivers more than the limit. -/
def WithinLimit (schedule : Schedule) (collected : Collected) : Prop :=
  collected.stdoutBytes.length + (schedule.bytes .stdout).length ≤ maxOutputBytes ∧
    collected.stderrBytes.length + (schedule.bytes .stderr).length ≤ maxOutputBytes

/-- Killing the child ends with the error that was given. -/
lemma aborts_terminateWith {α : Type} (child : Child) (status : Option ExitStatus)
    (error : Error) : (terminateWith child status error : Prog CmdCalls Error α).Aborts
      Schedule.responder schedule error := by
  have hreap : (terminateAndReap child status).Yields Schedule.responder schedule ()
      schedule := by
    rw [terminateAndReap]
    by_cases hpid : child.pid < 2 ^ 31
    · rw [if_pos hpid]
      cases status <;> exact ⟨_, rfl⟩
    · rw [if_neg hpid]
      cases status <;> exact ⟨_, rfl⟩
  exact hreap.bind_aborts Prog.aborts_fail

/-- What the child still has to do before the loop is left. -/
def Schedule.untilDone (schedule : Schedule) (status : Option ExitStatus) : ℕ :=
  schedule.stdout.length + schedule.stderr.length + schedule.untilExit status

/-- Both pipes have been read: each made progress or is at its end. -/
structure Drained (schedule schedule' : Schedule) (collected collected' : Collected) : Prop where
  on : OnSchedule schedule' collected'
  stdout : collected'.stdoutBytes ++ schedule'.bytes .stdout =
    collected.stdoutBytes ++ schedule.bytes .stdout
  stderr : collected'.stderrBytes ++ schedule'.bytes .stderr =
    collected.stderrBytes ++ schedule.bytes .stderr
  collectedStatus : collected'.status = collected.status
  status : schedule'.status = schedule.status
  running : schedule'.running = schedule.running
  polls : schedule'.polls = schedule.polls
  stdoutLe : schedule'.stdout.length ≤ schedule.stdout.length
  stderrLe : schedule'.stderr.length ≤ schedule.stderr.length
  stdoutEnd : collected'.stdoutEof = true ∨ schedule'.stdout.length < schedule.stdout.length
  stderrEnd : collected'.stderrEof = true ∨ schedule'.stderr.length < schedule.stderr.length

/-- Both pipes are read, unless one of them delivers more than the limit. -/
lemma drainBoth_outcome {running : Running} {collected : Collected}
    (hon : OnSchedule schedule collected) (hstdout : schedule.stdout.length < running.fuel)
    (hstderr : schedule.stderr.length < running.fuel) :
    (∃ error, (drainBoth running collected).Aborts Schedule.responder schedule error ∧
      ¬ WithinLimit schedule collected) ∨
    ∃ schedule' collected', (drainBoth running collected).Yields Schedule.responder schedule
      collected' schedule' ∧ Drained schedule schedule' collected collected' := by
  rcases @drainOutput_outcome schedule .stdout _ _ collected.stdoutEof hstdout hon.stdoutLimit with
    ⟨error, hrun, hover⟩ | ⟨stdout, stdoutBytes, stdoutEof, hrun₁, hbytes₁, hle₁, hlen₁, hend₁⟩
  · left
    obtain ⟨schedule', hattempt⟩ := hrun.attempt
    exact ⟨_, hattempt.bind_aborts (aborts_terminateWith _ _ _), fun h => by have := h.1; omega⟩
  rcases @drainOutput_outcome (schedule.withSteps stdout .stdout) .stderr _ _ collected.stderrEof
      hstderr hon.stderrLimit with
    ⟨error, hrun, hover⟩ | ⟨stderr, stderrBytes, stderrEof, hrun₂, hbytes₂, hle₂, hlen₂, hend₂⟩
  · left
    obtain ⟨schedule', hattempt⟩ := hrun.attempt
    refine ⟨_, hrun₁.attempt.bind_aborts (hattempt.bind_aborts (aborts_terminateWith _ _ _)), ?_⟩
    exact fun h => absurd h.2 (Nat.not_le.mpr hover)
  right
  have hon' : OnSchedule { schedule with stdout, stderr }
      { collected with stdoutBytes, stdoutEof, stderrBytes, stderrEof } := by
    -- a flag that was set before says that nothing was left then, so no step was taken
    refine ⟨fun heof => ?_, fun heof => ?_, hon.status, hle₁, hle₂⟩
    · rcases hend₁ with ⟨-, hnil⟩ | ⟨heq, hlt⟩
      · exact hnil
      · have hnil := hon.stdoutEof (heq ▸ heof)
        simp [Schedule.steps, hnil] at hlt
    · rcases hend₂ with ⟨-, hnil⟩ | ⟨heq, hlt⟩
      · exact hnil
      · have hnil := hon.stderrEof (heq ▸ heof)
        simp [Schedule.steps, Schedule.withSteps, hnil] at hlt
  refine ⟨{ schedule with stdout, stderr },
    { collected with stdoutBytes, stdoutEof, stderrBytes, stderrEof }, ?_, ?_⟩
  · exact hrun₁.attempt.bind (hrun₂.attempt.bind Prog.yields_ret)
  · exact ⟨hon', hbytes₁, hbytes₂, rfl, rfl, rfl, rfl, hlen₁, hlen₂,
      hend₁.imp And.left And.right, hend₂.imp And.left And.right⟩

/-- Reading does not change whether the limit is kept. -/
lemma Drained.withinLimit_iff {schedule schedule' : Schedule} {collected collected' : Collected}
    (h : Drained schedule schedule' collected collected') :
    WithinLimit schedule' collected' ↔ WithinLimit schedule collected := by
  have hstdout := congrArg List.length h.stdout
  have hstderr := congrArg List.length h.stderr
  rw [List.length_append, List.length_append] at hstdout hstderr
  rw [WithinLimit, WithinLimit, hstdout, hstderr]

/-- Unless all is done, a pipe made progress or the exit status is still to be collected. -/
lemma Drained.progress {schedule schedule' : Schedule} {collected collected' : Collected}
    (h : Drained schedule schedule' collected collected')
    (hdone : ¬ (collected'.status.isSome && collected'.stdoutEof && collected'.stderrEof) = true) :
    collected'.status.isNone = true ∨
      schedule'.stdout.length + schedule'.stderr.length <
        schedule.stdout.length + schedule.stderr.length := by
  have hout := h.stdoutLe
  have herr := h.stderrLe
  rcases h.stdoutEnd with hstdout | hstdout
  · rcases h.stderrEnd with hstderr | hstderr
    · left
      simpa [hstdout, hstderr] using hdone
    · right
      omega
  · right
    omega

/-- When all is done, everything has been read. -/
lemma Drained.done {schedule schedule' : Schedule} {collected collected' : Collected}
    (h : Drained schedule schedule' collected collected')
    (hdone : (collected'.status.isSome && collected'.stdoutEof && collected'.stderrEof) = true) :
    collected'.stdoutBytes = collected.stdoutBytes ++ schedule.bytes .stdout ∧
      collected'.stderrBytes = collected.stderrBytes ++ schedule.bytes .stderr ∧
      collected'.status = some schedule.status ∧ WithinLimit schedule collected := by
  rw [Bool.and_eq_true, Bool.and_eq_true] at hdone
  obtain ⟨⟨hexit, hstdout⟩, hstderr⟩ := hdone
  obtain ⟨status, hstatus⟩ := Option.isSome_iff_exists.mp hexit
  have hout : schedule'.bytes .stdout = [] := by
    simp [Schedule.bytes, Schedule.steps, h.on.stdoutEof hstdout]
  have herr : schedule'.bytes .stderr = [] := by
    simp [Schedule.bytes, Schedule.steps, h.on.stderrEof hstderr]
  refine ⟨?_, ?_, ?_, ?_⟩
  · rw [← h.stdout, hout, List.append_nil]
  · rw [← h.stderr, herr, List.append_nil]
  · rw [hstatus, h.on.status status hstatus, h.status]
  · rw [← h.withinLimit_iff, WithinLimit, hout, herr]
    exact ⟨h.on.stdoutLimit, h.on.stderrLimit⟩

/-- Otherwise a round leaves less to be done. -/
lemma Drained.untilDone_lt {schedule schedule' : Schedule} {collected collected' : Collected}
    {status : Option ExitStatus} {left readings : ℕ} {polls : List Bool}
    (h : Drained schedule schedule' collected collected')
    (hdone : ¬ (collected'.status.isSome && collected'.stdoutEof && collected'.stderrEof) = true)
    (hless : collected'.status.isNone →
      Schedule.untilExit { schedule' with running := left } status <
        schedule'.untilExit collected'.status)
    (hle : Schedule.untilExit { schedule' with running := left } status ≤
      schedule'.untilExit collected'.status) :
    Schedule.untilDone { schedule' with running := left, polls, readings } status <
      schedule.untilDone collected.status := by
  have hexit : schedule'.untilExit collected'.status = schedule.untilExit collected.status := by
    rw [Schedule.untilExit, Schedule.untilExit, h.running, h.collectedStatus]
  have hout := h.stdoutLe
  have herr := h.stderrLe
  rw [Schedule.untilDone, Schedule.untilDone]
  rcases h.progress hdone with hnone | hread
  · have hlt := hless hnone
    simp only [Schedule.untilExit] at hlt hexit ⊢
    omega
  · simp only [Schedule.untilExit] at hle hexit ⊢
    omega

/-- The loop reads everything, unless a pipe delivers more than the limit or the clock
reaches the deadline. -/
lemma collectOutput_outcome {running : Running} {fuel : ℕ} {collected : Collected}
    (hon : OnSchedule schedule collected) (hstdout : schedule.stdout.length < running.fuel)
    (hstderr : schedule.stderr.length < running.fuel)
    (hpolls : schedule.polls.length < running.fuel)
    (hfuel : schedule.untilDone collected.status < fuel)
    (hlate : ¬ Late running.deadline
      ((collectOutput running fuel collected).run Schedule.responder schedule).2.1) :
    (∃ error, (collectOutput running fuel collected).Aborts Schedule.responder schedule error ∧
      ¬ WithinLimit schedule collected) ∨
    ∃ collected' schedule',
      (collectOutput running fuel collected).Yields Schedule.responder schedule collected'
        schedule' ∧
      collected'.stdoutBytes = collected.stdoutBytes ++ schedule.bytes .stdout ∧
      collected'.stderrBytes = collected.stderrBytes ++ schedule.bytes .stderr ∧
      collected'.status = some schedule.status ∧ WithinLimit schedule collected := by
  induction fuel generalizing schedule collected with
  | zero => exact absurd hfuel (Nat.not_lt_zero _)
  | succ fuel ih =>
    rw [collectOutput] at hlate ⊢
    rcases drainBoth_outcome hon hstdout hstderr with
      ⟨error, hdrain, hover⟩ | ⟨schedule₁, collected₁, hdrain, hdrained⟩
    · exact Or.inl ⟨error, hdrain.bind _, hover⟩
    have hlate₁ := fun h => hlate (Late.mono h hdrain.events_subset_bind)
    by_cases hdone : (collected₁.status.isSome && collected₁.stdoutEof && collected₁.stderrEof) =
        true
    · -- both pipes are at their end, and the loop is left
      right
      refine ⟨collected₁, schedule₁, hdrain.bind ?_, hdrained.done hdone⟩
      rw [if_pos hdone]
      exact Prog.yields_ret
    · -- the status is asked for, the pipes are awaited, and the loop goes on
      rw [if_neg hdone] at hlate₁
      obtain ⟨status, left, hcollect, hstatus, hless, hle⟩ :=
        yields_collectStatus running.child hdrained.on.status
      have hlate₂ := fun h => hlate₁ (Late.mono h hcollect.events_subset_bind)
      dsimp only at hlate₂
      have hpolls₁ : schedule₁.polls.length < running.fuel := hdrained.polls ▸ hpolls
      obtain ⟨polls, readings, hawait, hle'⟩ := @yields_awaitProgress
        { schedule₁ with running := left } running { collected₁ with status } hpolls₁
        fun h => hlate₂ (Late.mono h (Prog.events_subset_bind _ _ _))
      have hlate₃ := fun h => hlate₂ (Late.mono h hawait.events_subset_bind)
      have hprogress : Schedule.untilDone { schedule₁ with running := left, polls, readings }
          status < fuel :=
        (hdrained.untilDone_lt hdone hless hle).trans_le (Nat.le_of_lt_succ hfuel)
      -- the next round starts on a shorter schedule
      have hon' : OnSchedule { schedule₁ with running := left, polls, readings }
          { collected₁ with status } :=
        ⟨hdrained.on.stdoutEof, hdrained.on.stderrEof, hstatus, hdrained.on.stdoutLimit,
          hdrained.on.stderrLimit⟩
      have hrest := ih hon' (hdrained.stdoutLe.trans_lt hstdout)
        (hdrained.stderrLe.trans_lt hstderr) (hle'.trans_lt hpolls₁) hprogress hlate₃
      rw [← hdrained.withinLimit_iff]
      rcases hrest with ⟨error, hloop, hover⟩ |
        ⟨collected', schedule', hloop, hout, herr, hexit, hwithin⟩
      · left
        refine ⟨error, hdrain.bind_aborts ?_, hover⟩
        rw [if_neg hdone]
        exact hcollect.bind_aborts (hawait.bind_aborts hloop)
      · right
        refine ⟨collected', schedule', hdrain.bind ?_, hout.trans hdrained.stdout,
          herr.trans hdrained.stderr, hexit.trans (congrArg some hdrained.status), hwithin⟩
        rw [if_neg hdone]
        exact hcollect.bind (hawait.bind hloop)

/-! ## The helper as a whole -/

/-- What the helper delivers is a text that `run_inner` accepts. -/
structure Schedule.Delivers (schedule : Schedule) (text : Text) : Prop where
  stdoutLimit : (schedule.bytes .stdout).length ≤ maxOutputBytes
  stderrLimit : (schedule.bytes .stderr).length ≤ maxOutputBytes
  success : schedule.status.success = true
  stderrUtf8 : (Text.fromUtf8 (schedule.bytes .stderr)).isSome = true
  stdoutUtf8 : Text.fromUtf8 (schedule.bytes .stdout) = some text

/-- What `run_inner` makes of output that it accepts. -/
lemma checkOutput_of_delivers {executable text : Text} {collected : Collected}
    (h : schedule.Delivers text) (hstatus : collected.status = some schedule.status)
    (hstdout : collected.stdoutBytes = schedule.bytes .stdout)
    (hstderr : collected.stderrBytes = schedule.bytes .stderr) :
    checkOutput executable collected = .ok text.trimEnd := by
  have hutf8 : ¬ (Text.fromUtf8 (schedule.bytes .stderr)).isNone = true := by
    rw [Option.isNone_iff_eq_none]
    exact Option.isSome_iff_ne_none.mp h.stderrUtf8
  simp only [checkOutput, hstatus, hstdout, hstderr, h.success, h.stdoutUtf8]
  rw [if_neg (by simp), if_neg hutf8]

/-- When everything has been read, `run_inner` accepts exactly what the helper delivers. -/
lemma checkOutput_outcome (executable : Text) {collected : Collected}
    (hstatus : collected.status = some schedule.status)
    (hstdout : collected.stdoutBytes = schedule.bytes .stdout)
    (hstderr : collected.stderrBytes = schedule.bytes .stderr)
    (hlimit : (schedule.bytes .stdout).length ≤ maxOutputBytes ∧
      (schedule.bytes .stderr).length ≤ maxOutputBytes) :
    (∃ error, checkOutput executable collected = .error error ∧
      ∀ text, ¬ schedule.Delivers text) ∨
    ∃ text, checkOutput executable collected = .ok text.trimEnd ∧ schedule.Delivers text := by
  cases hcheck : checkOutput executable collected with
  | error error =>
    left
    refine ⟨error, rfl, fun text h => ?_⟩
    have hok := @checkOutput_of_delivers _ executable _ _ h hstatus hstdout hstderr
    exact absurd (hcheck.symm.trans hok) (by simp)
  | ok trimmed =>
    right
    obtain ⟨status, text, hstatus', hsuccess, hutf8, htext, rfl⟩ := checkOutput_eq_ok hcheck
    obtain rfl : schedule.status = status := Option.some.inj (hstatus.symm.trans hstatus')
    exact ⟨text, rfl, hlimit.1, hlimit.2, hsuccess, hstderr ▸ hutf8, hstdout ▸ htext⟩

lemma yields_takeStreams (schedule : Schedule) (executable : Text) :
    (takeStreams executable ⟨schedule.pid, true, true⟩).Yields Schedule.responder schedule ()
      schedule :=
  ⟨_, rfl⟩

/-- A helper that is in time has its output returned when it is acceptable, and otherwise
the run ends with an error. -/
lemma runInner_outcome {executable : Text} {args : List Text} {timeout : Duration} {uid : Uid}
    {gid : Option Gid} {prevent : Bool} {fuel : ℕ} (habs : executable.isAbsolutePath = true)
    (hfuel : schedule.untilDone none + schedule.polls.length < fuel)
    (htime : ∀ now ∈ (clockReadings ((runInner fuel (executable :: args) timeout uid gid
      prevent).run Schedule.responder schedule).2.1).tail,
        now < schedule.clock schedule.readings + timeout) :
    (∃ error, (runInner fuel (executable :: args) timeout uid gid prevent).Aborts
      Schedule.responder schedule error ∧ ∀ text, ¬ schedule.Delivers text) ∨
    ∃ text schedule', (runInner fuel (executable :: args) timeout uid gid prevent).Yields
      Schedule.responder schedule text.trimEnd schedule' ∧ schedule.Delivers text := by
  obtain ⟨gid', hgid⟩ : ∃ gid', gidOrDefault gid = .ok gid' := by
    cases gid <;> exact ⟨_, rfl⟩
  rw [runInner.eq_def] at htime ⊢
  dsimp only at htime ⊢
  rw [if_neg (by simp [habs]), hgid, Prog.ofExcept, Prog.ret_bind, Prog.query_bind] at htime ⊢
  let started : Schedule := { schedule with readings := schedule.readings + 1 }
  let running : Running := ⟨executable, timeout, schedule.clock schedule.readings + timeout,
    ⟨schedule.pid, true, true⟩, fuel⟩
  let collected : Collected := ⟨[], [], false, false, none⟩
  have hstreams := (yields_takeStreams started executable).attempt
    (δ := Error)
  -- the readings of the loop are among those of the whole run
  have hlate : ¬ Late running.deadline
      ((collectOutput running fuel collected).run Schedule.responder started).2.1 := by
    rintro ⟨now, hnow, hle⟩
    refine absurd (htime now ?_) (Nat.not_lt.mpr hle)
    rw [Prog.run_ask, Prog.query_bind, Prog.run_ask, Prog.query_bind, Prog.run_ask]
    refine mem_clockReadings.mpr (List.mem_cons_of_mem _ (hstreams.events_subset_bind ?_))
    exact Prog.events_subset_bind _ _ _ (mem_clockReadings.mp hnow)
  have hon : OnSchedule started collected :=
    ⟨by simp [collected], by simp [collected], by simp [collected], Nat.zero_le _, Nat.zero_le _⟩
  have hwithin : WithinLimit started collected ↔ (schedule.bytes .stdout).length ≤ maxOutputBytes ∧
      (schedule.bytes .stderr).length ≤ maxOutputBytes := by
    rw [WithinLimit]
    simp only [collected, List.length_nil, Nat.zero_add]
    exact Iff.rfl
  simp only [Schedule.untilDone, Schedule.untilExit] at hfuel
  have hloop := collectOutput_outcome hon
    (show schedule.stdout.length < fuel by omega) (show schedule.stderr.length < fuel by omega)
    (show schedule.polls.length < fuel by omega)
    (show schedule.untilDone none < fuel by
      simp only [Schedule.untilDone, Schedule.untilExit]
      omega) hlate
  rw [hwithin] at hloop
  rcases hloop with ⟨error, hloop, hover⟩ |
    ⟨collected', schedule', hloop, hout, herr, hstatus, hlimit⟩
  · left
    refine ⟨error, Prog.aborts_ask rfl (Prog.aborts_ask rfl (Prog.aborts_ask rfl ?_)), ?_⟩
    · exact hstreams.bind_aborts (hloop.bind _)
    · exact fun text h => hover ⟨h.stdoutLimit, h.stderrLimit⟩
  · rcases @checkOutput_outcome schedule executable collected' hstatus hout herr hlimit with
      ⟨error, hcheck, hnone⟩ | ⟨text, hcheck, hdelivers⟩
    · left
      refine ⟨error, Prog.aborts_ask rfl (Prog.aborts_ask rfl (Prog.aborts_ask rfl ?_)), hnone⟩
      refine hstreams.bind_aborts (hloop.bind_aborts ?_)
      rw [hcheck]
      exact Prog.aborts_fail
    · right
      refine ⟨text, schedule', ?_, hdelivers⟩
      refine Prog.yields_ask rfl (Prog.yields_ask rfl (Prog.yields_ask rfl ?_))
      refine hstreams.bind (hloop.bind ?_)
      rw [hcheck]
      exact Prog.yields_ret

lemma Schedule.Delivers.unique {text text' : Text} (h : schedule.Delivers text)
    (h' : schedule.Delivers text') : text = text' :=
  Option.some.inj (h.stdoutUtf8.symm.trans h'.stdoutUtf8)

/-- **Complete output or an error.** -/
theorem output_complete_or_error (timeout : Duration) (uid : Uid) (gid : Option Gid)
    (prevent : Bool) :
    (∀ fuel command es text, (runInner fuel command timeout uid gid prevent).Returns es text →
      CompleteOutput es text) ∧
    ∀ (schedule : Schedule) (executable : Text) (args : List Text) (text : Text),
      executable.isAbsolutePath = true → schedule.Delivers text →
        ∃ enough, ∀ fuel, enough ≤ fuel →
          let run := (runInner fuel (executable :: args) timeout uid gid prevent).run
            Schedule.responder schedule
          (∀ now ∈ (clockReadings run.2.1).tail,
            now < schedule.clock schedule.readings + timeout) → run.1 = .ret text.trimEnd := by
  refine ⟨fun fuel command es text h => completeOutput_of_returns h, ?_⟩
  intro schedule executable args text habs hdelivers
  refine ⟨schedule.untilDone none + schedule.polls.length + 1, fun fuel hfuel htime => ?_⟩
  rcases runInner_outcome habs hfuel htime with
    ⟨error, -, hnone⟩ | ⟨text', schedule', ⟨es, hrun⟩, hdelivers'⟩
  · exact absurd hdelivers (hnone text)
  · rw [hrun, hdelivers.unique hdelivers']

lemma Schedule.responder_clock (query : CmdQuery) (schedule : Schedule) :
    (responder query schedule).2.clock = schedule.clock := by
  cases query with
  | read stream limit =>
    cases hsteps : schedule.steps stream with
    | nil => simp [responder, hsteps]
    | cons step left => cases step <;> cases stream <;> simp [responder, hsteps, withSteps]
  | tryWait pid => cases hrunning : schedule.running <;> simp [responder, hrunning]
  | poll streams timeout => cases hpolls : schedule.polls <;> simp [responder, hpolls]
  | _ => rfl

/-- What a run reads from the clock is what the clock of the schedule shows. -/
lemma exists_clock_of_mem {ε α : Type} (p : Prog CmdCalls ε α) {now : Instant}
    (h : now ∈ clockReadings (p.run Schedule.responder schedule).2.1) :
    ∃ reading, now = schedule.clock reading := by
  have hstep : ∀ query (later : Schedule), later.clock = schedule.clock →
      (∀ now : Instant, (⟨query, (Schedule.responder query later).1⟩ : Event CmdCalls) =
        ⟨.now, now⟩ → ∃ reading, now = schedule.clock reading) ∧
      (Schedule.responder query later).2.clock = schedule.clock := by
    refine fun query later hclock => ⟨fun now heq => ?_, (later.responder_clock query).trans hclock⟩
    obtain ⟨rfl, hnow⟩ := Event.mk.inj heq
    exact ⟨later.readings, hclock ▸ (eq_of_heq hnow).symm⟩
  have hall : ∀ e ∈ (p.run Schedule.responder schedule).2.1, ∀ now : Instant, e = ⟨.now, now⟩ →
      ∃ reading, now = schedule.clock reading := by
    refine Prog.forall_mem_run hstep p ?_
    rfl
  exact hall _ (mem_clockReadings.mp h) now rfl

/-- A helper that prints its key in two parts, with pauses, while it is running and after it has
exited. -/
def pausingHelper : Schedule where
  pid := 5
  euid := 0
  stdout := [.wouldBlock, .data 107 [101], .wouldBlock, .interrupted, .data 121 [10]]
  stderr := [.wouldBlock]
  running := 1
  status := ⟨some 0⟩
  polls := [false, true]
  clock readings := min readings 100
  readings := 0

/-- Its key is returned. -/
theorem output_complete_or_error_pausing : ∃ enough, ∀ fuel, enough ≤ fuel →
    ((runInner fuel ["/bin/keys"] (Duration.fromSecs 10) 99 none true).run Schedule.responder
      pausingHelper).1 = .ret "key" := by
  obtain ⟨enough, henough⟩ := (output_complete_or_error (Duration.fromSecs 10) 99 none true).2
    pausingHelper "/bin/keys" [] "key\n" (by decide)
    ⟨by decide, by decide, rfl, by decide, by decide +kernel⟩
  refine ⟨enough, fun fuel hfuel => henough fuel hfuel fun now hnow => ?_⟩
  obtain ⟨reading, rfl⟩ := exists_clock_of_mem _ (List.mem_of_mem_tail hnow)
  exact lt_of_le_of_lt (Nat.min_le_right reading 100) (by decide)

end PamSshAgent
