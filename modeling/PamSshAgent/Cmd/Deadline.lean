import PamSshAgent.Cmd.Schedule
import PamSshAgent.Library.Halting

/-!
# The deadline of the helper

The deadline is fixed right before the helper is started.  Until then, and whatever the
helper does with its pipes and its exit, `run_inner` blocks nowhere but in polls that end by
the deadline, and in the wait for a child that it has killed; and it comes to an end.
-/

namespace PamSshAgent

open Interaction

/-! ## No call blocks beyond the deadline -/

/-- After the calls `before`, the call does not block beyond the deadline. -/
def ArmedCall (deadline : Instant) (before : List (Event CmdCalls)) : CmdQuery → Prop
  | .poll _ milliseconds => ∃ now : Instant, [⟨.now, now⟩] <:+ before ∧ now < deadline ∧
      1 ≤ milliseconds ∧ (milliseconds = 1 ∨ milliseconds * 10 ^ 6 ≤ deadline - now)
  | .read stream _ => ∃ flags, (⟨.setNonblocking stream flags, .ok ()⟩ : Event CmdCalls) ∈ before
  | .wait pid => [⟨.kill pid, ()⟩] <:+ before
  | _ => True

/-- The pipe does not block. -/
def Nonblocking (stream : Stream) (es : List (Event CmdCalls)) : Prop :=
  ∃ flags, (⟨.setNonblocking stream flags, .ok ()⟩ : Event CmdCalls) ∈ es

variable {deadline : Instant} {stream : Stream} {before : List (Event CmdCalls)}

lemma Nonblocking.append (h : Nonblocking stream before) (es : List (Event CmdCalls)) :
    Nonblocking stream (before ++ es) := by
  obtain ⟨flags, hmem⟩ := h
  exact ⟨flags, List.mem_append_left es hmem⟩

/-- The poll gets the time that is left, in milliseconds, and at least one. -/
lemma pollMillis_bounds (noOpenStreams : Bool) (remaining : ℕ) :
    1 ≤ pollMillis noOpenStreams remaining ∧ (pollMillis noOpenStreams remaining = 1 ∨
      pollMillis noOpenStreams remaining * 10 ^ 6 ≤ remaining) := by
  have hmillis : remaining / 10 ^ 6 * 10 ^ 6 ≤ remaining := Nat.div_mul_le_self _ _
  rw [pollMillis, Duration.asMillis]
  split_ifs <;> omega

lemma waitForOutput_armed (stdoutEof stderrEof : Bool) (fuel : ℕ)
    (before : List (Event CmdCalls)) :
    (waitForOutput stdoutEof stderrEof deadline fuel).AsksAfter (ArmedCall deadline) before := by
  induction fuel generalizing before with
  | zero => trivial
  | succ fuel ih =>
    rw [waitForOutput, Prog.query_bind]
    refine ⟨trivial, fun now => ?_⟩
    dsimp only
    by_cases hleft : (deadline - now : ℕ) = 0
    · rw [if_pos hleft]
      trivial
    obtain ⟨hone, hbound⟩ := pollMillis_bounds
      (([if stdoutEof then none else some Stream.stdout,
        if stderrEof then none else some Stream.stderr] : List (Option Stream)).all Option.isNone)
      (deadline - now)
    rw [if_neg hleft, Prog.query_bind]
    refine ⟨⟨now, ⟨before, rfl⟩, Nat.sub_ne_zero_iff_lt.mp hleft, hone, hbound⟩, ?_⟩
    rintro (error | _)
    · cases error with
      | interrupted => exact ih _
      | _ => trivial
    · trivial

lemma drainOutput_armed (fuel : ℕ) (output : List UInt8) (eof : Bool)
    (h : Nonblocking stream before) :
    (drainOutput stream fuel output eof).AsksAfter (ArmedCall deadline) before := by
  induction fuel generalizing output before with
  | zero => trivial
  | succ fuel ih =>
    rw [drainOutput, Prog.query_bind]
    refine ⟨h, ?_⟩
    rintro (error | chunk)
    · cases error with
      | interrupted => exact ih _ (h.append _)
      | _ => trivial
    · cases chunk with
      | nil => trivial
      | cons byte chunk =>
        dsimp only
        split_ifs
        · trivial
        · exact ih _ (h.append _)

lemma terminateWith_armed {α : Type} (child : Child) (status : Option ExitStatus) (error : Error)
    (before : List (Event CmdCalls)) :
    (terminateWith child status error : Prog CmdCalls Error α).AsksAfter (ArmedCall deadline)
      before := by
  refine Prog.AsksAfter.bind ?_ fun _ _ _ => trivial
  rw [terminateAndReap]
  split_ifs
  · exact ⟨trivial, fun _ => ⟨trivial, fun _ => ⟨⟨_, rfl⟩, fun _ => trivial⟩⟩⟩
  · exact ⟨trivial, fun _ => trivial⟩
  · exact ⟨trivial, fun _ => ⟨⟨_, rfl⟩, fun _ => trivial⟩⟩
  · trivial

/-- Both pipes do not block. -/
def BothNonblocking (es : List (Event CmdCalls)) : Prop := ∀ stream, Nonblocking stream es

lemma BothNonblocking.append (h : BothNonblocking before) (es : List (Event CmdCalls)) :
    BothNonblocking (before ++ es) := fun stream => (h stream).append es

lemma drainBoth_armed (running : Running) (collected : Collected) (h : BothNonblocking before) :
    (drainBoth running collected).AsksAfter (ArmedCall deadline) before := by
  rw [drainBoth]
  refine (drainOutput_armed _ _ _ (h .stdout)).attempt.bind fun stdout es _ => ?_
  rcases stdout with error | ⟨stdoutBytes, stdoutEof⟩
  · exact terminateWith_armed _ _ _ _
  refine (drainOutput_armed _ _ _ (h.append es .stderr)).attempt.bind fun stderr es _ => ?_
  rcases stderr with error | ⟨stderrBytes, stderrEof⟩
  · exact terminateWith_armed _ _ _ _
  · trivial

lemma collectStatus_armed (child : Child) (status : Option ExitStatus)
    (before : List (Event CmdCalls)) :
    (collectStatus child status).AsksAfter (ArmedCall deadline) before := by
  rw [collectStatus]
  split_ifs
  · refine ⟨trivial, ?_⟩
    rintro (error | result)
    · exact terminateWith_armed _ _ _ _
    · trivial
  · trivial

lemma awaitProgress_armed (running : Running) (collected : Collected)
    (before : List (Event CmdCalls)) :
    (awaitProgress running collected).AsksAfter (ArmedCall running.deadline) before := by
  rw [awaitProgress, Prog.query_bind]
  refine ⟨trivial, fun now => ?_⟩
  dsimp only
  split_ifs
  · exact terminateWith_armed _ _ _ _
  refine (waitForOutput_armed _ _ _ _).attempt.bind fun waited _ _ => ?_
  rcases waited with error | _
  · exact terminateWith_armed _ _ _ _
  · trivial

lemma collectOutput_armed (running : Running) (fuel : ℕ) (collected : Collected)
    (h : BothNonblocking before) :
    (collectOutput running fuel collected).AsksAfter (ArmedCall running.deadline) before := by
  induction fuel generalizing collected before with
  | zero => trivial
  | succ fuel ih =>
    rw [collectOutput]
    refine (drainBoth_armed running collected h).bind fun drained es₁ _ => ?_
    split_ifs
    · trivial
    refine (collectStatus_armed _ _ _).bind fun status es₂ _ => ?_
    refine (awaitProgress_armed running _ _).bind fun _ es₃ _ => ?_
    exact ih _ (((h.append es₁).append es₂).append es₃)

lemma nonblocking_of_setNonblocking {es : List (Event CmdCalls)}
    (h : (setNonblocking stream).Returns es ()) : Nonblocking stream es := by
  rw [setNonblocking, Prog.query_bind] at h
  obtain ⟨reply, es₁, rfl, hget⟩ := Prog.returns_ask.mp h
  obtain ⟨es₂, es₃, flags, rfl, -, hset⟩ := Prog.returns_bind.mp hget
  rw [Prog.query_bind] at hset
  obtain ⟨set, es₄, rfl, hend⟩ := Prog.returns_ask.mp hset
  obtain ⟨rfl, rfl⟩ := Prog.returns_ofExcept.mp hend
  exact ⟨flags, by simp⟩

/-- A run goes on with the pipes only when they are non-blocking. -/
lemma nonblocking_of_takeStreams {executable : Text} {child : Child} {es : List (Event CmdCalls)}
    (h : (takeStreams executable child).Returns es ()) : BothNonblocking es := by
  have hset : ∀ stream es, ((setNonblocking stream).attempt >>= fun x =>
      Prog.ofExcept (x.mapError Error.io)).Returns es () → Nonblocking stream es := by
    intro stream es h
    obtain ⟨es₁, es₂, x, rfl, hx, hrest⟩ := Prog.returns_bind.mp h
    rcases x with error | _
    · exact absurd (Prog.returns_ofExcept.mp hrest).2 (by simp [Except.mapError])
    · rw [Prog.returns_attempt_iff_ends] at hx
      exact (nonblocking_of_setNonblocking hx).append es₂
  rw [takeStreams] at h
  split_ifs at h
  · exact absurd h Prog.not_returns_fail
  · exact absurd h Prog.not_returns_fail
  rw [← Prog.bind_bind] at h
  obtain ⟨es₁, es₂, _, rfl, hstdout, hstderr⟩ := Prog.returns_bind.mp h
  obtain ⟨flags, hmem⟩ := hset .stderr es₂ hstderr
  intro stream
  cases stream with
  | stdout => exact (hset .stdout es₁ hstdout).append es₂
  | stderr => exact ⟨flags, List.mem_append_right es₁ hmem⟩

lemma takeStreams_armed (executable : Text) (child : Child) (before : List (Event CmdCalls)) :
    (takeStreams executable child).AsksAfter (ArmedCall deadline) before := by
  have hset : ∀ stream before, (setNonblocking stream).AsksAfter (ArmedCall deadline) before := by
    intro stream before
    refine ⟨trivial, fun flags => (Prog.asksAfter_ofExcept _ _).bind fun flags _ _ => ?_⟩
    exact ⟨trivial, fun reply => Prog.asksAfter_ofExcept _ _⟩
  rw [takeStreams]
  split_ifs
  · trivial
  · trivial
  refine (hset .stdout before).attempt.bind fun stdout _ _ => ?_
  refine (Prog.asksAfter_ofExcept _ _).bind fun _ _ _ => ?_
  exact (hset .stderr _).attempt.bind fun stderr _ _ => Prog.asksAfter_ofExcept _ _

/-- The first two calls fix the deadline. -/
lemma runInner_armed {fuel : ℕ} {command : List Text} {timeout : Duration} {uid euid : Uid}
    {gid : Option Gid} {prevent : Bool} {start : Instant} {es : List (Event CmdCalls)}
    {p : Prog CmdCalls Error Text} (h : (runInner fuel command timeout uid gid prevent).Steps
      (⟨.geteuid, euid⟩ :: ⟨.now, start⟩ :: es) p) :
    ∀ before e after, es = before ++ e :: after →
      ArmedCall (start + timeout) ([⟨.geteuid, euid⟩, ⟨.now, start⟩] ++ before) e.query := by
  cases command with
  | nil => cases h
  | cons executable args =>
  rw [runInner] at h
  split_ifs at h
  · cases h
  cases hgid : gidOrDefault gid with
  | error error =>
    rw [hgid] at h
    cases h
  | ok gid' =>
  rw [hgid, Prog.ofExcept_ok, Prog.ret_bind, Prog.query_bind] at h
  cases h with
  | ask h =>
  cases h with
  | ask h =>
  refine h.asksAfter ⟨trivial, ?_⟩
  rintro (error | child)
  · trivial
  refine (takeStreams_armed executable child _).attempt.bind fun taken es₁ htaken => ?_
  rcases taken with error | _
  · exact terminateWith_armed _ _ _ _
  rw [Prog.returns_attempt_iff_ends] at htaken
  have hpipes : BothNonblocking es₁ := nonblocking_of_takeStreams htaken
  refine (collectOutput_armed { executable, timeout, deadline := start + timeout, child, fuel } fuel
    _ fun stream => ?_).bind fun collected _ _ => Prog.asksAfter_ofExcept _ _
  obtain ⟨flags, hmem⟩ := hpipes stream
  exact ⟨flags, List.mem_append_right _ hmem⟩

/-! ## The run comes to an end -/

/-- A call that lets a loop go on: a reading of the clock before the deadline, or a read that
was interrupted. -/
def Stalls (deadline : Instant) : Event CmdCalls → Bool
  | ⟨.now, now⟩ => decide (now < deadline)
  | ⟨.read _ _, .error .interrupted⟩ => true
  | _ => false

lemma waitForOutput_spins (stdoutEof stderrEof : Bool) (fuel : ℕ) :
    (waitForOutput stdoutEof stderrEof deadline fuel).SpinsOnly
      fun es => fuel ≤ es.countP (Stalls deadline) := by
  induction fuel with
  | zero => exact Prog.spinsOnly_spin (Nat.zero_le _)
  | succ fuel ih =>
    rw [waitForOutput, Prog.query_bind]
    refine Prog.spinsOnly_ask fun now => ?_
    by_cases hleft : (deadline - now : ℕ) = 0
    · rw [if_pos hleft]
      exact Prog.spinsOnly_ret _
    have hstalls : Stalls deadline ⟨.now, now⟩ = true :=
      decide_eq_true (Nat.sub_ne_zero_iff_lt.mp hleft)
    rw [if_neg hleft, Prog.query_bind]
    refine Prog.spinsOnly_ask ?_
    rintro (error | _)
    · cases error with
      | interrupted =>
        refine ih.mono fun es h => ?_
        rw [List.countP_cons, List.countP_cons, if_pos hstalls]
        omega
      | _ => exact Prog.spinsOnly_fail _
    · exact Prog.spinsOnly_ret _

/-- Each read that is not interrupted delivers something, up to the limit. -/
lemma drainOutput_spins (deadline : Instant) (fuel : ℕ) (output : List UInt8) (eof : Bool) :
    (drainOutput stream fuel output eof).SpinsOnly fun es =>
      fuel ≤ es.countP (Stalls deadline) + (maxOutputBytes - output.length) + 1 := by
  induction fuel generalizing output with
  | zero => exact Prog.spinsOnly_spin (Nat.zero_le _)
  | succ fuel ih =>
    rw [drainOutput, Prog.query_bind]
    refine Prog.spinsOnly_ask ?_
    rintro (error | chunk)
    · cases error with
      | interrupted =>
        have hstalls : Stalls deadline ⟨.read stream chunkSize, .error .interrupted⟩ = true := rfl
        refine (ih output).mono fun es h => ?_
        rw [List.countP_cons, if_pos hstalls]
        omega
      | _ => first | exact Prog.spinsOnly_ret _ | exact Prog.spinsOnly_fail _
    · cases chunk with
      | nil => exact Prog.spinsOnly_ret _
      | cons byte chunk =>
        dsimp only
        split_ifs with hlimit
        · exact Prog.spinsOnly_fail _
        · refine (ih (output ++ byte :: chunk)).mono fun es h => ?_
          rw [List.countP_cons]
          rw [List.length_append, List.length_cons] at h
          rw [List.length_cons] at hlimit
          omega

lemma terminateWith_spins {α : Type} {R : List (Event CmdCalls) → Prop} (child : Child)
    (status : Option ExitStatus) (error : Error) :
    (terminateWith child status error : Prog CmdCalls Error α).SpinsOnly R := by
  refine Prog.SpinsOnly.bind ?_ fun _ _ _ => Prog.spinsOnly_fail _
  rw [terminateAndReap]
  split_ifs
  · exact Prog.spinsOnly_ask fun _ => Prog.spinsOnly_ask fun _ => Prog.spinsOnly_ask
      fun _ => Prog.spinsOnly_ret _
  · exact Prog.spinsOnly_ask fun _ => Prog.spinsOnly_ret _
  · exact Prog.spinsOnly_ask fun _ => Prog.spinsOnly_ask fun _ => Prog.spinsOnly_ret _
  · exact Prog.spinsOnly_ret _

lemma drainBoth_spins (running : Running) (collected : Collected) :
    (drainBoth running collected).SpinsOnly fun es =>
      running.fuel ≤ es.countP (Stalls deadline) + maxOutputBytes + 1 := by
  have hdrain : ∀ stream output eof, (drainOutput stream running.fuel output eof).SpinsOnly
      fun es => running.fuel ≤ es.countP (Stalls deadline) + maxOutputBytes + 1 := by
    intro stream output eof
    refine (drainOutput_spins deadline running.fuel output eof).mono fun es h => ?_
    omega
  rw [drainBoth]
  refine (hdrain _ _ _).attempt.bind fun es₁ stdout _ => ?_
  rcases stdout with error | ⟨stdoutBytes, stdoutEof⟩
  · exact terminateWith_spins _ _ _
  refine ((hdrain _ _ _).mono fun es h => ?_).attempt.bind fun es₂ stderr _ => ?_
  · rw [List.countP_append]
    omega
  rcases stderr with error | ⟨stderrBytes, stderrEof⟩
  · exact terminateWith_spins _ _ _
  · exact Prog.spinsOnly_ret _

lemma collectStatus_spins {R : List (Event CmdCalls) → Prop} (child : Child)
    (status : Option ExitStatus) : (collectStatus child status).SpinsOnly R := by
  rw [collectStatus]
  split_ifs
  · refine Prog.spinsOnly_ask ?_
    rintro (error | result)
    · exact terminateWith_spins _ _ _
    · exact Prog.spinsOnly_ret _
  · exact Prog.spinsOnly_ret _

lemma awaitProgress_spins (running : Running) (collected : Collected) :
    (awaitProgress running collected).SpinsOnly fun es =>
      running.fuel ≤ es.countP (Stalls running.deadline) := by
  rw [awaitProgress, Prog.query_bind]
  refine Prog.spinsOnly_ask fun now => ?_
  split_ifs
  · exact terminateWith_spins _ _ _
  refine ((waitForOutput_spins _ _ _).mono fun es h => ?_).attempt.bind fun es waited _ => ?_
  · rw [List.countP_cons]
    omega
  rcases waited with error | _
  · exact terminateWith_spins _ _ _
  · exact Prog.spinsOnly_ret _

/-- A round that goes on has read the clock before the deadline. -/
lemma stalls_of_awaitProgress {running : Running} {collected : Collected}
    {es : List (Event CmdCalls)} (h : (awaitProgress running collected).Returns es ()) :
    1 ≤ es.countP (Stalls running.deadline) := by
  rw [awaitProgress, Prog.query_bind] at h
  obtain ⟨now, es', rfl, hrest⟩ := Prog.returns_ask.mp h
  split_ifs at hrest with hlate
  · exact absurd hrest not_returns_terminateWith
  have hstalls : Stalls running.deadline ⟨.now, now⟩ = true :=
    decide_eq_true (Nat.lt_of_not_le hlate)
  rw [List.countP_cons, if_pos hstalls]
  omega

lemma collectOutput_spins (running : Running) (fuel : ℕ) (collected : Collected) :
    (collectOutput running fuel collected).SpinsOnly fun es =>
      min fuel running.fuel ≤ es.countP (Stalls running.deadline) + maxOutputBytes + 1 := by
  have hrounds : (collectOutput running fuel collected).SpinsOnly fun es =>
      fuel ≤ es.countP (Stalls running.deadline) ∨
        running.fuel ≤ es.countP (Stalls running.deadline) + maxOutputBytes + 1 := by
    induction fuel generalizing collected with
    | zero => exact Prog.spinsOnly_spin (Or.inl (Nat.zero_le _))
    | succ fuel ih =>
      rw [collectOutput]
      refine ((drainBoth_spins running collected).mono fun es => Or.inr).bind
        fun es₁ drained _ => ?_
      split_ifs
      · exact Prog.spinsOnly_ret _
      refine (collectStatus_spins _ _).bind fun es₂ status _ => ?_
      refine ((awaitProgress_spins running _).mono fun es h => Or.inr ?_).bind
        fun es₃ _ hawait => ?_
      · simp only [List.countP_append]
        omega
      · have hround := stalls_of_awaitProgress hawait
        refine (ih _).mono fun es h => ?_
        simp only [List.countP_append]
        omega
  exact hrounds.mono fun es h => by omega

/-- The deadline that a run has fixed: the first reading of the clock and the timeout. -/
def deadlineOf (timeout : Duration) (es : List (Event CmdCalls)) : Instant :=
  (clockReadings es).head?.getD 0 + timeout

/-- How often the loops of a run could go on. -/
def helperStalls (timeout : Duration) (es : List (Event CmdCalls)) : ℕ :=
  es.countP (Stalls (deadlineOf timeout es))

/-- The helper cannot keep `run_inner` from ending. -/
lemma runInner_spins (fuel : ℕ) (command : List Text) (timeout : Duration) (uid : Uid)
    (gid : Option Gid) (prevent : Bool) :
    (runInner fuel command timeout uid gid prevent).SpinsOnly fun es =>
      fuel ≤ helperStalls timeout es + maxOutputBytes + 1 := by
  cases command with
  | nil => exact Prog.spinsOnly_fail _
  | cons executable args =>
  rw [runInner]
  split_ifs
  · exact Prog.spinsOnly_fail _
  refine (Prog.spinsOnly_ofExcept _).bind fun es₀ gid' hgid => ?_
  obtain ⟨rfl, -⟩ := Prog.returns_ofExcept.mp hgid
  refine Prog.spinsOnly_ask fun euid => Prog.spinsOnly_ask fun start => Prog.spinsOnly_ask ?_
  rintro (error | child)
  · exact Prog.spinsOnly_fail _
  have hset : ∀ {R : List (Event CmdCalls) → Prop} stream, (setNonblocking stream).SpinsOnly R := by
    intro R stream
    refine Prog.spinsOnly_ask fun flags => (Prog.spinsOnly_ofExcept _).bind fun _ _ _ => ?_
    exact Prog.spinsOnly_ask fun reply => Prog.spinsOnly_ofExcept _
  have htake : ∀ {R : List (Event CmdCalls) → Prop}, (takeStreams executable child).SpinsOnly R := by
    intro R
    rw [takeStreams]
    split_ifs
    · exact Prog.spinsOnly_fail _
    · exact Prog.spinsOnly_fail _
    refine (hset .stdout).attempt.bind fun _ _ _ => (Prog.spinsOnly_ofExcept _).bind fun _ _ _ => ?_
    exact (hset .stderr).attempt.bind fun _ _ _ => Prog.spinsOnly_ofExcept _
  refine htake.attempt.bind fun es₁ taken _ => ?_
  rcases taken with error | _
  · exact terminateWith_spins _ _ _
  refine Prog.SpinsOnly.bind ?_ fun _ _ _ => Prog.spinsOnly_ofExcept _
  refine (collectOutput_spins { executable, timeout, deadline := start + timeout, child, fuel } fuel
    _).mono fun es h => ?_
  -- the second call of the run is the first reading of the clock
  show fuel ≤ List.countP (Stalls (start + timeout)) _ + maxOutputBytes + 1
  rw [Nat.min_self] at h
  refine h.trans ?_
  simp only [List.countP_cons, List.countP_append]
  omega

/-! ## The helper keeps its deadline -/

lemma clockReadings_append (es es' : List (Event CmdCalls)) :
    clockReadings (es ++ es') = clockReadings es ++ clockReadings es' := List.filterMap_append

/-- The calls that follow the first two keep the deadline. -/
structure KeepsTime (deadline : Instant) (first es : List (Event CmdCalls)) : Prop where
  /-- No call blocks beyond the deadline. -/
  armed : ∀ before e after, es = before ++ e :: after → ArmedCall deadline (first ++ before) e.query
  /-- If time does not go back, nothing is waited for once the deadline was seen to be over. -/
  late : (clockReadings (first ++ es)).Pairwise (· ≤ ·) → ∀ before (now : Instant) after,
    es = before ++ ⟨.now, now⟩ :: after → deadline ≤ now → ∀ streams milliseconds reply,
      (⟨.poll streams milliseconds, reply⟩ : Event CmdCalls) ∉ after

/-- The reading in front of a poll is the latest one. -/
lemma keepsTime_of_armed {first es : List (Event CmdCalls)}
    (h : ∀ before e after, es = before ++ e :: after →
      ArmedCall deadline (first ++ before) e.query) : KeepsTime deadline first es := by
  refine ⟨h, ?_⟩
  intro hclock before now after hsplit hover streams milliseconds reply hpoll
  obtain ⟨between, rest, rfl⟩ := List.append_of_mem hpoll
  let earlier := before ++ ⟨.now, now⟩ :: between
  have hsplit' : es = earlier ++ ⟨.poll streams milliseconds, reply⟩ :: rest := by
    rw [hsplit, List.append_assoc, List.cons_append]
  obtain ⟨now', ⟨es₀, hlast⟩, hearly, -, -⟩ := h earlier _ rest hsplit'
  rw [hsplit', ← List.append_assoc, ← hlast, clockReadings_append, clockReadings_append] at hclock
  have hsorted := (List.pairwise_append.mp hclock).1
  have hnow' : clockReadings [(⟨.now, now'⟩ : Event CmdCalls)] = [now'] := rfl
  rw [hnow'] at hsorted
  have hmem : now ∈ clockReadings es₀ ++ [now'] := by
    have hreadings : clockReadings es₀ ++ [now'] = clockReadings (first ++ earlier) := by
      rw [← hlast, clockReadings_append, hnow']
    rw [hreadings, mem_clockReadings]
    simp [earlier]
  rcases List.mem_append.mp hmem with hmem | hmem
  · have hle : now ≤ now' := (List.pairwise_append.mp hsorted).2.2 now hmem now' (by simp)
    exact absurd (hover.trans hle) (Nat.not_le.mpr hearly)
  · rw [List.mem_singleton.mp hmem] at hover
    exact absurd hover (Nat.not_le.mpr hearly)

/-- **The helper keeps its deadline.**  Whatever the helper does with its pipes and its exit:
`run_inner` reads only from pipes that do not block, polls right after a reading of the clock
before the deadline and for no longer than the time that is left, and waits only for a child that
it has just killed; and it comes to an end, unless the clock never reaches the deadline or the
reads are interrupted again and again. -/
theorem helper_keepsDeadline (fuel : ℕ) (command : List Text) (timeout : Duration) (uid : Uid)
    (gid : Option Gid) (prevent : Bool) :
    (∀ euid start es p, (runInner fuel command timeout uid gid prevent).Steps
        (⟨.geteuid, euid⟩ :: ⟨.now, start⟩ :: es) p →
      KeepsTime (start + timeout) [⟨.geteuid, euid⟩, ⟨.now, start⟩] es) ∧
    ∀ (σ : Type) (responder : Prog.Responder CmdCalls σ) (s : σ),
      let run := (runInner fuel command timeout uid gid prevent).run responder s
      helperStalls timeout run.2.1 + maxOutputBytes + 1 < fuel →
        ∃ x, run.1 = Prog.ofExcept x := by
  refine ⟨fun euid start es p h => keepsTime_of_armed (runInner_armed h), ?_⟩
  intro σ responder s run hfuel
  exact (runInner_spins fuel command timeout uid gid prevent).exists_ends (Nat.not_le.mpr hfuel)

/-- A helper that neither exits nor prints anything while the clock advances by a second with each
reading. -/
def sleeper : Schedule where
  pid := 5
  euid := 0
  stdout := List.replicate 20 .wouldBlock
  stderr := List.replicate 20 .wouldBlock
  running := 20
  status := ⟨some 0⟩
  polls := [true]
  clock readings := readings * 10 ^ 9
  readings := 0

/-- The run with that helper. -/
def sleeperRun : Prog CmdCalls Error Text × List (Event CmdCalls) × Schedule :=
  (runInner (2 ^ 20 + 20) ["/bin/keys"] (Duration.fromSecs 10) 99 none true).run
    Schedule.responder sleeper

lemma sleeperRun_steps :
    (runInner (2 ^ 20 + 20) ["/bin/keys"] (Duration.fromSecs 10) 99 none true).Steps
      (⟨.geteuid, (0 : Uid)⟩ :: ⟨.now, (0 : Instant)⟩ :: sleeperRun.2.1.drop 2) sleeperRun.1 := by
  have hsteps := Prog.steps_run Schedule.responder
    (runInner (2 ^ 20 + 20) ["/bin/keys"] (Duration.fromSecs 10) 99 none true) sleeper
  exact hsteps

/-- It is killed in time. -/
theorem helper_keepsDeadline_sleeper :
    KeepsTime (0 + Duration.fromSecs 10) [⟨.geteuid, (0 : Uid)⟩, ⟨.now, (0 : Instant)⟩]
      (sleeperRun.2.1.drop 2) ∧ ∃ x, sleeperRun.1 = Prog.ofExcept x := by
  obtain ⟨hsafe, hends⟩ := helper_keepsDeadline (2 ^ 20 + 20) ["/bin/keys"] (Duration.fromSecs 10) 99
    none true
  exact ⟨hsafe 0 0 _ _ sleeperRun_steps, hends Schedule Schedule.responder sleeper
    (by decide +kernel)⟩

end PamSshAgent
