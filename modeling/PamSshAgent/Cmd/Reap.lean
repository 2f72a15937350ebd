import PamSshAgent.Cmd.Child
import PamSshAgent.Cmd.Output
import PamSshAgent.Library.Typestate

/-!
# The helper is never leaked

Once the helper has been started, `run_inner` returns only after its exit status was
collected or after it was killed with its group and waited for.  The calls of a run are
followed phase by phase: a call that fails puts the run into a phase in which nothing but
the kill of the group can come next, and after that nothing but the wait.
-/

namespace PamSshAgent

open Interaction

/-! ## Phases -/

/-- Where a run of `run_inner` is with its child: what it has received from each pipe and
the exit status that it has collected. -/
inductive HelperPhase where
  | fresh
  /-- The child could not be started. -/
  | notStarted
  | alive (child : Child) (received : Stream → ℕ) (status : Option ExitStatus)
  /-- A call has failed or a pipe has delivered too much. -/
  | failed (child : Child) (status : Option ExitStatus)
  /-- The group has been killed. -/
  | killed (child : Child) (status : Option ExitStatus)
  /-- The child has been killed with its group and waited for. -/
  | reaped (child : Child)
  /-- The id of the child does not fit into an `i32`. -/
  | exempt

/-- A call whose failure ends the run. -/
def FailedCall : Event CmdCalls → Prop
  | ⟨.getFlags _, .error _⟩ | ⟨.setNonblocking _ _, .error _⟩ | ⟨.tryWait _, .error _⟩ => True
  | ⟨.read _ _, .error error⟩ => error ≠ .wouldBlock ∧ error ≠ .interrupted
  | ⟨.poll _ _, .error error⟩ => error ≠ .interrupted
  | _ => False

instance : DecidablePred FailedCall := fun
  | ⟨.getFlags _, .error _⟩ | ⟨.setNonblocking _ _, .error _⟩ | ⟨.tryWait _, .error _⟩ =>
    .isTrue trivial
  | ⟨.read _ _, .error error⟩ =>
    inferInstanceAs (Decidable (error ≠ .wouldBlock ∧ error ≠ .interrupted))
  | ⟨.poll _ _, .error error⟩ => inferInstanceAs (Decidable (error ≠ .interrupted))
  | ⟨.getFlags _, .ok _⟩ | ⟨.setNonblocking _ _, .ok _⟩ | ⟨.tryWait _, .ok _⟩ | ⟨.read _ _, .ok _⟩
  | ⟨.poll _ _, .ok _⟩ | ⟨.geteuid, _⟩ | ⟨.now, _⟩ | ⟨.spawn _, _⟩ | ⟨.killGroup _, _⟩
  | ⟨.kill _, _⟩ | ⟨.wait _, _⟩ => .isFalse id

/-- The phase after a call that goes on with the child. -/
def stepAlive (child : Child) (received : Stream → ℕ) (status : Option ExitStatus) :
    Event CmdCalls → Option HelperPhase
  | ⟨.read stream _, .ok (chunk : List UInt8)⟩ =>
    if maxOutputBytes < received stream + chunk.length then some (.failed child status)
    else some (.alive child
      (Function.update received stream (received stream + chunk.length)) status)
  | ⟨.tryWait pid, .ok result⟩ =>
    if pid = child.pid ∧ status = none then some (.alive child received result) else none
  | ⟨.killGroup pid, _⟩ => if pid = child.pid then some (.killed child status) else none
  | ⟨.geteuid, _⟩ | ⟨.spawn _, _⟩ | ⟨.kill _, _⟩ | ⟨.wait _, _⟩ => none
  | e => if FailedCall e then some (.failed child status) else some (.alive child received status)

/-- The calls that each phase allows. -/
def helperTypestate : Typestate CmdCalls HelperPhase
  | .exempt, ⟨.spawn _, _⟩ => none
  | .exempt, _ => some .exempt
  | .fresh, ⟨.spawn _, .ok (child : Child)⟩ =>
    if 2 ^ 31 ≤ child.pid then some .exempt
    else if child.stdout && child.stderr then some (.alive child (fun _ => 0) none)
    else some (.failed child none)
  | .fresh, ⟨.spawn _, .error _⟩ => some .notStarted
  | .fresh, ⟨.geteuid, _⟩ | .fresh, ⟨.now, _⟩ => some .fresh
  | .alive child received status, e => stepAlive child received status e
  | .failed child status, ⟨.killGroup pid, _⟩ =>
    if pid = child.pid then some (.killed child status) else none
  | .killed child none, ⟨.kill pid, _⟩ => if pid = child.pid then some (.killed child none) else none
  | .killed child none, ⟨.wait pid, _⟩ => if pid = child.pid then some (.reaped child) else none
  | _, _ => none

/-! ## What a phase says about the calls before it -/

/-- The exit status of the child was delivered, or the child was waited for. -/
def Reaped (child : Child) (es : List (Event CmdCalls)) : Prop :=
  (∃ status, (⟨.tryWait child.pid, .ok (some status)⟩ : Event CmdCalls) ∈ es) ∨
    (⟨.wait child.pid, ()⟩ : Event CmdCalls) ∈ es

/-- The child was not waited for. -/
def NotWaited (child : Child) (es : List (Event CmdCalls)) : Prop :=
  ∀ e ∈ es, e.query ≠ .wait child.pid

/-- The group of the child was killed, and the child was not waited for before that. -/
def KilledFirst (child : Child) (es : List (Event CmdCalls)) : Prop :=
  ∃ before after, es = before ++ ⟨.killGroup child.pid, ()⟩ :: after ∧ NotWaited child before

/-- What is known of the child. -/
structure Started (child : Child) (status : Option ExitStatus) (es : List (Event CmdCalls)) :
    Prop where
  spawned : ∀ command other, (⟨.spawn command, .ok other⟩ : Event CmdCalls) ∈ es → other = child
  collected : ∀ st, status = some st → (⟨.tryWait child.pid, .ok (some st)⟩ : Event CmdCalls) ∈ es

/-- Nothing has gone wrong. -/
structure Flawless (received : Stream → ℕ) (es : List (Event CmdCalls)) : Prop where
  calls : ∀ e ∈ es, ¬ FailedCall e
  counted : ∀ stream, received stream = (delivered stream es).length
  limit : ∀ stream, received stream ≤ maxOutputBytes

/-- What the phase says about the calls before it. -/
def PhaseHistory (es : List (Event CmdCalls)) : HelperPhase → Prop
  | .fresh => Flawless (fun _ => 0) es ∧ (∀ child, NotWaited child es) ∧
      ∀ command child, (⟨.spawn command, .ok child⟩ : Event CmdCalls) ∉ es
  | .notStarted => ∀ command child, (⟨.spawn command, .ok child⟩ : Event CmdCalls) ∉ es
  | .alive child received status => Started child status es ∧ Flawless received es ∧
      NotWaited child es ∧ (child.stdout && child.stderr) = true
  | .failed child status => Started child status es ∧ NotWaited child es
  | .killed child status => Started child status es ∧ NotWaited child es ∧ KilledFirst child es
  | .reaped child => Started child none es ∧ KilledFirst child es ∧
      (⟨.wait child.pid, ()⟩ : Event CmdCalls) ∈ es
  | .exempt => ∃ command child, (⟨.spawn command, .ok child⟩ : Event CmdCalls) ∈ es ∧
      2 ^ 31 ≤ child.pid

variable {child : Child} {status : Option ExitStatus} {received : Stream → ℕ}
  {es : List (Event CmdCalls)} {e : Event CmdCalls}

/-- The call starts a child. -/
def Spawns (e : Event CmdCalls) : Prop :=
  ∃ command child, e = ⟨.spawn command, .ok child⟩

lemma Started.concat (h : Started child status es) (he : ¬ Spawns e) :
    Started child status (es ++ [e]) := by
  refine ⟨fun command other hmem => ?_, fun st hst => ?_⟩
  · rcases List.mem_append.mp hmem with hmem | hmem
    · exact h.spawned command other hmem
    · obtain rfl := List.mem_singleton.mp hmem
      exact absurd ⟨command, other, rfl⟩ he
  · exact List.mem_append_left _ (h.collected st hst)

lemma NotWaited.concat (h : NotWaited child es) (he : e.query ≠ .wait child.pid) :
    NotWaited child (es ++ [e]) := by
  intro e' he'
  rcases List.mem_append.mp he' with hmem | hmem
  · exact h e' hmem
  · obtain rfl := List.mem_singleton.mp hmem
    exact he

lemma KilledFirst.concat (h : KilledFirst child es) (e : Event CmdCalls) :
    KilledFirst child (es ++ [e]) := by
  obtain ⟨before, after, rfl, hbefore⟩ := h
  exact ⟨before, after ++ [e], by simp, hbefore⟩

/-- A call that does not fail and delivers no more than the limit keeps everything right. -/
lemma Flawless.concat {received' : Stream → ℕ} (h : Flawless received es) (he : ¬ FailedCall e)
    (hreceived : ∀ stream, received' stream = received stream + (deliveredBy stream e).length)
    (hlimit : ∀ stream, received' stream ≤ maxOutputBytes) : Flawless received' (es ++ [e]) := by
  refine ⟨fun e' he' => ?_, fun stream => ?_, hlimit⟩
  · rcases List.mem_append.mp he' with hmem | hmem
    · exact h.calls e' hmem
    · obtain rfl := List.mem_singleton.mp hmem
      exact he
  · rw [hreceived, h.counted, delivered_append, List.length_append]
    simp [delivered]

lemma Flawless.concat_of_not_read (h : Flawless received es) (he : ¬ FailedCall e)
    (hread : ∀ stream, deliveredBy stream e = []) : Flawless received (es ++ [e]) :=
  h.concat he (fun stream => by rw [hread]; rfl) h.limit

/-- A chunk within the limit is counted. -/
lemma Flawless.read {stream : Stream} {size : ℕ} {chunk : List UInt8} (h : Flawless received es)
    (hfits : received stream + chunk.length ≤ maxOutputBytes) :
    Flawless (Function.update received stream (received stream + chunk.length))
      (es ++ [⟨.read stream size, .ok chunk⟩]) := by
  refine h.concat id (fun source => ?_) fun source => ?_
  · by_cases hsource : stream = source
    · subst hsource
      simp [deliveredBy]
    · rw [Function.update_of_ne (Ne.symm hsource)]
      simp [deliveredBy, hsource]
  · by_cases hsource : source = stream
    · subst hsource
      rw [Function.update_self]
      exact hfits
    · rw [Function.update_of_ne hsource]
      exact h.limit source

/-- The phase after a call that goes on with the child fits the calls. -/
lemma phaseHistory_stepAlive {phase' : HelperPhase} (hstarted : Started child status es)
    (hflawless : Flawless received es) (hwaited : NotWaited child es)
    (hpipes : (child.stdout && child.stderr) = true)
    (h : stepAlive child received status e = some phase') : PhaseHistory (es ++ [e]) phase' := by
  -- the calls that say nothing about the child and deliver nothing
  have hother : ¬ Spawns e → e.query ≠ .wait child.pid → (∀ stream, deliveredBy stream e = []) →
      (if FailedCall e then some (.failed child status) else some (.alive child received status)) =
        some phase' → PhaseHistory (es ++ [e]) phase' := by
    intro hspawn hwait hread hnext
    split_ifs at hnext with hfailed
    · obtain rfl := Option.some.inj hnext
      exact ⟨hstarted.concat hspawn, hwaited.concat hwait⟩
    · obtain rfl := Option.some.inj hnext
      exact ⟨hstarted.concat hspawn, hflawless.concat_of_not_read hfailed hread,
        hwaited.concat hwait, hpipes⟩
  obtain ⟨query, reply⟩ := e
  cases query with
  | geteuid => exact absurd h (by simp [stepAlive])
  | spawn command => exact absurd h (by simp [stepAlive])
  | kill pid => exact absurd h (by simp [stepAlive])
  | wait pid => exact absurd h (by simp [stepAlive])
  | now => exact hother (by simp [Spawns]) (by simp) (fun _ => rfl) h
  | getFlags stream =>
    refine hother (by simp [Spawns]) (by simp) (fun _ => rfl) ?_
    cases reply <;> exact h
  | setNonblocking stream flags =>
    refine hother (by simp [Spawns]) (by simp) (fun _ => rfl) ?_
    cases reply <;> exact h
  | poll streams milliseconds =>
    refine hother (by simp [Spawns]) (by simp) (fun _ => rfl) ?_
    cases reply <;> exact h
  | killGroup pid =>
    obtain ⟨rfl, hnext⟩ := Option.ite_none_right_eq_some.mp h
    obtain rfl := Option.some.inj hnext
    refine ⟨hstarted.concat (by simp [Spawns]), hwaited.concat (by simp), es, [], rfl, hwaited⟩
  | tryWait pid =>
    cases reply with
    | error error => exact hother (by simp [Spawns]) (by simp) (fun _ => rfl) h
    | ok result =>
      obtain ⟨⟨rfl, rfl⟩, hnext⟩ := Option.ite_none_right_eq_some.mp h
      obtain rfl := Option.some.inj hnext
      refine ⟨⟨(hstarted.concat (by simp [Spawns])).spawned, ?_⟩,
        hflawless.concat_of_not_read id fun _ => rfl, hwaited.concat (by simp), hpipes⟩
      rintro st rfl
      exact List.mem_append_right _ List.mem_cons_self
  | read stream size =>
    cases reply with
    | error error => exact hother (by simp [Spawns]) (by simp) (fun _ => rfl) h
    | ok chunk =>
      rw [stepAlive] at h
      split_ifs at h with hover
      · obtain rfl := Option.some.inj h
        exact ⟨hstarted.concat (by simp [Spawns]), hwaited.concat (by simp)⟩
      · obtain rfl := Option.some.inj h
        exact ⟨hstarted.concat (by simp [Spawns]), hflawless.read (Nat.not_lt.mp hover),
          hwaited.concat (by simp), hpipes⟩

/-- Before the child is started, a call does not concern it or starts it. -/
lemma phaseHistory_stepFresh {phase' : HelperPhase} (hist : PhaseHistory es .fresh)
    (h : helperTypestate .fresh e = some phase') : PhaseHistory (es ++ [e]) phase' := by
  obtain ⟨hflawless, hnone, hspawn⟩ := hist
  have hnever : ¬ Spawns e → ∀ command child,
      (⟨.spawn command, .ok child⟩ : Event CmdCalls) ∉ es ++ [e] := by
    intro hnot command child hmem
    rcases List.mem_append.mp hmem with hmem | hmem
    · exact hspawn command child hmem
    · exact hnot ⟨command, child, (List.mem_singleton.mp hmem).symm⟩
  have hstay : ¬ Spawns e → ¬ FailedCall e → (∀ stream, deliveredBy stream e = []) →
      (∀ pid, e.query ≠ .wait pid) → PhaseHistory (es ++ [e]) .fresh := by
    intro hnot hcall hread hwait
    exact ⟨hflawless.concat_of_not_read hcall hread,
      fun child => (hnone child).concat (hwait child.pid), hnever hnot⟩
  obtain ⟨query, reply⟩ := e
  cases query with
  | geteuid =>
    obtain rfl := Option.some.inj h
    exact hstay (by simp [Spawns]) id (fun _ => rfl) (by simp)
  | now =>
    obtain rfl := Option.some.inj h
    exact hstay (by simp [Spawns]) id (fun _ => rfl) (by simp)
  | spawn command =>
    cases reply with
    | error error =>
      obtain rfl := Option.some.inj h
      exact hnever (by simp [Spawns])
    | ok child =>
      -- this is the only child of the run
      have hstarted : Started child none (es ++ [⟨.spawn command, .ok child⟩]) := by
        refine ⟨fun command' other hmem => ?_, by simp⟩
        rcases List.mem_append.mp hmem with hmem | hmem
        · exact absurd hmem (hspawn command' other)
        · exact (by simpa using hmem : command' = command ∧ other = child).2
      have hwaited : NotWaited child (es ++ [⟨.spawn command, .ok child⟩]) :=
        (hnone child).concat (by simp)
      rw [helperTypestate] at h
      split_ifs at h with hpid hpipes
      · obtain rfl := Option.some.inj h
        exact ⟨command, child, List.mem_append_right _ List.mem_cons_self, hpid⟩
      · obtain rfl := Option.some.inj h
        exact ⟨hstarted, hflawless.concat_of_not_read id fun _ => rfl, hwaited, hpipes⟩
      · obtain rfl := Option.some.inj h
        exact ⟨hstarted, hwaited⟩
  | _ => exact absurd h (by simp [helperTypestate])

/-- After a failure the group is killed. -/
lemma phaseHistory_stepFailed {phase' : HelperPhase}
    (hist : PhaseHistory es (.failed child status))
    (h : helperTypestate (.failed child status) e = some phase') :
    PhaseHistory (es ++ [e]) phase' := by
  obtain ⟨hstarted, hwaited⟩ := hist
  obtain ⟨query, reply⟩ := e
  cases query with
  | killGroup pid =>
    obtain ⟨rfl, hnext⟩ := Option.ite_none_right_eq_some.mp h
    obtain rfl := Option.some.inj hnext
    exact ⟨hstarted.concat (by simp [Spawns]), hwaited.concat (by simp), es, [], rfl, hwaited⟩
  | _ => exact absurd h (by simp [helperTypestate])

/-- After that the child itself is killed and waited for, unless its status is known. -/
lemma phaseHistory_stepKilled {phase' : HelperPhase}
    (hist : PhaseHistory es (.killed child status))
    (h : helperTypestate (.killed child status) e = some phase') :
    PhaseHistory (es ++ [e]) phase' := by
  obtain ⟨hstarted, hwaited, hkilled⟩ := hist
  obtain ⟨query, reply⟩ := e
  cases status with
  | some st => exact absurd h (by simp [helperTypestate])
  | none =>
    cases query with
    | kill pid =>
      obtain ⟨rfl, hnext⟩ := Option.ite_none_right_eq_some.mp h
      obtain rfl := Option.some.inj hnext
      exact ⟨hstarted.concat (by simp [Spawns]), hwaited.concat (by simp), hkilled.concat _⟩
    | wait pid =>
      obtain ⟨rfl, hnext⟩ := Option.ite_none_right_eq_some.mp h
      obtain rfl := Option.some.inj hnext
      exact ⟨hstarted.concat (by simp [Spawns]), hkilled.concat _,
        List.mem_append_right _ List.mem_cons_self⟩
    | _ => exact absurd h (by simp [helperTypestate])

lemma exempt_of_step {phase' : HelperPhase} (h : helperTypestate .exempt e = some phase') :
    phase' = .exempt := by
  obtain ⟨query, reply⟩ := e
  cases query with
  | spawn command => exact absurd h (by simp [helperTypestate])
  | _ => exact (Option.some.inj h).symm

/-- Every call leads from a phase that fits the calls so far to another one. -/
lemma phaseHistory_concat {phase phase' : HelperPhase} (h : helperTypestate phase e = some phase')
    (hist : PhaseHistory es phase) : PhaseHistory (es ++ [e]) phase' := by
  cases phase with
  | exempt =>
    obtain rfl := exempt_of_step h
    obtain ⟨command, child, hmem, hpid⟩ := hist
    exact ⟨command, child, List.mem_append_left _ hmem, hpid⟩
  | fresh => exact phaseHistory_stepFresh hist h
  | notStarted => exact absurd h (by simp [helperTypestate])
  | alive child received status =>
    exact phaseHistory_stepAlive hist.1 hist.2.1 hist.2.2.1 hist.2.2.2 h
  | failed child status => exact phaseHistory_stepFailed hist h
  | killed child status => exact phaseHistory_stepKilled hist h
  | reaped child => exact absurd h (by simp [helperTypestate])

/-- The phase that a run is in fits its calls. -/
lemma phaseHistory_of_run {phase : HelperPhase}
    (h : es.foldlM helperTypestate HelperPhase.fresh = some phase) : PhaseHistory es phase := by
  induction es using List.reverseRecOn generalizing phase with
  | nil =>
    obtain rfl := Option.some.inj h
    exact ⟨⟨by simp, fun _ => rfl, fun _ => Nat.zero_le _⟩, by simp [NotWaited], by simp⟩
  | append_singleton es e ih =>
    rw [List.foldlM_append] at h
    obtain ⟨before, hbefore, hlast⟩ := Option.bind_eq_some_iff.mp h
    rw [List.foldlM_cons] at hlast
    obtain ⟨after, hafter, hnil⟩ := Option.bind_eq_some_iff.mp hlast
    obtain rfl := Option.some.inj hnil
    exact phaseHistory_concat hafter (ih hbefore)

/-! ## What comes after a failure -/

/-- The child could not be started. -/
def SpawnFailed : Event CmdCalls → Prop
  | ⟨.spawn _, .error _⟩ => True
  | _ => False

/-- By this call, after the calls `before`, the helper is given up. -/
inductive GivesUp (before : List (Event CmdCalls)) : Event CmdCalls → Prop
  | failed (e : Event CmdCalls) (h : FailedCall e) : GivesUp before e
  | noPipe (command : Command) (child : Child) (h : (child.stdout && child.stderr) = false) :
      GivesUp before ⟨.spawn command, .ok child⟩
  | limit (stream : Stream) (size : ℕ) (chunk : List UInt8)
      (h : maxOutputBytes < (delivered stream before).length + chunk.length) :
      GivesUp before ⟨.read stream size, .ok chunk⟩
  | killed (pid : Pid) : GivesUp before ⟨.killGroup pid, ()⟩

/-- The call makes an end of the helper. -/
def CmdQuery.EndsHelper : CmdQuery → Prop
  | .killGroup _ | .kill _ | .wait _ => True
  | _ => False

/-- The call is one for a helper whose exit status is known: its pipes are still watched, or its
group is killed, but nothing is started and nothing waited for. -/
def CmdQuery.FollowsExit : CmdQuery → Prop
  | .geteuid | .spawn _ | .kill _ | .wait _ => False
  | _ => True

/-- The phases in which an end is made of the helper. -/
def HelperPhase.ending : HelperPhase → Bool
  | .failed _ _ | .killed _ _ | .reaped _ => true
  | _ => false

/-- The exit status that has been collected. -/
def HelperPhase.collected : HelperPhase → Option ExitStatus
  | .alive _ _ status | .failed _ status | .killed _ status => status
  | _ => none

/-- Where no child could be started, nothing follows. -/
lemma notStarted_of_step {phase phase' : HelperPhase} (h : helperTypestate phase e = some phase')
    (hfailed : SpawnFailed e) : phase' = .notStarted := by
  obtain ⟨query, reply⟩ := e
  cases query with
  | spawn command =>
    rcases reply with error | child
    · cases phase with
      | fresh => exact (Option.some.inj h).symm
      | _ => exact absurd h (by simp [helperTypestate, stepAlive])
    · exact hfailed.elim
  | _ => exact hfailed.elim

/-- Once an end is made of the helper, that goes on. -/
lemma ending_of_step {phase phase' : HelperPhase} (h : helperTypestate phase e = some phase')
    (hending : phase.ending = true) : e.query.EndsHelper ∧ phase'.ending = true := by
  obtain ⟨query, reply⟩ := e
  cases phase with
  | failed child status =>
    cases query with
    | killGroup pid =>
      obtain ⟨-, hnext⟩ := Option.ite_none_right_eq_some.mp h
      obtain rfl := Option.some.inj hnext
      exact ⟨trivial, rfl⟩
    | _ => exact absurd h (by simp [helperTypestate])
  | killed child status =>
    cases status with
    | some status => exact absurd h (by simp [helperTypestate])
    | none =>
      cases query with
      | kill pid =>
        obtain ⟨-, hnext⟩ := Option.ite_none_right_eq_some.mp h
        obtain rfl := Option.some.inj hnext
        exact ⟨trivial, rfl⟩
      | wait pid =>
        obtain ⟨-, hnext⟩ := Option.ite_none_right_eq_some.mp h
        obtain rfl := Option.some.inj hnext
        exact ⟨trivial, rfl⟩
      | _ => exact absurd h (by simp [helperTypestate])
  | reaped child => exact absurd h (by simp [helperTypestate])
  | _ => exact absurd hending (by simp [HelperPhase.ending])

/-- A status that has been collected is kept. -/
lemma collected_of_stepAlive {phase' : HelperPhase} {exit : ExitStatus}
    (h : stepAlive child received (some exit) e = some phase') :
    e.query.FollowsExit ∧ phase'.collected = some exit := by
  have hother : (if FailedCall e then some (.failed child (some exit))
      else some (.alive child received (some exit))) = some phase' →
        phase'.collected = some exit := by
    intro hnext
    split_ifs at hnext
    · rw [← Option.some.inj hnext]
      rfl
    · rw [← Option.some.inj hnext]
      rfl
  obtain ⟨query, reply⟩ := e
  cases query with
  | now => exact ⟨trivial, hother h⟩
  | getFlags stream => exact ⟨trivial, hother (by cases reply <;> exact h)⟩
  | setNonblocking stream flags => exact ⟨trivial, hother (by cases reply <;> exact h)⟩
  | poll streams milliseconds => exact ⟨trivial, hother (by cases reply <;> exact h)⟩
  | killGroup pid =>
    obtain ⟨-, hnext⟩ := Option.ite_none_right_eq_some.mp h
    rw [← Option.some.inj hnext]
    exact ⟨trivial, rfl⟩
  | read stream size =>
    rcases reply with error | chunk
    · exact ⟨trivial, hother h⟩
    · rw [stepAlive] at h
      split_ifs at h
      · rw [← Option.some.inj h]
        exact ⟨trivial, rfl⟩
      · rw [← Option.some.inj h]
        exact ⟨trivial, rfl⟩
  | tryWait pid =>
    rcases reply with error | result
    · exact ⟨trivial, hother h⟩
    · exact absurd (Option.ite_none_right_eq_some.mp h).1.2 (by simp)
  | _ => exact absurd h (by simp [stepAlive])

lemma collected_of_step {phase phase' : HelperPhase} {exit : ExitStatus}
    (h : helperTypestate phase e = some phase') (hcollected : phase.collected = some exit) :
    e.query.FollowsExit ∧ phase'.collected = some exit := by
  cases phase with
  | alive child received status =>
    obtain rfl : status = some exit := hcollected
    exact collected_of_stepAlive h
  | failed child status =>
    obtain ⟨query, reply⟩ := e
    cases query with
    | killGroup pid =>
      obtain ⟨-, hnext⟩ := Option.ite_none_right_eq_some.mp h
      rw [← Option.some.inj hnext]
      exact ⟨trivial, hcollected⟩
    | _ => exact absurd h (by simp [helperTypestate])
  | killed child status =>
    obtain rfl : status = some exit := hcollected
    exact absurd h (by simp [helperTypestate])
  | _ => exact absurd hcollected (by simp [HelperPhase.collected])

/-- A call that fails ends the run. -/
lemma helperTypestate_failed (h : FailedCall e) :
    helperTypestate (.alive child received status) e = some (.failed child status) := by
  have hstep : (if FailedCall e then some (.failed child status)
      else some (.alive child received status)) = some (HelperPhase.failed child status) := if_pos h
  obtain ⟨query, reply⟩ := e
  cases query with
  | getFlags stream => cases reply <;> exact hstep
  | setNonblocking stream flags => cases reply <;> exact hstep
  | poll streams milliseconds => cases reply <;> exact hstep
  | read stream size =>
    cases reply with
    | ok chunk => exact h.elim
    | error error => exact hstep
  | tryWait pid =>
    cases reply with
    | ok result => exact h.elim
    | error error => exact hstep
  | _ => exact h.elim

lemma helperTypestate_read (stream : Stream) (size : ℕ) (chunk : List UInt8) :
    helperTypestate (.alive child received status) ⟨.read stream size, .ok chunk⟩ =
      if maxOutputBytes < received stream + chunk.length then some (.failed child status)
      else some (.alive child
        (Function.update received stream (received stream + chunk.length)) status) := rfl

/-- Before the start of the child no call fails that would end the run. -/
lemma not_failedCall_of_fresh {phase' : HelperPhase} (h : helperTypestate .fresh e = some phase') :
    ¬ FailedCall e := by
  obtain ⟨query, reply⟩ := e
  cases query with
  | geteuid => exact id
  | now => exact id
  | spawn command => exact id
  | _ => exact absurd h (by simp [helperTypestate])

/-- A helper that is given up is made an end of. -/
lemma ending_of_givesUp {phase phase' : HelperPhase} (hist : PhaseHistory es phase)
    (h : helperTypestate phase e = some phase') (hgives : GivesUp es e)
    (hsmall : phase' ≠ .exempt) : phase'.ending = true := by
  cases phase with
  | exempt => exact absurd (exempt_of_step h) hsmall
  | alive child received status =>
    cases hgives with
    | failed e hfailed =>
      rw [helperTypestate_failed hfailed] at h
      rw [← Option.some.inj h]
      rfl
    | noPipe command child' hpipe => exact absurd h (by simp [helperTypestate, stepAlive])
    | limit stream size chunk hlimit =>
      have hcounted := hist.2.1.counted stream
      rw [helperTypestate_read, if_pos (by omega)] at h
      rw [← Option.some.inj h]
      rfl
    | killed pid =>
      obtain ⟨-, hnext⟩ := Option.ite_none_right_eq_some.mp h
      rw [← Option.some.inj hnext]
      rfl
  | fresh =>
    cases hgives with
    | failed e hfailed => exact absurd hfailed (not_failedCall_of_fresh h)
    | noPipe command child hpipe =>
      rw [helperTypestate, hpipe, if_neg Bool.false_ne_true] at h
      split_ifs at h
      · exact absurd (Option.some.inj h).symm hsmall
      · rw [← Option.some.inj h]
        rfl
    | limit stream size chunk hlimit => exact absurd h (by simp [helperTypestate])
    | killed pid => exact absurd h (by simp [helperTypestate])
  | notStarted => exact absurd h (by simp [helperTypestate])
  | failed child status => exact (ending_of_step h rfl).2
  | killed child status => exact (ending_of_step h rfl).2
  | reaped child => exact (ending_of_step h rfl).2

/-- The exit status is collected. -/
lemma collected_of_tryWait {phase phase' : HelperPhase} {pid : Pid} {exit : ExitStatus}
    (h : helperTypestate phase ⟨.tryWait pid, .ok (some exit)⟩ = some phase')
    (hsmall : phase' ≠ .exempt) : phase'.collected = some exit := by
  cases phase with
  | exempt => exact absurd (exempt_of_step h) hsmall
  | alive child received status =>
    obtain ⟨-, hnext⟩ := Option.ite_none_right_eq_some.mp h
    rw [← Option.some.inj hnext]
    rfl
  | killed child status => cases status <;> exact absurd h (by simp [helperTypestate])
  | _ => exact absurd h (by simp [helperTypestate])

/-! ## `run_inner` follows the phases -/

/-- The child has been disposed of: it was killed with its group, and waited for if its
status was not collected before. -/
def Disposed (child : Child) : HelperPhase → Prop
  | .killed other (some _) | .reaped other => other = child
  | _ => False

/-- The error of a loop that ended without a status. -/
def statusNotCollected : Error := .anyhow ["command status was not collected"]

/-- The error at the deadline. -/
def timedOut (executable : Text) (timeout : Duration) : Error :=
  .anyhow ["Timed out waiting for command '", executable, "' after ", timeout.debug]

/-- Messages that begin differently are different. -/
lemma anyhow_ne {first first' : Text} (rest rest' : List Text)
    (h : first ≠ [] ∧ first' ≠ [] ∧ first.head? ≠ first'.head?) :
    Error.anyhow (first :: rest) ≠ Error.anyhow (first' :: rest') := by
  intro heq
  obtain ⟨hfirst, hfirst', hne⟩ := h
  have htexts : first ++ rest.flatten = first' ++ rest'.flatten := Error.msg.inj heq
  obtain ⟨c, first, rfl⟩ := List.exists_cons_of_ne_nil hfirst
  obtain ⟨d, first', rfl⟩ := List.exists_cons_of_ne_nil hfirst'
  obtain ⟨rfl, -⟩ := List.cons.inj htexts
  exact hne rfl

/-- How a part of the run ends: with an error the child has been disposed of, and its status
is not what is missing. -/
def EndsDisposed {α : Type} (child : Child) (good : α → HelperPhase → Prop) :
    Except Error α → HelperPhase → Prop
  | .ok a, phase => good a phase
  | .error error, phase => Disposed child phase ∧ error ≠ statusNotCollected

/-- How the calls on a pipe end: with an error a call has failed or delivered too much. -/
def EndsFailed {α : Type} (child : Child) (status : Option ExitStatus)
    (good : α → HelperPhase → Prop) : Except IoError α → HelperPhase → Prop
  | .ok a, phase => good a phase
  | .error _, phase => phase = .failed child status

/-- The phases in which the group may be killed. -/
inductive Killable (child : Child) (status : Option ExitStatus) : HelperPhase → Prop
  | alive (received : Stream → ℕ) : Killable child status (.alive child received status)
  | failed : Killable child status (.failed child status)

lemma terminateAndReap_disposes {phase : HelperPhase} (hpid : child.pid < 2 ^ 31)
    (hphase : Killable child status phase) :
    (terminateAndReap child status).Follows helperTypestate
      (fun x phase' => x = .ok () ∧ Disposed child phase') phase := by
  rw [terminateAndReap, if_pos hpid]
  have hkill : helperTypestate phase ⟨.killGroup child.pid, ()⟩ = some (.killed child status) := by
    cases hphase <;> exact if_pos rfl
  refine fun killed => ⟨_, hkill, ?_⟩
  cases status with
  | some st => exact ⟨rfl, rfl⟩
  | none =>
    refine fun signalled => ⟨.killed child none, if_pos rfl, fun waited => ?_⟩
    exact ⟨.reaped child, if_pos rfl, rfl, rfl⟩

lemma terminateWith_disposes {α : Type} {good : α → HelperPhase → Prop} {phase : HelperPhase}
    {error : Error} (hpid : child.pid < 2 ^ 31) (hphase : Killable child status phase)
    (herror : error ≠ statusNotCollected) :
    (terminateWith child status error : Prog CmdCalls Error α).Follows helperTypestate
      (EndsDisposed child good) phase := by
  refine (terminateAndReap_disposes hpid hphase).bind ?_ ?_
  · rintro _ phase' ⟨-, hdisposed⟩
    exact ⟨hdisposed, herror⟩
  · rintro e _ ⟨he, -⟩
    exact absurd he (by simp)

/-- A call that does not fail and has nothing to do with the child or its output. -/
inductive Idle : Event CmdCalls → Prop
  | now (now : Instant) : Idle ⟨.now, now⟩
  | getFlags (stream : Stream) (flags : ℕ) : Idle ⟨.getFlags stream, .ok flags⟩
  | setNonblocking (stream : Stream) (flags : ℕ) : Idle ⟨.setNonblocking stream flags, .ok ()⟩
  | wouldBlock (stream : Stream) (size : ℕ) : Idle ⟨.read stream size, .error .wouldBlock⟩
  | readInterrupted (stream : Stream) (size : ℕ) : Idle ⟨.read stream size, .error .interrupted⟩
  | poll (streams : List (Option Stream)) (milliseconds : ℕ) :
      Idle ⟨.poll streams milliseconds, .ok ()⟩
  | pollInterrupted (streams : List (Option Stream)) (milliseconds : ℕ) :
      Idle ⟨.poll streams milliseconds, .error .interrupted⟩

lemma helperTypestate_idle (h : Idle e) :
    helperTypestate (.alive child received status) e = some (.alive child received status) := by
  cases h <;> simp [helperTypestate, stepAlive, FailedCall]

lemma setNonblocking_follows (stream : Stream) :
    (setNonblocking stream).Follows helperTypestate
      (EndsFailed child status fun _ phase => phase = .alive child received status)
      (.alive child received status) := by
  rw [setNonblocking, Prog.query_bind]
  rintro (error | flags)
  · exact ⟨.failed child status, helperTypestate_failed trivial, rfl⟩
  refine ⟨.alive child received status, helperTypestate_idle (.getFlags stream flags), ?_⟩
  rintro (error | _)
  · exact ⟨.failed child status, helperTypestate_failed trivial, rfl⟩
  · exact ⟨.alive child received status, helperTypestate_idle (.setNonblocking stream flags), rfl⟩

lemma drainOutput_follows (stream : Stream) (fuel : ℕ) (output : List UInt8) (eof : Bool)
    (hreceived : received stream = output.length) (hlimit : output.length ≤ maxOutputBytes) :
    (drainOutput stream fuel output eof).Follows helperTypestate
      (EndsFailed child status fun drained phase => drained.1.length ≤ maxOutputBytes ∧
        phase = .alive child (Function.update received stream drained.1.length) status)
      (.alive child received status) := by
  induction fuel generalizing output received with
  | zero => trivial
  | succ fuel ih =>
    have hsame : HelperPhase.alive child received status =
        .alive child (Function.update received stream output.length) status := by
      rw [← hreceived, Function.update_eq_self]
    rw [drainOutput, Prog.query_bind]
    intro reply
    dsimp only
    -- the end of the stream, a chunk, `WouldBlock`, `Interrupted` and every other error
    split
    · refine ⟨.alive child received status, ?_, hlimit, hsame⟩
      rw [helperTypestate_read, if_neg (by simp [hreceived, hlimit])]
      rw [List.length_nil, Nat.add_zero, Function.update_eq_self]
    · rename_i chunk hchunk
      split_ifs with hover
      · refine ⟨.failed child status, ?_, rfl⟩
        rw [helperTypestate_read, hreceived, if_pos hover]
      · refine ⟨.alive child
          (Function.update received stream (output.length + chunk.length)) status, ?_, ?_⟩
        · rw [helperTypestate_read, hreceived, if_neg hover]
        · refine (ih (output ++ chunk) (by simp) ?_).mono ?_
          · rw [List.length_append]
            omega
          · rintro (error | drained) phase hends
            · exact hends
            · obtain ⟨hmax, rfl⟩ := hends
              exact ⟨hmax, by rw [Function.update_idem]⟩
    · exact ⟨.alive child received status, helperTypestate_idle (.wouldBlock _ _), hlimit, hsame⟩
    · exact ⟨.alive child received status, helperTypestate_idle (.readInterrupted _ _),
        ih output hreceived hlimit⟩
    · rename_i error hblock hinterrupted
      exact ⟨.failed child status, helperTypestate_failed ⟨hblock, hinterrupted⟩, rfl⟩

lemma waitForOutput_follows (stdoutEof stderrEof : Bool) (deadline : Instant) (fuel : ℕ) :
    (waitForOutput stdoutEof stderrEof deadline fuel).Follows helperTypestate
      (EndsFailed child status fun _ phase => phase = .alive child received status)
      (.alive child received status) := by
  induction fuel with
  | zero => trivial
  | succ fuel ih =>
    rw [waitForOutput, Prog.query_bind]
    refine fun now => ⟨.alive child received status, helperTypestate_idle (.now now), ?_⟩
    dsimp only
    split
    · exact rfl
    rw [Prog.query_bind]
    rintro (error | _)
    · by_cases hinterrupted : error = .interrupted
      · subst hinterrupted
        exact ⟨.alive child received status, helperTypestate_idle (.pollInterrupted _ _), ih⟩
      · refine ⟨.failed child status, helperTypestate_failed hinterrupted, ?_⟩
        cases error <;> first | exact rfl | exact absurd rfl hinterrupted
    · exact ⟨.alive child received status, helperTypestate_idle (.poll _ _), rfl⟩

/-- Neither pipe has delivered too much. -/
def Collected.Within (collected : Collected) : Prop :=
  collected.stdoutBytes.length ≤ maxOutputBytes ∧ collected.stderrBytes.length ≤ maxOutputBytes

/-- The phase that the variables of the loop say. -/
def Collected.phase (child : Child) (collected : Collected) : HelperPhase :=
  .alive child (fun
    | .stdout => collected.stdoutBytes.length
    | .stderr => collected.stderrBytes.length) collected.status

lemma ioError_ne (error : IoError) : Error.io error ≠ statusNotCollected := by
  simp [statusNotCollected, Error.anyhow]

/-- The lengths after both pipes were read are those of the variables. -/
lemma update_lengths (collected : Collected) (stdoutBytes stderrBytes : List UInt8)
    (stdoutEof stderrEof : Bool) :
    HelperPhase.alive child (Function.update (Function.update (fun
      | .stdout => collected.stdoutBytes.length
      | .stderr => collected.stderrBytes.length) .stdout stdoutBytes.length)
        .stderr stderrBytes.length) collected.status =
      Collected.phase child { collected with stdoutBytes, stdoutEof, stderrBytes, stderrEof } := by
  have hlengths : Function.update (Function.update (fun
      | Stream.stdout => collected.stdoutBytes.length
      | Stream.stderr => collected.stderrBytes.length) .stdout stdoutBytes.length)
        .stderr stderrBytes.length = fun
      | .stdout => stdoutBytes.length
      | .stderr => stderrBytes.length := by
    ext stream
    cases stream <;> simp
  rw [hlengths, Collected.phase]

lemma drainBoth_disposes (running : Running) (collected : Collected)
    (hpid : running.child.pid < 2 ^ 31) (hwithin : collected.Within) :
    (drainBoth running collected).Follows helperTypestate
      (EndsDisposed running.child fun drained phase => drained.Within ∧
        drained.status = collected.status ∧ phase = drained.phase running.child)
      (collected.phase running.child) := by
  rw [drainBoth]
  refine (drainOutput_follows .stdout running.fuel _ _ rfl hwithin.1).attempt_bind ?_
  rintro (error | ⟨stdoutBytes, stdoutEof⟩) phase hends
  · obtain rfl := hends
    exact terminateWith_disposes hpid .failed
      (anyhow_ne _ _ (by decide +kernel))
  obtain ⟨hstdout, rfl⟩ := hends
  refine (drainOutput_follows .stderr running.fuel _ _ rfl hwithin.2).attempt_bind ?_
  rintro (error | ⟨stderrBytes, stderrEof⟩) phase hends
  · obtain rfl := hends
    exact terminateWith_disposes hpid .failed
      (anyhow_ne _ _ (by decide +kernel))
  obtain ⟨hstderr, rfl⟩ := hends
  exact ⟨⟨hstdout, hstderr⟩, rfl, update_lengths _ _ _ _ _⟩

lemma collectStatus_disposes (collected : Collected) (hpid : child.pid < 2 ^ 31) :
    (collectStatus child collected.status).Follows helperTypestate
      (EndsDisposed child fun status phase => phase = Collected.phase child { collected with status })
      (collected.phase child) := by
  rw [collectStatus]
  split_ifs with hnone
  · have hstatus : collected.status = none := Option.isNone_iff_eq_none.mp hnone
    rw [Prog.query_bind]
    rintro (error | result)
    · exact ⟨.failed child collected.status, helperTypestate_failed trivial,
        terminateWith_disposes hpid .failed (ioError_ne error)⟩
    · exact ⟨Collected.phase child { collected with status := result }, if_pos ⟨rfl, hstatus⟩, rfl⟩
  · exact rfl

lemma awaitProgress_disposes (running : Running) (collected : Collected)
    (hpid : running.child.pid < 2 ^ 31) :
    (awaitProgress running collected).Follows helperTypestate
      (EndsDisposed running.child fun _ phase => phase = collected.phase running.child)
      (collected.phase running.child) := by
  rw [awaitProgress, Prog.query_bind]
  refine fun now => ⟨collected.phase running.child, helperTypestate_idle (.now now), ?_⟩
  dsimp only
  split_ifs
  · exact terminateWith_disposes hpid (.alive _)
      (anyhow_ne _ _ (by decide +kernel))
  refine (waitForOutput_follows _ _ _ _).attempt_bind ?_
  rintro (error | _) phase hends
  · obtain rfl := hends
    exact terminateWith_disposes hpid .failed (ioError_ne error)
  · exact hends

/-- The loop ends when the status is known, and otherwise the child is disposed of. -/
lemma collectOutput_disposes (running : Running) (fuel : ℕ) (collected : Collected)
    (hpid : running.child.pid < 2 ^ 31) (hwithin : collected.Within) :
    (collectOutput running fuel collected).Follows helperTypestate
      (EndsDisposed running.child fun collected' phase => collected'.status.isSome = true ∧
        phase = collected'.phase running.child) (collected.phase running.child) := by
  induction fuel generalizing collected with
  | zero => trivial
  | succ fuel ih =>
    rw [collectOutput]
    refine (drainBoth_disposes running collected hpid hwithin).bind ?_ fun _ _ h => h
    rintro drained _ ⟨hdrained, -, rfl⟩
    split_ifs with hend
    · simp only [Bool.and_eq_true] at hend
      exact ⟨hend.1.1, rfl⟩
    refine (collectStatus_disposes drained hpid).bind ?_ fun _ _ h => h
    rintro status _ rfl
    refine (awaitProgress_disposes running { drained with status } hpid).bind ?_ fun _ _ h => h
    rintro _ _ rfl
    exact ih { drained with status } hdrained

/-- How `takeStreams` ends: with an error the group has to be killed. -/
def EndsTaken (child : Child) : Except Error Unit → HelperPhase → Prop
  | .ok _, phase => phase = .alive child (fun _ => 0) none
  | .error error, phase => Killable child none phase ∧ error ≠ statusNotCollected

/-- The phase in which the child is started. -/
def startPhase (child : Child) : HelperPhase :=
  if child.stdout && child.stderr then .alive child (fun _ => 0) none else .failed child none

lemma takeStreams_follows (executable : Text) (child : Child) :
    (takeStreams executable child).Follows helperTypestate (EndsTaken child)
      (startPhase child) := by
  have hset : ∀ stream, (Prog.attempt (setNonblocking stream) >>= fun x =>
      Prog.ofExcept (x.mapError Error.io) : Prog CmdCalls Error Unit).Follows helperTypestate
        (EndsTaken child) (.alive child (fun _ => 0) none) := by
    intro stream
    refine (setNonblocking_follows stream).attempt_bind ?_
    rintro (error | _) phase hends
    · obtain rfl := hends
      exact ⟨.failed, ioError_ne error⟩
    · exact hends
  rw [takeStreams, startPhase]
  cases hstdout : child.stdout with
  | false =>
    exact ⟨.failed,
      anyhow_ne _ _ (by decide +kernel)⟩
  | true =>
    cases hstderr : child.stderr with
    | false =>
      exact ⟨.failed,
        anyhow_ne _ _ (by decide +kernel)⟩
    | true =>
      refine (setNonblocking_follows .stdout).attempt_bind ?_
      rintro (error | _) phase hends
      · obtain rfl := hends
        exact ⟨.failed, ioError_ne error⟩
      · obtain rfl := hends
        exact hset .stderr

/-- How a run ends, by its phase. -/
def RunEnds (executable : Text) (x : Except Error Text) : HelperPhase → Prop
  | .alive _ _ status => ∃ collected : Collected, collected.status = status ∧
      status.isSome = true ∧ x = checkOutput executable collected
  | .killed _ (some _) | .reaped _ => ∃ error, x = .error error ∧ error ≠ statusNotCollected
  | .failed _ _ | .killed _ none => False
  | .fresh | .notStarted => ∃ error, x = .error error
  | .exempt => True

/-- The phases in which the child has been disposed of. -/
lemma runEnds_of_disposed {executable : Text} {error : Error} {phase : HelperPhase}
    (h : Disposed child phase) (herror : error ≠ statusNotCollected) :
    RunEnds executable (.error error) phase := by
  cases phase with
  | killed other status =>
    cases status with
    | none => exact h.elim
    | some st => exact ⟨error, rfl, herror⟩
  | reaped other => exact ⟨error, rfl, herror⟩
  | _ => exact h.elim

/-- A process id that does not fit into an `i32` is not followed, but no other child is started. -/
lemma exempt_follows {ε α : Type} {p : Prog CmdCalls ε α} (h : p.Asks CmdQuery.NoSpawn) :
    p.Follows helperTypestate (fun _ phase => phase = .exempt) .exempt := by
  refine h.follows fun e hquery => ?_
  obtain ⟨query, reply⟩ := e
  cases query with
  | spawn command => exact hquery.elim
  | _ => rfl

/-- After the start, the calls follow the phases. -/
lemma spawned_follows (running : Running) (fuel : ℕ) (hpid : running.child.pid < 2 ^ 31) :
    (runStarted running fuel).Follows helperTypestate
      (RunEnds running.executable) (startPhase running.child) := by
  refine (takeStreams_follows running.executable running.child).attempt_bind ?_
  rintro (error | _) phase hends
  · obtain ⟨hkillable, herror⟩ := hends
    have hdisposes : (terminateWith running.child none error : Prog CmdCalls Error Text).Follows
        helperTypestate (EndsDisposed running.child fun _ _ => False) phase :=
      terminateWith_disposes hpid hkillable herror
    refine hdisposes.mono ?_
    rintro (error | text) phase hends
    · exact runEnds_of_disposed hends.1 hends.2
    · exact hends.elim
  · obtain rfl := hends
    have hstart : HelperPhase.alive running.child (fun _ => 0) none =
        Collected.phase running.child ⟨[], [], false, false, none⟩ := by
      have hzero : (fun _ => 0 : Stream → ℕ) = fun
          | .stdout => 0
          | .stderr => 0 := by
        ext stream
        cases stream <;> rfl
      rw [hzero]
      exact rfl
    rw [hstart]
    refine (collectOutput_disposes running fuel _ hpid ⟨Nat.zero_le _, Nat.zero_le _⟩).bind ?_ ?_
    · rintro collected _ ⟨hstatus, rfl⟩
      exact Prog.follows_ofExcept ⟨collected, rfl, hstatus, rfl⟩
    · rintro error phase ⟨hdisposed, herror⟩
      exact runEnds_of_disposed hdisposed herror

/-- `run_inner` makes its calls in the phases in which they belong. -/
lemma runInner_helperTypestate (fuel : ℕ) (executable : Text) (args : List Text)
    (timeout : Duration) (uid : Uid) (gid : Option Gid) (prevent : Bool) :
    (runInner fuel (executable :: args) timeout uid gid prevent).Follows helperTypestate
      (RunEnds executable) .fresh := by
  rw [runInner]
  split_ifs
  · exact ⟨_, rfl⟩
  cases hgid : gidOrDefault gid with
  | error error => exact ⟨error, rfl⟩
  | ok gid' =>
  refine fun euid => ⟨.fresh, rfl, fun start => ⟨.fresh, rfl, ?_⟩⟩
  rintro (error | child)
  · exact ⟨.notStarted, rfl, .io error, rfl⟩
  let running : Running := { executable, timeout, deadline := start + timeout, child, fuel }
  by_cases hpid : child.pid < 2 ^ 31
  · refine ⟨startPhase child, ?_, ?_⟩
    · rw [helperTypestate, if_neg (Nat.not_le.mpr hpid), startPhase]
      split_ifs <;> rfl
    · exact spawned_follows running fuel hpid
  · refine ⟨.exempt, if_pos (Nat.not_lt.mp hpid), ?_⟩
    refine (exempt_follows (runStarted_noSpawn running fuel)).mono ?_
    rintro x _ rfl
    trivial

/-! ## The helper is reaped -/

/-- What ends a run early. -/
inductive HelperFailed (child : Child) (es : List (Event CmdCalls)) (x : Except Error Text) : Prop
  /-- A pipe is missing. -/
  | stream (h : child.stdout = false ∨ child.stderr = false)
  /-- A pipe could not be made non-blocking or read, or a call for the status or for more
  output failed. -/
  | call (e : Event CmdCalls) (he : e ∈ es) (h : FailedCall e)
  | limit (stream : Stream) (h : maxOutputBytes < (delivered stream es).length)
  | timeout (executable : Text) (timeout : Duration) (h : x = .error (timedOut executable timeout))

/-- What a run that collected everything returns is not about a timeout or a missing status. -/
lemma checkOutput_ne (executable : Text) {collected : Collected}
    (hstatus : collected.status.isSome = true) :
    checkOutput executable collected ≠ .error statusNotCollected ∧
      ∀ command timeout, checkOutput executable collected ≠ .error (timedOut command timeout) := by
  obtain ⟨st, hst⟩ := Option.isSome_iff_exists.mp hstatus
  rw [checkOutput, hst]
  dsimp only
  split_ifs with hsuccess hutf8
  · refine ⟨fun heq => ?_, fun command timeout heq => ?_⟩
    · exact anyhow_ne _ _ (by decide +kernel)
        (Except.error.inj heq)
    · exact anyhow_ne _ _ (by decide +kernel)
        (Except.error.inj heq)
  · simp [statusNotCollected, timedOut, Error.anyhow]
  · split <;> simp [statusNotCollected, timedOut, Error.anyhow]

/-- **The helper is never leaked.**  Whenever `run_inner` returns after it has started a
child, the child was reaped; if the set-up of the pipes, a read, the limit of the output, a
call for the status, the wait for output or the timeout ended the run, its group was killed
before it was waited for; and a status is never missing. -/
theorem helper_never_leaked (fuel : ℕ) (command : List Text) (timeout : Duration) (uid : Uid)
    (gid : Option Gid) (prevent : Bool) (es : List (Event CmdCalls)) (x : Except Error Text)
    (hrun : (runInner fuel command timeout uid gid prevent).Ends es x)
    (hpids : ∀ cmd child, (⟨.spawn cmd, .ok child⟩ : Event CmdCalls) ∈ es → child.pid < 2 ^ 31)
    (cmd : Command) (child : Child) (hspawn : (⟨.spawn cmd, .ok child⟩ : Event CmdCalls) ∈ es) :
    Reaped child es ∧ (HelperFailed child es x → KilledFirst child es) ∧
      x ≠ .error statusNotCollected := by
  cases command with
  | nil =>
    obtain ⟨rfl, -⟩ := Prog.ends_fail.mp hrun
    exact absurd hspawn (by simp)
  | cons executable args =>
  obtain ⟨phase, hphase, hfollows⟩ :=
    hrun.follows (runInner_helperTypestate fuel executable args timeout uid gid prevent)
  have hends : RunEnds executable x phase := by
    cases x <;> exact hfollows
  have hist : PhaseHistory es phase := phaseHistory_of_run hphase
  cases phase with
  | fresh => exact absurd hspawn (hist.2.2 cmd child)
  | notStarted => exact absurd hspawn (hist cmd child)
  | exempt =>
    obtain ⟨cmd', child', hmem, hlarge⟩ := hist
    exact absurd (hpids cmd' child' hmem) (Nat.not_lt.mpr hlarge)
  | failed child' status => exact hends.elim
  | alive child' received status =>
    obtain ⟨hstarted, hflawless, -, hpipes⟩ := hist
    obtain rfl : child = child' := hstarted.spawned cmd child hspawn
    obtain ⟨collected, rfl, hstatus, rfl⟩ := hends
    have hreturned := checkOutput_ne executable hstatus
    obtain ⟨st, hst⟩ := Option.isSome_iff_exists.mp hstatus
    refine ⟨Or.inl ⟨st, hstarted.collected st hst⟩, fun hfailed => ?_, hreturned.1⟩
    -- a run that is still in this phase has met none of the failures
    cases hfailed with
    | stream h =>
      rw [Bool.and_eq_true] at hpipes
      rcases h with h | h
      · exact absurd hpipes.1 (by simp [h])
      · exact absurd hpipes.2 (by simp [h])
    | call e he h => exact absurd h (hflawless.calls e he)
    | limit stream h =>
      have hlimit := hflawless.limit stream
      have hcounted := hflawless.counted stream
      omega
    | timeout command timeout h => exact absurd h (hreturned.2 command timeout)
  | killed child' status =>
    obtain ⟨hstarted, -, hkilled⟩ := hist
    obtain rfl : child = child' := hstarted.spawned cmd child hspawn
    cases status with
    | none => exact hends.elim
    | some st =>
      obtain ⟨error, rfl, herror⟩ := hends
      exact ⟨Or.inl ⟨st, hstarted.collected st rfl⟩, fun _ => hkilled,
        fun heq => herror (Except.error.inj heq)⟩
  | reaped child' =>
    obtain ⟨hstarted, hkilled, hwait⟩ := hist
    obtain rfl : child = child' := hstarted.spawned cmd child hspawn
    obtain ⟨error, rfl, herror⟩ := hends
    exact ⟨Or.inr hwait, fun _ => hkilled, fun heq => herror (Except.error.inj heq)⟩

/-- The calls of a run whose child comes without its standard output. -/
def noPipeEvents : List (Event CmdCalls) :=
  [⟨.geteuid, (0 : Uid)⟩, ⟨.now, (0 : Instant)⟩,
    ⟨.spawn (helperCommand "/bin/keys" [] 0 99 65534 false), .ok ⟨5, false, true⟩⟩,
    ⟨.killGroup 5, ()⟩, ⟨.kill 5, ()⟩, ⟨.wait 5, ()⟩]

/-- How that run ends. -/
def noPipeEnd : Except Error Text := .error (.anyhow ["failed to get stdout from ", "/bin/keys"])

lemma noPipeEvents_ends :
    (runInner 1 ["/bin/keys"] (Duration.fromSecs 10) 99 none false).Ends noPipeEvents
      noPipeEnd := by
  exact .ask (.ask (.ask (.ask (.ask (.ask (.refl _))))))

/-- A helper of which one pipe is missing. -/
theorem helper_never_leaked_noPipe :
    Reaped ⟨5, false, true⟩ noPipeEvents ∧
      (HelperFailed ⟨5, false, true⟩ noPipeEvents noPipeEnd →
        KilledFirst ⟨5, false, true⟩ noPipeEvents) ∧ noPipeEnd ≠ .error statusNotCollected :=
  helper_never_leaked 1 ["/bin/keys"] (Duration.fromSecs 10) 99 none false noPipeEvents noPipeEnd
    noPipeEvents_ends (by simp [noPipeEvents]) (helperCommand "/bin/keys" [] 0 99 65534 false)
    ⟨5, false, true⟩ (by simp [noPipeEvents])

end PamSshAgent
