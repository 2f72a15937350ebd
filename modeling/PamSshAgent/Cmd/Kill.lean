import PamSshAgent.Library.Typestate
import PamSshAgent.Cmd.Schedule

/-!
# Whom the helper's timeout kills

`terminate_and_reap` kills the process group of the child by its id.  Until the exit status
of the child is collected the kernel keeps the id, and only the child and its descendants
are in the group.  After that the id can be given to an unrelated process, and the kill of
the group does not look whether the status was collected.
-/

namespace PamSshAgent

open Interaction

/-! ## The processes of the system -/

/-- A process: its group, whether it has exited without having been reaped, and whether it
is the helper or one of its descendants. -/
structure Process where
  group : Pid
  exited : Bool
  kin : Bool
deriving DecidableEq, Repr

/-- The process table, and what happened to the id of the helper: whether its exit status
was collected and whether an unrelated process was given the id since. -/
structure Kernel where
  process : Pid → Option Process
  helper : Option Pid
  collected : Bool
  reused : Bool

namespace Kernel

/-- The kernel with another entry for an id. -/
def put (kernel : Kernel) (pid : Pid) (entry : Option Process) : Kernel :=
  { kernel with process := Function.update kernel.process pid entry }

/-- An id that a new process can get. -/
def Free (kernel : Kernel) (pid : Pid) : Prop :=
  kernel.process pid = none ∧
    ∀ id process, kernel.process id = some process → process.group ≠ pid

/-- What the processes other than the module can do. -/
inductive Step : Kernel → Kernel → Prop
  /-- A process starts another one, in its own group. -/
  | fork {kernel : Kernel} {parent pid : Pid} {process : Process}
      (hparent : kernel.process parent = some process) (hlive : process.exited = false)
      (hfree : kernel.Free pid) : Step kernel
        { kernel.put pid (some process) with
          reused := kernel.reused || (kernel.helper = some pid && !process.kin) }
  /-- A process enters a group of its own or one that exists; unrelated processes do not
  enter a group of which only the helper and its descendants are members. -/
  | join {kernel : Kernel} {pid : Pid} {process : Process} {group : Pid}
      (hprocess : kernel.process pid = some process)
      (hgroup : group = pid ∨ ∃ id member, kernel.process id = some member ∧
        member.group = group ∧ (member.kin = true → process.kin = true)) :
      Step kernel (kernel.put pid (some { process with group }))
  | exit {kernel : Kernel} {pid : Pid} {process : Process}
      (hprocess : kernel.process pid = some process) :
      Step kernel (kernel.put pid (some { process with exited := true }))
  /-- A process that has exited is reaped, except the helper, which the module reaps. -/
  | reap {kernel : Kernel} {pid : Pid} {process : Process}
      (hprocess : kernel.process pid = some process) (hexited : process.exited = true)
      (hother : kernel.helper = some pid → kernel.collected = true) :
      Step kernel (kernel.put pid none)

/-- The kernel after the module has started a process. -/
def spawn (kernel : Kernel) (command : Command) (pid : Pid) : Kernel :=
  { kernel.put pid (some {
      group := if command.processGroup = 0 then pid else command.processGroup
      exited := false
      kin := true }) with
    helper := some pid
    collected := false
    reused := false }

/-- The process has exited, and the kernel after the module has collected its status. -/
def Collects (kernel : Kernel) (pid : Pid) (kernel' : Kernel) : Prop :=
  ∃ process, kernel.process pid = some process ∧ process.exited = true ∧
    kernel' = { kernel.put pid none with collected := true }

/-- How the kernel answers the module. -/
def Replies (kernel : Kernel) (event : Event CmdCalls) (kernel' : Kernel) : Prop :=
  match event with
  | ⟨.spawn command, .ok child⟩ =>
    kernel.Free child.pid ∧ kernel' = kernel.spawn command child.pid
  | ⟨.tryWait pid, .ok (some _)⟩ => kernel.Collects pid kernel'
  | ⟨.wait pid, _⟩ => kernel.Collects pid kernel'
  | _ => kernel' = kernel

/-- The module among the other processes. -/
def world : World CmdCalls Kernel where
  interfere := Step
  reply := Replies

/-- A process that gets a signal by a call of the module. -/
def Signalled (kernel : Kernel) (query : CmdQuery) (process : Process) : Prop :=
  match query with
  | .killGroup pid => ∃ id, kernel.process id = some process ∧ process.group = pid
  | .kill pid => kernel.process pid = some process
  | _ => False

/-- The id was given to an unrelated process, and its group has an unrelated member. -/
def GroupReused (kernel : Kernel) (pid : Pid) : Prop :=
  kernel.reused = true ∧
    ∃ id process, kernel.process id = some process ∧ process.group = pid ∧ process.kin = false

/-- No process was started by the module yet. -/
def Initial (kernel : Kernel) : Prop :=
  kernel.helper = none ∧ ∀ id process, kernel.process id = some process → process.kin = false

/-- The process with the id and the members of its group are the helper or descend from it. -/
def OnlyKin (kernel : Kernel) (pid : Pid) : Prop :=
  ∀ id process, kernel.process id = some process → id = pid ∨ process.group = pid →
    process.kin = true

variable {kernel kernel' : Kernel} {pid : Pid}

/-! ## What the other processes can change -/

lemma process_put_self (kernel : Kernel) (pid : Pid) (entry : Option Process) :
    (kernel.put pid entry).process pid = entry :=
  Function.update_self _ _ _

lemma process_put_of_ne (kernel : Kernel) {pid id : Pid} (entry : Option Process) (h : id ≠ pid) :
    (kernel.put pid entry).process id = kernel.process id :=
  Function.update_of_ne h _ _

lemma Step.helper_eq (h : Step kernel kernel') : kernel'.helper = kernel.helper := by
  cases h <;> rfl

lemma Step.collected_eq (h : Step kernel kernel') : kernel'.collected = kernel.collected := by
  cases h <;> rfl

lemma Step.not_reused (h : Step kernel kernel') (hreused : kernel'.reused = false) :
    kernel.reused = false := by
  cases h with
  | fork _ _ _ => exact (Bool.or_eq_false_iff.mp hreused).1
  | join _ _ => exact hreused
  | exit _ => exact hreused
  | reap _ _ _ => exact hreused

/-- Changing one entry keeps the group of the helper as long as the entry fits. -/
lemma OnlyKin.put (h : kernel.OnlyKin pid) {id : Pid} {entry : Option Process}
    (hentry : ∀ process, entry = some process → id = pid ∨ process.group = pid →
      process.kin = true) : (kernel.put id entry).OnlyKin pid := by
  intro other process hprocess hmember
  by_cases heq : other = id
  · subst heq
    rw [process_put_self] at hprocess
    exact hentry process hprocess hmember
  · rw [process_put_of_ne _ _ heq] at hprocess
    exact h other process hprocess hmember

/-- The group of the helper stays free of unrelated processes until its id is reused. -/
lemma Step.onlyKin (h : Step kernel kernel') (hhelper : kernel.helper = some pid)
    (hid : (kernel.process pid).isSome = true ∨ kernel'.reused = false)
    (hkin : kernel.OnlyKin pid) : kernel'.OnlyKin pid := by
  cases h with
  | @fork parent id process hparent hlive hfree =>
    refine hkin.put fun entry hentry hmember => ?_
    obtain rfl := Option.some.inj hentry
    rcases hmember with rfl | hgroup
    · rcases hid with hsome | hreused
      · exact absurd hsome (by simp [hfree.1])
      · simpa [hhelper] using (Bool.or_eq_false_iff.mp hreused).2
    · exact hkin parent process hparent (Or.inr hgroup)
  | @join id process group hprocess hgroup =>
    refine hkin.put fun entry hentry hmember => ?_
    obtain rfl := Option.some.inj hentry
    rcases hmember with rfl | rfl
    · exact hkin id process hprocess (Or.inl rfl)
    · rcases hgroup with rfl | ⟨other, member, hmember, hsame, himp⟩
      · exact hkin _ process hprocess (Or.inl rfl)
      · exact himp (hkin other member hmember (Or.inr hsame))
  | @exit id process hprocess =>
    refine hkin.put fun entry hentry hmember => ?_
    obtain rfl := Option.some.inj hentry
    exact hkin id process hprocess hmember
  | reap hprocess hexited hother => exact hkin.put fun entry hentry => absurd hentry (by simp)

/-- The kernel keeps the helper until the module has collected its status. -/
lemma Step.isSome (h : Step kernel kernel') (hhelper : kernel.helper = some pid)
    (hcollected : kernel.collected = false) (hsome : (kernel.process pid).isSome = true) :
    (kernel'.process pid).isSome = true := by
  have hput : ∀ id entry, (id = pid → entry.isSome = true) →
      ((kernel.put id entry).process pid).isSome = true := by
    intro id entry hentry
    by_cases heq : id = pid
    · subst heq
      rw [process_put_self]
      exact hentry rfl
    · rw [process_put_of_ne _ _ (Ne.symm heq)]
      exact hsome
  cases h with
  | fork _ _ _ => exact hput _ _ fun _ => rfl
  | join _ _ => exact hput _ _ fun _ => rfl
  | exit _ => exact hput _ _ fun _ => rfl
  | @reap id process _ _ hother =>
    refine hput _ _ fun heq => ?_
    subst heq
    exact absurd (hother hhelper) (by simp [hcollected])

end Kernel

/-! ## The phases of `run_inner` -/

/-- How far `run_inner` is with its child. -/
inductive Phase where
  | fresh
  | running (pid : Pid)
  | collected (pid : Pid)
deriving DecidableEq

/-- When `run_inner` makes the calls that have to do with its child. -/
def childTypestate : Typestate CmdCalls Phase := fun phase event =>
  match event with
  | ⟨.spawn _, .ok child⟩ => if phase = .fresh then some (.running child.pid) else none
  | ⟨.tryWait id, .ok (some _)⟩ => if phase = .running id then some (.collected id) else none
  | ⟨.tryWait id, _⟩ => if phase = .running id then some phase else none
  | ⟨.killGroup id, _⟩ =>
    if phase = .running id ∨ phase = .collected id then some phase else none
  | ⟨.kill id, _⟩ => if phase = .running id then some phase else none
  | ⟨.wait id, _⟩ => if phase = .running id then some (.collected id) else none
  | _ => some phase

/-- What the kernel's state is in each phase. -/
def Kernel.InPhase : Phase → Kernel → Prop
  | .fresh, kernel => kernel.helper = none
  | .running pid, kernel => kernel.helper = some pid ∧ kernel.collected = false ∧
      (kernel.process pid).isSome = true ∧ kernel.OnlyKin pid
  | .collected pid, kernel => kernel.helper = some pid ∧ kernel.collected = true ∧
      (kernel.reused = false → kernel.OnlyKin pid)

lemma Kernel.stable_inPhase (phase : Phase) : Stable Kernel.world (Kernel.InPhase phase) := by
  intro kernel kernel' hstep hin
  have hstep' : Kernel.Step kernel kernel' := hstep
  cases phase with
  | fresh => exact hstep'.helper_eq.trans hin
  | running pid =>
    obtain ⟨hhelper, hcollected, hsome, hkin⟩ := hin
    exact ⟨hstep'.helper_eq.trans hhelper, hstep'.collected_eq.trans hcollected,
      hstep'.isSome hhelper hcollected hsome, hstep'.onlyKin hhelper (Or.inl hsome) hkin⟩
  | collected pid =>
    obtain ⟨hhelper, hcollected, hkin⟩ := hin
    refine ⟨hstep'.helper_eq.trans hhelper, hstep'.collected_eq.trans hcollected, fun hreused => ?_⟩
    exact hstep'.onlyKin hhelper (Or.inr hreused) (hkin (hstep'.not_reused hreused))

/-- Starting the helper: no other process has its id or is in its group. -/
lemma Kernel.inPhase_spawn {kernel : Kernel} {command : Command} {pid : Pid}
    (hfree : kernel.Free pid) : Kernel.InPhase (.running pid) (kernel.spawn command pid) := by
  have hself : (kernel.spawn command pid).process pid = some
      ⟨if command.processGroup = 0 then pid else command.processGroup, false, true⟩ :=
    Kernel.process_put_self _ _ _
  refine ⟨rfl, rfl, by rw [hself]; rfl, fun id process hprocess hmember => ?_⟩
  by_cases heq : id = pid
  · subst heq
    rw [hself] at hprocess
    exact (Option.some.inj hprocess) ▸ rfl
  · have hother : (kernel.spawn command pid).process id = kernel.process id :=
      Kernel.process_put_of_ne _ _ heq
    rw [hother] at hprocess
    exact absurd (hmember.resolve_left heq) (hfree.2 id process hprocess)

/-- Collecting the status gives the id free and changes nothing else. -/
lemma Kernel.inPhase_collects {kernel kernel' : Kernel} {pid : Pid}
    (hin : Kernel.InPhase (.running pid) kernel) (h : kernel.Collects pid kernel') :
    Kernel.InPhase (.collected pid) kernel' := by
  obtain ⟨process, -, -, rfl⟩ := h
  obtain ⟨hhelper, -, -, hkin⟩ := hin
  have hkin' : (kernel.put pid none).OnlyKin pid := hkin.put (by simp)
  exact ⟨hhelper, rfl, fun _ => hkin'⟩

/-- Each reply of the kernel fits the phase after the call. -/
lemma Kernel.inPhase_reply {phase phase' : Phase} {kernel kernel' : Kernel}
    {event : Event CmdCalls} (hphase : childTypestate phase event = some phase')
    (hreply : kernel.Replies event kernel') (hin : Kernel.InPhase phase kernel) :
    Kernel.InPhase phase' kernel' := by
  have hquiet : some phase = some phase' → kernel' = kernel → Kernel.InPhase phase' kernel' := by
    rintro hsame rfl
    exact Option.some.inj hsame ▸ hin
  obtain ⟨query, reply⟩ := event
  cases query with
  | spawn command =>
    cases reply with
    | ok child =>
      obtain ⟨-, hnext⟩ := Option.ite_none_right_eq_some.mp hphase
      obtain rfl := Option.some.inj hnext
      exact hreply.2 ▸ Kernel.inPhase_spawn hreply.1
    | error error => exact hquiet hphase hreply
  | tryWait id =>
    rcases reply with error | _ | status
    · exact hquiet (Option.ite_none_right_eq_some.mp hphase).2 hreply
    · exact hquiet (Option.ite_none_right_eq_some.mp hphase).2 hreply
    · obtain ⟨rfl, hnext⟩ := Option.ite_none_right_eq_some.mp hphase
      obtain rfl := Option.some.inj hnext
      exact Kernel.inPhase_collects hin hreply
  | killGroup id => exact hquiet (Option.ite_none_right_eq_some.mp hphase).2 hreply
  | kill id => exact hquiet (Option.ite_none_right_eq_some.mp hphase).2 hreply
  | wait id =>
    obtain ⟨rfl, hnext⟩ := Option.ite_none_right_eq_some.mp hphase
    obtain rfl := Option.some.inj hnext
    exact Kernel.inPhase_collects hin hreply
  | _ => exact hquiet hphase hreply

/-! ## `run_inner` follows the phases -/

/-- The phase that the variable of the exit status says. -/
def Phase.of (pid : Pid) (status : Option ExitStatus) : Phase :=
  if status.isNone then .running pid else .collected pid

/-- A call that has nothing to do with the child leaves the phase. -/
def CmdQuery.Quiet : CmdQuery → Prop
  | spawn _ | tryWait _ | killGroup _ | kill _ | wait _ => False
  | _ => True

lemma childTypestate_quiet (phase : Phase) (event : Event CmdCalls)
    (h : CmdQuery.Quiet event.query) : childTypestate phase event = some phase := by
  obtain ⟨query, reply⟩ := event
  cases query with
  | spawn _ => exact h.elim
  | tryWait _ => exact h.elim
  | killGroup _ => exact h.elim
  | kill _ => exact h.elim
  | wait _ => exact h.elim
  | _ => rfl

/-- Whatever is killed at the end of a run, the calls fit the phase. -/
lemma terminateAndReap_follows (child : Child) (status : Option ExitStatus) :
    (terminateAndReap child status).Follows childTypestate (fun x _ => x = .ok ())
      (Phase.of child.pid status) := by
  have hreap : (if status.isNone then do
        Prog.query (I := CmdCalls) (.kill child.pid)
        Prog.query (I := CmdCalls) (.wait child.pid)
      else pure () : Prog CmdCalls Error Unit).Follows childTypestate (fun x _ => x = .ok ())
      (Phase.of child.pid status) := by
    split_ifs with hnone
    · rw [Phase.of, if_pos hnone]
      refine fun killed => ⟨.running child.pid, if_pos rfl, fun waited => ?_⟩
      exact ⟨.collected child.pid, if_pos rfl, rfl⟩
    · exact rfl
  rw [terminateAndReap]
  by_cases hpid : child.pid < 2 ^ 31
  · rw [if_pos hpid]
    refine fun killed => ⟨Phase.of child.pid status, if_pos ?_, hreap⟩
    rw [Phase.of]
    split_ifs
    · exact Or.inl rfl
    · exact Or.inr rfl
  · rw [if_neg hpid]
    exact hreap

lemma terminateWith_follows {α : Type} (child : Child) (status : Option ExitStatus) (error : Error)
    {post : Except Error α → Phase → Prop} (hpost : ∀ phase, post (.error error) phase) :
    (terminateWith child status error).Follows childTypestate post
      (Phase.of child.pid status) := by
  refine (terminateAndReap_follows child status).bind (fun _ phase _ => hpost phase) ?_
  exact fun e _ h => absurd h (by simp)

/-- How a part of the loop ends: with the phase that its status says, or with an error. -/
def EndsInPhase {α : Type} (pid : Pid) (status : α → Option ExitStatus) :
    Except Error α → Phase → Prop
  | .ok a, phase => phase = Phase.of pid (status a)
  | .error _, _ => True

lemma collectStatus_follows (child : Child) (status : Option ExitStatus) :
    (collectStatus child status).Follows childTypestate (EndsInPhase child.pid id)
      (Phase.of child.pid status) := by
  rw [collectStatus]
  split_ifs with hnone
  · rw [Prog.query_bind]
    have hrunning : Phase.of child.pid status = .running child.pid := if_pos hnone
    rintro (error | _ | result)
    · exact ⟨Phase.of child.pid status, by rw [hrunning]; exact if_pos rfl,
        terminateWith_follows child status _ fun _ => trivial⟩
    · exact ⟨.running child.pid, by rw [hrunning]; exact if_pos rfl, rfl⟩
    · exact ⟨.collected child.pid, by rw [hrunning]; exact if_pos rfl, rfl⟩
  · exact rfl

lemma waitForOutput_quiet (stdoutEof stderrEof : Bool) (deadline : Instant) (fuel : ℕ) :
    (waitForOutput stdoutEof stderrEof deadline fuel).Asks CmdQuery.Quiet := by
  induction fuel with
  | zero => trivial
  | succ fuel ih =>
    rw [waitForOutput, Prog.query_bind]
    refine ⟨trivial, fun now => ?_⟩
    dsimp only
    split_ifs
    · trivial
    all_goals
      rw [Prog.query_bind]
      refine ⟨trivial, fun reply => ?_⟩
      dsimp only
      split
      · trivial
      · exact ih
      · trivial

lemma drainOutput_quiet (stream : Stream) (fuel : ℕ) (output : List UInt8) (eof : Bool) :
    (drainOutput stream fuel output eof).Asks CmdQuery.Quiet := by
  induction fuel generalizing output with
  | zero => trivial
  | succ fuel ih =>
    rw [drainOutput, Prog.query_bind]
    refine ⟨trivial, fun reply => ?_⟩
    dsimp only
    split
    · trivial
    · split_ifs
      · trivial
      · exact ih _
    · trivial
    · exact ih _
    · trivial

/-- A quiet attempt, after which the run goes on in the same phase. -/
lemma attempt_quiet_follows {ε α β : Type} {p : Prog CmdCalls ε α}
    {f : Except ε α → Prog CmdCalls Error β} {post : Except Error β → Phase → Prop} {phase : Phase}
    (hp : p.Asks CmdQuery.Quiet) (hf : ∀ x, (f x).Follows childTypestate post phase) :
    (p.attempt >>= f).Follows childTypestate post phase := by
  refine (hp.follows (childTypestate_quiet phase)).attempt_bind ?_
  rintro x _ rfl
  exact hf x

lemma drainBoth_follows (running : Running) (collected : Collected) :
    (drainBoth running collected).Follows childTypestate
      (EndsInPhase running.child.pid Collected.status)
      (Phase.of running.child.pid collected.status) := by
  rw [drainBoth]
  refine attempt_quiet_follows (drainOutput_quiet _ _ _ _) fun stdout => ?_
  rcases stdout with error | ⟨stdoutBytes, stdoutEof⟩
  · exact terminateWith_follows running.child collected.status _ fun _ => trivial
  refine attempt_quiet_follows (drainOutput_quiet _ _ _ _) fun stderr => ?_
  rcases stderr with error | ⟨stderrBytes, stderrEof⟩
  · exact terminateWith_follows running.child collected.status _ fun _ => trivial
  · exact rfl

lemma awaitProgress_follows (running : Running) (collected : Collected) :
    (awaitProgress running collected).Follows childTypestate
      (EndsInPhase running.child.pid fun _ => collected.status)
      (Phase.of running.child.pid collected.status) := by
  rw [awaitProgress, Prog.query_bind]
  refine fun now => ⟨_, rfl, ?_⟩
  dsimp only
  split_ifs
  · exact terminateWith_follows running.child collected.status _ fun _ => trivial
  refine attempt_quiet_follows (waitForOutput_quiet _ _ _ _) fun waited => ?_
  rcases waited with error | _
  · exact terminateWith_follows running.child collected.status _ fun _ => trivial
  · exact rfl

lemma collectOutput_follows (running : Running) (fuel : ℕ) (collected : Collected) :
    (collectOutput running fuel collected).Follows childTypestate (fun _ _ => True)
      (Phase.of running.child.pid collected.status) := by
  induction fuel generalizing collected with
  | zero => trivial
  | succ fuel ih =>
    rw [collectOutput]
    refine (drainBoth_follows running collected).bind ?_ fun _ _ _ => trivial
    rintro drained _ rfl
    split_ifs
    · trivial
    refine (collectStatus_follows running.child drained.status).bind ?_ fun _ _ _ => trivial
    rintro status _ rfl
    refine (awaitProgress_follows running { drained with status }).bind ?_ fun _ _ _ => trivial
    rintro _ _ rfl
    exact ih { drained with status }

lemma takeStreams_quiet (executable : Text) (child : Child) :
    (takeStreams executable child).Asks CmdQuery.Quiet := by
  have hset : ∀ stream, (setNonblocking stream).Asks CmdQuery.Quiet := by
    intro stream
    refine (Prog.asks_query trivial).bind fun flags => (Prog.asks_ofExcept _).bind fun flags => ?_
    exact (Prog.asks_query trivial).bind fun reply => Prog.asks_ofExcept _
  rw [takeStreams]
  split_ifs
  · trivial
  · trivial
  · refine (hset .stdout).attempt.bind fun stdout => (Prog.asks_ofExcept _).bind fun _ => ?_
    exact (hset .stderr).attempt.bind fun stderr => Prog.asks_ofExcept _

/-- What `run_inner` does once the child is started. -/
def runStarted (running : Running) (fuel : ℕ) : Prog CmdCalls Error Text := do
  match ← (takeStreams running.executable running.child).attempt with
  | .error error => terminateWith running.child none error
  | .ok () => do
    let collected ← collectOutput running fuel
      { stdoutBytes := [], stderrBytes := [], stdoutEof := false, stderrEof := false,
        status := none }
    Prog.ofExcept (checkOutput running.executable collected)

lemma runStarted_follows (running : Running) (fuel : ℕ) :
    (runStarted running fuel).Follows childTypestate (fun _ _ => True)
      (.running running.child.pid) := by
  refine attempt_quiet_follows (takeStreams_quiet running.executable running.child) fun streams => ?_
  rcases streams with error | _
  · exact terminateWith_follows running.child none _ fun _ => trivial
  refine (collectOutput_follows _ fuel _).bind (fun collected phase _ => ?_) fun _ _ _ => trivial
  exact ((Prog.asks_ofExcept (Q := CmdQuery.Quiet) _).follows
    (childTypestate_quiet _)).mono fun _ _ _ => trivial

/-- `run_inner` makes its calls in the phases in which they belong. -/
lemma runInner_follows (fuel : ℕ) (command : List Text) (timeout : Duration) (uid : Uid)
    (gid : Option Gid) (prevent : Bool) :
    (runInner fuel command timeout uid gid prevent).Follows childTypestate (fun _ _ => True)
      .fresh := by
  rw [runInner.eq_def]
  cases command with
  | nil => trivial
  | cons executable args =>
  dsimp only
  split_ifs
  · trivial
  refine ((Prog.asks_ofExcept (Q := CmdQuery.Quiet) _).follows
    (childTypestate_quiet _)).bind ?_ fun _ _ _ => trivial
  rintro gid' _ rfl
  rw [Prog.query_bind]
  refine fun euid => ⟨.fresh, rfl, ?_⟩
  dsimp only
  rw [Prog.query_bind]
  refine fun start => ⟨.fresh, rfl, ?_⟩
  dsimp only
  rw [Prog.query_bind]
  rintro (error | child)
  · exact ⟨.fresh, rfl, trivial⟩
  exact ⟨.running child.pid, rfl,
    runStarted_follows { executable, timeout, deadline := start + timeout, child, fuel } fuel⟩

/-! ## Whom the kills reach -/

/-- Every process killed in a run is the helper or descends from it. -/
def OnlyHelperKilled : Prop :=
  ∀ (fuel : ℕ) (command : List Text) (timeout : Duration) (uid : Uid) (gid : Option Gid)
    (prevent : Bool) (kernel kernel' : Kernel) (tr : List (Kernel × Event CmdCalls))
    (rest : Prog CmdCalls Error Text), kernel.Initial →
    StepsIn Kernel.world (runInner fuel command timeout uid gid prevent) kernel tr kernel' rest →
      ∀ x ∈ tr, ∀ process, x.1.Signalled x.2.query process → process.kin = true

/-- **Every process killed in a run is the helper or descends from it, if and only if no
group is killed after the exit status was collected and the id was given to an unrelated
process whose group still has unrelated members.** -/
theorem killed_kin_iff (fuel : ℕ) (command : List Text) (timeout : Duration) (uid : Uid)
    (gid : Option Gid) (prevent : Bool) (kernel kernel' : Kernel)
    (tr : List (Kernel × Event CmdCalls)) (rest : Prog CmdCalls Error Text)
    (hinitial : kernel.Initial)
    (hrun : StepsIn Kernel.world (runInner fuel command timeout uid gid prevent) kernel tr kernel'
      rest) :
    (∀ x ∈ tr, ∀ process, x.1.Signalled x.2.query process → process.kin = true) ↔
      ∀ x ∈ tr, ∀ pid, x.2.query = .killGroup pid → x.1.collected = true →
        ¬ x.1.GroupReused pid := by
  constructor
  · rintro hkin x hx pid hquery - ⟨-, id, process, hprocess, hgroup, hstranger⟩
    have htrue : process.kin = true := by
      refine hkin x hx process ?_
      rw [hquery]
      exact ⟨id, hprocess, hgroup⟩
    exact absurd htrue (by simp [hstranger])
  · intro hfresh x hx process hsignalled
    -- the phase of the run before the call, and what it says about the kernel
    obtain ⟨phase, phase', hphase, hin⟩ := hrun.follows Kernel.stable_inPhase
      (fun _ _ _ _ _ => Kernel.inPhase_reply)
      (runInner_follows fuel command timeout uid gid prevent) hinitial.1 x hx
    have hreuse := hfresh x hx
    obtain ⟨kernel₁, query, reply⟩ := x
    cases query with
    | killGroup pid =>
      obtain ⟨id, hprocess, hgroup⟩ := hsignalled
      obtain ⟨rfl | rfl, -⟩ := Option.ite_none_right_eq_some.mp hphase
      · exact hin.2.2.2 id process hprocess (Or.inr hgroup)
      · cases hreused : kernel₁.reused with
        | false => exact hin.2.2 hreused id process hprocess (Or.inr hgroup)
        | true =>
          by_contra hstranger
          refine hreuse pid rfl hin.2.1 ⟨hreused, id, process, hprocess, hgroup, ?_⟩
          simpa using hstranger
    | kill pid =>
      obtain ⟨rfl, -⟩ := Option.ite_none_right_eq_some.mp hphase
      exact hin.2.2.2 pid process hsignalled (Or.inl rfl)
    | _ => exact hsignalled.elim

/-! ## A helper whose id is reused -/

/-- A helper that exits at once while a descendant keeps its pipes open; the fourth reading
of the clock is past the deadline. -/
def reuseSchedule : Schedule where
  pid := 5
  euid := 0
  stdout := [.wouldBlock, .wouldBlock]
  stderr := [.wouldBlock, .wouldBlock]
  running := 0
  status := ⟨some 0⟩
  polls := []
  clock := fun reading => if reading < 3 then 0 else Duration.fromSecs 10
  readings := 0

/-- The run of the helper on that schedule. -/
def reuseRun : Prog CmdCalls Error Text × List (Event CmdCalls) × Schedule :=
  (runInner 2 ["/bin/keys"] (Duration.fromSecs 10) 99 none false).run Schedule.responder
    reuseSchedule

/-- One unrelated process, before the helper is started. -/
def reuseStart : Kernel where
  process := fun pid => if pid = 1 then some ⟨1, false, false⟩ else none
  helper := none
  collected := false
  reused := false

/-- The helper runs. -/
def reuseSpawned : Kernel :=
  reuseStart.spawn (helperCommand "/bin/keys" [] 0 99 65534 false) 5

/-- Its descendant has left its group, and it has exited. -/
def reuseExited : Kernel :=
  ((reuseSpawned.put 6 (some ⟨5, false, true⟩)).put 6 (some ⟨6, false, true⟩)).put 5
    (some ⟨5, true, true⟩)

/-- The exit status is collected. -/
def reuseCollected : Kernel := { reuseExited.put 5 none with collected := true }

/-- An unrelated process was given the id and made a group of its own. -/
def reuseReused : Kernel :=
  { (reuseCollected.put 5 (some ⟨1, false, false⟩)).put 5 (some ⟨5, false, false⟩) with
    reused := true }

/-- The calls of the run, each with the processes of that moment. -/
def reuseTrace : List (Kernel × Event CmdCalls) :=
  (List.replicate 3 reuseStart ++ List.replicate 6 reuseSpawned ++ List.replicate 1 reuseExited ++
    List.replicate 5 reuseCollected ++ List.replicate 2 reuseReused).zip reuseRun.2.1

/-- A call that the kernel answers without a change of its processes. -/
lemma Kernel.serves_unchanged {kernel kernel' : Kernel} {event : Event CmdCalls}
    {tr : List (Kernel × Event CmdCalls)} (h : kernel.Replies event kernel)
    (h' : Serves Kernel.world kernel tr kernel') :
    Serves Kernel.world kernel ((kernel, event) :: tr) kernel' :=
  .reply h h'

lemma reuseStart_free {pid : Pid} (h : pid ≠ 1) : reuseStart.Free pid := by
  refine ⟨if_neg h, fun id process hprocess => ?_⟩
  obtain ⟨-, hentry⟩ := Option.ite_none_right_eq_some.mp hprocess
  rw [← Option.some.inj hentry]
  exact h.symm

lemma reuseSpawned_free : reuseSpawned.Free 6 := by
  refine ⟨rfl, fun id process hprocess => ?_⟩
  by_cases heq : id = 5
  · subst heq
    rw [← Option.some.inj (show some ⟨5, false, true⟩ = some process from hprocess)]
    decide
  · exact (reuseStart_free (by decide)).2 id process
      ((Kernel.process_put_of_ne _ _ heq).symm.trans hprocess)

lemma reuseCollected_free : reuseCollected.Free 5 := by
  refine ⟨rfl, fun id process hprocess => ?_⟩
  by_cases h5 : id = 5
  · subst h5
    exact absurd (show none = some process from hprocess) (by simp)
  by_cases h6 : id = 6
  · subst h6
    rw [← Option.some.inj (show some ⟨6, false, true⟩ = some process from hprocess)]
    decide
  · have hexited : reuseCollected.process id = reuseExited.process id :=
      Kernel.process_put_of_ne _ _ h5
    have hspawned : reuseExited.process id = reuseSpawned.process id :=
      (Kernel.process_put_of_ne _ _ h5).trans
        ((Kernel.process_put_of_ne _ _ h6).trans (Kernel.process_put_of_ne _ _ h6))
    have hstart : reuseSpawned.process id = reuseStart.process id :=
      Kernel.process_put_of_ne _ _ h5
    rw [hexited, hspawned, hstart] at hprocess
    exact (reuseStart_free (by decide)).2 id process hprocess

lemma reuseTrace_serves : Serves Kernel.world reuseStart reuseTrace reuseReused := by
  -- the helper is started and its pipes are read
  refine Kernel.serves_unchanged rfl (Kernel.serves_unchanged rfl (.reply
    ⟨reuseStart_free (by decide), rfl⟩ ?_))
  iterate 6 refine Kernel.serves_unchanged rfl ?_
  -- a descendant leaves the group, and the helper exits
  refine .interfere (@Kernel.Step.fork _ 5 6 ⟨5, false, true⟩ rfl rfl
    reuseSpawned_free) ?_
  refine .interfere (@Kernel.Step.join _ 6 _ 6 rfl (Or.inl rfl)) ?_
  refine .interfere (@Kernel.Step.exit _ 5 ⟨5, false, true⟩ rfl) ?_
  refine .reply ⟨⟨5, true, true⟩, rfl, rfl, rfl⟩ ?_
  iterate 5 refine Kernel.serves_unchanged rfl ?_
  -- an unrelated process gets the id
  refine .interfere (@Kernel.Step.fork _ 1 5 ⟨1, false, false⟩ rfl rfl
    reuseCollected_free) ?_
  refine .interfere (@Kernel.Step.join _ 5 _ 5 rfl (Or.inl rfl)) ?_
  refine Kernel.serves_unchanged rfl (Kernel.serves_unchanged rfl ?_)
  exact .done _

lemma reuseTrace_steps :
    StepsIn Kernel.world (runInner 2 ["/bin/keys"] (Duration.fromSecs 10) 99 none false) reuseStart
      reuseTrace reuseReused reuseRun.1 := by
  refine ⟨reuseTrace_serves, ?_⟩
  have hsteps := Prog.steps_run Schedule.responder (runInner 2 ["/bin/keys"]
    (Duration.fromSecs 10) 99 none false) reuseSchedule
  exact hsteps

lemma reuseStart_initial : reuseStart.Initial := by
  refine ⟨rfl, fun id process hprocess => ?_⟩
  obtain ⟨-, hentry⟩ := Option.ite_none_right_eq_some.mp hprocess
  rw [← Option.some.inj hentry]

/-- The run in which the id is reused, and whom it kills. -/
theorem killed_kin_iff_reuse :
    (∀ x ∈ reuseTrace, ∀ process, x.1.Signalled x.2.query process → process.kin = true) ↔
      ∀ x ∈ reuseTrace, ∀ pid, x.2.query = .killGroup pid → x.1.collected = true →
        ¬ x.1.GroupReused pid :=
  killed_kin_iff 2 ["/bin/keys"] (Duration.fromSecs 10) 99 none false reuseStart reuseReused
    reuseTrace reuseRun.1 reuseStart_initial reuseTrace_steps

/-- The kill at the deadline hits the unrelated process. -/
theorem not_onlyHelperKilled : ¬ OnlyHelperKilled := by
  intro h
  have hkill : (reuseReused, ⟨.killGroup 5, ()⟩) ∈ reuseTrace :=
    List.mem_of_getLast? (by rfl)
  have hkin := h 2 ["/bin/keys"] (Duration.fromSecs 10) 99 none false reuseStart reuseReused
    reuseTrace reuseRun.1 reuseStart_initial reuseTrace_steps _ hkill ⟨5, false, false⟩
    ⟨5, rfl, rfl⟩
  exact absurd hkin (by decide)

end PamSshAgent
