import Mathlib.Tactic

/-!
# Debug output on request

`with_debug` sets a thread-local flag for the time of a call and puts the old value back
when the call ends, also by a panic.  `PrefixWrappingLogger::enabled` looks at the flag, but
the macros of the `log` crate hand every record up to the maximum level to
`PrefixWrappingLogger::log`, and that does not look at it.
-/

namespace PamSshAgent

/-- `log::Level`. -/
inductive Level where
  | error
  | warn
  | info
  | debug
  | trace
deriving DecidableEq, Repr

/-- The place of a level in the order of `log::Level`. -/
def Level.rank : Level → ℕ
  | error => 1
  | warn => 2
  | info => 3
  | debug => 4
  | trace => 5

/-- `syslog::Severity`, as far as the logger uses it. -/
inductive Severity where
  | err
  | warning
  | info
  | debug
deriving DecidableEq, Repr

/-- The maximum level that `init_impl` sets. -/
def maxLevel : Level := .debug

/-- What a thread does with regard to logging. -/
inductive LogEvent where
  /-- A call of `with_debug` starts. -/
  | enter (enabled : Bool)
  /-- The innermost call of `with_debug` ends, by a panic or normally. -/
  | leave (unwinding : Bool)
  /-- A macro of the `log` crate is called. -/
  | record (level : Level)
deriving DecidableEq, Repr

/-- A thread: `REQUEST_DEBUG`, and what the `Reset` of each call of `with_debug` in progress
holds, the innermost first. -/
structure ThreadLog where
  requestDebug : Bool
  resets : List Bool
deriving DecidableEq, Repr

namespace ThreadLog

/-- A new thread. -/
def init : ThreadLog := ⟨false, []⟩

/-- `with_debug` at its start and at its end, where `Reset::drop` runs. -/
def step (thread : ThreadLog) : LogEvent → ThreadLog
  | .enter enabled => ⟨enabled, thread.requestDebug :: thread.resets⟩
  | .leave _ =>
    match thread.resets with
    | [] => thread
    | previous :: resets => ⟨previous, resets⟩
  | .record _ => thread

/-- `PrefixWrappingLogger::enabled`. -/
def enabled (thread : ThreadLog) (level : Level) : Bool :=
  level.rank ≤ Level.info.rank || (level = .debug && thread.requestDebug)

end ThreadLog

/-- `PrefixWrappingLogger::log`: the severity that the record is written with. -/
def PrefixWrappingLogger.log : Level → Severity
  | .error => .err
  | .warn => .warning
  | .info => .info
  | .debug => .debug
  | .trace => .debug

/-- What reaches syslog of a record: the macros hand it to the logger unless it is above the
maximum level. -/
def written (level : Level) : Option Severity :=
  if level.rank ≤ maxLevel.rank then some (PrefixWrappingLogger.log level) else none

/-- A thread of the process. -/
abbrev ThreadId := ℕ

/-- What the process does, event after event. -/
abbrev History := List (ThreadId × LogEvent)

/-- The threads after a history. -/
def threadsAfter (history : History) : ThreadId → ThreadLog :=
  history.foldl (fun threads event =>
    Function.update threads event.1 ((threads event.1).step event.2)) fun _ => .init

/-! ## The calls in progress -/

/-- The events of one thread. -/
def onThread (thread : ThreadId) (history : History) : List LogEvent :=
  history.filterMap fun event => if event.1 = thread then some event.2 else none

/-- The arguments of the calls of `with_debug` in progress, the innermost first. -/
def openCalls (events : List LogEvent) : List Bool :=
  events.foldl (fun calls event =>
    match event with
    | .enter enabled => enabled :: calls
    | .leave _ => calls.tail
    | .record _ => calls) []

/-- The argument of the innermost call of `with_debug` in progress on the thread. -/
def innermost (thread : ThreadId) (history : History) : Option Bool :=
  (openCalls (onThread thread history)).head?

/-- Events of a thread during which as many calls end as start, in their order. -/
inductive Balanced : List LogEvent → Prop
  | nil : Balanced []
  | record (level : Level) {rest : List LogEvent} (h : Balanced rest) :
      Balanced (.record level :: rest)
  | call (enabled unwinding : Bool) {body rest : List LogEvent} (hbody : Balanced body)
      (hrest : Balanced rest) :
      Balanced (.enter enabled :: (body ++ .leave unwinding :: rest))

/-- Debug output is written on request only, other output always, and the end of a call of
`with_debug` puts the setting back. -/
structure DebugOnRequest (history : History) : Prop where
  debug : ∀ before thread after, history = before ++ (thread, .record .debug) :: after →
    (written .debug).isSome = true → innermost thread before = some true
  others : ∀ before thread level after, history = before ++ (thread, .record level) :: after →
    level.rank ≤ Level.info.rank → (written level).isSome = true
  restored : ∀ before thread enabled body unwinding after,
    history = before ++ (thread, .enter enabled) :: (body ++ (thread, .leave unwinding) :: after) →
      Balanced (onThread thread body) →
        (threadsAfter (before ++ (thread, .enter enabled) ::
          (body ++ [(thread, .leave unwinding)])) thread).requestDebug =
        (threadsAfter before thread).requestDebug

variable {history : History} {thread : ThreadId} {events : List LogEvent}

lemma onThread_append (before after : History) :
    onThread thread (before ++ after) = onThread thread before ++ onThread thread after :=
  List.filterMap_append

lemma onThread_cons_self (event : LogEvent) (history : History) :
    onThread thread ((thread, event) :: history) = event :: onThread thread history := by
  simp [onThread]

/-- A thread sees its own events only. -/
lemma threadsAfter_apply (history : History) (thread : ThreadId) :
    threadsAfter history thread = (onThread thread history).foldl ThreadLog.step .init := by
  induction history using List.reverseRecOn with
  | nil => rfl
  | append_singleton history event ih =>
    obtain ⟨other, event⟩ := event
    rw [threadsAfter, List.foldl_append, ← threadsAfter, onThread, List.filterMap_append,
      List.foldl_append, ← onThread, ← ih]
    by_cases heq : other = thread
    · subst heq
      simp
    · simp [heq, Function.update_of_ne (Ne.symm heq)]

/-- Balanced events leave a thread as it was. -/
lemma Balanced.foldl_step (h : Balanced events) (state : ThreadLog) :
    events.foldl ThreadLog.step state = state := by
  induction h generalizing state with
  | nil => rfl
  | record level _ ih => exact ih state
  | call enabled unwinding _ _ ihbody ihrest =>
    rw [List.foldl_cons, List.foldl_append, ihbody, List.foldl_cons]
    exact ihrest state

/-- The flag is that of the innermost call, and each `Reset` holds the one below. -/
lemma requestDebug_cons_resets (events : List LogEvent) :
    (events.foldl ThreadLog.step .init).requestDebug ::
      (events.foldl ThreadLog.step .init).resets = openCalls events ++ [false] := by
  induction events using List.reverseRecOn with
  | nil => rfl
  | append_singleton events event ih =>
    rw [openCalls, List.foldl_append, List.foldl_append, ← openCalls]
    cases event with
    | enter enabled => exact congrArg (List.cons enabled) ih
    | record level => exact ih
    | leave unwinding =>
      generalize events.foldl ThreadLog.step .init = state at ih ⊢
      obtain ⟨requestDebug, resets⟩ := state
      cases hcalls : openCalls events with
      | nil =>
        rw [hcalls] at ih
        obtain ⟨rfl, rfl⟩ := List.cons.inj ih
        rfl
      | cons enabled calls =>
        rw [hcalls] at ih
        obtain ⟨-, rfl⟩ := List.cons.inj ih
        cases calls <;> rfl

/-- `PrefixWrappingLogger::enabled` decides as it should. -/
lemma enabled_iff (history : History) (thread : ThreadId) (level : Level) :
    (threadsAfter history thread).enabled level = true ↔
      level.rank ≤ Level.info.rank ∨ level = .debug ∧ innermost thread history = some true := by
  have hflag := requestDebug_cons_resets (onThread thread history)
  rw [← threadsAfter_apply] at hflag
  have hsame : (threadsAfter history thread).requestDebug = true ↔
      innermost thread history = some true := by
    rw [innermost]
    cases hcalls : openCalls (onThread thread history) with
    | nil =>
      rw [hcalls] at hflag
      simp [(List.cons.inj hflag).1]
    | cons enabled calls =>
      rw [hcalls] at hflag
      simp [(List.cons.inj hflag).1]
  rw [ThreadLog.enabled, Bool.or_eq_true, decide_eq_true_iff, Bool.and_eq_true,
    decide_eq_true_iff, hsame]

/-- **Debug output is written on request only, if and only if no debug record is issued
outside a call of `with_debug` that asks for it.** -/
theorem debugOnRequest_iff (history : History) : DebugOnRequest history ↔
    ∀ before thread after, history = before ++ (thread, .record .debug) :: after →
      innermost thread before = some true := by
  constructor
  · exact fun h before thread after hsplit => h.debug before thread after hsplit rfl
  · intro hinside
    refine ⟨fun before thread after hsplit _ => hinside before thread after hsplit, ?_, ?_⟩
    · rintro - - level - - hlevel
      cases level <;> first | rfl | exact absurd hlevel (by decide)
    · rintro before thread enabled body unwinding after - hbalanced
      rw [threadsAfter_apply, threadsAfter_apply, onThread_append, onThread_cons_self,
        onThread_append, onThread_cons_self, List.foldl_append, List.foldl_cons, List.foldl_append,
        hbalanced.foldl_step]
      rfl

/-- A debug record in a call that does not ask for debug output is written. -/
theorem not_debugOnRequest : ¬ ∀ history, DebugOnRequest history := by
  intro h
  have hinside := (h [(0, .enter false), (0, .record .debug), (0, .leave false)]).debug
    [(0, .enter false)] 0 [(0, .leave false)] rfl rfl
  exact absurd hinside (by decide)

end PamSshAgent
