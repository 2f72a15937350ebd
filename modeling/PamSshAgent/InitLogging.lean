import PamSshAgent.Library.Threads
import PamSshAgent.Logging
import PamSshAgent.LogLines
import PamSshAgent.Rust.Error

/-!
# Logging is set up once

`init_logging` is called at the start of every call of the module, by any number of threads
of a process that may have a logger of its own.  A lock and a flag make sure that it sets up
the `log` crate at most once.
-/

namespace PamSshAgent

open Interaction Interaction.Prog

/-! ## `init_logging` -/

/-- A call that `init_logging` makes. -/
inductive LogQuery where
  /-- `LOG_LOCK.lock`; a poisoned lock is taken as well. -/
  | lock
  /-- The guard is dropped. -/
  | unlock
  /-- The flag under the lock. -/
  | readGuard
  | writeGuard (value : Bool)
  /-- `syslog::unix`. -/
  | openSyslog (formatter : PrefixFormatter)
  /-- `log::set_boxed_logger` with a `PrefixWrappingLogger`. -/
  | setBoxedLogger (formatter : PrefixFormatter)
  /-- `log::set_max_level`. -/
  | setMaxLevel (level : Level)

/-- What a call replies: an error of `syslog::unix` has a description, that of
`set_boxed_logger` says nothing. -/
@[reducible] def LogQuery.Reply : LogQuery → Type
  | lock | unlock | writeGuard _ | setMaxLevel _ => Unit
  | readGuard => Bool
  | openSyslog _ => Except Text Unit
  | setBoxedLogger _ => Except Unit Unit

/-- The calls that `init_logging` makes. -/
abbrev LogCalls : Interface := ⟨LogQuery, LogQuery.Reply⟩

/-- `log::SetLoggerError`. -/
def setLoggerError : Error := .anyhow
  ["attempted to set a logger after the logging system was already initialized"]

/-- `init_impl`. -/
def initImpl (pamService : Text) : Prog LogCalls Error Unit := do
  let formatter := PrefixFormatter.new pamService
  match ← Prog.query (I := LogCalls) (.openSyslog formatter) with
  | .error e => .fail (.anyhow ["Failed to set up log: ", e])
  | .ok () => do
    match ← Prog.query (I := LogCalls) (.setBoxedLogger formatter) with
    | .error () => .fail setLoggerError
    | .ok () => Prog.query (I := LogCalls) (.setMaxLevel maxLevel)

/-- `init_logging`. -/
def initLogging (pamService : Text) : Prog LogCalls Error Unit := do
  Prog.query (I := LogCalls) .lock
  if ← Prog.query (I := LogCalls) .readGuard then
    Prog.query (I := LogCalls) .unlock
  else do
    match ← (initImpl pamService).attempt with
    | .error error => do
      Prog.query (I := LogCalls) .unlock
      .fail error
    | .ok () => do
      Prog.query (I := LogCalls) (.writeGuard true)
      Prog.query (I := LogCalls) .unlock

/-! ## The process -/

/-- The logger of the `log` crate. -/
inductive LogImpl where
  /-- A `PrefixWrappingLogger`. -/
  | module (formatter : PrefixFormatter)
  /-- A logger of the process that has loaded the module. -/
  | process

/-- What the threads of a process share. -/
structure LogState where
  locked : Bool
  guard : Bool
  logger : Option LogImpl
  /-- `log::max_level`, where `none` is `LevelFilter::Off`. -/
  maxLevel : Option Level

/-- The process at its start. -/
def LogState.init : LogState := ⟨false, false, none, none⟩

/-- A call is answered.  The lock can be taken only when it is free, and the `log` crate accepts
one logger. -/
inductive LogState.Replies : LogState → Event LogCalls → LogState → Prop
  | lock (s : LogState) (h : s.locked = false) : Replies s ⟨.lock, ()⟩ { s with locked := true }
  | unlock (s : LogState) : Replies s ⟨.unlock, ()⟩ { s with locked := false }
  | readGuard (s : LogState) (value : Bool) (h : s.guard = value) :
      Replies s ⟨.readGuard, value⟩ s
  | writeGuard (s : LogState) (value : Bool) :
      Replies s ⟨.writeGuard value, ()⟩ { s with guard := value }
  | openSyslog (s : LogState) (formatter : PrefixFormatter) (reply : Except Text Unit) :
      Replies s ⟨.openSyslog formatter, reply⟩ s
  | setBoxedLogger (s : LogState) (formatter : PrefixFormatter) (h : s.logger = none) :
      Replies s ⟨.setBoxedLogger formatter, .ok ()⟩ { s with logger := some (.module formatter) }
  | alreadySet (s : LogState) (formatter : PrefixFormatter) (logger : LogImpl)
      (h : s.logger = some logger) : Replies s ⟨.setBoxedLogger formatter, .error ()⟩ s
  | setMaxLevel (s : LogState) (level : Level) :
      Replies s ⟨.setMaxLevel level, ()⟩ { s with maxLevel := some level }

/-- What the rest of the process does: it may set up a logger of its own, and change the level. -/
inductive LogState.Interferes : LogState → LogState → Prop
  | setLogger (s : LogState) (h : s.logger = none) :
      Interferes s { s with logger := some .process }
  | setMaxLevel (s : LogState) (level : Option Level) : Interferes s { s with maxLevel := level }

/-- The process. -/
def LogState.world : World LogCalls LogState := ⟨Interferes, Replies⟩

/-- What a macro of the `log` crate writes to syslog: the severity and the text. -/
def LogState.written (s : LogState) (level : Level) (message : Text) : Option (Severity × Text) :=
  match s.maxLevel, s.logger with
  | some limit, some (.module formatter) =>
    if level.rank ≤ limit.rank then some (PrefixWrappingLogger.log level, formatter.format message)
    else none
  | _, _ => none

/-! ## The phases of `init_logging` -/

deriving instance DecidableEq for PrefixFormatter

/-- How far a call of `init_logging` has come. -/
inductive InitPhase where
  | start
  /-- The lock is taken. -/
  | locked
  /-- The flag is not set. -/
  | checked
  /-- There is a connection to syslog. -/
  | opened
  /-- The logger is set. -/
  | installed
  /-- The maximum level is set as well. -/
  | leveled
  /-- The flag is set. -/
  | found
  /-- The logger could not be set up. -/
  | failing
  | done
  | failed

/-- The calls that each phase allows. -/
def initTypestate (pamService : Text) : Typestate LogCalls InitPhase
  | .start, ⟨.lock, _⟩ => some .locked
  | .locked, ⟨.readGuard, true⟩ => some .found
  | .locked, ⟨.readGuard, false⟩ => some .checked
  | .checked, ⟨.openSyslog formatter, reply⟩ =>
    if formatter = .new pamService then
      match (reply : Except Text Unit) with
      | .ok _ => some .opened
      | .error _ => some .failing
    else none
  | .opened, ⟨.setBoxedLogger formatter, reply⟩ =>
    if formatter = .new pamService then
      match (reply : Except Unit Unit) with
      | .ok _ => some .installed
      | .error _ => some .failing
    else none
  | .installed, ⟨.setMaxLevel _, _⟩ => some .leveled
  | .leveled, ⟨.writeGuard true, _⟩ => some .found
  | .found, ⟨.unlock, _⟩ => some .done
  | .failing, ⟨.unlock, _⟩ => some .failed
  | _, _ => none

/-- Where `init_impl` ends. -/
def implPhase : Except Error Unit → InitPhase
  | .ok _ => .leveled
  | .error _ => .failing

/-- How a call of `init_logging` ends. -/
def InitEnds : Except Error Unit → InitPhase → Prop
  | .ok _, phase => phase = .done
  | .error _, phase => phase = .failed

/-- The calls with the phase before and the phase after them. -/
inductive InitStep (pamService : Text) : InitPhase → Event LogCalls → InitPhase → Prop
  | lock : InitStep pamService .start ⟨.lock, ()⟩ .locked
  | found : InitStep pamService .locked ⟨.readGuard, true⟩ .found
  | checked : InitStep pamService .locked ⟨.readGuard, false⟩ .checked
  | opened : InitStep pamService .checked ⟨.openSyslog (.new pamService), .ok ()⟩ .opened
  | noSyslog (error : Text) :
      InitStep pamService .checked ⟨.openSyslog (.new pamService), .error error⟩ .failing
  | installed : InitStep pamService .opened ⟨.setBoxedLogger (.new pamService), .ok ()⟩ .installed
  | alreadySet : InitStep pamService .opened ⟨.setBoxedLogger (.new pamService), .error ()⟩ .failing
  | leveled (level : Level) : InitStep pamService .installed ⟨.setMaxLevel level, ()⟩ .leveled
  | guarded : InitStep pamService .leveled ⟨.writeGuard true, ()⟩ .found
  | done : InitStep pamService .found ⟨.unlock, ()⟩ .done
  | failed : InitStep pamService .failing ⟨.unlock, ()⟩ .failed

variable {pamService : Text}

lemma initStep_of_typestate {phase phase' : InitPhase} {e : Event LogCalls}
    (h : initTypestate pamService phase e = some phase') :
    InitStep pamService phase e phase' := by
  unfold initTypestate at h
  split at h
  · obtain rfl := Option.some.inj h
    exact .lock
  · obtain rfl := Option.some.inj h
    exact .found
  · obtain rfl := Option.some.inj h
    exact .checked
  · rename_i formatter reply
    by_cases hformatter : formatter = .new pamService
    · subst hformatter
      rw [if_pos rfl] at h
      rcases reply with error | _
      · obtain rfl := Option.some.inj h
        exact .noSyslog error
      · obtain rfl := Option.some.inj h
        exact .opened
    · rw [if_neg hformatter] at h
      exact absurd h (by simp)
  · rename_i formatter reply
    by_cases hformatter : formatter = .new pamService
    · subst hformatter
      rw [if_pos rfl] at h
      rcases reply with _ | _
      · obtain rfl := Option.some.inj h
        exact .alreadySet
      · obtain rfl := Option.some.inj h
        exact .installed
    · rw [if_neg hformatter] at h
      exact absurd h (by simp)
  · obtain rfl := Option.some.inj h
    exact .leveled _
  · obtain rfl := Option.some.inj h
    exact .guarded
  · obtain rfl := Option.some.inj h
    exact .done
  · obtain rfl := Option.some.inj h
    exact .failed
  · exact absurd h (by simp)

/-- Setting up the logger, with the lock held and the flag not set. -/
lemma initImpl_follows : (initImpl pamService).Follows (initTypestate pamService)
    (fun x phase => phase = implPhase x) .checked := by
  rintro (error | _)
  · refine ⟨.failing, ?_, rfl⟩
    simp [initTypestate]
  · refine ⟨.opened, by simp [initTypestate], ?_⟩
    rintro (_ | _)
    · exact ⟨.failing, by simp [initTypestate], rfl⟩
    · exact ⟨.installed, by simp [initTypestate], fun _ => ⟨.leveled, rfl, rfl⟩⟩

lemma initLogging_follows : (initLogging pamService).Follows (initTypestate pamService) InitEnds
    .start := by
  refine fun _ => ⟨.locked, rfl, ?_⟩
  rintro (_ | _)
  · refine ⟨.checked, rfl, ?_⟩
    refine initImpl_follows.attempt_bind ?_
    rintro (error | _) phase rfl
    · exact fun _ => ⟨.failed, rfl, rfl⟩
    · exact fun _ => ⟨.found, rfl, fun _ => ⟨.done, rfl, rfl⟩⟩
  · exact ⟨.found, rfl, fun _ => ⟨.done, rfl, rfl⟩⟩

/-! ## The invariant -/

/-- The phases between `lock` and `unlock`. -/
def InitPhase.holds : InitPhase → Bool
  | start | done | failed => false
  | _ => true

/-- The flag has been seen or set. -/
def InitPhase.passed : InitPhase → Bool
  | found | done => true
  | _ => false

/-- What a thread knows of the process in a phase. -/
def InitPhase.Knows (pamService : Text) : InitPhase → LogState → Prop
  | checked, s | opened, s => s.guard = false
  | installed, s | leveled, s => s.guard = false ∧ s.logger = some (.module (.new pamService))
  | found, s | done, s => s.guard = true
  | _, _ => True

/-- The invariant of a process whose threads are in phases of `init_logging`. -/
structure Guarded {ι : Type} (pamService : ι → Text) (phase : ι → InitPhase) (s : LogState) :
    Prop where
  locked : s.locked = true ↔ ∃ i, (phase i).holds = true
  exclusive : ∀ i j, (phase i).holds = true → (phase j).holds = true → i = j
  knows : ∀ i, (phase i).Knows (pamService i) s
  guard : s.guard = true → ∃ i, (phase i).passed = true ∧
    s.logger = some (.module (.new (pamService i)))

/-- In a phase outside the lock, what is known stays true when the flag stays set. -/
lemma InitPhase.Knows.of_not_holds {phase : InitPhase} {s s' : LogState}
    (h : phase.Knows pamService s) (hphase : phase.holds = false)
    (hguard : s.guard = true → s'.guard = true) : phase.Knows pamService s' := by
  cases phase with
  | start | failed => trivial
  | done => exact hguard h
  | locked | checked | opened | installed | leveled | found | failing =>
    exact absurd hphase (by simp [holds])

section

variable {ι : Type} [DecidableEq ι] {service : ι → Text} {phase : ι → InitPhase}
  {s s' : LogState} {i : ι} {before next : InitPhase}

/-- A thread that has passed the flag has passed it after a call of its own, too. -/
lemma exists_passed_update {P : ι → Prop} (hphase : phase i = before)
    (hpassed : before.passed = true → next.passed = true)
    (h : ∃ j, (phase j).passed = true ∧ P j) :
    ∃ j, (Function.update phase i next j).passed = true ∧ P j := by
  obtain ⟨j, hj, hP⟩ := h
  refine ⟨j, ?_, hP⟩
  by_cases hij : j = i
  · subst hij
    rw [hphase] at hj
    rw [Function.update_self]
    exact hpassed hj
  · rw [Function.update_of_ne hij]
    exact hj

/-- A thread that does not hold the lock takes it. -/
lemma Guarded.lock (h : Guarded service phase s) (hphase : phase i = .start)
    (hfree : s.locked = false) :
    Guarded service (Function.update phase i .locked) { s with locked := true } := by
  have hnone : ∀ j, (phase j).holds = false := by
    intro j
    by_contra hj
    have hlocked := h.locked.mpr ⟨j, by simpa using hj⟩
    exact absurd (hfree.symm.trans hlocked) (by simp)
  have honly : ∀ j, (Function.update phase i .locked j).holds = true → j = i := by
    intro j hj
    by_contra hne
    rw [Function.update_of_ne hne, hnone j] at hj
    exact absurd hj (by simp)
  refine ⟨⟨fun _ => ⟨i, by simp [InitPhase.holds]⟩, fun _ => rfl⟩, ?_, ?_, ?_⟩
  · intro j k hj hk
    rw [honly j hj, honly k hk]
  · intro j
    by_cases hj : j = i
    · subst hj
      rw [Function.update_self]
      trivial
    · rw [Function.update_of_ne hj]
      exact (h.knows j).of_not_holds (hnone j) id
  · intro hset
    exact exists_passed_update hphase (by simp [InitPhase.passed]) (h.guard hset)

/-- The thread that holds the lock makes a call. -/
lemma Guarded.step (h : Guarded service phase s) (hphase : phase i = before)
    (hi : before.holds = true) (hlocked : s'.locked = next.holds)
    (hset : s.guard = true → s'.guard = true) (hknows : next.Knows (service i) s')
    (hguard : s'.guard = true → ∃ j, (Function.update phase i next j).passed = true ∧
      s'.logger = some (.module (.new (service j)))) :
    Guarded service (Function.update phase i next) s' := by
  have hothers : ∀ j, j ≠ i → (phase j).holds = false := by
    intro j hj
    by_contra hholds
    exact hj (h.exclusive j i (by simpa using hholds) (by rw [hphase]; exact hi))
  have honly : ∀ j, (Function.update phase i next j).holds = true → j = i := by
    intro j hj
    by_contra hne
    rw [Function.update_of_ne hne, hothers j hne] at hj
    exact absurd hj (by simp)
  refine ⟨⟨fun hl => ⟨i, ?_⟩, ?_⟩, ?_, ?_, hguard⟩
  · rw [Function.update_self, ← hlocked]
    exact hl
  · rintro ⟨j, hj⟩
    obtain rfl := honly j hj
    rw [Function.update_self] at hj
    exact hlocked.trans hj
  · intro j k hj hk
    rw [honly j hj, honly k hk]
  · intro j
    by_cases hj : j = i
    · subst hj
      rw [Function.update_self]
      exact hknows
    · rw [Function.update_of_ne hj]
      exact (h.knows j).of_not_holds (hothers j hj) hset

/-- A thread's call keeps the invariant. -/
lemma InitStep.keeps {e : Event LogCalls} (h : InitStep (service i) (phase i) e next)
    (hreply : LogState.Replies s e s') (hs : Guarded service phase s) :
    Guarded service (Function.update phase i next) s' := by
  have hknows := hs.knows i
  have hlocked : (phase i).holds = true → s.locked = true := fun hi => hs.locked.mpr ⟨i, hi⟩
  generalize hphase : phase i = before at h hknows hlocked
  have hstays (hpassed : before.passed = true → next.passed = true) (hset : s.guard = true) :=
    exists_passed_update hphase hpassed (hs.guard hset)
  cases h with
  | lock =>
    cases hreply with
    | lock hfree => exact hs.lock hphase hfree
  | found =>
    cases hreply with
    | readGuard _ hset =>
      exact hs.step hphase rfl (hlocked rfl) id hset (hstays fun _ => rfl)
  | checked =>
    cases hreply with
    | readGuard _ hset => exact hs.step hphase rfl (hlocked rfl) id hset (hstays id)
  | opened =>
    cases hreply with
    | openSyslog => exact hs.step hphase rfl (hlocked rfl) id hknows (hstays id)
  | noSyslog error =>
    cases hreply with
    | openSyslog => exact hs.step hphase rfl (hlocked rfl) id trivial (hstays id)
  | installed =>
    cases hreply with
    | setBoxedLogger =>
      refine hs.step hphase rfl (hlocked rfl) id ⟨hknows, rfl⟩ fun hset => ?_
      exact absurd (hset.symm.trans hknows) (by simp)
  | alreadySet =>
    cases hreply with
    | alreadySet _ logger hlogger =>
      exact hs.step hphase rfl (hlocked rfl) id trivial (hstays id)
  | leveled level =>
    cases hreply with
    | setMaxLevel => exact hs.step hphase rfl (hlocked rfl) id hknows (hstays id)
  | guarded =>
    cases hreply with
    | writeGuard =>
      refine hs.step hphase rfl (hlocked rfl) (fun _ => rfl) rfl fun _ => ⟨i, ?_, hknows.2⟩
      rw [Function.update_self]
      rfl
  | done =>
    cases hreply with
    | unlock => exact hs.step hphase rfl rfl id hknows (hstays fun _ => rfl)
  | failed =>
    cases hreply with
    | unlock => exact hs.step hphase rfl rfl id trivial (hstays id)

omit [DecidableEq ι] in
/-- What the rest of the process does keeps the invariant. -/
lemma Guarded.stable (phase : ι → InitPhase) : Stable LogState.world (Guarded service phase) := by
  intro s s' hstep hs
  have hpassed : s.logger = none → s.guard = false := by
    intro hnone
    by_contra hset
    obtain ⟨i, -, hlogger⟩ := hs.guard (by simpa using hset)
    exact absurd (hnone.symm.trans hlogger) (by simp)
  cases hstep with
  | setLogger hnone =>
    refine ⟨hs.locked, hs.exclusive, fun i => ?_, fun hset => ?_⟩
    · have hknows := hs.knows i
      generalize phase i = before at hknows ⊢
      cases before with
      | installed | leveled => exact absurd (hnone.symm.trans hknows.2) (by simp)
      | _ => exact hknows
    · exact absurd (hset.symm.trans (hpassed hnone)) (by simp)
  | setMaxLevel level =>
    refine ⟨hs.locked, hs.exclusive, fun i => ?_, hs.guard⟩
    have hknows := hs.knows i
    generalize phase i = before at hknows ⊢
    cases before <;> exact hknows

end

/-! ## Any number of calls -/

/-- A process at its start, in which a thread for each `i` calls `init_logging`. -/
def initThreads {ι : Type} (service : ι → Text) : Threads LogCalls LogState ι Error Unit :=
  ⟨.init, fun i => initLogging (service i)⟩

/-- What the lock and the flag are for. -/
structure SetUpOnce {ι : Type} [DecidableEq ι] (service : ι → Text)
    (c : Threads LogCalls LogState ι Error Unit) : Prop where
  /-- After a call that succeeds, the name in front of each line is that of one service, for as
  long as the process runs. -/
  configured : ∀ i, c.thread i = .ret () → ∃ j, ∀ c', Threads.Reaches LogState.world c c' →
    c'.state.logger = some (.module (.new (service j))) ∧
    ∀ level message line, c'.state.written level message = some line →
      line = (PrefixWrappingLogger.log level, (PrefixFormatter.new (service j)).format message)
  /-- No call succeeds beside a logger of the process. -/
  foreign : c.state.logger = some .process → ∀ c', Threads.Reaches LogState.world c c' →
    ∀ i, c'.thread i ≠ .ret ()
  /-- When no call is in progress, the flag says whether a call has succeeded. -/
  recorded : c.state.locked = false → (c.state.guard = true ↔ ∃ i, c.thread i = .ret ())
  /-- The threads do not block each other for good. -/
  progress : ∀ i, (∃ q k, c.thread i = .ask q k) →
    ∃ j c', Threads.StepOf LogState.world j c c'

section

variable {ι : Type} [DecidableEq ι] {service : ι → Text}
  {c c' : Threads LogCalls LogState ι Error Unit}

/-- The logger of the process does not change once it is set. -/
lemma logger_of_reaches {logger : LogImpl} (h : Threads.Reaches LogState.world c c')
    (hc : c.state.logger = some logger) : c'.state.logger = some logger := by
  refine h.state (P := fun s => s.logger = some logger) ?_ ?_ hc
  · intro s s' hstep hs
    cases hstep with
    | setLogger hnone => exact absurd (hnone.symm.trans hs) (by simp)
    | setMaxLevel => exact hs
  · intro s e s' hreply hs
    cases hreply with
    | setBoxedLogger _ hnone => exact absurd (hnone.symm.trans hs) (by simp)
    | _ => exact hs

lemma initLogging_spinsOnly (pamService : Text) :
    (initLogging pamService).SpinsOnly fun _ => False := by
  have himpl : (initImpl pamService).SpinsOnly fun _ => False := by
    refine spinsOnly_ask ?_
    rintro (error | _)
    · exact spinsOnly_fail _
    · refine spinsOnly_ask ?_
      rintro (_ | _)
      · exact spinsOnly_fail _
      · exact spinsOnly_ask fun _ => spinsOnly_ret ()
  refine spinsOnly_ask fun _ => spinsOnly_ask ?_
  rintro (_ | _)
  · refine himpl.attempt.bind ?_
    rintro es (error | _) -
    · exact spinsOnly_ask fun _ => spinsOnly_fail error
    · exact spinsOnly_ask fun _ => spinsOnly_ask fun _ => spinsOnly_ret ()
  · exact spinsOnly_ask fun _ => spinsOnly_ret ()

/-- Each thread is in a phase, and the invariant holds. -/
lemma keeps_of_reaches (h : Threads.Reaches LogState.world (initThreads service) c) :
    c.Keeps (fun i => initTypestate (service i)) (fun _ => InitEnds) (Guarded service) := by
  refine h.keeps Guarded.stable ?_ ?_
  · intro phase i t e s s' ht hreply hs
    exact (initStep_of_typestate ht).keeps hreply hs
  · refine ⟨fun _ => .start, fun i => initLogging_follows, ?_⟩
    refine ⟨by simp [initThreads, LogState.init, InitPhase.holds], ?_, fun i => trivial, ?_⟩
    · intro i j hi
      exact absurd hi (by simp [InitPhase.holds])
    · intro hset
      exact absurd hset (by simp [initThreads, LogState.init])

/-- A call of `init_logging` that holds the lock has a call to make, and it is another one. -/
lemma exists_ask_of_holds {p : Prog LogCalls Error Unit} {phase : InitPhase}
    (hp : p.Follows (initTypestate pamService) InitEnds phase) (hspin : p ≠ .spin)
    (h : phase.holds = true) : ∃ q k, p = .ask q k ∧ q ≠ .lock := by
  cases p with
  | ret _ =>
    obtain rfl : phase = .done := hp
    exact absurd h (by simp [InitPhase.holds])
  | fail _ =>
    obtain rfl : phase = .failed := hp
    exact absurd h (by simp [InitPhase.holds])
  | spin => exact absurd rfl hspin
  | ask q k =>
    refine ⟨q, k, rfl, ?_⟩
    rintro rfl
    obtain ⟨phase', hphase', -⟩ := hp ()
    have hstep := initStep_of_typestate hphase'
    cases hstep
    exact absurd h (by simp [InitPhase.holds])

/-- A call of `init_logging` that is done has returned. -/
lemma eq_ret_of_done {p : Prog LogCalls Error Unit}
    (hp : p.Follows (initTypestate pamService) InitEnds .done) (hspin : p ≠ .spin) :
    p = .ret () := by
  cases p with
  | ret _ => rfl
  | fail _ => exact absurd hp (by simp [Prog.Follows, InitEnds])
  | spin => exact absurd rfl hspin
  | ask q k =>
    have hreply : Nonempty (LogCalls.Reply q) := by
      cases q with
      | readGuard => exact ⟨false⟩
      | openSyslog | setBoxedLogger => exact ⟨.ok ()⟩
      | _ => exact ⟨()⟩
    obtain ⟨reply⟩ := hreply
    obtain ⟨phase', hphase', -⟩ := hp reply
    have hstep := initStep_of_typestate hphase'
    cases hstep

/-- Each call has a reply, except that `lock` waits. -/
lemma exists_replies (s : LogState) (q : LogQuery) (h : q = .lock → s.locked = false) :
    ∃ r s', LogState.Replies s ⟨q, r⟩ s' := by
  cases q with
  | lock => exact ⟨(), _, .lock s (h rfl)⟩
  | unlock => exact ⟨(), _, .unlock s⟩
  | readGuard => exact ⟨s.guard, _, .readGuard s _ rfl⟩
  | writeGuard value => exact ⟨(), _, .writeGuard s value⟩
  | openSyslog formatter => exact ⟨.ok (), _, .openSyslog s formatter (.ok ())⟩
  | setBoxedLogger formatter =>
    rcases hlogger : s.logger with _ | logger
    · exact ⟨.ok (), _, .setBoxedLogger s formatter hlogger⟩
    · exact ⟨.error (), _, .alreadySet s formatter logger hlogger⟩
  | setMaxLevel level => exact ⟨(), _, .setMaxLevel s level⟩

/-- A thread whose call has a reply takes a step. -/
lemma exists_stepOf {j : ι} {q : LogQuery} {k : LogCalls.Reply q → Prog LogCalls Error Unit}
    (hj : c.thread j = .ask q k) (h : q = .lock → c.state.locked = false) :
    ∃ j c', Threads.StepOf LogState.world j c c' := by
  obtain ⟨r, s', hreply⟩ := exists_replies c.state q h
  exact ⟨j, _, .reply hj hreply⟩

lemma ne_spin_of_reaches (h : Threads.Reaches LogState.world (initThreads service) c) (i : ι) :
    c.thread i ≠ .spin :=
  h.ne_spin (fun i => initLogging_spinsOnly (service i)) i

/-- What has been written goes through the formatter of the logger. -/
lemma eq_of_written {s : LogState} {formatter : PrefixFormatter} {level : Level}
    {message : Text} {line : Severity × Text} (hs : s.logger = some (.module formatter))
    (h : s.written level message = some line) :
    line = (PrefixWrappingLogger.log level, formatter.format message) := by
  unfold LogState.written at h
  rw [hs] at h
  split at h
  · rename_i limit formatter' hlimit hformatter
    obtain rfl : formatter = formatter' := by simpa using hformatter
    split at h
    · exact (Option.some.inj h).symm
    · exact absurd h (by simp)
  · exact absurd h (by simp)

/-- However the threads of a process interleave their calls of `init_logging`, and whatever
else the process logs to, the logger is set up once. -/
theorem logging_once (h : Threads.Reaches LogState.world (initThreads service) c) :
    SetUpOnce service c := by
  obtain ⟨phase, hfollows, hinv⟩ := keeps_of_reaches h
  have hdone : ∀ i, c.thread i = .ret () → c.state.guard = true := by
    intro i hi
    have hends := hfollows i
    rw [hi] at hends
    have hknows := hinv.knows i
    rw [show phase i = .done from hends] at hknows
    exact hknows
  constructor
  case configured =>
    intro i hi
    obtain ⟨j, -, hlogger⟩ := hinv.guard (hdone i hi)
    refine ⟨j, fun c' hc' => ?_⟩
    have hlogger' := logger_of_reaches hc' hlogger
    exact ⟨hlogger', fun level message line hline => eq_of_written hlogger' hline⟩
  case foreign =>
    intro hprocess c' hc' i hi
    obtain ⟨phase', hfollows', hinv'⟩ := keeps_of_reaches (h.trans hc')
    have hends := hfollows' i
    rw [hi] at hends
    have hknows := hinv'.knows i
    rw [show phase' i = .done from hends] at hknows
    obtain ⟨j, -, hlogger⟩ := hinv'.guard hknows
    exact absurd ((logger_of_reaches hc' hprocess).symm.trans hlogger) (by simp)
  case recorded =>
    intro hfree
    refine ⟨fun hset => ?_, fun ⟨i, hi⟩ => hdone i hi⟩
    obtain ⟨j, hpassed, -⟩ := hinv.guard hset
    have hnot : (phase j).holds = false := by
      by_contra hholds
      have hlocked := hinv.locked.mpr ⟨j, by simpa using hholds⟩
      exact absurd (hfree.symm.trans hlocked) (by simp)
    have hphase : phase j = .done := by
      cases hj : phase j <;> simp [hj, InitPhase.passed, InitPhase.holds] at hpassed hnot ⊢
    have hj := hfollows j
    rw [hphase] at hj
    exact ⟨j, eq_ret_of_done hj (ne_spin_of_reaches h j)⟩
  case progress =>
    rintro i ⟨q, k, hi⟩
    by_cases hlocked : c.state.locked = true
    · obtain ⟨j, hholds⟩ := hinv.locked.mp hlocked
      obtain ⟨q', k', hj, hne⟩ := exists_ask_of_holds (hfollows j) (ne_spin_of_reaches h j) hholds
      exact exists_stepOf hj fun hlock => absurd hlock hne
    · exact exists_stepOf hi fun _ => by simpa using hlocked

end

/-- The services of two calls. -/
def twoServices (second : Bool) : Text := if second then "sudo" else "su"

/-- A call that asks for the lock while another one holds it has to wait. -/
lemma not_stepOf_of_locked {ι : Type} [DecidableEq ι] {c c' : Threads LogCalls LogState ι Error Unit}
    {i : ι} {k : Unit → Prog LogCalls Error Unit} (hi : c.thread i = .ask .lock k)
    (hlocked : c.state.locked = true) : ¬ Threads.StepOf LogState.world i c c' := by
  rintro ⟨hask, hreply⟩
  obtain ⟨rfl, -⟩ := Prog.ask.inj (hi.symm.trans hask)
  cases hreply with
  | lock hfree => exact absurd (hlocked.symm.trans hfree) (by simp)

/-- The second of two calls waits while the first one sets up the logger and the process changes
the level; then it finds the flag. -/
lemma exists_reaches_twoServices : ∃ c c' : Threads LogCalls LogState Bool Error Unit,
    Threads.Reaches LogState.world (initThreads twoServices) c ∧
      (∃ k, c.thread true = .ask .lock k) ∧ c.state.locked = true ∧
      Threads.Reaches LogState.world c c' ∧ ∀ i, c'.thread i = .ret () := by
  refine ⟨_, _, .tail (.tail (.tail (.tail .refl
    (.thread false (.reply rfl (.lock _ rfl))))
    (.thread false (.reply rfl (.readGuard _ false rfl))))
    (.interfere (.setMaxLevel _ (some .error))))
    (.thread false (.reply rfl (.openSyslog _ _ (.ok ())))), ⟨_, rfl⟩, rfl,
    .tail (.tail (.tail (.tail (.tail (.tail (.tail .refl
    (.thread false (.reply rfl (.setBoxedLogger _ _ rfl))))
    (.thread false (.reply rfl (.setMaxLevel _ _))))
    (.thread false (.reply rfl (.writeGuard _ true))))
    (.thread false (.reply rfl (.unlock _))))
    (.thread true (.reply rfl (.lock _ rfl))))
    (.thread true (.reply rfl (.readGuard _ true rfl))))
    (.thread true (.reply rfl (.unlock _))), ?_⟩
  rintro (_ | _)
  · rfl
  · rfl

theorem logging_once_two : ∃ c c' : Threads LogCalls LogState Bool Error Unit,
    Threads.Reaches LogState.world (initThreads twoServices) c ∧
      (¬ ∃ next, Threads.StepOf LogState.world true c next) ∧ SetUpOnce twoServices c ∧
      Threads.Reaches LogState.world c c' ∧ (∀ i, c'.thread i = .ret ()) ∧
      SetUpOnce twoServices c' := by
  obtain ⟨c, c', hreaches, ⟨k, hwaits⟩, hlocked, hreaches', hdone⟩ := exists_reaches_twoServices
  refine ⟨c, c', hreaches, ?_, logging_once hreaches, hreaches', hdone,
    logging_once (hreaches.trans hreaches')⟩
  rintro ⟨next, hstep⟩
  exact not_stepOf_of_locked hwaits hlocked hstep

end PamSshAgent
