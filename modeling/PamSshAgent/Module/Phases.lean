import PamSshAgent.Cmd.Reap
import PamSshAgent.Module.Confinement
import PamSshAgent.Module.Restriction

/-!
# The phases of a call

A call of the module goes through its phases in one direction: logging is started, then the
policy is loaded, and only when that is done and the helper is gone is the agent contacted.
Each phase says which calls it allows; every run of `sm_authenticate` follows the phases.
-/

namespace PamSshAgent

open Interaction

/-! ## Loading the policy -/

/-- A failure after which the policy is not loaded; in legacy mode the authorized-keys file
may be missing. -/
def FatalFs (strict : Bool) : Event FsCalls → Prop
  | ⟨.read _ _ _, .error error⟩ => error ≠ .interrupted
  | ⟨_, .error error⟩ => strict = true ∨ error ≠ .notFound
  | ⟨_, .ok _⟩ => False

instance (strict : Bool) : DecidablePred (FatalFs strict) := fun
  | ⟨.read _ _ _, .error error⟩ => inferInstanceAs (Decidable (error ≠ .interrupted))
  | ⟨.symlinkMetadata _, .error error⟩ | ⟨.metadata _, .error error⟩
  | ⟨.canonicalize _, .error error⟩ | ⟨.openFile _, .error error⟩
  | ⟨.fileMetadata _, .error error⟩ | ⟨.readToString _, .error error⟩ =>
    inferInstanceAs (Decidable (strict = true ∨ error ≠ .notFound))
  | ⟨.read _ _ _, .ok _⟩ | ⟨.symlinkMetadata _, .ok _⟩ | ⟨.metadata _, .ok _⟩
  | ⟨.canonicalize _, .ok _⟩ | ⟨.openFile _, .ok _⟩ | ⟨.fileMetadata _, .ok _⟩
  | ⟨.readToString _, .ok _⟩ => .isFalse id

/-- How far the policy is loaded. -/
inductive PolicyPhase where
  /-- Files are read. -/
  | files
  /-- The helper is run. -/
  | helper (phase : HelperPhase)
  /-- A file could not be read. -/
  | failed

/-- The calls that each phase of loading allows. -/
def policyTypestate (strict : Bool) : Typestate PolicyCalls PolicyPhase
  | .files, ⟨.inl query, reply⟩ =>
    if FatalFs strict ⟨query, reply⟩ then some .failed else some .files
  | .files, ⟨.inr query, reply⟩ => (helperTypestate .fresh ⟨query, reply⟩).map .helper
  | .helper phase, ⟨.inr query, reply⟩ => (helperTypestate phase ⟨query, reply⟩).map .helper
  | _, _ => none

/-- There is no child that is still to be waited for. -/
def HelperPhase.gone : HelperPhase → Bool
  | .alive _ _ status | .killed _ status => status.isSome
  | .failed _ _ => false
  | .fresh | .notStarted | .reaped _ | .exempt => true

/-- The child has ended with success, and nothing has failed. -/
def HelperPhase.succeeded : HelperPhase → Bool
  | .alive _ _ (some status) => status.success
  | .exempt => true
  | _ => false

/-- There is no child that is still to be waited for. -/
def PolicyPhase.gone : PolicyPhase → Bool
  | .helper phase => phase.gone
  | .files | .failed => true

/-- No file has failed, and the helper, if there is one, has succeeded. -/
def PolicyPhase.ready : PolicyPhase → Bool
  | .files => true
  | .helper phase => phase.succeeded
  | .failed => false

/-- How the loading of the policy ends. -/
def PolicyEnds {α : Type} : Except Error α → PolicyPhase → Prop
  | .ok _, phase => phase.ready = true
  | .error _, phase => phase.gone = true

/-! ## The whole call -/

/-- How far a call of the module has come. -/
inductive ModulePhase where
  | start
  /-- Logging has been started. -/
  | policy (phase : PolicyPhase)
  /-- There is a connection to the agent. -/
  | connected
  /-- The clock has been read. -/
  | dated
  /-- The agent has listed its identities; these are left. -/
  | listed (identities : List Identity)
  /-- A challenge has been drawn. -/
  | challenged (identities : List Identity) (data : Challenge)
  /-- The agent has signed. -/
  | signed
  /-- A call has failed. -/
  | failed

/-- The identities that come behind an identity. -/
def identitiesAfter (identity : Identity) (identities : List Identity) : List Identity :=
  (identities.dropWhile (· ≠ identity)).tail

/-- What a call with `SetupCalls` leads to. -/
def setupPhase (phase : ModulePhase) : Except Error Unit → ModulePhase
  | .ok () => phase
  | .error _ => .failed

/-- What a sign request leads to. -/
def signPhase (identities : List Identity) (identity : Identity) :
    Except SACError Signature → ModulePhase
  | .ok _ => .signed
  | .error .remoteFailure => .listed (identitiesAfter identity identities)
  | .error (.other _) => .failed

/-- The calls that each phase of the module allows. -/
def moduleTypestate (strict : Bool) : Typestate ModuleCalls ModulePhase
  | .start, ⟨.inl (.initLogging _), reply⟩ => some (setupPhase (.policy .files) reply)
  | .policy phase, ⟨.inr (.inl query), reply⟩ =>
    (policyTypestate strict phase ⟨query, reply⟩).map .policy
  | .policy phase, ⟨.inl (.connect _ _), reply⟩ =>
    if phase.ready then some (setupPhase .connected reply) else none
  | .connected, ⟨.inr (.inr .now), _⟩ => some .dated
  | .dated, ⟨.inr (.inr .listIdentities), reply⟩ =>
    match (reply : Except SACError (List Identity)) with
    | .ok identities => some (.listed identities)
    | .error _ => some .failed
  | .listed identities, ⟨.inr (.inr .fill), reply⟩ =>
    match (reply : Option Challenge) with
    | some data => some (.challenged identities data)
    | none => some .failed
  | .challenged identities data, ⟨.inr (.inr (.sign identity data')), reply⟩ =>
    if data' = data ∧ identity ∈ identities then some (signPhase identities identity reply)
    else none
  | _, _ => none

/-- There is no child that is still to be waited for. -/
def ModulePhase.gone : ModulePhase → Bool
  | .policy phase => phase.gone
  | _ => true

/-- A call may succeed: the policy is loaded, or the agent has signed. -/
def ModulePhase.mayEnd : ModulePhase → Bool
  | .policy phase => phase.ready
  | .signed => true
  | _ => false

/-- How a call of the module ends. -/
def ModuleEnds : Except Error PamResultCode → ModulePhase → Prop
  | .ok .success, phase => phase.mayEnd = true
  | .ok .authErr, phase => phase.gone = true
  | .error _, _ => False

/-! ## Files -/

/-- Files are read until a failure is fatal. -/
def fsTypestate (strict : Bool) : Typestate FsCalls Bool
  | true, e => some (!decide (FatalFs strict e))
  | false, _ => none

/-- After a fatal failure, what is left is an error that `new_with_mode` does not tolerate. -/
def FsEnds {α : Type} (strict : Bool) (x : Except Error α) (going : Bool) : Prop :=
  going = false → ∃ error, x = .error error ∧
    (strict = false → error.downcastIo ≠ some .notFound)

variable {strict : Bool} {α β : Type}

lemma fsEnds_true (x : Except Error α) : FsEnds strict x true := fun h => absurd h (by simp)

/-- A composition reads files if its parts do. -/
lemma follows_fs_bind {p : Prog FsCalls Error α} {f : α → Prog FsCalls Error β}
    (hp : p.Follows (fsTypestate strict) (FsEnds strict) true)
    (hf : ∀ a, (f a).Follows (fsTypestate strict) (FsEnds strict) true) :
    (p >>= f).Follows (fsTypestate strict) (FsEnds strict) true := by
  refine hp.bind ?_ ?_
  · intro a going hends
    cases going with
    | true => exact hf a
    | false =>
      obtain ⟨error, hfalse, -⟩ := hends rfl
      exact absurd hfalse (by simp)
  · intro error going hends hgoing
    obtain ⟨error', heq, htolerated⟩ := hends hgoing
    obtain rfl := Except.error.inj heq
    exact ⟨error, rfl, htolerated⟩

lemma fsTypestate_of_not_fatal {e : Event FsCalls} (h : ¬ FatalFs strict e) :
    fsTypestate strict true e = some true := by
  simp [fsTypestate, h]

lemma fsTypestate_of_fatal {e : Event FsCalls} (h : FatalFs strict e) :
    fsTypestate strict true e = some false := by
  simp [fsTypestate, h]

/-- A call that succeeds is not fatal. -/
lemma not_fatalFs_ok {query : FsQuery} (value : query.Value) :
    ¬ FatalFs strict ⟨query, .ok value⟩ := by
  cases query <;> exact id

/-- A call that fails leaves no more calls, unless `new_with_mode` tolerates it. -/
lemma fatalFs_error {query : FsQuery} {error : IoError} (hread : ∀ file position limit,
    query ≠ .read file position limit) :
    FatalFs strict ⟨query, .error error⟩ ↔ strict = true ∨ error ≠ .notFound := by
  cases query with
  | read file position limit => exact absurd rfl (hread file position limit)
  | _ => exact Iff.rfl

lemma fsCall_follows {query : FsQuery} (hread : ∀ file position limit,
    query ≠ .read file position limit) :
    (fsCall query).Follows (fsTypestate strict) (FsEnds strict) true := by
  rw [fsCall, Prog.query_bind]
  rintro (error | value)
  · by_cases hfatal : FatalFs strict ⟨query, .error error⟩
    · refine ⟨false, fsTypestate_of_fatal hfatal, fun _ => ⟨.io error, rfl, fun hlegacy => ?_⟩⟩
      rw [fatalFs_error hread, hlegacy] at hfatal
      simpa [Error.downcastIo] using hfatal
    · exact ⟨true, fsTypestate_of_not_fatal hfatal, fsEnds_true _⟩
  · exact ⟨true, fsTypestate_of_not_fatal (not_fatalFs_ok value), fsEnds_true _⟩

lemma follows_fs_ofExcept (x : Except Error α) :
    (Prog.ofExcept x : Prog FsCalls Error α).Follows (fsTypestate strict) (FsEnds strict) true :=
  Prog.follows_ofExcept (fsEnds_true x)

lemma validateComponentsFrom_follows (requiredUid : Uid) (allowSymlink : Bool) (current : OsStr)
    (components : List Component) :
    (validateComponentsFrom requiredUid allowSymlink current components).Follows
      (fsTypestate strict) (FsEnds strict) true := by
  induction components generalizing current with
  | nil => exact fsEnds_true _
  | cons component rest ih =>
    rw [validateComponentsFrom]
    refine follows_fs_bind (fsCall_follows (by simp)) fun metadata => ?_
    exact follows_fs_bind (follows_fs_ofExcept _) fun _ => ih _

lemma validateTrustPath_follows (path : OsStr) (requiredUid : Uid) :
    (validateTrustPath path requiredUid).Follows (fsTypestate strict) (FsEnds strict) true := by
  rw [validateTrustPath]
  split_ifs
  · exact fsEnds_true _
  refine follows_fs_bind (validateComponentsFrom_follows _ _ _ _) fun _ => ?_
  refine follows_fs_bind (fsCall_follows (by simp)) fun canonical => ?_
  refine follows_fs_bind (validateComponentsFrom_follows _ _ _ _) fun _ => ?_
  refine follows_fs_bind (fsCall_follows (by simp)) fun metadata => ?_
  split_ifs
  · exact fsEnds_true _
  · exact fsEnds_true _

/-- A read is only given up for an error other than an interruption, and that is fatal. -/
lemma readToEnd_follows (file : FileId) (limit fuel : ℕ) (bytes : List UInt8) :
    (readToEnd file limit fuel bytes).Follows (fsTypestate true) (FsEnds true) true := by
  induction fuel generalizing bytes with
  | zero => trivial
  | succ fuel ih =>
    rw [readToEnd]
    split_ifs
    · exact fsEnds_true _
    rw [Prog.query_bind]
    rintro (error | chunk)
    · by_cases hinterrupted : error = .interrupted
      · subst hinterrupted
        exact ⟨true, fsTypestate_of_not_fatal (by simp [FatalFs]), ih bytes⟩
      · refine ⟨false, fsTypestate_of_fatal hinterrupted, ?_⟩
        cases error with
        | interrupted => exact absurd rfl hinterrupted
        | _ => exact fun _ => ⟨_, rfl, by simp⟩
    · refine ⟨true, fsTypestate_of_not_fatal id, ?_⟩
      cases chunk with
      | nil => exact fsEnds_true _
      | cons byte chunk => exact ih _

lemma readStrictFile_follows (fuel : ℕ) (path : OsStr) (requiredUid : Uid) :
    (readStrictFile fuel path requiredUid).Follows (fsTypestate true) (FsEnds true) true := by
  rw [readStrictFile]
  refine follows_fs_bind (validateTrustPath_follows _ _) fun canonical => ?_
  refine follows_fs_bind (fsCall_follows (by simp)) fun expected => ?_
  refine follows_fs_bind (fsCall_follows (by simp)) fun file => ?_
  refine follows_fs_bind (fsCall_follows (by simp)) fun actual => ?_
  split_ifs
  · exact fsEnds_true _
  refine follows_fs_bind (readToEnd_follows _ _ _ _) fun bytes => ?_
  split_ifs
  · exact fsEnds_true _
  · split <;> exact fsEnds_true _

/-! ## The policy -/

/-- The phase of the policy while files are read. -/
def filesPhase : Bool → PolicyPhase
  | true => .files
  | false => .failed

lemma policyTypestate_fs {going going' : Bool} {e : Event FsCalls}
    (h : fsTypestate strict going e = some going') :
    policyTypestate strict (filesPhase going) (fsPart.event e) = some (filesPhase going') := by
  cases going with
  | false => exact absurd h (by simp [fsTypestate])
  | true =>
    obtain rfl := Option.some.inj h
    have hphase : policyTypestate strict .files (fsPart.event e) =
        if FatalFs strict e then some .failed else some .files := rfl
    by_cases hfatal : FatalFs strict e
    · simp [filesPhase, hphase, hfatal]
    · simp [filesPhase, hphase, hfatal]

/-- How the reading of a file ends: without a failure that is fatal, or with an error. -/
def FileEnds {α : Type} (strict : Bool) (x : Except Error α) (phase : PolicyPhase) : Prop :=
  ∃ going, phase = filesPhase going ∧ FsEnds strict x going

lemma follows_file {p : Prog FsCalls Error α}
    (h : p.Follows (fsTypestate strict) (FsEnds strict) true) :
    (p.lift fsPart).Follows (policyTypestate strict) (FileEnds strict) .files :=
  h.lift filesPhase fun _ _ _ => policyTypestate_fs

/-- After a file was read, files may be read. -/
lemma FileEnds.files {a : α} {phase : PolicyPhase} (h : FileEnds strict (.ok a) phase) :
    phase = .files := by
  obtain ⟨going, rfl, hends⟩ := h
  cases going with
  | true => rfl
  | false =>
    obtain ⟨error, hfalse, -⟩ := hends rfl
    exact absurd hfalse (by simp)

lemma fileEnds_files (x : Except Error α) : FileEnds strict x .files := ⟨true, rfl, fsEnds_true x⟩

lemma FileEnds.gone {x : Except Error α} {phase : PolicyPhase} (h : FileEnds strict x phase) :
    phase.gone = true := by
  obtain ⟨going, rfl, -⟩ := h
  cases going <;> rfl

/-- A failed read passes its error on. -/
lemma FileEnds.error {error : Error} {phase : PolicyPhase}
    (h : FileEnds strict (.error error : Except Error α) phase) :
    FileEnds strict (.error error : Except Error β) phase := by
  obtain ⟨going, rfl, hends⟩ := h
  refine ⟨going, rfl, fun hgoing => ?_⟩
  obtain ⟨error', heq, htolerated⟩ := hends hgoing
  obtain rfl := Except.error.inj heq
  exact ⟨error, rfl, htolerated⟩

variable {fuel : ℕ} {crate : SshKeyCrate} {host : Host} {sources : PolicySources}
  {mode : PolicyMode}

lemma fromFile_follows (filename : OsStr) (caKeys : Bool) (mode : PolicyMode) :
    (fromFile fuel crate filename caKeys mode).Follows (policyTypestate (mode = .strict))
      (FileEnds (mode = .strict)) .files := by
  have hcontents : (fileContents fuel filename mode).Follows (policyTypestate (mode = .strict))
      (FileEnds (mode = .strict)) .files := by
    cases mode with
    | legacy => exact follows_file (fsCall_follows (by simp))
    | strict => exact follows_file (readStrictFile_follows fuel filename 0)
  refine hcontents.bind ?_ ?_
  · intro contents phase hends
    obtain rfl := hends.files
    split
    · exact fileEnds_files _
    · exact Prog.follows_ofExcept (fileEnds_files _)
  · intro error phase hends
    exact hends.error

/-- How a part of the loading of the policy ends that reads files. -/
def ItemsEnd {α : Type} : Except Error α → PolicyPhase → Prop
  | .ok _, phase => phase = .files
  | .error _, phase => phase.gone = true

lemma FileEnds.itemsEnd {x : Except Error α} {phase : PolicyPhase} (h : FileEnds strict x phase) :
    ItemsEnd x phase := by
  cases x with
  | ok a => exact h.files
  | error error => exact h.gone

lemma fileItems_follows (mode : PolicyMode) :
    (sources.fileItems fuel crate mode).Follows (policyTypestate (mode = .strict)) ItemsEnd
      .files := by
  rw [PolicySources.fileItems]
  refine (fromFile_follows _ _ mode).attempt_bind ?_
  rintro (error | keys) phase hends
  · dsimp only
    split_ifs with htolerated
    · obtain ⟨hmode, hnotFound⟩ := htolerated
      obtain ⟨going, rfl, hfs⟩ := hends
      cases going with
      | true => exact rfl
      | false =>
        obtain ⟨error', heq, hfatal⟩ := hfs rfl
        obtain rfl := Except.error.inj heq
        exact absurd hnotFound (hfatal (by simp [hmode]))
    · exact hends.gone
  · exact hends.files

lemma caItems_follows (mode : PolicyMode) :
    (sources.caItems fuel crate mode).Follows (policyTypestate (mode = .strict)) ItemsEnd
      .files := by
  rw [PolicySources.caItems]
  split
  · exact (fromFile_follows _ _ mode).mono fun _ _ hends => hends.itemsEnd
  · exact rfl

/-- However `run_inner` ends, there is no child that is still to be waited for. -/
lemma gone_of_runEnds {executable : Text} {x : Except Error Text} {phase : HelperPhase}
    (h : RunEnds executable x phase) : phase.gone = true := by
  cases phase with
  | alive child received status =>
    obtain ⟨collected, -, hstatus, -⟩ := h
    exact hstatus
  | killed child status =>
    cases status with
    | none => exact h.elim
    | some status => rfl
  | failed child status => exact h.elim
  | fresh => rfl
  | notStarted => rfl
  | reaped child => rfl
  | exempt => rfl

/-- A run that returns the output has seen the child succeed. -/
lemma succeeded_of_runEnds {executable text : Text} {phase : HelperPhase}
    (h : RunEnds executable (.ok text) phase) : phase.succeeded = true := by
  have hnever {C : Prop} (h : ∃ error : Error, (.ok text : Except Error Text) = .error error) :
      C := by
    obtain ⟨error, herror⟩ := h
    exact absurd herror (by simp)
  cases phase with
  | alive child received status =>
    obtain ⟨collected, rfl, -, hchecked⟩ := h
    obtain ⟨status, stdout, hstatus, hsuccess, -⟩ := checkOutput_eq_ok hchecked.symm
    rw [hstatus]
    exact hsuccess
  | killed child status =>
    cases status with
    | none => exact h.elim
    | some status => exact hnever (h.imp fun _ herror => herror.1)
  | failed child status => exact h.elim
  | fresh => exact hnever h
  | notStarted => exact hnever h
  | reaped child => exact hnever (h.imp fun _ herror => herror.1)
  | exempt => rfl

lemma HelperPhase.gone_of_succeeded {phase : HelperPhase} (h : phase.succeeded = true) :
    phase.gone = true := by
  cases phase with
  | alive child received status =>
    cases status with
    | none => exact absurd h (by simp [HelperPhase.succeeded])
    | some status => rfl
  | exempt => rfl
  | _ => exact absurd h (by simp [HelperPhase.succeeded])

lemma PolicyPhase.gone_of_ready {phase : PolicyPhase} (h : phase.ready = true) :
    phase.gone = true := by
  cases phase with
  | failed => exact absurd h (by simp [PolicyPhase.ready])
  | files => rfl
  | helper helper => exact HelperPhase.gone_of_succeeded h

lemma runHelper_follows (executable : Text) (args : List Text) (uid : Uid) (gid : Option Gid)
    (prevent : Bool) :
    ((runInner fuel (executable :: args) maxDuration uid gid prevent).lift cmdPart).Follows
      (policyTypestate strict) PolicyEnds .files := by
  have hrun := runInner_helperTypestate fuel executable args maxDuration uid gid prevent
  have hplace : ∀ phase e phase', helperTypestate phase e = some phase' →
      policyTypestate strict (.helper phase) (cmdPart.event e) = some (.helper phase') := by
    intro phase e phase' h
    show (helperTypestate phase e).map PolicyPhase.helper = some (.helper phase')
    rw [h]
    rfl
  have hends : ∀ (x : Except Error Text) phase,
      (∃ helper, phase = .helper helper ∧ RunEnds executable x helper) → PolicyEnds x phase := by
    rintro (error | text) _ ⟨helper, rfl, hrun⟩
    · exact gone_of_runEnds hrun
    · exact succeeded_of_runEnds hrun
  refine ((hrun.lift PolicyPhase.helper hplace).mono hends).start ?_ ?_
  · intro e phase h
    obtain ⟨query, reply⟩ := e
    cases query with
    | inl query => exact absurd h (by simp [policyTypestate])
    | inr query => exact h
  · intro x _
    cases x <;> exact rfl

lemma helperPath_follows (command : Text) (mode : PolicyMode) :
    (helperPath command mode).Follows (policyTypestate (mode = .strict)) ItemsEnd .files := by
  cases mode with
  | legacy => exact rfl
  | strict =>
    refine (follows_file (validateTrustPath_follows command.bytes 0)).bind ?_ ?_
    · intro canonical phase hends
      obtain rfl := hends.files
      split
      · exact rfl
      · exact rfl
    · intro error phase hends
      exact hends.gone

lemma fromCommand_follows (command : Text) (uid : Uid) (callingUser : Text) (mode : PolicyMode) :
    (fromCommand fuel crate command uid callingUser mode).Follows
      (policyTypestate (mode = .strict)) PolicyEnds .files := by
  refine (helperPath_follows command mode).bind ?_ fun error phase hends => hends
  rintro path phase rfl
  have houtput : (helperOutput fuel path uid callingUser mode).Follows
      (policyTypestate (mode = .strict)) PolicyEnds .files := by
    cases mode with
    | legacy => exact runHelper_follows path [callingUser] uid none false
    | strict => exact runHelper_follows path [callingUser] uid none true
  refine houtput.bind ?_ fun error phase hends => hends
  intro buf phase hready
  refine Prog.follows_ofExcept ?_
  cases parsePolicy crate buf (path ++ (":(output):" : Text)) false mode with
  | ok items => exact hready
  | error error => exact PolicyPhase.gone_of_ready hready

lemma helperItems_follows (mode : PolicyMode) :
    (sources.helperItems fuel crate host mode).Follows (policyTypestate (mode = .strict)) PolicyEnds
      .files := by
  rw [PolicySources.helperItems]
  split
  · cases host.getUid sources.helperUser with
    | ok uid => exact fromCommand_follows _ uid _ mode
    | error error => exact rfl
  · exact rfl

lemma newWithMode_follows (mode : PolicyMode) :
    (IdentityFilter.newWithMode fuel crate host sources mode).Follows
      (policyTypestate (mode = .strict)) PolicyEnds .files := by
  rw [IdentityFilter.newWithMode]
  refine (fileItems_follows mode).bind ?_ fun error phase hends => hends
  rintro file phase rfl
  refine (caItems_follows mode).bind ?_ fun error phase hends => hends
  rintro ca phase rfl
  exact (helperItems_follows mode).bind (fun helper phase hends => hends)
    fun error phase hends => hends

/-! ## The agent -/

lemma mem_of_suffix_cons {identity : Identity} {identities rest : List Identity}
    (h : identity :: rest <:+ identities) : identity ∈ identities :=
  h.subset List.mem_cons_self

/-- What is left of a list behind an identity is behind its first occurrence. -/
lemma suffix_identitiesAfter {identity : Identity} {identities rest : List Identity}
    (h : identity :: rest <:+ identities) : rest <:+ identitiesAfter identity identities := by
  obtain ⟨before, rfl⟩ := h
  induction before with
  | nil =>
    rw [identitiesAfter, List.nil_append, List.dropWhile_cons_of_neg (by simp)]
    exact List.suffix_rfl
  | cons first before ih =>
    by_cases heq : first = identity
    · subst heq
      rw [identitiesAfter, List.cons_append, List.dropWhile_cons_of_neg (by simp), List.tail_cons]
      exact (List.suffix_cons _ _).trans (List.suffix_append _ _)
    · rw [identitiesAfter, List.cons_append, List.dropWhile_cons_of_pos (by simpa using heq)]
      exact ih

/-- The calls that the phases of the module allow `authenticate`. -/
def agentTypestate (strict : Bool) : Typestate AuthCalls ModulePhase :=
  fun phase e => moduleTypestate strict phase (authPart.event e)

/-- How the exchange with the agent ends. -/
def AgentEnds (x : Except Error Bool) (phase : ModulePhase) : Prop :=
  (∀ policy, phase ≠ .policy policy) ∧ (x = .ok true → phase = .signed)

/-- How an attempt ends: the loop may go on only with what is left behind the identity. -/
def AttemptEnds (identities : List Identity) (identity : Identity) (x : Except Error Bool)
    (phase : ModulePhase) : Prop :=
  AgentEnds x phase ∧ ∀ error, x = .error error → error.downcastAgent = some .remoteFailure →
    phase = .listed (identitiesAfter identity identities)

lemma attemptEnds_failed {identities : List Identity} {identity : Identity} {error : Error}
    (h : error.downcastAgent ≠ some .remoteFailure) :
    AttemptEnds identities identity (.error error) .failed := by
  refine ⟨⟨by simp, by simp⟩, fun error' heq hremote => ?_⟩
  obtain rfl := Except.error.inj heq
  exact absurd hremote h

/-- An error of `sign_and_verify` that is not the agent's is none of the agent's refusals. -/
lemma verifySignature_ends {identities : List Identity} {identity : Identity} {strict : Bool}
    {data : Challenge} {signature : Signature} :
    AttemptEnds identities identity (verifySignature crate identity strict data signature)
      .signed := by
  refine ⟨⟨by simp, fun _ => rfl⟩, fun error herror hremote => ?_⟩
  exact absurd hremote (by rw [verifySignature_not_agent herror]; simp)

lemma signAndVerify_follows {identities rest : List Identity} {identity : Identity}
    (hidentity : identity :: rest <:+ identities) (strict verifies : Bool) :
    (signAndVerify crate identity verifies).Follows (agentTypestate strict)
      (AttemptEnds identities identity) (.listed identities) := by
  rw [signAndVerify, Prog.query_bind]
  rintro (_ | data)
  · exact ⟨.failed, rfl, attemptEnds_failed (by simp [Error.downcastAgent, Error.anyhow])⟩
  refine ⟨.challenged identities data, rfl, ?_⟩
  intro reply
  refine ⟨signPhase identities identity reply,
    if_pos ⟨rfl, mem_of_suffix_cons hidentity⟩, ?_⟩
  rcases reply with error | signature
  · cases error with
    | remoteFailure => exact ⟨⟨by simp [signPhase], by simp⟩, fun _ _ _ => rfl⟩
    | other text => exact attemptEnds_failed (by simp [Error.downcastAgent])
  · exact Prog.follows_ofExcept verifySignature_ends

lemma tryIdentities_follows {policy : IdentityFilter} {now : SystemTime} {principal : Text}
    {identities rest : List Identity} (hrest : rest <:+ identities) (strict : Bool) :
    (tryIdentities crate policy now principal rest).Follows (agentTypestate strict) AgentEnds
      (.listed identities) := by
  induction rest generalizing identities with
  | nil => exact ⟨by simp, by simp⟩
  | cons identity rest ih =>
    have hskip : rest <:+ identities := (List.suffix_cons identity rest).trans hrest
    rw [tryIdentities]
    split_ifs
    · exact ih hskip
    · refine (signAndVerify_follows hrest strict policy.strict).attempt_bind ?_
      rintro (error | verified) phase ⟨hends, hremote⟩
      · dsimp only
        split_ifs with hrefused
        · rw [hremote error rfl hrefused]
          exact ih (suffix_identitiesAfter hrest)
        · exact ⟨hends.1, by simp⟩
      · exact hends
    · exact ih hskip

lemma authenticate_follows (policy : IdentityFilter) (principal : Text) (strict : Bool) :
    (authenticate crate policy principal).Follows (agentTypestate strict) AgentEnds
      .connected := by
  rw [authenticate, Prog.query_bind]
  intro now
  refine ⟨.dated, rfl, ?_⟩
  rintro (error | identities)
  · exact ⟨.failed, rfl, by simp, by simp⟩
  · exact ⟨.listed identities, rfl, tryIdentities_follows List.suffix_rfl strict⟩

/-! ## The call -/

/-- How a call ends that sets something up. -/
def SetupEnds (next : ModulePhase) : Except Error Unit → ModulePhase → Prop
  | .ok _, phase => phase = next
  | .error _, phase => phase = .failed

lemma setupCall_follows {strict : Bool} {phase : ModulePhase} (next : ModulePhase)
    {query : SetupQuery} (hallowed : ∀ reply,
      moduleTypestate strict phase (setupPart.event ⟨query, reply⟩) =
        some (setupPhase next reply)) :
    ((setupCall query).lift setupPart).Follows (moduleTypestate strict) (SetupEnds next)
      phase := by
  intro reply
  refine ⟨_, hallowed reply, ?_⟩
  cases reply <;> exact rfl

/-- How `run` ends. -/
def CallEnds : Except Error Unit → ModulePhase → Prop
  | .ok _, phase => phase.mayEnd = true
  | .error _, phase => phase.gone = true

variable {handle : PamHandleExt} {args : List CStr}

/-- The part of a call up to the policy ends with a policy, or with an error. -/
def LoadEnds (x : Except Error Loaded) (phase : ModulePhase) : Prop :=
  phase.gone = true ∧ ∀ loaded, x = .ok loaded → ∃ policy, phase = .policy policy ∧
    policy.ready = true

lemma loadPolicy_follows :
    (loadPolicy fuel crate host handle args).Follows (moduleTypestate (hasStrict args)) LoadEnds
      .start := by
  have hfails : ∀ (phase : ModulePhase) error, phase.gone = true →
      LoadEnds (.error error) phase := by
    intro phase error hgone
    exact ⟨hgone, by simp⟩
  rw [loadPolicy]
  cases PamContext.new handle with
  | error error => exact hfails _ _ rfl
  | ok context =>
  refine (setupCall_follows (.policy .files) fun reply => rfl).bind ?_ ?_
  swap
  · rintro error phase rfl
    exact hfails _ _ rfl
  rintro _ phase rfl
  cases hparse : Args.parse args host.unixEnvironment context.handle with
  | error error => exact hfails _ _ rfl
  | ok parsed =>
  rw [Prog.ofExcept_ok, Prog.ret_bind]
  cases checkStrictUsers host parsed context with
  | error error => exact hfails _ _ rfl
  | ok _ =>
  -- the mode of the policy is that of the arguments
  have hmode : (if parsed.strict = true then
        IdentityFilter.newStrict fuel crate host (parsed.policySources context)
      else IdentityFilter.new fuel crate host (parsed.policySources context)) =
      IdentityFilter.newWithMode fuel crate host (parsed.policySources context)
        parsed.policyMode := by
    rw [Args.policyMode]
    split_ifs <;> rfl
  have hstrict : decide (parsed.policyMode = .strict) = hasStrict args := by
    rw [Args.policyMode, parse_strict hparse]
    split_ifs with h <;> simp [h]
  have hpolicy : (IdentityFilter.newWithMode fuel crate host (parsed.policySources context)
      parsed.policyMode).Follows (policyTypestate (hasStrict args)) PolicyEnds .files :=
    hstrict ▸ newWithMode_follows parsed.policyMode
  rw [Prog.ofExcept_ok, Prog.ret_bind]
  dsimp only
  rw [hmode]
  have hplace : ∀ phase e phase', policyTypestate (hasStrict args) phase e = some phase' →
      moduleTypestate (hasStrict args) (.policy phase) (policyPart.event e) =
        some (.policy phase') := by
    intro phase e phase' h
    show (policyTypestate (hasStrict args) phase e).map ModulePhase.policy = some (.policy phase')
    rw [h]
    rfl
  refine (hpolicy.lift ModulePhase.policy hplace).bind ?_ ?_
  · rintro policy _ ⟨phase, rfl, hready⟩
    refine ⟨PolicyPhase.gone_of_ready hready, ?_⟩
    intro loaded _
    exact ⟨phase, rfl, hready⟩
  · rintro error _ ⟨phase, rfl, hgone⟩
    exact hfails _ _ hgone

lemma usePolicy_follows {loaded : Loaded} {phase : PolicyPhase} (strict : Bool)
    (hready : phase.ready = true) :
    (usePolicy crate host loaded).Follows (moduleTypestate strict) CallEnds (.policy phase) := by
  have hgone := PolicyPhase.gone_of_ready hready
  rw [usePolicy]
  refine Prog.follows_ofExcept_bind (fun special => ?_) fun error => hgone
  split_ifs
  · exact hready
  refine Prog.follows_ofExcept_bind (fun path => ?_) fun error => hgone
  have hconnect : ∀ reply, moduleTypestate strict (.policy phase)
      (setupPart.event ⟨.connect path loaded.args.agentTimeout, reply⟩) =
        some (setupPhase .connected reply) := fun reply => if_pos hready
  refine (setupCall_follows .connected hconnect).bind ?_ ?_
  swap
  · rintro error _ rfl
    exact rfl
  rintro _ _ rfl
  have hauth : ((authenticate crate loaded.policy loaded.context.callingUser).lift authPart).Follows
      (moduleTypestate strict) AgentEnds .connected := by
    have hfollows : (authenticate crate loaded.policy loaded.context.callingUser).Follows
        (agentTypestate strict) AgentEnds .connected := authenticate_follows _ _ strict
    refine (hfollows.lift (U := moduleTypestate strict) id fun _ _ _ h => h).mono ?_
    rintro x phase' ⟨phase'', rfl, hends⟩
    exact hends
  refine hauth.bind ?_ ?_
  · rintro (_ | _) phase' ⟨hpolicy, hsigned⟩
    · cases phase' with
      | policy policy => exact absurd rfl (hpolicy policy)
      | _ => exact rfl
    · rw [hsigned rfl]
      exact rfl
  · rintro error phase' ⟨hpolicy, -⟩
    cases phase' with
    | policy policy => exact absurd rfl (hpolicy policy)
    | _ => exact rfl

/-- A call of the module follows its phases. -/
lemma smAuthenticate_follows :
    (smAuthenticate fuel crate host handle args).Follows (moduleTypestate (hasStrict args))
      ModuleEnds .start := by
  have hrun : (run fuel crate host handle args).Follows (moduleTypestate (hasStrict args)) CallEnds
      .start := by
    rw [run_eq]
    refine loadPolicy_follows.bind ?_ ?_
    · rintro loaded phase ⟨-, hloaded⟩
      obtain ⟨policy, rfl, hready⟩ := hloaded loaded rfl
      exact usePolicy_follows _ hready
    · rintro error phase ⟨hgone, -⟩
      exact hgone
  refine hrun.attempt_bind ?_
  rintro (error | _) phase hends
  · exact hends
  · exact hends

end PamSshAgent
