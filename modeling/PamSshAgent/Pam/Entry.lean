import PamSshAgent.Library.CMemory
import PamSshAgent.Module.Authenticate

/-!
# The module behind the C interface of PAM

`libpam` loads the module and calls it through the functions that `pam_hooks!` defines.  What
comes from C is checked first: the handle, the number of arguments and the array of pointers to
them.  A panic becomes a result code as well.
-/

namespace PamSshAgent.Pam

open CMemory Interaction

/-! ## The constants -/

/-- `PamResultCode`. -/
inductive PamResultCode where
  | success
  | openErr
  | symbolErr
  | serviceErr
  | systemErr
  | bufErr
  | permDenied
  | authErr
  | credInsufficient
  | authinfoUnavail
  | userUnknown
  | maxtries
  | newAuthtokReqd
  | acctExpired
  | sessionErr
  | credUnavail
  | credExpired
  | credErr
  | noModuleData
  | convErr
  | authtokErr
  | authtokRecoveryErr
  | authtokLockBusy
  | authtokDisableAging
  | tryAgain
  | ignore
  | abort
  | authtokExpired
  | moduleUnknown
  | badItem
  | convAgain
  | incomplete
deriving DecidableEq, Repr

namespace PamResultCode

/-- The codes with the number that C has for each and the name that `Debug` writes. -/
def table : List (PamResultCode × ℤ × Text) :=
  [(success, 0, "PAM_SUCCESS"),
    (openErr, 1, "PAM_OPEN_ERR"),
    (symbolErr, 2, "PAM_SYMBOL_ERR"),
    (serviceErr, 3, "PAM_SERVICE_ERR"),
    (systemErr, 4, "PAM_SYSTEM_ERR"),
    (bufErr, 5, "PAM_BUF_ERR"),
    (permDenied, 6, "PAM_PERM_DENIED"),
    (authErr, 7, "PAM_AUTH_ERR"),
    (credInsufficient, 8, "PAM_CRED_INSUFFICIENT"),
    (authinfoUnavail, 9, "PAM_AUTHINFO_UNAVAIL"),
    (userUnknown, 10, "PAM_USER_UNKNOWN"),
    (maxtries, 11, "PAM_MAXTRIES"),
    (newAuthtokReqd, 12, "PAM_NEW_AUTHTOK_REQD"),
    (acctExpired, 13, "PAM_ACCT_EXPIRED"),
    (sessionErr, 14, "PAM_SESSION_ERR"),
    (credUnavail, 15, "PAM_CRED_UNAVAIL"),
    (credExpired, 16, "PAM_CRED_EXPIRED"),
    (credErr, 17, "PAM_CRED_ERR"),
    (noModuleData, 18, "PAM_NO_MODULE_DATA"),
    (convErr, 19, "PAM_CONV_ERR"),
    (authtokErr, 20, "PAM_AUTHTOK_ERR"),
    (authtokRecoveryErr, 21, "PAM_AUTHTOK_RECOVERY_ERR"),
    (authtokLockBusy, 22, "PAM_AUTHTOK_LOCK_BUSY"),
    (authtokDisableAging, 23, "PAM_AUTHTOK_DISABLE_AGING"),
    (tryAgain, 24, "PAM_TRY_AGAIN"),
    (ignore, 25, "PAM_IGNORE"),
    (abort, 26, "PAM_ABORT"),
    (authtokExpired, 27, "PAM_AUTHTOK_EXPIRED"),
    (moduleUnknown, 28, "PAM_MODULE_UNKNOWN"),
    (badItem, 29, "PAM_BAD_ITEM"),
    (convAgain, 30, "PAM_CONV_AGAIN"),
    (incomplete, 31, "PAM_INCOMPLETE")]

/-- The number and the name of a code. -/
def entry (code : PamResultCode) : ℤ × Text :=
  ((table.find? (·.1 = code)).map Prod.snd).getD (0, "")

/-- `PamResultCode as c_int`. -/
def toInt (code : PamResultCode) : ℤ := code.entry.1

/-- The `Debug` output. -/
def debug (code : PamResultCode) : Text := code.entry.2

/-- `PamResultCode::try_from`. -/
def tryFrom (value : ℤ) : Except ℤ PamResultCode :=
  match table.find? (·.2.1 = value) with
  | some (code, _) => .ok code
  | none => .error value

/-- `PamResultCode::from_raw`. -/
def fromRaw (value : ℤ) : PamResultCode :=
  match tryFrom value with
  | .ok code => code
  | .error _ => systemErr

lemma toInt_of_mem_table : ∀ row ∈ table, row.1.toInt = row.2.1 := by decide

@[simp] lemma tryFrom_toInt (code : PamResultCode) : tryFrom code.toInt = .ok code := by
  cases code <;> rfl

lemma tryFrom_eq_ok_iff {value : ℤ} {code : PamResultCode} :
    tryFrom value = .ok code ↔ value = code.toInt := by
  refine ⟨fun h => ?_, fun h => by rw [h, tryFrom_toInt]⟩
  rw [tryFrom] at h
  rcases hfind : table.find? (·.2.1 = value) with _ | row
  · rw [hfind] at h
    exact absurd h (by simp)
  · rw [hfind] at h
    have hvalue := List.find?_some hfind
    simp only [decide_eq_true_eq] at hvalue
    obtain rfl : row.1 = code := Except.ok.inj h
    rw [toInt_of_mem_table row (List.mem_of_find?_eq_some hfind), hvalue]

/-- An unknown code is not taken for success. -/
lemma fromRaw_eq_success_iff {value : ℤ} : fromRaw value = success ↔ value = 0 := by
  rw [show (0 : ℤ) = success.toInt from rfl, ← tryFrom_eq_ok_iff, fromRaw]
  cases tryFrom value <;> simp

end PamResultCode

/-! ## The items of a handle -/

/-- `ItemType`, by the items that the module asks for. -/
inductive ItemType where
  | service
  | user

/-- `ItemType as c_int`. -/
def ItemType.toInt : ItemType → ℤ
  | service => 1
  | user => 2

/-- The name of the type of the item. -/
def ItemType.name : ItemType → Text
  | service => "Service"
  | user => "User"

/-- `PamHandle`, by what `pam_get_item` of `libpam` does with it: the result code, and the
string that the pointer to the item points to, if it is not null. -/
structure PamHandle where
  pamGetItem : ℤ → ℤ × Option CStr

/-- `PamHandle::get_item`, for an item that is a C string. -/
def PamHandle.getItem (self : PamHandle) (item : ItemType) : Except PamResultCode (Option CStr) :=
  let (res, ptr) := self.pamGetItem item.toInt
  if PamResultCode.fromRaw res = .success then .ok ptr else .error (PamResultCode.fromRaw res)

/-- `get_item!`. -/
def PamHandle.getItemText (self : PamHandle) (item : ItemType) : Except Error Text :=
  match self.getItem item with
  | .error error => .error (.anyhow ["Could not get_item ", item.name, ": ", error.debug])
  | .ok none => .error (.anyhow ["Could not get_item ", item.name])
  | .ok (some service) =>
    match Text.fromUtf8 service with
    | some text => .ok text
    | none => .error .utf8

/-- The implementation of `PamHandleExt` by `PamHandle`. -/
def PamHandle.ext (self : PamHandle) : PamHandleExt where
  getCallingUser := self.getItemText .user
  getService := self.getItemText .service

/-- An item is read if `libpam` reports success and the item is a text. -/
lemma PamHandle.getItemText_eq_ok_iff {handle : PamHandle} {item : ItemType} {text : Text} :
    handle.getItemText item = .ok text ↔ ∃ bytes,
      handle.pamGetItem item.toInt = (0, some bytes) ∧ Text.fromUtf8 bytes = some text := by
  rcases hitem : handle.pamGetItem item.toInt with ⟨res, ptr⟩
  have hget : handle.getItem item = if PamResultCode.fromRaw res = .success then .ok ptr
      else .error (PamResultCode.fromRaw res) := by
    rw [getItem, hitem]
  rw [getItemText, hget]
  by_cases hres : res = 0
  · rw [if_pos (PamResultCode.fromRaw_eq_success_iff.mpr hres)]
    subst hres
    cases ptr with
    | none => simp
    | some bytes =>
      cases hutf8 : Text.fromUtf8 bytes <;> simp [hutf8]
  · rw [if_neg fun h => hres (PamResultCode.fromRaw_eq_success_iff.mp h)]
    simp [hres]

/-! ## The hooks -/

/-- A hook; one that fails has panicked.  The flags are not modelled, as no hook looks at
them. -/
abbrev Hook : Type := PamHandle → List CStr → Prog ModuleCalls Error PamResultCode

/-- `PamHooks`, with what a hook does that a module does not define. -/
structure PamHooks where
  acctMgmt : Hook := fun _ _ => .ret .ignore
  smAuthenticate : Hook := fun _ _ => .ret .ignore
  smChauthtok : Hook := fun _ _ => .ret .ignore
  smCloseSession : Hook := fun _ _ => .ret .ignore
  smOpenSession : Hook := fun _ _ => .ret .ignore
  smSetcred : Hook := fun _ _ => .ret .ignore

/-- A code that `sm_authenticate` returns, among all codes. -/
def resultCode : PamSshAgent.PamResultCode → PamResultCode
  | .success => .success
  | .authErr => .authErr

/-- `PamHooks for PamSshAgent`. -/
def hooks (fuel : ℕ) (crate : SshKeyCrate) (host : Host) : PamHooks where
  smAuthenticate handle args := do
    return resultCode (← PamSshAgent.smAuthenticate fuel crate host handle.ext args)
  smSetcred _ _ := .ret .success

/-! ## The entry points -/

/-- `panic_guard`. -/
def panicGuard (f : Prog ModuleCalls Error PamResultCode) :
    Prog ModuleCalls Error PamResultCode := do
  match ← f.attempt (δ := Error) with
  | .ok code => .ret code
  | .error _ => .ret .abort

/-- `slice::from_raw_parts`, for pointers.  A pointer that is not aligned is not allowed. -/
def fromRawParts (m : Memory) (argv : Ptr) (len : ℕ) : Option (List Ptr) :=
  if argv % ptrSize = 0 then ptrsAt m argv len else none

/-- `extract_argv`.  There is no result when a string lies outside the memory. -/
def extractArgv (m : Memory) : List Ptr → Option (Except PamResultCode (List CStr))
  | [] => some (.ok [])
  | p :: argv =>
    if p = 0 then some (.error .abort)
    else do
      let arg ← cstrAt m p
      let rest ← extractArgv m argv
      return rest.map (arg :: ·)

/-- `invoke_hook`.  A null pointer to the handle is `none`; there is no result when `argv` or an
argument lies outside the memory. -/
def invokeHook (m : Memory) (pamh : Option PamHandle) (argc : ℤ) (argv : Ptr) (hook : Hook) :
    Option (Prog ModuleCalls Error PamResultCode) :=
  Option.map panicGuard
    (match pamh with
    | none => some (.ret .abort)
    | some pamh =>
      if argc < 0 ∨ (argc > 0 ∧ argv = 0) then some (.ret .abort)
      else do
        let argv ← (if argc = 0 then some [] else fromRawParts m argv argc.toNat)
        match ← extractArgv m argv with
        | .ok args => some (hook pamh args)
        | .error e => some (.ret e))

section

variable (fuel : ℕ) (crate : SshKeyCrate) (host : Host) (m : Memory) (pamh : Option PamHandle)
  (argc : ℤ) (argv : Ptr)

/-- `pam_sm_acct_mgmt`. -/
def pamSmAcctMgmt : Option (Prog ModuleCalls Error PamResultCode) :=
  invokeHook m pamh argc argv (hooks fuel crate host).acctMgmt

/-- `pam_sm_authenticate`. -/
def pamSmAuthenticate : Option (Prog ModuleCalls Error PamResultCode) :=
  invokeHook m pamh argc argv (hooks fuel crate host).smAuthenticate

/-- `pam_sm_chauthtok`. -/
def pamSmChauthtok : Option (Prog ModuleCalls Error PamResultCode) :=
  invokeHook m pamh argc argv (hooks fuel crate host).smChauthtok

/-- `pam_sm_close_session`. -/
def pamSmCloseSession : Option (Prog ModuleCalls Error PamResultCode) :=
  invokeHook m pamh argc argv (hooks fuel crate host).smCloseSession

/-- `pam_sm_open_session`. -/
def pamSmOpenSession : Option (Prog ModuleCalls Error PamResultCode) :=
  invokeHook m pamh argc argv (hooks fuel crate host).smOpenSession

/-- `pam_sm_setcred`. -/
def pamSmSetcred : Option (Prog ModuleCalls Error PamResultCode) :=
  invokeHook m pamh argc argv (hooks fuel crate host).smSetcred

end

/-! ## What comes through -/

/-- The memory holds the arguments at `argv` as C lays them out: pointers one after the other,
and behind each the argument with a zero at its end. -/
structure CArguments (m : Memory) (argc : ℤ) (argv : Ptr) (args : List CStr) : Prop where
  count : argc = args.length
  array : args ≠ [] → argv ≠ 0 ∧ argv % ptrSize = 0 ∧ ∃ ptrs : List Ptr,
    (∀ p ∈ ptrs, p < 256 ^ ptrSize) ∧ Holds m argv (ptrs.flatMap (leBytes ptrSize)) ∧
    List.Forall₂ (fun p arg => p ≠ 0 ∧ 0 ∉ arg ∧ Holds m p (arg ++ [0])) ptrs args

variable {m : Memory} {pamh : Option PamHandle} {argc : ℤ} {argv : Ptr} {hook : Hook}

lemma extractArgv_eq_ok_iff {ptrs : List Ptr} {args : List CStr} :
    extractArgv m ptrs = some (.ok args) ↔
      List.Forall₂ (fun p arg => p ≠ 0 ∧ 0 ∉ arg ∧ Holds m p (arg ++ [0])) ptrs args := by
  induction ptrs generalizing args with
  | nil => cases args <;> simp [extractArgv]
  | cons p ptrs ih =>
    rw [extractArgv]
    by_cases hp : p = 0
    · simp [hp, List.forall₂_cons_left_iff]
    · rw [if_neg hp]
      simp only [Option.bind_eq_bind, Option.bind_eq_some_iff, Option.pure_def, Option.some.injEq,
        List.forall₂_cons_left_iff]
      constructor
      · rintro ⟨arg, harg, result, hresult, hmap⟩
        cases result with
        | error e => exact absurd hmap (by simp [Except.map])
        | ok rest =>
          obtain rfl := Except.ok.inj hmap
          exact ⟨arg, rest, ⟨hp, cstrAt_eq_some_iff.mp harg⟩, ih.mp hresult, rfl⟩
      · rintro ⟨arg, rest, ⟨-, harg⟩, hrest, rfl⟩
        exact ⟨arg, cstrAt_eq_some_iff.mpr harg, .ok rest, ih.mpr hrest, rfl⟩

lemma eq_abort_of_extractArgv {ptrs : List Ptr} {e : PamResultCode}
    (h : extractArgv m ptrs = some (.error e)) : e = .abort := by
  induction ptrs with
  | nil => exact absurd h (by simp [extractArgv])
  | cons p ptrs ih =>
    rw [extractArgv] at h
    by_cases hp : p = 0
    · rw [if_pos hp] at h
      exact (Except.error.inj (Option.some.inj h)).symm
    · rw [if_neg hp] at h
      simp only [Option.bind_eq_bind, Option.bind_eq_some_iff, Option.pure_def,
        Option.some.injEq] at h
      obtain ⟨arg, -, result, hresult, hmap⟩ := h
      cases result with
      | ok rest => exact absurd hmap (by simp [Except.map])
      | error e' =>
        obtain rfl := Except.error.inj hmap
        exact ih hresult

/-- Arguments that C has laid out arrive as they are. -/
lemma invokeHook_of_arguments {handle : PamHandle} {args : List CStr}
    (h : CArguments m argc argv args) :
    invokeHook m (some handle) argc argv hook = some (panicGuard (hook handle args)) := by
  obtain ⟨hcount, harray⟩ := h
  by_cases hargs : args = []
  · subst hargs
    obtain rfl : argc = 0 := hcount
    simp [invokeHook, extractArgv]
  · obtain ⟨hargv, haligned, ptrs, hlt, hholds, hptrs⟩ := harray hargs
    have hpos : 0 < args.length := List.length_pos_iff.mpr hargs
    have hread : fromRawParts m argv argc.toNat = some ptrs := by
      rw [fromRawParts, if_pos haligned]
      exact ptrsAt_eq_some_iff.mpr ⟨by have := hptrs.length_eq; omega, hlt, hholds⟩
    have hcheck : ¬ (argc < 0 ∨ (argc > 0 ∧ argv = 0)) := by
      rintro (hneg | ⟨-, hnull⟩)
      · omega
      · exact hargv hnull
    have hne : argc ≠ 0 := by omega
    simp [invokeHook, hcheck, hne, hread, extractArgv_eq_ok_iff.mpr hptrs]

/-- A call is refused, or arguments that C has laid out are passed on. -/
lemma eq_of_invokeHook {p : Prog ModuleCalls Error PamResultCode}
    (h : invokeHook m pamh argc argv hook = some p) : p = .ret .abort ∨
      ∃ handle args, pamh = some handle ∧ CArguments m argc argv args ∧
        p = panicGuard (hook handle args) := by
  cases pamh with
  | none => exact Or.inl (Option.some.inj h).symm
  | some handle =>
    by_cases hcheck : argc < 0 ∨ (argc > 0 ∧ argv = 0)
    · rw [invokeHook, if_pos hcheck] at h
      exact Or.inl (Option.some.inj h).symm
    · rw [invokeHook, if_neg hcheck] at h
      obtain ⟨guarded, hbody, rfl⟩ := Option.map_eq_some_iff.mp h
      simp only [Option.bind_eq_bind, Option.bind_eq_some_iff] at hbody
      obtain ⟨ptrs, hptrs, result, hresult, hguarded⟩ := hbody
      cases result with
      | error e =>
        obtain rfl := eq_abort_of_extractArgv hresult
        obtain rfl := Option.some.inj hguarded
        exact Or.inl rfl
      | ok args =>
        obtain rfl := Option.some.inj hguarded
        have hargs := extractArgv_eq_ok_iff.mp hresult
        refine Or.inr ⟨handle, args, rfl, ?_, rfl⟩
        by_cases hzero : argc = 0
        · rw [if_pos hzero] at hptrs
          obtain rfl := Option.some.inj hptrs
          obtain rfl := List.forall₂_nil_left_iff.mp hargs
          exact ⟨hzero, fun hne => absurd rfl hne⟩
        · rw [if_neg hzero, fromRawParts] at hptrs
          split at hptrs
          · rename_i haligned
            obtain ⟨hlength, hlt, hholds⟩ := ptrsAt_eq_some_iff.mp hptrs
            have hlengths := hargs.length_eq
            refine ⟨by omega, fun _ => ⟨fun hnull => hcheck ?_, haligned, ptrs, hlt, hholds, hargs⟩⟩
            exact Or.inr ⟨by omega, hnull⟩
          · exact absurd hptrs (by simp)

/-- What `libpam` gets from the module. -/
structure AtEntry (fuel : ℕ) (crate : SshKeyCrate) (host : Host) (m : Memory)
    (pamh : Option PamHandle) (argc : ℤ) (argv : Ptr) : Prop where
  /-- Arguments that C has laid out arrive as they are, and the result is that of the module. -/
  passed : ∀ handle args, pamh = some handle → CArguments m argc argv args →
    ∃ p, pamSmAuthenticate fuel crate host m pamh argc argv = some p ∧ ∀ es code,
      p.Returns es code ↔ ∃ result, code = resultCode result ∧
        (PamSshAgent.smAuthenticate fuel crate host handle.ext args).Returns es result
  /-- Everything else is refused before anything is done. -/
  refused : (∀ handle args, ¬ (pamh = some handle ∧ CArguments m argc argv args)) → ∀ p,
    pamSmAuthenticate fuel crate host m pamh argc argv = some p → p = .ret .abort
  /-- What is wrong with the call itself is seen without a look at the memory. -/
  malformed : pamh = none ∨ argc < 0 ∨ (0 < argc ∧ argv = 0) →
    pamSmAuthenticate fuel crate host m pamh argc argv = some (.ret .abort)
  /-- A call succeeds only for a user and a service that `libpam` names. -/
  named : ∀ p es, pamSmAuthenticate fuel crate host m pamh argc argv = some p →
    p.Returns es .success → ∃ handle user service, pamh = some handle ∧
      handle.pamGetItem ItemType.user.toInt = (0, some user) ∧
      handle.pamGetItem ItemType.service.toInt = (0, some service) ∧
      (Text.fromUtf8 user).isSome ∧ (Text.fromUtf8 service).isSome
  /-- The other functions of the module decide nothing. -/
  others : ∀ handle args, pamh = some handle → CArguments m argc argv args →
    pamSmSetcred fuel crate host m pamh argc argv = some (.ret .success) ∧
    pamSmAcctMgmt fuel crate host m pamh argc argv = some (.ret .ignore) ∧
    pamSmChauthtok fuel crate host m pamh argc argv = some (.ret .ignore) ∧
    pamSmOpenSession fuel crate host m pamh argc argv = some (.ret .ignore) ∧
    pamSmCloseSession fuel crate host m pamh argc argv = some (.ret .ignore)

section

variable {fuel : ℕ} {crate : SshKeyCrate} {host : Host} {handle : PamHandle} {args : List CStr}
  {es : List (Event ModuleCalls)} {code : PamResultCode}

lemma resultCode_eq_success {result : PamSshAgent.PamResultCode}
    (h : resultCode result = .success) : result = .success := by
  cases result with
  | success => rfl
  | authErr => exact absurd h (by simp [resultCode])

/-- `sm_authenticate` does not panic, and its code is passed on. -/
lemma returns_panicGuard_smAuthenticate :
    (panicGuard ((hooks fuel crate host).smAuthenticate handle args)).Returns es code ↔
      ∃ result, code = resultCode result ∧
        (PamSshAgent.smAuthenticate fuel crate host handle.ext args).Returns es result := by
  have hfails : ∀ es e,
      ¬ (PamSshAgent.smAuthenticate fuel crate host handle.ext args).Fails es e := by
    intro es e hfails
    rcases Prog.fails_bind.mp hfails with hattempt | ⟨es₁, es₂, result, -, -, hcode⟩
    · exact Prog.not_fails_attempt hattempt
    · cases result <;> exact absurd hcode (by simp)
  rw [panicGuard, Prog.returns_bind]
  constructor
  · rintro ⟨es₁, es₂, outcome, rfl, hends, hcode⟩
    rw [Prog.returns_attempt_iff_ends] at hends
    obtain ⟨rfl, hpassed⟩ : es₂ = [] ∧ ∃ code', outcome = .ok code' ∧ code' = code := by
      cases outcome with
      | ok code' =>
        obtain ⟨rfl, rfl⟩ := Prog.returns_ret.mp hcode
        exact ⟨rfl, _, rfl, rfl⟩
      | error e =>
        rcases Prog.fails_bind.mp (show Prog.Fails _ es₁ e from hends) with h | ⟨_, _, _, _, _, h⟩
        · exact absurd h (hfails _ _)
        · exact absurd h (by simp)
    obtain ⟨code', rfl, rfl⟩ := hpassed
    obtain ⟨es₃, es₄, result, rfl, hresult, hret⟩ :=
      Prog.returns_bind.mp (show Prog.Returns _ es₁ code' from hends)
    obtain ⟨rfl, rfl⟩ := Prog.returns_ret.mp hret
    exact ⟨result, rfl, by simpa using hresult⟩
  · rintro ⟨result, rfl, hresult⟩
    refine ⟨es, [], .ok (resultCode result), by simp, ?_, Prog.returns_ret.mpr ⟨rfl, rfl⟩⟩
    rw [Prog.returns_attempt_iff_ends]
    exact Prog.returns_bind.mpr ⟨es, [], result, by simp, hresult, Prog.returns_ret.mpr ⟨rfl, rfl⟩⟩

/-- Without the two items, the module denies at once. -/
lemma exists_context_of_success
    (h : (PamSshAgent.smAuthenticate fuel crate host handle.ext args).Returns es .success) :
    ∃ context, PamContext.new handle.ext = .ok context := by
  cases hcontext : PamContext.new handle.ext with
  | ok context => exact ⟨context, rfl⟩
  | error e =>
    have hdenied : PamSshAgent.smAuthenticate fuel crate host handle.ext args = .ret .authErr := by
      rw [PamSshAgent.smAuthenticate, run, hcontext]
      rfl
    rw [hdenied] at h
    exact absurd (Prog.returns_ret.mp h).2 (by simp)

end

/-- **The module at the C interface.**  Of the calls that `libpam` can make of
`pam_sm_authenticate`, those with a handle and with arguments laid out as C lays them out are
calls of the module with just these arguments; all others end with `PAM_ABORT` before anything
is done. -/
theorem entry_sound (fuel : ℕ) (crate : SshKeyCrate) (host : Host) (m : Memory)
    (pamh : Option PamHandle) (argc : ℤ) (argv : Ptr) :
    AtEntry fuel crate host m pamh argc argv := by
  constructor
  case passed =>
    rintro handle args rfl hargs
    exact ⟨_, invokeHook_of_arguments hargs, fun es code => returns_panicGuard_smAuthenticate⟩
  case refused =>
    intro hnone p hp
    rcases eq_of_invokeHook hp with rfl | ⟨handle, args, hpamh, hargs, -⟩
    · rfl
    · exact absurd ⟨hpamh, hargs⟩ (hnone handle args)
  case malformed =>
    rintro (rfl | hargc)
    · rfl
    · cases pamh with
      | none => rfl
      | some handle =>
        have hcheck : argc < 0 ∨ (argc > 0 ∧ argv = 0) := by
          rcases hargc with h | h
          · exact Or.inl h
          · exact Or.inr h
        rw [pamSmAuthenticate, invokeHook, if_pos hcheck]
        rfl
  case named =>
    intro p es hp hsuccess
    rcases eq_of_invokeHook hp with rfl | ⟨handle, args, rfl, hargs, rfl⟩
    · exact absurd (Prog.returns_ret.mp hsuccess).2 (by simp)
    · obtain ⟨result, hresult, hreturns⟩ := returns_panicGuard_smAuthenticate.mp hsuccess
      obtain rfl := resultCode_eq_success hresult.symm
      obtain ⟨context, hcontext⟩ := exists_context_of_success hreturns
      obtain ⟨callingUser, huser, hrest⟩ := Except.bind_eq_ok_iff.mp hcontext
      obtain ⟨service, hservice, -⟩ := Except.bind_eq_ok_iff.mp hrest
      obtain ⟨user, hgetUser, hutf8⟩ := PamHandle.getItemText_eq_ok_iff.mp huser
      obtain ⟨name, hgetService, hutf8'⟩ := PamHandle.getItemText_eq_ok_iff.mp hservice
      exact ⟨handle, user, name, rfl, hgetUser, hgetService, by simp [hutf8], by simp [hutf8']⟩
  case others =>
    rintro handle args rfl hargs
    exact ⟨invokeHook_of_arguments hargs, invokeHook_of_arguments hargs,
      invokeHook_of_arguments hargs, invokeHook_of_arguments hargs, invokeHook_of_arguments hargs⟩

end PamSshAgent.Pam
