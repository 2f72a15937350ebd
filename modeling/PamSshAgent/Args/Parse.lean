import PamSshAgent.Args.Expansions

/-!
# The arguments of the module

`Args::parse` goes through the PAM arguments from left to right.  The flag `strict` is
looked for in the whole list before; everything else is collected by the loop, whose
local variables are the fields of `ParseState`.
-/

namespace PamSshAgent

/-- A C string, by its bytes. -/
abbrev CStr := List UInt8

/-- The argument list written as texts. -/
def cstrs (args : List Text) : List CStr := args.map Text.bytes

/-- `DEFAULT_AUTHORIZED_KEYS_PATH`. -/
def defaultAuthorizedKeysPath : Text := "/etc/security/authorized_keys"

/-- `Args`; the timeout is in seconds. -/
structure Args where
  debug : Bool := false
  file : Text := defaultAuthorizedKeysPath
  defaultSshAuthSock : Option Text := none
  caKeysFile : Option Text := none
  authorizedKeysCommand : Option Text := none
  authorizedKeysCommandUser : Option Text := none
  strict : Bool := false
  sshdShortcut : Bool := true
  agentTimeout : Option ℕ := none
deriving DecidableEq, Repr

/-- The local variables of the loop of `Args::parse`. -/
structure ParseState where
  debug : Bool
  file : Text
  defaultSshAuthSock : Option Text
  caKeysFile : Option Text
  authorizedKeysCommand : Option Text
  authorizedKeysCommandUser : Option Text
  sshdShortcut : Bool
  agentTimeout : Option ℕ
  fileIsPerUser : Bool

/-- The local variables before the loop. -/
def ParseState.init (strict : Bool) : ParseState where
  debug := false
  file := defaultAuthorizedKeysPath
  defaultSshAuthSock := none
  caKeysFile := none
  authorizedKeysCommand := none
  authorizedKeysCommandUser := none
  sshdShortcut := !strict
  agentTimeout := if strict then some 30 else none
  fileIsPerUser := false

/-- `validate_trust_source_argument`. -/
def validateTrustSourceArgument (argument : Text) : Except Error Unit :=
  match argument.splitOnce '=' with
  | none => .ok ()
  | some (key, value) =>
    if key ≠ "file" ∧ key ≠ "ca_keys_file" ∧ key ≠ "authorized_keys_command" then
      .ok ()
    else if value.contains "~" ∨ value.contains "%h" then
      .error (.anyhow ["strict mode rejects home-expanded trust source '", key, "'"])
    else if key = "authorized_keys_command" ∧
        ([("%u" : Text), "%U", "%H", "%f"].any fun pattern => value.contains pattern) then
      .error (.anyhow ["strict mode rejects expanded helper paths"])
    else
      .ok ()

/-- The update of `file_is_per_user` by the raw text of an argument. -/
def ParseState.noteFile (st : ParseState) (any : Text) : ParseState :=
  match any.stripPrefix "file=" with
  | some value => { st with fileIsPerUser := value.contains "%u" }
  | none => st

/-- The assignment of an expanded value to the variable of its key. -/
def ParseState.assign (st : ParseState) (key value : Text) : Except Error ParseState :=
  if key = "file" then
    .ok { st with file := value }
  else if key = "default_ssh_auth_sock" then
    .ok { st with defaultSshAuthSock := some value }
  else if key = "ca_keys_file" then
    .ok { st with caKeysFile := some value }
  else if key = "authorized_keys_command" then
    .ok { st with authorizedKeysCommand := some value }
  else if key = "authorized_keys_command_user" then
    .ok { st with authorizedKeysCommandUser := some value }
  else if key = "agent_timeout" then
    match value.parseU64 with
    | none => .error .parseInt
    | some seconds =>
      if 1 ≤ seconds ∧ seconds ≤ 300 then
        .ok { st with agentTimeout := some seconds }
      else
        .error (.anyhow ["agent_timeout must be between 1 and 300 seconds"])
  else
    .error (.anyhow ["Unknown parameter key '", key, "'"])

/-- The arm `any` of the loop: an argument that is none of the flags. -/
def parseParameter (strict : Bool) (env : Environment) (handle : PamHandleExt)
    (st : ParseState) (any : Text) : Except Error ParseState := do
  let _ ← (if strict then validateTrustSourceArgument any else .ok ())
  let expanded ← expandVars any env handle
  match expanded.splitn2 '=' with
  | [key, value] => (st.noteFile any).assign key value
  | _ => .error (.anyhow ["Could not split '", expanded, "' using '='"])

/-- One round of the loop. -/
def parseArg (strict : Bool) (env : Environment) (handle : PamHandleExt) (st : ParseState)
    (arg : CStr) : Except Error ParseState :=
  match Text.fromUtf8 arg with
  | none => .error .utf8
  | some any =>
    if any = "debug" then .ok { st with debug := true }
    else if any = "strict" then .ok st
    else if any = "sshd_shortcut" then .ok { st with sshdShortcut := true }
    else parseParameter strict env handle st any

/-- What `Args::parse` does after the loop. -/
def ParseState.finish (st : ParseState) (strict : Bool) : Except Error Args :=
  if strict ∧ !st.fileIsPerUser then
    .error (.anyhow ["strict mode requires file= to contain %u"])
  else if strict ∧ st.authorizedKeysCommand.any fun command => !command.isAbsolutePath then
    .error (.anyhow ["strict mode requires an absolute authorized_keys_command"])
  else
    .ok { debug := st.debug
          file := st.file
          defaultSshAuthSock := st.defaultSshAuthSock
          caKeysFile := st.caKeysFile
          authorizedKeysCommand := st.authorizedKeysCommand
          authorizedKeysCommandUser := st.authorizedKeysCommandUser
          strict := strict
          sshdShortcut := st.sshdShortcut
          agentTimeout := st.agentTimeout }

/-- `strict` is one of the arguments. -/
def hasStrict (args : List CStr) : Bool := args.any (· == Text.bytes "strict")

/-- `Args::parse`. -/
def Args.parse (args : List CStr) (env : Environment) (handle : PamHandleExt) :
    Except Error Args := do
  let strict := hasStrict args
  let st ← args.foldlM (parseArg strict env handle) (ParseState.init strict)
  st.finish strict

/-! ## What one argument does -/

/-- The flags, which are matched as they stand. -/
def IsFlag (any : Text) : Prop := any = "debug" ∨ any = "strict" ∨ any = "sshd_shortcut"

instance : DecidablePred IsFlag := fun _ => inferInstanceAs (Decidable (_ ∨ _ ∨ _))

variable {strict : Bool} {env : Environment} {handle : PamHandleExt} {st st' : ParseState}

/-- Everything a successful round can do. -/
lemma parseArg_cases {arg : CStr} (h : parseArg strict env handle st arg = .ok st') :
    ∃ any, Text.fromUtf8 arg = some any ∧
      ((any = "debug" ∧ st' = { st with debug := true }) ∨
        (any = "strict" ∧ st' = st) ∨
        (any = "sshd_shortcut" ∧ st' = { st with sshdShortcut := true }) ∨
        (¬ IsFlag any ∧ (strict → validateTrustSourceArgument any = .ok ()) ∧
          ∃ expanded key value, expandVars any env handle = .ok expanded ∧
            expanded.splitOnce '=' = some (key, value) ∧
            (st.noteFile any).assign key value = .ok st')) := by
  cases hany : Text.fromUtf8 arg with
  | none => simp [parseArg, hany] at h
  | some any =>
    refine ⟨any, rfl, ?_⟩
    simp only [parseArg, hany] at h
    split_ifs at h with h₁ h₂ h₃
    · exact Or.inl ⟨h₁, by simpa using h.symm⟩
    · exact Or.inr (Or.inl ⟨h₂, by simpa using h.symm⟩)
    · exact Or.inr (Or.inr (Or.inl ⟨h₃, by simpa using h.symm⟩))
    · refine Or.inr (Or.inr (Or.inr ⟨by rintro (h | h | h) <;> contradiction, ?_⟩))
      rw [parseParameter, Except.bind_eq_ok_iff] at h
      obtain ⟨_, hvalid, h⟩ := h
      obtain ⟨expanded, hexp, h⟩ := Except.bind_eq_ok_iff.mp h
      refine ⟨fun hs => by simpa [hs] using hvalid, expanded, ?_⟩
      cases hsplit : expanded.splitOnce '=' with
      | none => simp [Text.splitn2, hsplit] at h
      | some kv =>
        obtain ⟨key, value⟩ := kv
        simp only [Text.splitn2, hsplit] at h
        exact ⟨key, value, hexp, rfl, h⟩

/-- Everything an assignment can do: it changes the variable of its key and no other. -/
lemma assign_cases {key value : Text} (h : st.assign key value = .ok st') :
    (key = "file" ∧ st' = { st with file := value }) ∨
      (key = "default_ssh_auth_sock" ∧ st' = { st with defaultSshAuthSock := some value }) ∨
      (key = "ca_keys_file" ∧ st' = { st with caKeysFile := some value }) ∨
      (key = "authorized_keys_command" ∧
        st' = { st with authorizedKeysCommand := some value }) ∨
      (key = "authorized_keys_command_user" ∧
        st' = { st with authorizedKeysCommandUser := some value }) ∨
      (key = "agent_timeout" ∧ ∃ seconds, value.parseU64 = some seconds ∧ 1 ≤ seconds ∧
        seconds ≤ 300 ∧ st' = { st with agentTimeout := some seconds }) := by
  unfold ParseState.assign at h
  split_ifs at h with h₁ h₂ h₃ h₄ h₅ h₆
  · exact Or.inl ⟨h₁, (Except.ok.inj h).symm⟩
  · exact Or.inr (Or.inl ⟨h₂, (Except.ok.inj h).symm⟩)
  · exact Or.inr (Or.inr (Or.inl ⟨h₃, (Except.ok.inj h).symm⟩))
  · exact Or.inr (Or.inr (Or.inr (Or.inl ⟨h₄, (Except.ok.inj h).symm⟩)))
  · exact Or.inr (Or.inr (Or.inr (Or.inr (Or.inl ⟨h₅, (Except.ok.inj h).symm⟩))))
  · refine Or.inr (Or.inr (Or.inr (Or.inr (Or.inr ⟨h₆, ?_⟩))))
    cases hs : value.parseU64 with
    | none =>
      rw [hs] at h
      exact absurd h (by simp)
    | some seconds =>
      rw [hs] at h
      dsimp only at h
      split_ifs at h with hrange
      exact ⟨seconds, rfl, hrange.1, hrange.2, (Except.ok.inj h).symm⟩

/-- A timeout in range is assigned. -/
lemma assign_timeout {value : Text} {seconds : ℕ} (hseconds : value.parseU64 = some seconds)
    (hmin : 1 ≤ seconds) (hmax : seconds ≤ 300) :
    st.assign "agent_timeout" value = .ok { st with agentTimeout := some seconds } := by
  rw [ParseState.assign, if_neg (by decide), if_neg (by decide), if_neg (by decide),
    if_neg (by decide), if_neg (by decide), if_pos rfl, hseconds]
  exact if_pos ⟨hmin, hmax⟩

@[simp] lemma noteFile_file (any : Text) : (st.noteFile any).file = st.file := by
  unfold ParseState.noteFile
  split <;> rfl

@[simp] lemma noteFile_caKeysFile (any : Text) :
    (st.noteFile any).caKeysFile = st.caKeysFile := by
  unfold ParseState.noteFile
  split <;> rfl

@[simp] lemma noteFile_authorizedKeysCommand (any : Text) :
    (st.noteFile any).authorizedKeysCommand = st.authorizedKeysCommand := by
  unfold ParseState.noteFile
  split <;> rfl

/-- The list of arguments of a successful parse in strict mode has a `file=` argument
whose value contains `%u`, and its helper, if any, has an absolute path. -/
lemma finish_eq_ok {a : Args} (h : st.finish strict = .ok a) :
    a.file = st.file ∧ a.caKeysFile = st.caKeysFile ∧
      a.authorizedKeysCommand = st.authorizedKeysCommand ∧
      (strict → st.fileIsPerUser = true) := by
  unfold ParseState.finish at h
  split_ifs at h with h₁ h₂
  obtain rfl := Except.ok.inj h
  refine ⟨rfl, rfl, rfl, fun hs => ?_⟩
  by_contra hper
  exact h₁ ⟨hs, by simpa using hper⟩

end PamSshAgent
