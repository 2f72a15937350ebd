import PamSshAgent.Args.TrustSources

/-!
# The arguments, one key at a time

The loop of `Args::parse` expands the text of an argument as a whole and splits the result
at the first `=`.  When no key contains a `~` or a `%`, this is the same as splitting first
and expanding the value, and the result of the loop has a reference that does not look at
the order of the arguments: each argument is valid by itself, and each field comes from the
last argument with its key.
-/

namespace PamSshAgent

open LastValue Occurrence

/-- The text before the first `=` has no `~` and no `%`. -/
def PlainKey (arg : CStr) : Prop :=
  ∀ any, Text.fromUtf8 arg = some any →
    '~' ∉ any.takeWhile (· ≠ '=') ∧ '%' ∉ any.takeWhile (· ≠ '=')

instance : DecidablePred PlainKey := fun arg =>
  inferInstanceAs (Decidable (∀ any ∈ Text.fromUtf8 arg,
    '~' ∉ any.takeWhile (· ≠ '=') ∧ '%' ∉ any.takeWhile (· ≠ '=')))

/-- The keys of the parameters. -/
def parameterKeys : List Text :=
  ["file", "default_ssh_auth_sock", "ca_keys_file", "authorized_keys_command",
    "authorized_keys_command_user", "agent_timeout"]

/-- The value of the argument as it is written, if it has the key. -/
def rawValue (key : Text) (arg : CStr) : Option Text :=
  (Text.fromUtf8 arg).bind fun any => (any.splitOnce '=').bind fun parts =>
    if parts.1 = key then some parts.2 else none

/-- The argument is one of the flags or sets a parameter to a value that it accepts. -/
inductive ValidArgument (strict : Bool) (env : Environment) (handle : PamHandleExt) (arg : CStr) :
    Prop
  | flag (any : Text) (hany : Text.fromUtf8 arg = some any) (h : IsFlag any)
  | parameter (any key raw value : Text) (hany : Text.fromUtf8 arg = some any)
      (hsplit : any.splitOnce '=' = some (key, raw)) (hkey : key ∈ parameterKeys)
      (hexpands : expandVars raw env handle = .ok value)
      (htimeout : key = "agent_timeout" →
        ∃ seconds, value.parseU64 = some seconds ∧ 1 ≤ seconds ∧ seconds ≤ 300)
      (htrust : strict = true → validateTrustSourceArgument any = .ok ())

/-- The expanded value of the last argument with the key. -/
def lastExpanded (args : List CStr) (env : Environment) (handle : PamHandleExt) (key : Text) :
    Option Text :=
  (lastValue (rawValue key) args).bind fun raw => (expandVars raw env handle).toOption

/-- One of the arguments is the flag. -/
def hasFlag (name : Text) (args : List CStr) : Bool := args.any (· == Text.bytes name)

/-- The fields, each from the last argument with its key. -/
def referenceArgs (args : List CStr) (env : Environment) (handle : PamHandleExt) : Args where
  debug := hasFlag "debug" args
  file := (lastExpanded args env handle "file").getD defaultAuthorizedKeysPath
  defaultSshAuthSock := lastExpanded args env handle "default_ssh_auth_sock"
  caKeysFile := lastExpanded args env handle "ca_keys_file"
  authorizedKeysCommand := lastExpanded args env handle "authorized_keys_command"
  authorizedKeysCommandUser := lastExpanded args env handle "authorized_keys_command_user"
  strict := hasFlag "strict" args
  sshdShortcut := !hasFlag "strict" args || hasFlag "sshd_shortcut" args
  agentTimeout := ((lastExpanded args env handle "agent_timeout").bind Text.parseU64).or
    (if hasFlag "strict" args then some 30 else none)

/-- Every argument is valid by itself; with `strict` among them the last `file=` names the
user and the last helper is absolute. -/
structure ReferenceAccepts (args : List CStr) (env : Environment) (handle : PamHandleExt) :
    Prop where
  valid : ∀ arg ∈ args, ValidArgument (hasFlag "strict" args) env handle arg
  perUser : hasFlag "strict" args = true →
    ∃ raw, lastValue (rawValue "file") args = some raw ∧ raw.contains "%u" = true
  absolute : hasFlag "strict" args = true → ∀ command,
    lastExpanded args env handle "authorized_keys_command" = some command →
      command.isAbsolutePath = true

/-! ## Expansion after a plain key -/

variable {env : Environment} {handle : PamHandleExt} {strict : Bool} {st st' : ParseState}
  {arg : CStr} {any key value raw : Text}

/-- A pass leaves a text without `%` in front alone. -/
lemma expandVar_after {P : Text} (pattern : Text) (c : Char) (hpattern : pattern = ['%', c])
    (Y : Text) (hP : '%' ∉ P) (getValue : Except Error Text) :
    expandVar (P ++ Y) pattern getValue = (expandVar Y pattern getValue).map (P ++ ·) := by
  subst hpattern
  have hlast : P.getLast? ≠ some '%' := fun hl => hP (List.mem_of_getLast? hl)
  by_cases hoccurs : ['%', c] <:+: Y
  · rw [expandVar_of_occurs hoccurs, expandVar_of_occurs ((pair_infix_append_iff hP).mpr hoccurs)]
    cases getValue with
    | error error => rfl
    | ok value =>
      have hreplace := replaceFirst_pair_append value Y (b := c) (not_pair_infix_of_notMem hP)
        (Or.inl hlast)
      exact congrArg Except.ok hreplace
  · rw [expandVar_of_not_occurs hoccurs,
      expandVar_of_not_occurs (mt (pair_infix_append_iff hP).mp hoccurs)]
    rfl

/-- The pass for the home directory leaves a text without `~` in front alone. -/
lemma expandHomedir_after {P : Text} (Y : Text) (hP : '~' ∉ P)
    (getHomedir : Text → Except Error Text) :
    expandHomedir (P ++ Y) getHomedir = (expandHomedir Y getHomedir).map (P ++ ·) := by
  have hfind : find ['~'] (P ++ Y) = (find ['~'] Y).map (P.length + ·) := by
    refine find_append_of_not_prefix P Y fun zs hne hzs hpre => ?_
    obtain ⟨z, zs', rfl⟩ := List.exists_cons_of_ne_nil hne
    obtain rfl : '~' = z := by simpa using hpre
    exact hP (hzs.subset List.mem_cons_self)
  rw [expandHomedir, expandHomedir, hfind]
  cases find ['~'] Y with
  | none => rfl
  | some idx =>
    have hname : getUsername (P ++ Y) (P.length + idx) = getUsername Y idx := by
      rw [getUsername, getUsername, Nat.add_assoc, List.drop_length_add_append]
    simp only [Option.map_some, hname]
    cases getHomedir (getUsername Y idx) with
    | error error => rfl
    | ok home =>
      have hdrop : P.length + idx + 1 + (getUsername Y idx).length =
          P.length + (idx + 1 + (getUsername Y idx).length) := by
        omega
      simp only [Except.ok_bind, hdrop, List.drop_length_add_append, List.take_length_add_append]
      simp [Except.map, pure, Except.pure]

/-- One pass after another. -/
lemma bind_after {P : Text} {x : Except Error Text} {f g : Text → Except Error Text}
    (h : ∀ t, f (P ++ t) = (g t).map (P ++ ·)) :
    (x.map (P ++ ·) >>= f) = (x >>= g).map (P ++ ·) := by
  cases x with
  | error error => rfl
  | ok t => exact h t

/-- Expansion does not touch a plain key. -/
lemma expandVars_after {P : Text} (Y : Text) (htilde : '~' ∉ P) (hpercent : '%' ∉ P) :
    expandVars (P ++ Y) env handle = (expandVars Y env handle).map (P ++ ·) := by
  rw [expandVars, expandVars, expandHomedir_after Y htilde]
  refine bind_after fun t₁ => ?_
  rw [expandVar_after "%h" 'h' rfl t₁ hpercent]
  refine bind_after fun t₂ => ?_
  rw [expandVar_after "%H" 'H' rfl t₂ hpercent]
  refine bind_after fun t₃ => ?_
  rw [expandVar_after "%u" 'u' rfl t₃ hpercent]
  refine bind_after fun t₄ => ?_
  rw [expandVar_after "%f" 'f' rfl t₄ hpercent]
  refine bind_after fun t₅ => ?_
  rw [expandVar_after "%U" 'U' rfl t₅ hpercent]

/-- The raw parts of an argument with a plain key, and its expansion. -/
lemma plainKey_split (hplain : PlainKey arg) (hany : Text.fromUtf8 arg = some any)
    (hsplit : any.splitOnce '=' = some (key, raw)) :
    expandVars any env handle = (expandVars raw env handle).map ((key ++ ['=']) ++ ·) := by
  obtain ⟨rfl, hkey⟩ := Text.splitOnce_eq_some hsplit
  obtain ⟨htilde, hpercent⟩ := hplain _ hany
  have htake : (key ++ '=' :: raw).takeWhile (· ≠ '=') = key := by
    have hall : ∀ c ∈ key, decide (c ≠ '=') = true := by
      intro c hc
      rw [decide_eq_true_eq]
      rintro rfl
      exact hkey hc
    rw [List.takeWhile_append_of_pos hall]
    simp
  rw [htake] at htilde hpercent
  rw [← List.singleton_append, ← List.append_assoc]
  refine expandVars_after raw ?_ ?_
  · simpa using htilde
  · simpa using hpercent

/-- An argument without `=` has nothing to expand. -/
lemma plainKey_noSplit (hplain : PlainKey arg) (hany : Text.fromUtf8 arg = some any)
    (hsplit : any.splitOnce '=' = none) : expandVars any env handle = .ok any := by
  obtain ⟨htilde, hpercent⟩ := hplain any hany
  have htake : any.takeWhile (· ≠ '=') = any := by
    refine List.takeWhile_eq_self_iff.mpr fun c hc => ?_
    rw [decide_eq_true_eq]
    rintro rfl
    exact Text.splitOnce_eq_none_iff.mp hsplit hc
  rw [htake] at htilde hpercent
  refine expandVars_static ⟨⟨htilde, not_pair_infix_of_notMem hpercent⟩, ?_⟩ env handle
  intro pattern hpattern
  have hpair : ∃ c, pattern = ['%', c] := by
    fin_cases hpattern <;> exact ⟨_, rfl⟩
  obtain ⟨c, rfl⟩ := hpair
  exact not_pair_infix_of_notMem hpercent

/-! ## One round -/

/-- A flag has no `=`. -/
lemma splitOnce_of_isFlag (hflag : IsFlag any) : any.splitOnce '=' = none := by
  rw [Text.splitOnce_eq_none_iff]
  rcases hflag with rfl | rfl | rfl <;> decide

/-- What is left of the key after the expansion. -/
lemma splitOnce_key (hsplit : any.splitOnce '=' = some (key, raw)) (value : Text) :
    (key ++ ['='] ++ value).splitOnce '=' = some (key, value) := by
  rw [List.append_assoc, List.singleton_append]
  exact Text.splitOnce_append value (Text.splitOnce_eq_some hsplit).2

/-- What an argument with a plain key assigns. -/
lemma assignment_of_plainKey (hplain : PlainKey arg) (key : Text) :
    assignment env handle key arg =
      (rawValue key arg).bind fun raw => (expandVars raw env handle).toOption := by
  cases hany : Text.fromUtf8 arg with
  | none => simp [assignment, rawValue, hany]
  | some any =>
    by_cases hflag : IsFlag any
    · rw [assignment_of_flag hany hflag, rawValue, hany, Option.bind_some,
        splitOnce_of_isFlag hflag]
      rfl
    rw [rawValue, hany, Option.bind_some]
    cases hsplit : any.splitOnce '=' with
    | none =>
      rw [assignment, hany]
      simp [hflag, plainKey_noSplit hplain hany hsplit, hsplit]
    | some parts =>
      obtain ⟨k, raw⟩ := parts
      have hexpands : expandVars any env handle =
          (expandVars raw env handle).map ((k ++ ['=']) ++ ·) :=
        plainKey_split hplain hany hsplit
      cases hraw : expandVars raw env handle with
      | error error =>
        rw [hraw] at hexpands
        rw [assignment, hany]
        simp only [if_neg hflag, hexpands, Except.map, Option.bind_some]
        split_ifs <;> simp [hraw, Except.toOption]
      | ok value =>
        rw [hraw] at hexpands
        rw [assignment_of_expansion key hany hflag hexpands (splitOnce_key hsplit value)]
        simp only [Option.bind_some]
        split_ifs <;> simp [hraw, Except.toOption]

/-- A value is assigned if its key is known and, for a timeout, if it is in range. -/
lemma assign_isOk_iff : (∃ st', st.assign key value = .ok st') ↔ key ∈ parameterKeys ∧
    (key = "agent_timeout" →
      ∃ seconds, value.parseU64 = some seconds ∧ 1 ≤ seconds ∧ seconds ≤ 300) := by
  constructor
  · rintro ⟨st', hassign⟩
    rcases assign_cases hassign with ⟨rfl, -⟩ | ⟨rfl, -⟩ | ⟨rfl, -⟩ | ⟨rfl, -⟩ | ⟨rfl, -⟩ |
      ⟨rfl, seconds, hseconds, hone, hmax, -⟩
    · exact ⟨by simp [parameterKeys], fun h => absurd h (by decide)⟩
    · exact ⟨by simp [parameterKeys], fun h => absurd h (by decide)⟩
    · exact ⟨by simp [parameterKeys], fun h => absurd h (by decide)⟩
    · exact ⟨by simp [parameterKeys], fun h => absurd h (by decide)⟩
    · exact ⟨by simp [parameterKeys], fun h => absurd h (by decide)⟩
    · exact ⟨by simp [parameterKeys], fun _ => ⟨seconds, hseconds, hone, hmax⟩⟩
  · rintro ⟨hkey, htimeout⟩
    simp only [parameterKeys, List.mem_cons, List.not_mem_nil, or_false] at hkey
    rcases hkey with rfl | rfl | rfl | rfl | rfl | rfl
    · exact ⟨{ st with file := value }, rfl⟩
    · exact ⟨{ st with defaultSshAuthSock := some value }, rfl⟩
    · exact ⟨{ st with caKeysFile := some value }, rfl⟩
    · exact ⟨{ st with authorizedKeysCommand := some value }, rfl⟩
    · exact ⟨{ st with authorizedKeysCommandUser := some value }, rfl⟩
    · obtain ⟨seconds, hseconds, hmin, hmax⟩ := htimeout rfl
      exact ⟨_, assign_timeout hseconds hmin hmax⟩

/-- Any assignment that succeeds comes from the raw parts of the argument. -/
lemma raw_of_expanded {expanded : Text} (hplain : PlainKey arg)
    (hany : Text.fromUtf8 arg = some any) (hexpands : expandVars any env handle = .ok expanded)
    (hsplit : expanded.splitOnce '=' = some (key, value)) :
    ∃ raw, any.splitOnce '=' = some (key, raw) ∧ expandVars raw env handle = .ok value := by
  cases hparts : any.splitOnce '=' with
  | none =>
    rw [plainKey_noSplit hplain hany hparts] at hexpands
    rw [← Except.ok.inj hexpands, hparts] at hsplit
    exact absurd hsplit (by simp)
  | some parts =>
    obtain ⟨k, raw⟩ := parts
    rw [plainKey_split hplain hany hparts] at hexpands
    cases hraw : expandVars raw env handle with
    | error error =>
      rw [hraw] at hexpands
      exact absurd hexpands (by simp [Except.map])
    | ok v =>
      rw [hraw] at hexpands
      have hexpanded : key = k ∧ value = v := by
        rw [← Except.ok.inj hexpands, splitOnce_key hparts v, Option.some.injEq,
          Prod.mk.injEq] at hsplit
        exact ⟨hsplit.1.symm, hsplit.2.symm⟩
      obtain ⟨rfl, rfl⟩ := hexpanded
      exact ⟨raw, rfl, hraw⟩

/-- A round goes on for a valid argument and for no other. -/
lemma parseArg_isOk_iff (hplain : PlainKey arg) :
    (∃ st', parseArg strict env handle st arg = .ok st') ↔
      ValidArgument strict env handle arg := by
  constructor
  · rintro ⟨st', hround⟩
    obtain ⟨any, hany, hcases⟩ := parseArg_cases hround
    by_cases hflag : IsFlag any
    · exact .flag any hany hflag
    rcases hcases with ⟨h, -⟩ | ⟨h, -⟩ | ⟨h, -⟩ |
      ⟨-, htrust, expanded, key, value, hexpands, hsplit, hassign⟩
    · exact absurd (Or.inl h) hflag
    · exact absurd (Or.inr (Or.inl h)) hflag
    · exact absurd (Or.inr (Or.inr h)) hflag
    · obtain ⟨raw, hraw, hvalue⟩ := raw_of_expanded hplain hany hexpands hsplit
      obtain ⟨hkey, htimeout⟩ := assign_isOk_iff.mp ⟨st', hassign⟩
      exact .parameter any key raw value hany hraw hkey hvalue htimeout htrust
  · intro hvalid
    cases hvalid with
    | flag any hany h =>
      rcases h with rfl | rfl | rfl
      · exact ⟨{ st with debug := true }, by rw [parseArg, hany]; rfl⟩
      · exact ⟨st, by rw [parseArg, hany]; rfl⟩
      · exact ⟨{ st with sshdShortcut := true }, by rw [parseArg, hany]; rfl⟩
    | parameter any key raw value hany hsplit hkey hexpands htimeout htrust =>
      have hflag : ¬ IsFlag any := by
        intro h
        rw [splitOnce_of_isFlag h] at hsplit
        exact absurd hsplit (by simp)
      -- a plain key stays as it is when the argument is expanded
      have hexpanded : expandVars any env handle = .ok (key ++ ['='] ++ value) := by
        rw [plainKey_split hplain hany hsplit, hexpands]
        rfl
      obtain ⟨st', hassign⟩ : ∃ st', (st.noteFile any).assign key value = .ok st' :=
        assign_isOk_iff.mpr ⟨hkey, htimeout⟩
      have hcheck : (if strict then validateTrustSourceArgument any else .ok ()) = .ok () := by
        split_ifs with hs
        · exact htrust hs
        · rfl
      have hround : parseParameter strict env handle st any = .ok st' := by
        rw [parseParameter, hcheck, Except.ok_bind, hexpanded, Except.ok_bind, Text.splitn2,
          splitOnce_key hsplit value]
        exact hassign
      refine ⟨st', ?_⟩
      rw [parseArg, hany]
      dsimp only
      rw [if_neg fun h => hflag (Or.inl h), if_neg fun h => hflag (Or.inr (Or.inl h)),
        if_neg fun h => hflag (Or.inr (Or.inr h))]
      exact hround

/-! ## The other fields -/

/-- The fields that are no trust sources, after one round. -/
lemma parseArg_otherFields (h : parseArg strict env handle st arg = .ok st') :
    st'.debug = (arg == Text.bytes "debug" || st.debug) ∧
      st'.sshdShortcut = (arg == Text.bytes "sshd_shortcut" || st.sshdShortcut) ∧
      st'.defaultSshAuthSock =
        (assignment env handle "default_ssh_auth_sock" arg).or st.defaultSshAuthSock ∧
      st'.authorizedKeysCommandUser =
        (assignment env handle "authorized_keys_command_user" arg).or
          st.authorizedKeysCommandUser ∧
      st'.agentTimeout =
        ((assignment env handle "agent_timeout" arg).bind Text.parseU64).or st.agentTimeout := by
  obtain ⟨any, hany, hcases⟩ := parseArg_cases h
  have heq : ∀ name : Text, (arg == Text.bytes name) = (any == name) := by
    intro name
    rw [← Text.bytes_of_fromUtf8 hany, Bool.eq_iff_iff, beq_iff_eq, beq_iff_eq]
    exact Text.bytes_injective.eq_iff
  rw [heq, heq]
  -- `debug`, `strict` and `sshd_shortcut` are no assignments
  rcases hcases with ⟨rfl, rfl⟩ | ⟨rfl, rfl⟩ | ⟨rfl, rfl⟩ |
    ⟨hflag, -, expanded, key, value, hexpands, hsplit, hassign⟩
  · have hnone : ∀ key, assignment env handle key arg = none := fun _ =>
      assignment_of_flag hany (Or.inl rfl)
    have hshortcut : (("debug" : Text) == "sshd_shortcut") = false := by decide
    simp only [hnone, hshortcut, beq_self_eq_true, Bool.true_or, Bool.false_or, Option.none_or,
      Option.bind_none, and_self]
  · have hnone : ∀ key, assignment env handle key arg = none := fun _ =>
      assignment_of_flag hany (Or.inr (Or.inl rfl))
    have hdebug : (("strict" : Text) == "debug") = false := by decide
    have hshortcut : (("strict" : Text) == "sshd_shortcut") = false := by decide
    simp only [hnone, hdebug, hshortcut, Bool.false_or, Option.none_or, Option.bind_none, and_self]
  · have hnone : ∀ key, assignment env handle key arg = none := fun _ =>
      assignment_of_flag hany (Or.inr (Or.inr rfl))
    have hdebug : (("sshd_shortcut" : Text) == "debug") = false := by decide
    simp only [hnone, hdebug, beq_self_eq_true, Bool.true_or, Bool.false_or, Option.none_or,
      Option.bind_none, and_self]
  · have hdebug : (any == "debug") = false := beq_eq_false_iff_ne.mpr fun h => hflag (Or.inl h)
    have hshortcut : (any == "sshd_shortcut") = false :=
      beq_eq_false_iff_ne.mpr fun h => hflag (Or.inr (Or.inr h))
    obtain ⟨perUser, hnote⟩ : ∃ b, st.noteFile any = { st with fileIsPerUser := b } := by
      unfold ParseState.noteFile
      split
      · exact ⟨_, rfl⟩
      · exact ⟨st.fileIsPerUser, rfl⟩
    simp only [assignment_of_expansion _ hany hflag hexpands hsplit, hdebug, hshortcut,
      Bool.false_or]
    rw [hnote] at hassign
    rcases assign_cases hassign with ⟨rfl, rfl⟩ | ⟨rfl, rfl⟩ | ⟨rfl, rfl⟩ | ⟨rfl, rfl⟩ |
      ⟨rfl, rfl⟩ | ⟨rfl, seconds, hseconds, -, -, rfl⟩
    all_goals simp [*]

/-- The fields that are no trust sources, after the loop. -/
lemma foldlM_otherFields {args : List CStr}
    (h : args.foldlM (parseArg strict env handle) st = .ok st') :
    st'.debug = (hasFlag "debug" args || st.debug) ∧
      st'.sshdShortcut = (hasFlag "sshd_shortcut" args || st.sshdShortcut) ∧
      st'.defaultSshAuthSock =
        (lastValue (assignment env handle "default_ssh_auth_sock") args).or
          st.defaultSshAuthSock ∧
      st'.authorizedKeysCommandUser =
        (lastValue (assignment env handle "authorized_keys_command_user") args).or
          st.authorizedKeysCommandUser ∧
      st'.agentTimeout =
        (lastValue (fun arg => (assignment env handle "agent_timeout" arg).bind Text.parseU64)
          args).or st.agentTimeout := by
  induction args using List.reverseRecOn generalizing st' with
  | nil =>
    obtain rfl : st = st' := Except.ok.inj h
    exact ⟨rfl, rfl, rfl, rfl, rfl⟩
  | append_singleton args arg ih =>
    rw [List.foldlM_append, Except.bind_eq_ok_iff] at h
    obtain ⟨st₁, h₁, hlast⟩ := h
    obtain ⟨st₂, h₂, hnil⟩ := Except.foldlM_cons_eq_ok_iff.mp hlast
    obtain rfl : st₂ = st' := Except.ok.inj hnil
    obtain ⟨hdebug, hshortcut, hsock, huser, htimeout⟩ := ih h₁
    obtain ⟨hdebug', hshortcut', hsock', huser', htimeout'⟩ := parseArg_otherFields h₂
    have hflags : ∀ name : Text,
        hasFlag name (args ++ [arg]) = (arg == Text.bytes name || hasFlag name args) := by
      intro name
      simp [hasFlag, Bool.or_comm]
    simp only [lastValue_concat]
    refine ⟨?_, ?_, ?_, ?_, ?_⟩
    · rw [hdebug', hdebug, hflags, Bool.or_assoc]
    · rw [hshortcut', hshortcut, hflags, Bool.or_assoc]
    · rw [hsock', hsock, Option.or_assoc]
    · rw [huser', huser, Option.or_assoc]
    · rw [htimeout', htimeout, Option.or_assoc]

/-! ## The reference -/

/-- The raw value of `file=`, for a plain key or any other. -/
lemma literalFile_eq_rawValue (arg : CStr) : literalFile arg = rawValue "file" arg := by
  cases hany : Text.fromUtf8 arg with
  | none => simp [literalFile, rawValue, hany]
  | some any =>
    rw [literalFile, rawValue, hany, Option.bind_some, Option.bind_some]
    have hfile : '=' ∉ ("file" : Text) := by decide
    refine Option.ext fun value => ?_
    rw [Text.stripPrefix_eq_some]
    constructor
    · intro hprefix
      have htext : any = ("file" : Text) ++ '=' :: value := hprefix
      rw [htext, Text.splitOnce_append value hfile, Option.bind_some, if_pos rfl]
    · intro hvalue
      obtain ⟨⟨key, raw⟩, hsplit, hraw⟩ := Option.bind_eq_some_iff.mp hvalue
      split_ifs at hraw with hkey
      obtain rfl : raw = value := Option.some.inj hraw
      have hkey' : key = "file" := hkey
      rw [(Text.splitOnce_eq_some hsplit).1, hkey']
      rfl

variable {args : List CStr}

/-- The values of valid arguments expand. -/
lemma ValidArgument.expands (hvalid : ValidArgument strict env handle arg)
    (hraw : rawValue key arg = some raw) :
    ∃ value, expandVars raw env handle = .ok value ∧
      (key = "agent_timeout" → value.parseU64.isSome) := by
  obtain ⟨any, hany, hparts⟩ := Option.bind_eq_some_iff.mp hraw
  obtain ⟨⟨k, r⟩, hsplit, hkey⟩ := Option.bind_eq_some_iff.mp hparts
  split_ifs at hkey with hk
  obtain rfl : r = raw := Option.some.inj hkey
  have hk' : k = key := hk
  subst hk'
  cases hvalid with
  | flag any' hany' hflag =>
    obtain rfl : any = any' := Option.some.inj (hany.symm.trans hany')
    rw [splitOnce_of_isFlag hflag] at hsplit
    exact absurd hsplit (by simp)
  | parameter any' key' raw' value hany' hsplit' hkey' hexpands htimeout htrust =>
    obtain rfl : any = any' := Option.some.inj (hany.symm.trans hany')
    obtain ⟨rfl, rfl⟩ : k = key' ∧ r = raw' := by
      have hparts := Option.some.inj (hsplit.symm.trans hsplit')
      exact ⟨congrArg Prod.fst hparts, congrArg Prod.snd hparts⟩
    refine ⟨value, hexpands, fun htime => ?_⟩
    obtain ⟨seconds, hseconds, -⟩ := htimeout htime
    exact Option.isSome_iff_exists.mpr ⟨seconds, hseconds⟩

/-- The last assignment to a key is the expansion of the last raw value. -/
lemma lastValue_assignment (hplain : ∀ arg ∈ args, PlainKey arg)
    (hvalid : ∀ arg ∈ args, ValidArgument strict env handle arg) (key : Text) :
    lastValue (assignment env handle key) args = lastExpanded args env handle key := by
  have hassign : args.filterMap (assignment env handle key) =
      args.filterMap fun arg => (rawValue key arg).bind fun raw =>
        (expandVars raw env handle).toOption :=
    List.filterMap_congr fun arg harg => assignment_of_plainKey (hplain arg harg) key
  rw [lastValue, hassign]
  refine lastValue_bind fun arg harg raw hraw => ?_
  obtain ⟨value, hvalue, -⟩ := (hvalid arg harg).expands hraw
  rw [hvalue]
  rfl

/-- The last timeout is the number in the last expanded value. -/
lemma lastValue_timeout (hplain : ∀ arg ∈ args, PlainKey arg)
    (hvalid : ∀ arg ∈ args, ValidArgument strict env handle arg) :
    lastValue (fun arg => (assignment env handle "agent_timeout" arg).bind Text.parseU64) args =
      (lastExpanded args env handle "agent_timeout").bind Text.parseU64 := by
  rw [← lastValue_assignment hplain hvalid]
  refine lastValue_bind fun arg harg value hassigned => ?_
  rw [assignment_of_plainKey (hplain arg harg)] at hassigned
  obtain ⟨raw, hraw, hexpanded⟩ := Option.bind_eq_some_iff.mp hassigned
  obtain ⟨value', hvalue', hseconds⟩ := (hvalid arg harg).expands hraw
  rw [hvalue'] at hexpanded
  obtain rfl : value' = value := Option.some.inj hexpanded
  exact hseconds rfl

/-- The loop goes through when every argument is valid. -/
lemma foldlM_isOk_iff (hplain : ∀ arg ∈ args, PlainKey arg) :
    (∃ st', args.foldlM (parseArg strict env handle) st = .ok st') ↔
      ∀ arg ∈ args, ValidArgument strict env handle arg := by
  constructor
  · rintro ⟨st', hfold⟩ arg harg
    obtain ⟨st₁, st₂, hround⟩ := Except.foldlM_eq_ok_mem hfold arg harg
    exact (parseArg_isOk_iff (hplain arg harg)).mp ⟨st₂, hround⟩
  · intro hvalid
    refine Except.foldlM_isOk (fun arg harg st => ?_) st
    exact (parseArg_isOk_iff (hplain arg harg)).mpr (hvalid arg harg)

/-- The fields of the result, when there is one. -/
lemma fields_of_finish {a : Args} (h : st.finish strict = .ok a) :
    a = { debug := st.debug, file := st.file, defaultSshAuthSock := st.defaultSshAuthSock,
          caKeysFile := st.caKeysFile, authorizedKeysCommand := st.authorizedKeysCommand,
          authorizedKeysCommandUser := st.authorizedKeysCommandUser, strict := strict,
          sshdShortcut := st.sshdShortcut, agentTimeout := st.agentTimeout } := by
  unfold ParseState.finish at h
  split_ifs at h with h₁ h₂
  exact (Except.ok.inj h).symm

/-- What the loop has to have found for the end to accept. -/
lemma finish_isOk_iff : (∃ a, st.finish strict = .ok a) ↔
    (strict = true → st.fileIsPerUser = true) ∧ (strict = true →
      ∀ command, st.authorizedKeysCommand = some command → command.isAbsolutePath = true) := by
  unfold ParseState.finish
  constructor
  · rintro ⟨a, h⟩
    split_ifs at h with h₁ h₂
    refine ⟨fun hs => ?_, fun hs command hcommand => ?_⟩
    · by_contra hper
      exact h₁ ⟨hs, by simpa using hper⟩
    · by_contra hrelative
      exact h₂ ⟨hs, by rw [hcommand]; simpa using hrelative⟩
  · rintro ⟨hper, habsolute⟩
    rw [if_neg, if_neg]
    · exact ⟨_, rfl⟩
    · rintro ⟨hs, hany⟩
      obtain ⟨command, hcommand, hrelative⟩ := (Option.any_eq_true _ _).mp hany
      rw [habsolute hs command hcommand] at hrelative
      exact absurd hrelative (by decide)
    · rintro ⟨hs, hnot⟩
      rw [hper hs] at hnot
      exact absurd hnot (by decide)

/-- What the loop leaves behind, by the raw values. -/
structure LoopReference (args : List CStr) (env : Environment) (handle : PamHandleExt)
    (st : ParseState) : Prop where
  perUser : st.fileIsPerUser =
    ((lastValue (rawValue "file") args).map fun value => value.contains "%u").getD false
  command : st.authorizedKeysCommand = lastExpanded args env handle "authorized_keys_command"
  fields : ∀ a, st.finish (hasStrict args) = .ok a → a = referenceArgs args env handle

lemma loopReference (hplain : ∀ arg ∈ args, PlainKey arg)
    (hfold : args.foldlM (parseArg (hasStrict args) env handle)
      (ParseState.init (hasStrict args)) = .ok st) :
    LoopReference args env handle st := by
  have hvalid := (foldlM_isOk_iff hplain).mp ⟨st, hfold⟩
  have hlast := lastValue_assignment hplain hvalid
  have htimeout := lastValue_timeout hplain hvalid
  obtain ⟨hfile, hca, hcommand, hper⟩ := foldlM_fields hfold
  obtain ⟨hdebug, hshortcut, hsock, huser, hseconds⟩ := foldlM_otherFields hfold
  rw [hlast] at hfile hca hcommand hsock huser
  rw [htimeout] at hseconds
  rw [funext literalFile_eq_rawValue] at hper
  refine ⟨hper, by rw [hcommand]; exact Option.or_none, fun a hfinish => ?_⟩
  rw [fields_of_finish hfinish, hdebug, hfile, hsock, hca, hcommand, huser, hshortcut, hseconds]
  have hstrict : hasFlag "strict" args = hasStrict args := rfl
  simp only [referenceArgs, ParseState.init, hstrict, Option.or_none, Bool.or_false,
    Bool.or_comm (hasFlag "sshd_shortcut" args)]

/-- `Args::parse` is its reference: it accepts when every argument is valid by itself and
the strict requirements on the last `file=` and the last helper hold, and then each field
comes from the last argument with its key. -/
theorem parse_reference (args : List CStr) (env : Environment) (handle : PamHandleExt)
    (a : Args) (hplain : ∀ arg ∈ args, PlainKey arg) :
    Args.parse args env handle = .ok a ↔
      ReferenceAccepts args env handle ∧ a = referenceArgs args env handle := by
  constructor
  · intro h
    obtain ⟨st, hfold, hfinish⟩ := Except.bind_eq_ok_iff.mp h
    have hloop := loopReference hplain hfold
    obtain ⟨hper, habsolute⟩ := finish_isOk_iff.mp ⟨a, hfinish⟩
    refine ⟨⟨(foldlM_isOk_iff hplain).mp ⟨st, hfold⟩, fun hs => ?_, fun hs command hcommand => ?_⟩,
      hloop.fields a hfinish⟩
    · have hu := hper hs
      rw [hloop.perUser] at hu
      cases hraw : lastValue (rawValue "file") args with
      | none =>
        rw [hraw] at hu
        exact absurd hu (by decide)
      | some raw =>
        rw [hraw] at hu
        exact ⟨raw, rfl, hu⟩
    · exact habsolute hs command (hloop.command.trans hcommand)
  · rintro ⟨haccepts, rfl⟩
    obtain ⟨st, hfold⟩ : ∃ st, args.foldlM (parseArg (hasStrict args) env handle)
        (ParseState.init (hasStrict args)) = .ok st :=
      (foldlM_isOk_iff hplain).mpr haccepts.valid
    have hloop := loopReference hplain hfold
    obtain ⟨a, hfinish⟩ : ∃ a, st.finish (hasStrict args) = .ok a := by
      refine finish_isOk_iff.mpr ⟨fun hs => ?_, fun hs command hcommand => ?_⟩
      · obtain ⟨raw, hraw, hu⟩ := haccepts.perUser hs
        rw [hloop.perUser, hraw]
        exact hu
      · exact haccepts.absolute hs command (hloop.command.symm.trans hcommand)
    rw [← hloop.fields a hfinish]
    exact Except.bind_eq_ok_iff.mpr ⟨st, hfold, hfinish⟩

/-- A configuration in which later arguments override earlier ones, and whose last value
has a `=` of its own. -/
def overriddenArgs : List CStr :=
  cstrs ["file=/etc/keys/a", "agent_timeout=5", "strict", "file=/etc/keys/%u=%U",
    "agent_timeout=%U", "sshd_shortcut", "agent_timeout=60"]

theorem parse_reference_overridden :
    (Args.parse (overriddenArgs.filter (· ≠ Text.bytes "agent_timeout=%U")) (homeEnv "/home")
        (pamUser "bob") =
      .ok { file := "/etc/keys/bob=1000", strict := true, agentTimeout := some 60 }) ∧
    ReferenceAccepts (overriddenArgs.filter (· ≠ Text.bytes "agent_timeout=%U")) (homeEnv "/home")
      (pamUser "bob") ∧
    ¬ ReferenceAccepts overriddenArgs (homeEnv "/home") (pamUser "bob") := by
  have hparse : Args.parse (overriddenArgs.filter (· ≠ Text.bytes "agent_timeout=%U"))
      (homeEnv "/home") (pamUser "bob") =
        .ok { file := "/etc/keys/bob=1000", strict := true, agentTimeout := some 60 } := by
    decide +kernel
  have hfails : ∀ a, Args.parse overriddenArgs (homeEnv "/home") (pamUser "bob") ≠ .ok a := by
    intro a h
    have herror : (Args.parse overriddenArgs (homeEnv "/home") (pamUser "bob")).isOk = false := by
      decide +kernel
    rw [h] at herror
    exact absurd herror (by simp [Except.isOk, Except.toBool])
  refine ⟨hparse, ((parse_reference _ _ _ _ (by decide +kernel)).mp hparse).1, fun haccepts => ?_⟩
  exact hfails _ ((parse_reference _ _ _ _ (by decide +kernel)).mpr ⟨haccepts, rfl⟩)

end PamSshAgent
