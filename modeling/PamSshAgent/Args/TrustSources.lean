import PamSshAgent.Args.Fields

/-!
# What the trust sources depend on in strict mode

In strict mode the raw text of an argument with the key `file`, `ca_keys_file` or
`authorized_keys_command` is rejected when its value would be expanded by a home
directory, or, for the helper, by anything.  The value that is stored comes from a second
split, made after the expansion of the whole text with its key.  When the two splits see
the same key, the trust sources are independent of what strict mode forbids; an argument
whose key is itself the result of an expansion escapes the check.
-/

namespace PamSshAgent

open LastValue Occurrence

/-- Two runs of `Args::parse` in strict mode: the trust files do not depend on the home
directories, and the helper depends neither on the user nor on the environment. -/
def StrictSourcesIndependent : Prop :=
  (∀ (args : List CStr) (handle : PamHandleExt) (env env' : Environment),
    hasStrict args = true → AgreeExceptHomedir env env' →
    ∀ a a', Args.parse args env handle = .ok a → Args.parse args env' handle = .ok a' →
      a.file = a'.file ∧ a.caKeysFile = a'.caKeysFile) ∧
  ∀ (args : List CStr) (handle handle' : PamHandleExt) (env env' : Environment),
    hasStrict args = true →
    ∀ a a', Args.parse args env handle = .ok a → Args.parse args env' handle' = .ok a' →
      a.authorizedKeysCommand = a'.authorizedKeysCommand

/-- The argument that decides the variable of `key` has that key as it is written, or it
is a plain text. -/
def PlainlyDecided (Plain : Text → Prop) (args : List CStr) (env : Environment)
    (handle : PamHandleExt) (key : Text) : Prop :=
  ∀ arg any, lastHolder (assignment env handle key) args = some arg →
    Text.fromUtf8 arg = some any → (key ++ ['=']) <+: any ∨ Plain any

lemma plainlyDecided_of_holder (any : Text) {Plain : Text → Prop} {args : List CStr}
    {env : Environment} {handle : PamHandleExt} {key : Text}
    (hholder : lastHolder (assignment env handle key) args = some any.bytes)
    (hliteral : (key ++ ['=']) <+: any) : PlainlyDecided Plain args env handle key := by
  intro arg any' harg hany'
  obtain rfl : any.bytes = arg := Option.some.inj (hholder.symm.trans harg)
  obtain rfl : any = any' := Option.some.inj ((Text.fromUtf8_bytes any).symm.trans hany')
  exact Or.inl hliteral

/-! ## The check of the raw text -/

/-- The keys of the trust sources. -/
def trustKeys : List Text := ["file", "ca_keys_file", "authorized_keys_command"]

lemma not_infix_of_literal {key value pattern : Text} (c : Char) (hpattern : pattern = ['%', c])
    (hkey : key ∈ trustKeys) (h : ¬ value.contains pattern = true) :
    ¬ pattern <:+: key ++ '=' :: value := by
  subst hpattern
  have hpercent : '%' ∉ key ++ ['='] := by
    simp only [trustKeys, List.mem_cons, List.not_mem_nil, or_false] at hkey
    rcases hkey with rfl | rfl | rfl <;> decide
  rw [List.append_cons, pair_infix_append_iff hpercent]
  exact fun hinf => h (Text.contains_iff.mpr hinf)

/-- What the check guarantees about an argument with a literal trust key. -/
lemma validate_literal (key : Text) {value : Text} (hkey : key ∈ trustKeys)
    (h : validateTrustSourceArgument (key ++ '=' :: value) = .ok ()) :
    HomeFree (key ++ '=' :: value) ∧
      (key = "authorized_keys_command" → Static (key ++ '=' :: value)) := by
  have hmem := hkey
  simp only [trustKeys, List.mem_cons, List.not_mem_nil, or_false] at hmem
  have hsep : '=' ∉ key := by rcases hmem with rfl | rfl | rfl <;> decide
  have htilde : '~' ∉ key ++ ['='] := by rcases hmem with rfl | rfl | rfl <;> decide
  simp only [validateTrustSourceArgument, Text.splitOnce_append value hsep] at h
  rw [if_neg (by rintro ⟨h₁, h₂, h₃⟩; rcases hmem with h | h | h <;> contradiction)] at h
  split_ifs at h with hhome hcmd
  push Not at hhome
  have hfree : HomeFree (key ++ '=' :: value) := by
    refine ⟨?_, not_infix_of_literal 'h' rfl hkey hhome.2⟩
    rw [List.append_cons, List.mem_append, not_or]
    refine ⟨htilde, fun hv => ?_⟩
    have hc : value.contains ['~'] = true := Text.contains_singleton_iff.mpr hv
    exact hhome.1 hc
  refine ⟨hfree, fun hk => ⟨hfree, fun pattern hpattern => ?_⟩⟩
  have hany : ¬ value.contains pattern = true :=
    fun hp => hcmd ⟨hk, List.any_eq_true.mpr ⟨pattern, hpattern, hp⟩⟩
  simp only [List.mem_cons, List.not_mem_nil, or_false] at hpattern
  rcases hpattern with rfl | rfl | rfl | rfl
  · exact not_infix_of_literal 'u' rfl hkey hany
  · exact not_infix_of_literal 'U' rfl hkey hany
  · exact not_infix_of_literal 'H' rfl hkey hany
  · exact not_infix_of_literal 'f' rfl hkey hany

/-- In a successful strict parse the argument that decides a trust source, when plainly
decided, is free of home directories, and static if the source is the helper. -/
lemma decider_plain {args : List CStr} {env : Environment} {handle : PamHandleExt} {a : Args}
    {key : Text} {Plain : Text → Prop}
    (hliteral : ∀ value, validateTrustSourceArgument (key ++ '=' :: value) = .ok () →
      Plain (key ++ '=' :: value))
    (hs : hasStrict args = true) (hp : ParsedFrom args env handle a)
    (hdec : PlainlyDecided Plain args env handle key) {arg : CStr}
    (harg : lastHolder (assignment env handle key) args = some arg) :
    ∃ any, Text.fromUtf8 arg = some any ∧ ¬ IsFlag any ∧ Plain any := by
  obtain ⟨hmem, hsome⟩ := lastHolder_mem harg
  obtain ⟨value, hvalue⟩ := Option.isSome_iff_exists.mp hsome
  obtain ⟨any, expanded, hany, hflag, -, -⟩ := assignment_eq_some hvalue
  refine ⟨any, hany, hflag, ?_⟩
  rcases hdec arg any harg hany with ⟨rest, rfl⟩ | hplain
  · have hvalid := hp.validated hs hmem hany hflag
    rw [List.append_assoc] at hvalid ⊢
    exact hliteral rest hvalid
  · exact hplain

/-! ## Two runs -/

/-- Two runs that read every plain text alike give a plainly decided source one value. -/
lemma lastValue_eq_of_plain (Plain : Text → Prop) {args : List CStr} {env env' : Environment}
    {handle handle' : PamHandleExt} {key : Text}
    (hread : ∀ any, Plain any → expandVars any env handle = expandVars any env' handle')
    (h : ∀ arg, lastHolder (assignment env handle key) args = some arg →
      ∃ any, Text.fromUtf8 arg = some any ∧ ¬ IsFlag any ∧ Plain any)
    (h' : ∀ arg, lastHolder (assignment env' handle' key) args = some arg →
      ∃ any, Text.fromUtf8 arg = some any ∧ ¬ IsFlag any ∧ Plain any) :
    lastValue (assignment env handle key) args = lastValue (assignment env' handle' key) args := by
  apply lastValue_congr
  · intro arg harg
    obtain ⟨any, hany, -, hplain⟩ := h arg harg
    simp only [assignment, hany, hread any hplain]
  · intro arg harg
    obtain ⟨any, hany, -, hplain⟩ := h' arg harg
    simp only [assignment, hany, hread any hplain]

/-- **In strict mode the trust sources are independent of what strict mode forbids, as
long as the arguments that decide them have their key as it is written or are themselves
free of the forbidden expansions.** -/
theorem strict_sources_of_plainlyDecided (args : List CStr) (handle handle' : PamHandleExt)
    (env env' : Environment) (hs : hasStrict args = true) :
    (AgreeExceptHomedir env env' →
      (∀ key ∈ (["file", "ca_keys_file"] : List Text),
        PlainlyDecided HomeFree args env handle key ∧
          PlainlyDecided HomeFree args env' handle key) →
      ∀ a a', Args.parse args env handle = .ok a → Args.parse args env' handle = .ok a' →
        a.file = a'.file ∧ a.caKeysFile = a'.caKeysFile) ∧
    (PlainlyDecided Static args env handle "authorized_keys_command" →
      PlainlyDecided Static args env' handle' "authorized_keys_command" →
      ∀ a a', Args.parse args env handle = .ok a → Args.parse args env' handle' = .ok a' →
        a.authorizedKeysCommand = a'.authorizedKeysCommand) := by
  constructor
  · intro hagree hdec a a' ha ha'
    have hp := parse_parsedFrom ha
    have hp' := parse_parsedFrom ha'
    -- both parses take the last value from the same argument, and expand it alike
    have hsame : ∀ key ∈ (["file", "ca_keys_file"] : List Text),
        lastValue (assignment env handle key) args =
          lastValue (assignment env' handle key) args := by
      intro key hkey
      have htrust : key ∈ trustKeys :=
        List.mem_append_left [("authorized_keys_command" : Text)] hkey
      obtain ⟨hd, hd'⟩ := hdec key hkey
      have hlit := fun value hv => (@validate_literal key value htrust hv).1
      exact lastValue_eq_of_plain HomeFree
        (fun any hfree => expandVars_homeFree hfree hagree handle)
        (fun arg harg => decider_plain hlit hs hp hd harg)
        (fun arg harg => decider_plain hlit hs hp' hd' harg)
    constructor
    · rw [hp.file, hp'.file, hsame "file" (by simp)]
    · rw [hp.caKeysFile, hp'.caKeysFile, hsame "ca_keys_file" (by simp)]
  · intro hd hd' a a' ha ha'
    have hp := parse_parsedFrom ha
    have hp' := parse_parsedFrom ha'
    have htrust : ("authorized_keys_command" : Text) ∈ trustKeys := by simp [trustKeys]
    have hlit := fun value hv => (@validate_literal _ value htrust hv).2 rfl
    rw [hp.authorizedKeysCommand, hp'.authorizedKeysCommand]
    exact lastValue_eq_of_plain Static
      (fun any hstatic => by rw [expandVars_static hstatic, expandVars_static hstatic])
      (fun arg harg => decider_plain hlit hs hp hd harg)
      (fun arg harg => decider_plain hlit hs hp' hd' harg)

/-! ## Concrete arguments -/

/-- A machine on which every account has the home directory `home`. -/
def homeEnv (home : Text) : Environment where
  getHomedir _ := .ok home
  getHostname := .ok "host"
  getFqdn := .ok "host"
  getUid _ := .ok 1000
  getEnv _ := none

/-- The PAM transaction of a user. -/
def pamUser (user : Text) : PamHandleExt := (PamContext.mk user "sudo").handle

/-- A plain strict configuration. -/
def plainArgs : List CStr :=
  cstrs ["strict", "file=/etc/keys/%u", "ca_keys_file=/etc/ca", "authorized_keys_command=/bin/k"]

lemma homeEnv_agree (home home' : Text) : AgreeExceptHomedir (homeEnv home) (homeEnv home') :=
  ⟨rfl, rfl, rfl, rfl⟩

/-- The trust files of the plain configuration are decided by arguments with literal keys. -/
lemma plainArgs_files : ∀ key ∈ (["file", "ca_keys_file"] : List Text),
    PlainlyDecided HomeFree plainArgs (homeEnv "/home/a") (pamUser "bob") key ∧
      PlainlyDecided HomeFree plainArgs (homeEnv "/home/b") (pamUser "bob") key := by
  intro key hkey
  simp only [List.mem_cons, List.not_mem_nil, or_false] at hkey
  rcases hkey with rfl | rfl
  · constructor <;> exact plainlyDecided_of_holder "file=/etc/keys/%u"
      (by decide +kernel) (by decide +kernel)
  · constructor <;> exact plainlyDecided_of_holder "ca_keys_file=/etc/ca"
      (by decide +kernel) (by decide +kernel)

lemma plainArgs_helper (home user : Text) (h : lastHolder (assignment (homeEnv home)
    (pamUser user) "authorized_keys_command") plainArgs =
      some (Text.bytes "authorized_keys_command=/bin/k")) :
    PlainlyDecided Static plainArgs (homeEnv home) (pamUser user) "authorized_keys_command" :=
  plainlyDecided_of_holder _ h (by decide +kernel)

/-- The two runs of the plain configuration, with different home directories and, for the
helper, with different users. -/
theorem strict_sources_plainArgs :
    (∀ a a', Args.parse plainArgs (homeEnv "/home/a") (pamUser "bob") = .ok a →
      Args.parse plainArgs (homeEnv "/home/b") (pamUser "bob") = .ok a' →
      a.file = a'.file ∧ a.caKeysFile = a'.caKeysFile) ∧
    ∀ a a', Args.parse plainArgs (homeEnv "/home/a") (pamUser "bob") = .ok a →
      Args.parse plainArgs (homeEnv "/home/b") (pamUser "eve") = .ok a' →
      a.authorizedKeysCommand = a'.authorizedKeysCommand :=
  ⟨(strict_sources_of_plainlyDecided plainArgs (pamUser "bob") (pamUser "bob") _ _
      (by decide +kernel)).1 (homeEnv_agree _ _) plainArgs_files,
    (strict_sources_of_plainlyDecided plainArgs (pamUser "bob") (pamUser "eve") _ _
      (by decide +kernel)).2 (plainArgs_helper "/home/a" "bob" (by decide +kernel))
      (plainArgs_helper "/home/b" "eve" (by decide +kernel))⟩

/-- A strict configuration whose last argument gets its key from the user name. -/
def expandedKeyArgs : List CStr := cstrs ["strict", "file=/etc/keys/%u", "%u=~/keys"]

/-- For a user named `file` the last argument makes the trusted file a home directory file. -/
theorem not_strictSourcesIndependent : ¬ StrictSourcesIndependent := by
  intro h
  have ha : Args.parse expandedKeyArgs (homeEnv "/home/a") (pamUser "file") = .ok
      { file := "/home/a/keys", strict := true, sshdShortcut := false, agentTimeout := some 30 } := by
    decide +kernel
  have hb : Args.parse expandedKeyArgs (homeEnv "/home/b") (pamUser "file") = .ok
      { file := "/home/b/keys", strict := true, sshdShortcut := false, agentTimeout := some 30 } := by
    decide +kernel
  have hsame := (h.1 expandedKeyArgs _ _ _ (by decide +kernel) (homeEnv_agree _ _) _ _ ha hb).1
  exact absurd hsame (by decide)

end PamSshAgent
