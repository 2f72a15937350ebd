import PamSshAgent.Args.Parse
import PamSshAgent.Library.LastValue

/-!
# Which argument decides a field

The loop of `Args::parse` overwrites: the value of a field is the expanded value of the
last argument whose expansion has the key of the field.  The flag `file_is_per_user` is
kept apart from that, from the raw text of the last argument that starts with `file=`.
-/

namespace PamSshAgent

open LastValue

/-- The value that an argument assigns to the variable of `key`, if it assigns to it. -/
def assignment (env : Environment) (handle : PamHandleExt) (key : Text) (arg : CStr) :
    Option Text :=
  match Text.fromUtf8 arg with
  | none => none
  | some any =>
    if IsFlag any then none
    else
      match expandVars any env handle with
      | .error _ => none
      | .ok expanded =>
        match expanded.splitOnce '=' with
        | none => none
        | some (k, value) => if k = key then some value else none

/-- The value of an argument that starts with `file=` as it is written. -/
def literalFile (arg : CStr) : Option Text :=
  (Text.fromUtf8 arg).bind fun any => any.stripPrefix "file="

variable {strict : Bool} {env : Environment} {handle : PamHandleExt} {st st' : ParseState}
  {arg : CStr} {any key value : Text}

lemma assignment_of_flag (hany : Text.fromUtf8 arg = some any) (hflag : IsFlag any) :
    assignment env handle key arg = none := by
  simp [assignment, hany, hflag]

lemma assignment_of_expansion (key : Text) {expanded k : Text}
    (hany : Text.fromUtf8 arg = some any)
    (hflag : ¬ IsFlag any) (hexp : expandVars any env handle = .ok expanded)
    (hsplit : expanded.splitOnce '=' = some (k, value)) :
    assignment env handle key arg = if k = key then some value else none := by
  simp [assignment, hany, hflag, hexp, hsplit]

/-- What it means that an argument assigns a value. -/
lemma assignment_eq_some (h : assignment env handle key arg = some value) :
    ∃ any expanded, Text.fromUtf8 arg = some any ∧ ¬ IsFlag any ∧
      expandVars any env handle = .ok expanded ∧ expanded.splitOnce '=' = some (key, value) := by
  unfold assignment at h
  cases hany : Text.fromUtf8 arg with
  | none => simp [hany] at h
  | some any =>
    simp only [hany] at h
    split_ifs at h with hflag
    cases hexp : expandVars any env handle with
    | error e => simp [hexp] at h
    | ok expanded =>
      cases hsplit : expanded.splitOnce '=' with
      | none => simp [hexp, hsplit] at h
      | some kv =>
        obtain ⟨k, v⟩ := kv
        simp only [hexp, hsplit] at h
        split_ifs at h with hk
        obtain rfl : v = value := by simpa using h
        exact ⟨any, expanded, rfl, hflag, hexp, by rw [hsplit, hk]⟩

/-- An argument that starts with `file=` is not a flag. -/
lemma not_isFlag_of_literalFile (h : literalFile arg = some value)
    (hany : Text.fromUtf8 arg = some any) : ¬ IsFlag any := by
  simp only [literalFile, hany, Option.bind_some] at h
  obtain rfl := Text.stripPrefix_eq_some.mp h
  rintro (hf | hf | hf)
  all_goals exact absurd (congrArg List.head? hf) (by simp)

/-! ## One round -/

/-- The three trust sources after one round. -/
lemma parseArg_fields (h : parseArg strict env handle st arg = .ok st') :
    st'.file = (assignment env handle "file" arg).getD st.file ∧
      st'.caKeysFile = (assignment env handle "ca_keys_file" arg).or st.caKeysFile ∧
      st'.authorizedKeysCommand =
        (assignment env handle "authorized_keys_command" arg).or st.authorizedKeysCommand := by
  obtain ⟨any, hany, ⟨hd, rfl⟩ | ⟨hd, rfl⟩ | ⟨hd, rfl⟩ | ⟨hflag, -, h⟩⟩ := parseArg_cases h
  · simp [assignment_of_flag hany (Or.inl hd)]
  · simp [assignment_of_flag hany (Or.inr (Or.inl hd))]
  · simp [assignment_of_flag hany (Or.inr (Or.inr hd))]
  · obtain ⟨expanded, key, value, hexp, hsplit, hassign⟩ := h
    simp only [assignment_of_expansion _ hany hflag hexp hsplit]
    rcases assign_cases hassign with ⟨rfl, rfl⟩ | ⟨rfl, rfl⟩ | ⟨rfl, rfl⟩ | ⟨rfl, rfl⟩ |
      ⟨rfl, rfl⟩ | ⟨rfl, _, _, _, _, rfl⟩ <;> simp

/-- The flag `file_is_per_user` after one round. -/
lemma parseArg_fileIsPerUser (h : parseArg strict env handle st arg = .ok st') :
    st'.fileIsPerUser =
      ((literalFile arg).map fun value => value.contains "%u").getD st.fileIsPerUser := by
  obtain ⟨any, hany, hrest⟩ := parseArg_cases h
  have hnone : IsFlag any → literalFile arg = none := by
    intro hflag
    by_contra hne
    obtain ⟨value, hvalue⟩ := Option.ne_none_iff_exists'.mp hne
    exact not_isFlag_of_literalFile hvalue hany hflag
  rcases hrest with ⟨hd, rfl⟩ | ⟨hd, rfl⟩ | ⟨hd, rfl⟩ | ⟨hflag, -, h⟩
  · simp [hnone (Or.inl hd)]
  · simp [hnone (Or.inr (Or.inl hd))]
  · simp [hnone (Or.inr (Or.inr hd))]
  · obtain ⟨expanded, key, value, hexp, hsplit, hassign⟩ := h
    have hnote : st'.fileIsPerUser = (st.noteFile any).fileIsPerUser := by
      rcases assign_cases hassign with ⟨rfl, rfl⟩ | ⟨rfl, rfl⟩ | ⟨rfl, rfl⟩ | ⟨rfl, rfl⟩ |
        ⟨rfl, rfl⟩ | ⟨rfl, _, _, _, _, rfl⟩ <;> rfl
    rw [hnote]
    simp only [ParseState.noteFile, literalFile, hany, Option.bind_some]
    cases any.stripPrefix "file=" <;> rfl

/-- In strict mode every argument that is not a flag passed the check of its raw text. -/
lemma parseArg_validated (h : parseArg true env handle st arg = .ok st')
    (hany : Text.fromUtf8 arg = some any) (hflag : ¬ IsFlag any) :
    validateTrustSourceArgument any = .ok () := by
  obtain ⟨any', hany', hrest⟩ := parseArg_cases h
  obtain rfl : any = any' := by simpa [hany] using hany'
  rcases hrest with ⟨hd, -⟩ | ⟨hd, -⟩ | ⟨hd, -⟩ | ⟨-, hvalid, -⟩
  · exact absurd (Or.inl hd) hflag
  · exact absurd (Or.inr (Or.inl hd)) hflag
  · exact absurd (Or.inr (Or.inr hd)) hflag
  · exact hvalid rfl

/-! ## The whole loop -/

/-- The invariant of the loop: each trust source is the last value assigned to it by the
arguments read so far, or its initial value. -/
lemma foldlM_fields {args : List CStr}
    (h : args.foldlM (parseArg strict env handle) st = .ok st') :
    st'.file = (lastValue (assignment env handle "file") args).getD st.file ∧
      st'.caKeysFile =
        (lastValue (assignment env handle "ca_keys_file") args).or st.caKeysFile ∧
      st'.authorizedKeysCommand =
        (lastValue (assignment env handle "authorized_keys_command") args).or
          st.authorizedKeysCommand ∧
      st'.fileIsPerUser =
        ((lastValue literalFile args).map fun value => value.contains "%u").getD
          st.fileIsPerUser := by
  induction args using List.reverseRecOn generalizing st' with
  | nil =>
    obtain rfl : st = st' := Except.ok.inj h
    exact ⟨rfl, rfl, rfl, rfl⟩
  | append_singleton args arg ih =>
    rw [List.foldlM_append, Except.bind_eq_ok_iff] at h
    obtain ⟨st₁, h₁, hlast⟩ := h
    obtain ⟨st₂, h₂, hnil⟩ := Except.foldlM_cons_eq_ok_iff.mp hlast
    obtain rfl : st₂ = st' := Except.ok.inj hnil
    obtain ⟨hfile, hca, hcmd, hper⟩ := ih h₁
    obtain ⟨hfile', hca', hcmd'⟩ := parseArg_fields h₂
    have hper' := parseArg_fileIsPerUser h₂
    simp only [lastValue_concat]
    refine ⟨?_, ?_, ?_, ?_⟩
    · rw [hfile', hfile]
      cases assignment env handle "file" arg <;> simp
    · rw [hca', hca, Option.or_assoc]
    · rw [hcmd', hcmd, Option.or_assoc]
    · rw [hper', hper]
      cases literalFile arg <;> simp

/-- A successful parse, by the arguments that decide its trust sources. -/
structure ParsedFrom (args : List CStr) (env : Environment) (handle : PamHandleExt)
    (a : Args) : Prop where
  file : a.file = (lastValue (assignment env handle "file") args).getD defaultAuthorizedKeysPath
  caKeysFile : a.caKeysFile = lastValue (assignment env handle "ca_keys_file") args
  authorizedKeysCommand :
    a.authorizedKeysCommand = lastValue (assignment env handle "authorized_keys_command") args
  perUser : hasStrict args = true →
    ∃ value, lastValue literalFile args = some value ∧ value.contains "%u" = true
  rounds : ∀ arg ∈ args, ∃ st st', parseArg (hasStrict args) env handle st arg = .ok st'

lemma parse_parsedFrom {args : List CStr} {a : Args}
    (h : Args.parse args env handle = .ok a) : ParsedFrom args env handle a := by
  obtain ⟨st, hfold, hfinish⟩ := Except.bind_eq_ok_iff.mp h
  obtain ⟨hfile, hca, hcmd, hper⟩ := foldlM_fields hfold
  obtain ⟨hfile', hca', hcmd', hper'⟩ := finish_eq_ok hfinish
  refine ⟨?_, ?_, ?_, fun hs => ?_, Except.foldlM_eq_ok_mem hfold⟩
  · rw [hfile', hfile]
    rfl
  · rw [hca', hca]
    simp [ParseState.init]
  · rw [hcmd', hcmd]
    simp [ParseState.init]
  · have hu := hper' hs
    rw [hper] at hu
    cases hlast : lastValue literalFile args with
    | none => simp [hlast, ParseState.init] at hu
    | some value => exact ⟨value, rfl, by simpa [hlast] using hu⟩

/-- In a successful strict parse the raw text of every argument passed the check. -/
lemma ParsedFrom.validated {args : List CStr} {a : Args} (h : ParsedFrom args env handle a)
    (hs : hasStrict args = true) (hmem : arg ∈ args) (hany : Text.fromUtf8 arg = some any)
    (hflag : ¬ IsFlag any) : validateTrustSourceArgument any = .ok () := by
  obtain ⟨st, st', hround⟩ := h.rounds arg hmem
  rw [hs] at hround
  exact parseArg_validated hround hany hflag

/-! ## The shortcut of sshd -/

/-- Only the flag itself turns the shortcut on. -/
lemma parseArg_sshdShortcut (h : parseArg strict env handle st arg = .ok st')
    (hon : st'.sshdShortcut = true) : st.sshdShortcut = true ∨ arg = Text.bytes "sshd_shortcut" := by
  have hnote : ∀ any, (st.noteFile any).sshdShortcut = st.sshdShortcut := by
    intro any
    unfold ParseState.noteFile
    split <;> rfl
  obtain ⟨any, hany, ⟨-, rfl⟩ | ⟨-, rfl⟩ | ⟨rfl, -⟩ | ⟨-, -, _, key, value, -, -, hassign⟩⟩ :=
    parseArg_cases h
  · exact Or.inl hon
  · exact Or.inl hon
  · exact Or.inr (Text.bytes_of_fromUtf8 hany).symm
  · left
    rw [← hnote any]
    rcases assign_cases hassign with ⟨-, rfl⟩ | ⟨-, rfl⟩ | ⟨-, rfl⟩ | ⟨-, rfl⟩ | ⟨-, rfl⟩ |
      ⟨-, _, -, -, -, rfl⟩ <;> exact hon

lemma foldlM_sshdShortcut {args : List CStr}
    (h : args.foldlM (parseArg strict env handle) st = .ok st') (hon : st'.sshdShortcut = true) :
    st.sshdShortcut = true ∨ Text.bytes "sshd_shortcut" ∈ args := by
  induction args generalizing st with
  | nil =>
    obtain rfl : st = st' := Except.ok.inj h
    exact Or.inl hon
  | cons arg args ih =>
    obtain ⟨st₁, hround, hrest⟩ := Except.foldlM_cons_eq_ok_iff.mp h
    rcases ih hrest with hon₁ | hmem
    · rcases parseArg_sshdShortcut hround hon₁ with hon₀ | rfl
      · exact Or.inl hon₀
      · exact Or.inr List.mem_cons_self
    · exact Or.inr (List.mem_cons_of_mem _ hmem)

/-- The shortcut is on without `strict` or by its own flag. -/
lemma parse_sshdShortcut {args : List CStr} {a : Args} (h : Args.parse args env handle = .ok a)
    (hon : a.sshdShortcut = true) :
    Text.bytes "strict" ∉ args ∨ Text.bytes "sshd_shortcut" ∈ args := by
  obtain ⟨st, hfold, hfinish⟩ := Except.bind_eq_ok_iff.mp h
  have hsame : a.sshdShortcut = st.sshdShortcut := by
    unfold ParseState.finish at hfinish
    split_ifs at hfinish
    exact Except.ok.inj hfinish ▸ rfl
  refine (foldlM_sshdShortcut hfold (hsame ▸ hon)).imp_left fun hinit hmem => ?_
  have hstrict : hasStrict args = true := List.any_eq_true.mpr ⟨_, hmem, beq_self_eq_true _⟩
  rw [hstrict] at hinit
  exact absurd hinit (by decide)

end PamSshAgent
