import PamSshAgent.Args.TrustSources
import PamSshAgent.StrictUser

/-!
# One trusted-key file for each user

Strict mode requires that the text of the last `file=` argument contains `%u`, which makes
the path contain the user name.  The path can nevertheless be the same for two users: the
user id, expanded by `%U`, may stand next to the name and blur where the name ends, the
name may complete a pattern with a `%` in front of it, and an argument with an expanded key
may override the file.  This file has the condition that excludes these three.
-/

namespace PamSshAgent

open LastValue Occurrence

/-- Two users get different trusted-key files whenever both parses succeed. -/
def FilesApart (args : List CStr) (env : Environment) (u v : Text) : Prop :=
  ∀ a b, Args.parse args env (pamUser u) = .ok a → Args.parse args env (pamUser v) = .ok b →
    a.file ≠ b.file

/-- Strict per-user isolation: any two plain users get different trusted-key files. -/
def StrictFilesApart : Prop :=
  ∀ (args : List CStr) (env : Environment) (u v : Text), hasStrict args = true →
    (∀ name name' uid, env.getUid name = .ok uid → env.getUid name' = .ok uid → name = name') →
    isPlainName u = true → isPlainName v = true → u ≠ v → FilesApart args env u v

/-! ## The condition -/

/-- The text before and the text after the user name, after the pass for `%f`. -/
def hostSides (env : Environment) (A B : Text) : Except Error (Text × Text) :=
  if ("%f" : Text) <:+: A then (expandVar A "%f" env.getFqdn).map fun A' => (A', B)
  else (expandVar B "%f" env.getFqdn).map fun B' => (A, B')

/-- The user id, where it is expanded, is kept apart from the user name, which stands
between `A` and `B`, by a character that is no digit. -/
def UidApart (A B : Text) : Prop :=
  match splitAround "%U" A with
  | some (_, M) => ∃ c ∈ M, ¬ c.isDigit
  | none =>
    match splitAround "%U" B with
    | some (M, _) => ∃ c ∈ M, ¬ c.isDigit
    | none => True

/-- In the text `any`, with the host variables expanded, no `%` stands before the user
name, and the user id is kept apart from it. -/
def UserApart (env : Environment) (any : Text) : Prop :=
  ∀ t A B, expandVar any "%H" env.getHostname = .ok t → splitAround "%u" t = some (A, B) →
    A.getLast? ≠ some '%' ∧
      ∀ A' B', hostSides env A B = .ok (A', B') → A'.getLast? ≠ some '%' ∧ UidApart A' B'

/-- The argument that decides the trusted-key file is written as `file=`, and keeps the
user apart. -/
def FileDecidedApart (args : List CStr) (env : Environment) (handle : PamHandleExt) : Prop :=
  ∀ arg any, lastHolder (assignment env handle "file") args = some arg →
    Text.fromUtf8 arg = some any → ("file=" : Text) <+: any ∧ UserApart env any

/-! ## The passes around the user name -/

variable {env : Environment} {u v : Text}

/-- A pass leaves alone what stands before the first `%`. -/
lemma expandVar_append {P Y pattern out : Text} {c : Char} {getValue : Except Error Text}
    (hpattern : pattern = ['%', c]) (hP : '%' ∉ P)
    (h : expandVar (P ++ Y) pattern getValue = .ok out) : ∃ Y', out = P ++ Y' := by
  subst hpattern
  rcases expandVar_eq_ok h with ⟨-, rfl⟩ | ⟨-, value, -, rfl⟩
  · exact ⟨Y, rfl⟩
  · have hlast : P.getLast? ≠ some '%' := fun hl => hP (List.mem_of_getLast? hl)
    exact ⟨_, replaceFirst_pair_append value Y (not_pair_infix_of_notMem hP) (Or.inl hlast)⟩

/-- The passes of `expand_vars` on a text that the home directory does not touch. -/
lemma expandVars_eq_ok_of_homeFree {t out : Text} {handle : PamHandleExt} (hfree : HomeFree t)
    (h : expandVars t env handle = .ok out) :
    ∃ t₁ t₂ t₃, expandVar t "%H" env.getHostname = .ok t₁ ∧
      expandVar t₁ "%u" handle.getCallingUser = .ok t₂ ∧
      expandVar t₂ "%f" env.getFqdn = .ok t₃ ∧
      expandVar t₃ "%U" (handle.getCallingUser >>= fun user =>
        env.getUid user >>= fun uid => .ok (Text.ofUid uid)) = .ok out := by
  simp only [expandVars, expandHomedir_of_notMem hfree.1, Except.ok_bind,
    expandVar_of_not_occurs hfree.2] at h
  obtain ⟨t₁, h₁, h⟩ := Except.bind_eq_ok_iff.mp h
  obtain ⟨t₂, h₂, h⟩ := Except.bind_eq_ok_iff.mp h
  obtain ⟨t₃, h₃, h⟩ := Except.bind_eq_ok_iff.mp h
  exact ⟨t₁, t₂, t₃, h₁, h₂, h₃, h⟩

/-- A literal key survives the expansion. -/
lemma expandVars_literal {P Y out : Text} {handle : PamHandleExt} (hP : '%' ∉ P)
    (hfree : HomeFree (P ++ Y)) (h : expandVars (P ++ Y) env handle = .ok out) :
    ∃ Y', out = P ++ Y' := by
  obtain ⟨t₁, t₂, t₃, h₁, h₂, h₃, h₄⟩ := expandVars_eq_ok_of_homeFree hfree h
  obtain ⟨Y₁, rfl⟩ := expandVar_append rfl hP h₁
  obtain ⟨Y₂, rfl⟩ := expandVar_append rfl hP h₂
  obtain ⟨Y₃, rfl⟩ := expandVar_append rfl hP h₃
  exact expandVar_append rfl hP h₄

/-- The pass for `%f` around a user name acts on one of the sides, the same for all users. -/
lemma hostSides_of_expandVar {A B t : Text} (hu : '%' ∉ u) (hA : A.getLast? ≠ some '%')
    (h : expandVar (A ++ u ++ B) "%f" env.getFqdn = .ok t) :
    ∃ A' B', hostSides env A B = .ok (A', B') ∧ t = A' ++ u ++ B' := by
  have hinf : ("%f" : Text) <:+: A ++ u ++ B ↔ ("%f" : Text) <:+: A ∨ ("%f" : Text) <:+: B :=
    pair_infix_middle_iff hu hA
  rcases expandVar_eq_ok h with ⟨hno, rfl⟩ | ⟨hyes, value, hvalue, rfl⟩
  · have hleft : ¬ ("%f" : Text) <:+: A := fun h => hno (hinf.mpr (Or.inl h))
    have hright : ¬ ("%f" : Text) <:+: B := fun h => hno (hinf.mpr (Or.inr h))
    refine ⟨A, B, ?_, rfl⟩
    rw [hostSides, if_neg hleft, expandVar_of_not_occurs hright]
    rfl
  · have hrep := replaceFirst_pair_middle (b := 'f') value B hu hA
    by_cases hleft : ("%f" : Text) <:+: A
    · refine ⟨replaceFirst "%f" value A, B, ?_, ?_⟩
      · rw [hostSides, if_pos hleft, expandVar_of_occurs hleft, hvalue]
        rfl
      · exact hrep.trans (if_pos hleft)
    · have hright : ("%f" : Text) <:+: B := (hinf.mp hyes).resolve_left hleft
      refine ⟨A, replaceFirst "%f" value B, ?_, ?_⟩
      · rw [hostSides, if_neg hleft, expandVar_of_occurs hright, hvalue]
        rfl
      · exact hrep.trans (if_neg hleft)

/-- The pass for `%U` around a user name, when the user id is kept apart: from the result
the user name can be recovered. -/
lemma eq_of_uidApart {A B t : Text} {getU getV : Except Error Text} (hu : '%' ∉ u)
    (hv : '%' ∉ v) (hA : A.getLast? ≠ some '%') (hapart : UidApart A B)
    (hgetU : ∀ d, getU = .ok d → ∀ c ∈ d, c.isDigit) (hgetV : ∀ d, getV = .ok d → ∀ c ∈ d, c.isDigit)
    (h : expandVar (A ++ u ++ B) "%U" getU = .ok t)
    (h' : expandVar (A ++ v ++ B) "%U" getV = .ok t) : u = v := by
  have hinfU : ("%U" : Text) <:+: A ++ u ++ B ↔ ("%U" : Text) <:+: A ∨ ("%U" : Text) <:+: B :=
    pair_infix_middle_iff hu hA
  have hinfV : ("%U" : Text) <:+: A ++ v ++ B ↔ ("%U" : Text) <:+: A ∨ ("%U" : Text) <:+: B :=
    pair_infix_middle_iff hv hA
  by_cases hany : ("%U" : Text) <:+: A ∨ ("%U" : Text) <:+: B
  · rcases expandVar_eq_ok h with ⟨hno, -⟩ | ⟨-, d, hd, rfl⟩
    · exact absurd (hinfU.mpr hany) hno
    rcases expandVar_eq_ok h' with ⟨hno, -⟩ | ⟨-, e, he, heq⟩
    · exact absurd (hinfV.mpr hany) hno
    have hrepU := replaceFirst_pair_middle (b := 'U') d B hu hA
    have hrepV := replaceFirst_pair_middle (b := 'U') e B hv hA
    have hsame := hrepU.symm.trans (heq.trans hrepV)
    clear hrepU hrepV heq
    by_cases hleft : ("%U" : Text) <:+: A
    · -- the user id stands before the user name
      obtain ⟨C, M, hsplit⟩ := exists_splitAround hleft
      have hM : ∃ c ∈ M, ¬ c.isDigit := by
        rw [UidApart, hsplit] at hapart
        exact hapart
      obtain ⟨-, -, hrep⟩ := splitAround_eq_some hsplit
      have hsame' : C ++ d ++ M ++ u ++ B = C ++ e ++ M ++ v ++ B := by
        rw [← hrep, ← hrep]
        exact (if_pos hleft).symm.trans (hsame.trans (if_pos hleft))
      have hmid : d ++ M ++ u = e ++ M ++ v := by
        have hleft' := List.append_cancel_right hsame'
        simp only [List.append_assoc] at hleft' ⊢
        exact List.append_cancel_left hleft'
      exact eq_of_append_sep_left (hgetU d hd) (hgetV e he) hM hmid
    · -- the user id stands after the user name
      obtain ⟨M, D, hsplit⟩ := exists_splitAround (hany.resolve_left hleft)
      have hM : ∃ c ∈ M, ¬ c.isDigit := by
        rw [UidApart, splitAround_eq_none_iff.mpr hleft, hsplit] at hapart
        exact hapart
      obtain ⟨-, -, hrep⟩ := splitAround_eq_some hsplit
      have hsame' : A ++ u ++ (M ++ d ++ D) = A ++ v ++ (M ++ e ++ D) := by
        rw [← hrep, ← hrep]
        exact (if_neg hleft).symm.trans (hsame.trans (if_neg hleft))
      have hmid : u ++ M ++ d = v ++ M ++ e := by
        simp only [List.append_assoc] at hsame'
        have hright := List.append_cancel_left hsame'
        simp only [← List.append_assoc] at hright ⊢
        exact List.append_cancel_right hright
      exact eq_of_append_sep_right (hgetU d hd) (hgetV e he) hM hmid
  -- the pass finds nothing on either side
  · rw [expandVar_of_not_occurs (mt hinfU.mp hany)] at h
    rw [expandVar_of_not_occurs (mt hinfV.mp hany)] at h'
    have hsame : A ++ u ++ B = A ++ v ++ B := (Except.ok.inj h).trans (Except.ok.inj h').symm
    simpa using hsame

/-- Two users whose expansions of a template that keeps them apart are equal are equal. -/
lemma eq_of_expandVars_eq {any out : Text} (hu : '%' ∉ u) (hv : '%' ∉ v)
    (hfree : HomeFree any) (hper : ("%u" : Text) <:+: any) (hapart : UserApart env any)
    (h : expandVars any env (pamUser u) = .ok out)
    (h' : expandVars any env (pamUser v) = .ok out) : u = v := by
  obtain ⟨t₁, t₂, t₃, h₁, h₂, h₃, h₄⟩ := expandVars_eq_ok_of_homeFree hfree h
  obtain ⟨t₁', t₂', t₃', h₁', h₂', h₃', h₄'⟩ := expandVars_eq_ok_of_homeFree hfree h'
  obtain rfl : t₁ = t₁' := Except.ok.inj (h₁.symm.trans h₁')
  -- the pass for the host name keeps a `%u`
  have hper₁ : ("%u" : Text) <:+: t₁ := by
    rcases expandVar_eq_ok h₁ with ⟨-, rfl⟩ | ⟨-, value, -, rfl⟩
    · exact hper
    · exact pair_infix_replaceFirst (c := 'H') value (by decide) (by decide) (by decide) hper
  obtain ⟨A, B, hsplit⟩ := exists_splitAround hper₁
  obtain ⟨-, -, hrep⟩ := splitAround_eq_some hsplit
  have hname : ∀ {w t : Text}, expandVar t₁ "%u" (pamUser w).getCallingUser = .ok t →
      t = A ++ w ++ B := by
    intro w t hw
    rw [expandVar_of_occurs hper₁] at hw
    exact (Except.ok.inj hw).symm.trans (hrep w)
  obtain rfl := hname h₂
  obtain rfl := hname h₂'
  obtain ⟨hA, hsides⟩ := hapart t₁ A B h₁ hsplit
  obtain ⟨A', B', hhost, rfl⟩ := hostSides_of_expandVar hu hA h₃
  obtain ⟨A'', B'', hhost', rfl⟩ := hostSides_of_expandVar hv hA h₃'
  obtain ⟨rfl, rfl⟩ : A' = A'' ∧ B' = B'' := by
    simpa using Except.ok.inj (hhost.symm.trans hhost')
  obtain ⟨hA', huid⟩ := hsides A' B' hhost
  have hdigits : ∀ w d, ((pamUser w).getCallingUser >>= fun user =>
      env.getUid user >>= fun uid => Except.ok (Text.ofUid uid)) = .ok d →
      ∀ c ∈ d, c.isDigit := by
    intro w d hd
    obtain ⟨user, -, hd⟩ := Except.bind_eq_ok_iff.mp hd
    obtain ⟨uid, -, hd⟩ := Except.bind_eq_ok_iff.mp hd
    obtain rfl := Except.ok.inj hd
    exact fun c hc => Text.isDigit_of_mem_ofUid hc
  exact eq_of_uidApart hu hv hA' huid (hdigits u) (hdigits v) h₄ h₄'

/-! ## Two users -/

/-- In a successful strict parse a literal `file=` argument assigns the file. -/
lemma assignment_of_literalFile {args : List CStr} {handle : PamHandleExt} {a : Args}
    (hs : hasStrict args = true) (hp : ParsedFrom args env handle a) {arg : CStr}
    (hmem : arg ∈ args) {T : Text} (hT : literalFile arg = some T) :
    ∃ value, Text.fromUtf8 arg = some ("file=" ++ T) ∧ HomeFree ("file=" ++ T) ∧
      assignment env handle "file" arg = some value ∧
      expandVars ("file=" ++ T) env handle = .ok ("file=" ++ value) := by
  obtain ⟨any, hany, hstrip⟩ := Option.bind_eq_some_iff.mp hT
  obtain rfl := Text.stripPrefix_eq_some.mp hstrip
  have hflag := not_isFlag_of_literalFile hT hany
  have hvalid := hp.validated hs hmem hany hflag
  have hfree : HomeFree (("file=" : Text) ++ T) :=
    (validate_literal "file" (by simp [trustKeys]) hvalid).1
  obtain ⟨st, st', hround⟩ := hp.rounds arg hmem
  obtain ⟨any', hany', hrest⟩ := parseArg_cases hround
  obtain rfl : ("file=" : Text) ++ T = any' := Option.some.inj (hany.symm.trans hany')
  rcases hrest with ⟨hd, -⟩ | ⟨hd, -⟩ | ⟨hd, -⟩ | ⟨-, -, expanded, key, value, hexp, -⟩
  · exact absurd (Or.inl hd) hflag
  · exact absurd (Or.inr (Or.inl hd)) hflag
  · exact absurd (Or.inr (Or.inr hd)) hflag
  · obtain ⟨R, rfl⟩ := expandVars_literal (by decide) hfree hexp
    have hsplit : Text.splitOnce (("file=" : Text) ++ R) '=' =
        some (("file" : Text), R) :=
      Text.splitOnce_append R (show '=' ∉ "file".toList by decide)
    have hvalue := assignment_of_expansion "file" hany hflag hexp hsplit
    exact ⟨R, hany, hfree, hvalue.trans (if_pos rfl), hexp⟩

/-- The decider of the file, when it is written as `file=`, is the last such argument: the
one that the check of strict mode has looked at. -/
lemma decider_of_fileDecidedApart {args : List CStr} {handle : PamHandleExt} {a : Args}
    (hs : hasStrict args = true) (hp : ParsedFrom args env handle a)
    (hdec : FileDecidedApart args env handle) :
    ∃ arg T, lastHolder literalFile args = some arg ∧ literalFile arg = some T ∧
      ("%u" : Text) <:+: T ∧ UserApart env ("file=" ++ T) ∧ HomeFree ("file=" ++ T) ∧
      expandVars ("file=" ++ T) env handle = .ok ("file=" ++ a.file) := by
  obtain ⟨T₀, hT₀, -⟩ := hp.perUser hs
  obtain ⟨arg₀, hholder₀, hlit₀⟩ := lastHolder_isSome_of_lastValue hT₀
  have himp : ∀ arg ∈ args, (literalFile arg).isSome →
      (assignment env handle "file" arg).isSome := by
    intro arg hmem hsome
    obtain ⟨T, hT⟩ := Option.isSome_iff_exists.mp hsome
    obtain ⟨value, -, -, hvalue, -⟩ := assignment_of_literalFile hs hp hmem hT
    rw [hvalue]
    rfl
  obtain ⟨arg, hholder⟩ := exists_lastHolder_of_mem (lastHolder_mem hholder₀).1
    (himp arg₀ (lastHolder_mem hholder₀).1 (by rw [hlit₀]; rfl))
  obtain ⟨hmem, hsome⟩ := lastHolder_mem hholder
  obtain ⟨value, hvalue⟩ := Option.isSome_iff_exists.mp hsome
  obtain ⟨any, -, hany, -⟩ := assignment_eq_some hvalue
  obtain ⟨⟨T, rfl⟩, hapart⟩ := hdec arg any hholder hany
  have hlit : literalFile arg = some T := by
    rw [literalFile, hany]
    exact Text.stripPrefix_eq_some.mpr rfl
  have hlast : lastHolder literalFile args = some arg :=
    lastHolder_of_imp himp hholder (by rw [hlit]; rfl)
  obtain ⟨value', -, hfree, hvalue', hexp⟩ := assignment_of_literalFile hs hp hmem hlit
  have hfile : a.file = value' := by
    rw [hp.file, lastValue_eq_of_lastHolder hholder, hvalue', Option.getD_some]
  obtain ⟨T₁, hT₁, hu⟩ := hp.perUser hs
  rw [lastValue_eq_of_lastHolder hlast, hlit] at hT₁
  obtain rfl := Option.some.inj hT₁
  exact ⟨arg, T, hlast, hlit, Text.contains_iff.mp hu, hapart, hfree, hfile ▸ hexp⟩

/-- **In strict mode two plain users get different trusted-key files, as long as the
argument that decides the file is written as `file=` and keeps the user apart.** -/
theorem strict_files_apart (args : List CStr) (env : Environment) (u v : Text)
    (hs : hasStrict args = true) (hu : isPlainName u = true) (hv : isPlainName v = true)
    (huv : u ≠ v) (hdecU : FileDecidedApart args env (pamUser u))
    (hdecV : FileDecidedApart args env (pamUser v)) : FilesApart args env u v := by
  intro a b ha hb hfile
  obtain ⟨arg, T, hlast, hlit, hper, hapart, hfree, hexp⟩ :=
    decider_of_fileDecidedApart hs (parse_parsedFrom ha) hdecU
  obtain ⟨arg', T', hlast', hlit', -, -, -, hexp'⟩ :=
    decider_of_fileDecidedApart hs (parse_parsedFrom hb) hdecV
  obtain rfl : arg = arg' := Option.some.inj (hlast.symm.trans hlast')
  obtain rfl : T = T' := Option.some.inj (hlit.symm.trans hlit')
  rw [hfile] at hexp
  exact huv (eq_of_expandVars_eq (percent_notMem_of_isPlainName hu)
    (percent_notMem_of_isPlainName hv) hfree
    (hper.trans (List.suffix_append _ T).isInfix) hapart hexp hexp')

/-! ## Concrete users -/

/-- A machine with the two accounts `bob` and `bob1`. -/
def twoAccounts : Environment where
  getHomedir _ := .ok "/home/shared"
  getHostname := .ok "host"
  getFqdn := .ok "host"
  getUid name :=
    if name = "bob" then .ok 11000
    else if name = "bob1" then .ok 1000
    else .error (.anyhow ["Failed to look up user with username ", name])
  getEnv _ := none

/-- A strict configuration with one directory of key files. -/
def perUserArgs : List CStr := cstrs ["strict", "file=/etc/keys/%u"]

lemma perUserArgs_apart (user : Text) (huser : lastHolder (assignment twoAccounts (pamUser user)
    "file") perUserArgs = some (Text.bytes "file=/etc/keys/%u")) :
    FileDecidedApart perUserArgs twoAccounts (pamUser user) := by
  intro arg any harg hany
  obtain rfl : Text.bytes "file=/etc/keys/%u" = arg := Option.some.inj (huser.symm.trans harg)
  obtain rfl : ("file=/etc/keys/%u" : Text) = any :=
    Option.some.inj ((Text.fromUtf8_bytes _).symm.trans hany)
  refine ⟨by decide, fun t A B ht hsplit => ?_⟩
  have hhost : expandVar "file=/etc/keys/%u" "%H" twoAccounts.getHostname =
      .ok ("file=/etc/keys/%u" : Text) := by decide +kernel
  obtain rfl := Except.ok.inj (hhost.symm.trans ht)
  have hsides : splitAround ("%u" : Text) ("file=/etc/keys/%u" : Text) =
      some (("file=/etc/keys/" : Text), ([] : Text)) := by decide +kernel
  obtain ⟨rfl, rfl⟩ := Prod.mk.inj (Option.some.inj (hsides.symm.trans hsplit))
  refine ⟨by decide, fun A' B' hfqdn => ?_⟩
  have hsame : hostSides twoAccounts "file=/etc/keys/" [] =
      .ok (("file=/etc/keys/" : Text), ([] : Text)) := by decide +kernel
  obtain ⟨rfl, rfl⟩ := Prod.mk.inj (Except.ok.inj (hsame.symm.trans hfqdn))
  exact ⟨by decide, trivial⟩

/-- The two accounts under the configuration with one directory of key files. -/
theorem strict_files_apart_twoAccounts : FilesApart perUserArgs twoAccounts "bob" "bob1" :=
  strict_files_apart perUserArgs twoAccounts "bob" "bob1" (by decide +kernel) (by decide +kernel)
    (by decide +kernel) (by decide) (perUserArgs_apart "bob" (by decide +kernel))
    (perUserArgs_apart "bob1" (by decide +kernel))

/-- A strict configuration whose file name is the user name followed by the user id. -/
def nameIdArgs : List CStr := cstrs ["strict", "file=/etc/keys/%u%U"]

lemma twoAccounts_injective {name name' : Text} {uid : Uid}
    (h : twoAccounts.getUid name = .ok uid) (h' : twoAccounts.getUid name' = .ok uid) :
    name = name' := by
  simp only [twoAccounts] at h h'
  split_ifs at h h'
  · rename_i hbob hbob'
    exact hbob.trans hbob'.symm
  · exact absurd (Except.ok.inj (h.trans h'.symm)) (by decide)
  · exact absurd (Except.ok.inj (h.trans h'.symm)) (by decide)
  · rename_i hbob₁ _ hbob₁'
    exact hbob₁.trans hbob₁'.symm

/-- The name of `bob` with the id 11000 and the name of `bob1` with the id 1000 make the
same file. -/
theorem not_strictFilesApart : ¬ StrictFilesApart := by
  intro h
  have hparse : ∀ user ∈ (["bob", "bob1"] : List Text),
      Args.parse nameIdArgs twoAccounts (pamUser user) = .ok
        { file := "/etc/keys/bob11000", strict := true, sshdShortcut := false,
          agentTimeout := some 30 } := by
    decide +kernel
  exact h nameIdArgs twoAccounts "bob" "bob1" (by decide +kernel)
    (fun _ _ _ => twoAccounts_injective) (by decide +kernel) (by decide +kernel) (by decide)
    _ _ (hparse "bob" (by simp)) (hparse "bob1" (by simp)) rfl

end PamSshAgent
