import PamSshAgent.Args.Reference
import PamSshAgent.Library.Components
import PamSshAgent.StrictUser

/-!
# Trust files stay where the configuration puts them

The path of a trust file is a template with variables.  In strict mode no variable stands for
more than a part of one component, so that the user who logs in chooses neither the depth of the
path nor a directory that the template names.
-/

namespace PamSshAgent

open Components LastValue Occurrence

/-- The path has the components of the template, with changes in those that have a `%`. -/
def InPlace (template path : Text) : Prop :=
  List.Forall₂ (fun before after => '%' ∉ before → after = before) (template.splitOn '/')
    (path.splitOn '/')

instance (template path : Text) : Decidable (InPlace template path) :=
  inferInstanceAs (Decidable (List.Forall₂ _ _ _))

/-- The host names and the user name have no slash. -/
structure SlashFree (env : Environment) (handle : PamHandleExt) : Prop where
  hostname : ∀ name, env.getHostname = .ok name → '/' ∉ name
  fqdn : ∀ name, env.getFqdn = .ok name → '/' ∉ name
  user : ∀ name, handle.getCallingUser = .ok name → '/' ∉ name

/-- Where the trust files of strict arguments lie. -/
structure TrustFilesInPlace (args : List CStr) (a : Args) : Prop where
  file : ∃ template, lastValue (rawValue "file") args = some template ∧
    ("%u" : Text) <:+: template ∧ InPlace template a.file
  caKeysFile : ∀ path, a.caKeysFile = some path → ∃ template,
    lastValue (rawValue "ca_keys_file") args = some template ∧ InPlace template path

variable {env : Environment} {handle : PamHandleExt} {args : List CStr} {a : Args}
  {key t t' t'' : Text}

lemma InPlace.refl (t : Text) : InPlace t t := List.forall₂_same.mpr fun _ _ _ => rfl

lemma InPlace.trans (h : InPlace t t') (h' : InPlace t' t'') : InPlace t t'' := by
  unfold InPlace at h h' ⊢
  generalize t.splitOn '/' = before at h ⊢
  generalize t'.splitOn '/' = between at h h'
  generalize t''.splitOn '/' = after at h' ⊢
  induction h generalizing after with
  | nil => exact h'
  | cons hfirst hrest ih =>
    cases h' with
    | cons hfirst' hrest' =>
      refine .cons (fun hc => ?_) (ih _ hrest')
      have heq := hfirst hc
      rw [← heq]
      exact hfirst' (heq.symm ▸ hc)

/-- A pass whose value has no slash leaves the components in place. -/
lemma inPlace_expandVar {pattern : Text} {c : Char} {getValue : Except Error Text}
    (hpattern : pattern = ['%', c]) (hc : c ≠ '/')
    (hvalue : ∀ value, getValue = .ok value → '/' ∉ value)
    (h : expandVar t pattern getValue = .ok t') : InPlace t t' := by
  rcases expandVar_eq_ok h with ⟨-, rfl⟩ | ⟨hoccurs, value, hget, rfl⟩
  · exact .refl t'
  · obtain ⟨A, B, hsplit⟩ := exists_splitAround hoccurs
    obtain ⟨-, rfl, hreplace⟩ := splitAround_eq_some hsplit
    rw [hreplace]
    have hslash : '/' ∉ pattern := by
      rw [hpattern]
      simpa using hc.symm
    refine (forall₂_splitOn_edit hslash (hvalue value hget) A B).imp fun before after hedit => ?_
    rcases hedit with rfl | ⟨l, r, rfl, -⟩
    · exact fun _ => rfl
    · intro hno
      exact absurd (by simp [hpattern]) hno

/-- An expansion without home directories leaves the components in place. -/
lemma inPlace_expandVars (hfree : HomeFree t) (hslash : SlashFree env handle)
    (h : expandVars t env handle = .ok t') : InPlace t t' := by
  simp only [expandVars, expandHomedir_of_notMem hfree.1, Except.ok_bind,
    expandVar_of_not_occurs hfree.2] at h
  obtain ⟨t₁, h₁, h⟩ := Except.bind_eq_ok_iff.mp h
  obtain ⟨t₂, h₂, h⟩ := Except.bind_eq_ok_iff.mp h
  obtain ⟨t₃, h₃, h⟩ := Except.bind_eq_ok_iff.mp h
  have huid : ∀ value, (do
      let user ← handle.getCallingUser
      let uid ← env.getUid user
      return Text.ofUid uid) = .ok value → '/' ∉ value := by
    intro value hvalue hmem
    obtain ⟨user, -, hvalue⟩ := Except.bind_eq_ok_iff.mp hvalue
    obtain ⟨uid, -, hvalue⟩ := Except.bind_eq_ok_iff.mp hvalue
    obtain rfl := Except.ok.inj hvalue
    exact absurd (Text.isDigit_of_mem_ofUid hmem) (by decide)
  have hhost := inPlace_expandVar rfl (by decide) hslash.hostname h₁
  have huser := inPlace_expandVar rfl (by decide) hslash.user h₂
  have hfqdn := inPlace_expandVar rfl (by decide) hslash.fqdn h₃
  exact ((hhost.trans huser).trans hfqdn).trans (inPlace_expandVar rfl (by decide) huid h)

/-- The template of a trust file has been checked. -/
lemma homeFree_of_rawValue (hstrict : hasStrict args = true) (hp : ParsedFrom args env handle a)
    (hkey : key ∈ trustKeys) (h : lastValue (rawValue key) args = some t) : HomeFree t := by
  obtain ⟨arg, hholder, hraw⟩ := lastHolder_isSome_of_lastValue h
  obtain ⟨any, hany, hparts⟩ := Option.bind_eq_some_iff.mp hraw
  obtain ⟨⟨k, r⟩, hsplit, hvalue⟩ := Option.bind_eq_some_iff.mp hparts
  split_ifs at hvalue with hk
  obtain rfl : r = t := Option.some.inj hvalue
  obtain rfl : k = key := hk
  have hflag : ¬ IsFlag any := by
    intro hflag
    rw [splitOnce_of_isFlag hflag] at hsplit
    exact absurd hsplit (by simp)
  have hvalid := hp.validated hstrict (lastHolder_mem hholder).1 hany hflag
  rw [(Text.splitOnce_eq_some hsplit).1] at hvalid
  obtain ⟨⟨htilde, hhome⟩, -⟩ := validate_literal k hkey hvalid
  have hsuffix : r <:+: k ++ '=' :: r :=
    ((List.suffix_cons '=' r).trans (List.suffix_append k _)).isInfix
  exact ⟨fun hmem => htilde (hsuffix.subset hmem), fun hpart => hhome (hpart.trans hsuffix)⟩

/-- A trust file lies where its template puts it. -/
lemma inPlace_of_lastExpanded (hstrict : hasStrict args = true)
    (hp : ParsedFrom args env handle a) (hslash : SlashFree env handle) (hkey : key ∈ trustKeys)
    (h : lastExpanded args env handle key = some t') :
    ∃ template, lastValue (rawValue key) args = some template ∧ InPlace template t' := by
  obtain ⟨template, htemplate, hexpanded⟩ := Option.bind_eq_some_iff.mp h
  refine ⟨template, htemplate, ?_⟩
  have hfree := homeFree_of_rawValue hstrict hp hkey htemplate
  refine inPlace_expandVars hfree hslash ?_
  cases hvalue : expandVars template env handle with
  | error error =>
    rw [hvalue] at hexpanded
    exact absurd hexpanded (by simp [Except.toOption])
  | ok value =>
    rw [hvalue] at hexpanded
    exact congrArg Except.ok (Option.some.inj hexpanded)

lemma slash_notMem_of_isPlainName (h : isPlainName t = true) : '/' ∉ t := by
  intro hmem
  simp only [isPlainName, Bool.and_eq_true, List.all_eq_true] at h
  have hbyte : (47 : UInt8) ∈ t.bytes := List.mem_flatMap.mpr ⟨'/', hmem, by decide⟩
  exact absurd (h.2 47 hbyte) (by decide)

/-- **The trust files of strict arguments lie where the arguments put them**, whoever logs in:
the user, the host and its domain change neither the number of components of a path nor a
component without a variable, as long as the names of the host have no slash. -/
theorem strict_files_inPlace (args : List CStr) (env : Environment) (handle : PamHandleExt)
    (a : Args) (hstrict : hasStrict args = true) (hplain : ∀ arg ∈ args, PlainKey arg)
    (huser : ∀ name, handle.getCallingUser = .ok name → isPlainName name = true)
    (hhost : ∀ name, env.getHostname = .ok name ∨ env.getFqdn = .ok name → '/' ∉ name)
    (h : Args.parse args env handle = .ok a) : TrustFilesInPlace args a := by
  have hp := parse_parsedFrom h
  obtain ⟨st, hfold, hfinish⟩ := Except.bind_eq_ok_iff.mp h
  have hfields := (loopReference hplain hfold).fields a hfinish
  have hslash : SlashFree env handle :=
    { hostname := fun name hname => hhost name (Or.inl hname)
      fqdn := fun name hname => hhost name (Or.inr hname)
      user := fun name hname => slash_notMem_of_isPlainName (huser name hname) }
  constructor
  case file =>
    obtain ⟨template, htemplate, hu⟩ := hp.perUser hstrict
    rw [funext literalFile_eq_rawValue] at htemplate
    obtain ⟨arg, hholder, hraw⟩ := lastHolder_isSome_of_lastValue htemplate
    have hvalid := (foldlM_isOk_iff hplain).mp ⟨st, hfold⟩ arg (lastHolder_mem hholder).1
    obtain ⟨path, hpath, -⟩ := hvalid.expands hraw
    have hexpanded : lastExpanded args env handle "file" = some path := by
      rw [lastExpanded, htemplate, Option.bind_some, hpath]
      rfl
    have hfile : a.file = path := by
      rw [hfields, referenceArgs, hexpanded]
      rfl
    obtain ⟨template', htemplate', hinPlace⟩ :=
      inPlace_of_lastExpanded hstrict hp hslash (by simp [trustKeys]) hexpanded
    obtain rfl : template = template' := Option.some.inj (htemplate.symm.trans htemplate')
    exact ⟨template, htemplate, Text.contains_iff.mp hu, hfile ▸ hinPlace⟩
  case caKeysFile =>
    intro path hpath
    rw [hfields] at hpath
    exact inPlace_of_lastExpanded hstrict hp hslash (by simp [trustKeys]) hpath

/-- A strict configuration with a directory for each user. -/
def userDirArgs : List CStr :=
  cstrs ["strict", "ca_keys_file=/etc/%f/ca", "file=/etc/keys/%u/authorized_keys"]

/-- The files of `bob`. -/
theorem strict_files_inPlace_bob : TrustFilesInPlace userDirArgs
    { file := "/etc/keys/bob/authorized_keys", caKeysFile := some ("/etc/host/ca" : Text),
      strict := true, sshdShortcut := false, agentTimeout := some 30 } := by
  refine strict_files_inPlace userDirArgs (homeEnv "/home") (pamUser "bob") _ (by decide +kernel)
    (by decide +kernel) ?_ ?_ (by decide +kernel)
  · intro name hname
    obtain rfl := Except.ok.inj hname
    decide +kernel
  · intro name hname
    rcases hname with hname | hname
    all_goals
      obtain rfl := Except.ok.inj hname
      decide

end PamSshAgent
