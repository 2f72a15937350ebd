import PamSshAgent.Args.Reference

/-!
# The same arguments without `strict`

What a strict parse accepts, the parse of the same arguments without `strict` accepts as
well: the loop assigns the same variables, and only the shortcut of sshd and the timeout
start differently.
-/

namespace PamSshAgent

/-- The arguments without every `strict`. -/
def withoutStrict (args : List CStr) : List CStr := args.filter (· ≠ Text.bytes "strict")

/-- The variables of the loop that do not start differently. -/
structure ParseState.Alike (st st' : ParseState) : Prop where
  debug : st'.debug = st.debug
  file : st'.file = st.file
  defaultSshAuthSock : st'.defaultSshAuthSock = st.defaultSshAuthSock
  caKeysFile : st'.caKeysFile = st.caKeysFile
  authorizedKeysCommand : st'.authorizedKeysCommand = st.authorizedKeysCommand
  authorizedKeysCommandUser : st'.authorizedKeysCommandUser = st.authorizedKeysCommandUser
  fileIsPerUser : st'.fileIsPerUser = st.fileIsPerUser

/-- The arguments of a call as far as they say where the policy and the agent are. -/
structure Args.SameSources (a a' : Args) : Prop where
  file : a'.file = a.file
  defaultSshAuthSock : a'.defaultSshAuthSock = a.defaultSshAuthSock
  caKeysFile : a'.caKeysFile = a.caKeysFile
  authorizedKeysCommand : a'.authorizedKeysCommand = a.authorizedKeysCommand
  authorizedKeysCommandUser : a'.authorizedKeysCommandUser = a.authorizedKeysCommandUser

variable {args : List CStr} {env : Environment} {handle : PamHandleExt}
  {st st' st₁ : ParseState} {arg : CStr} {key value : Text}

lemma hasStrict_withoutStrict (args : List CStr) : hasStrict (withoutStrict args) = false := by
  rw [hasStrict, List.any_eq_false]
  intro arg harg
  have hne : arg ≠ Text.bytes "strict" :=
    of_decide_eq_true (List.mem_filter.mp harg).2
  rw [beq_eq_false_iff_ne.mpr hne]
  decide

/-! ## One round -/

lemma ParseState.Alike.noteFile (halike : st.Alike st') (any : Text) :
    (st.noteFile any).Alike (st'.noteFile any) := by
  unfold ParseState.noteFile
  split
  · exact ⟨halike.debug, halike.file, halike.defaultSshAuthSock, halike.caKeysFile,
      halike.authorizedKeysCommand, halike.authorizedKeysCommandUser, rfl⟩
  · exact halike

/-- An assignment does the same to variables that are alike. -/
lemma ParseState.Alike.assign (halike : st.Alike st') (h : st.assign key value = .ok st₁) :
    ∃ st₁', st'.assign key value = .ok st₁' ∧ st₁.Alike st₁' := by
  obtain ⟨hdebug, hfile, hsock, hca, hcommand, huser, hper⟩ := halike
  -- one case for each key
  rcases assign_cases h with ⟨rfl, rfl⟩ | ⟨rfl, rfl⟩ | ⟨rfl, rfl⟩ | ⟨rfl, rfl⟩ | ⟨rfl, rfl⟩ |
    ⟨rfl, seconds, hseconds, hmin, hmax, rfl⟩
  · exact ⟨_, rfl, hdebug, rfl, hsock, hca, hcommand, huser, hper⟩
  · exact ⟨_, rfl, hdebug, hfile, rfl, hca, hcommand, huser, hper⟩
  · exact ⟨_, rfl, hdebug, hfile, hsock, rfl, hcommand, huser, hper⟩
  · exact ⟨_, rfl, hdebug, hfile, hsock, hca, rfl, huser, hper⟩
  · exact ⟨_, rfl, hdebug, hfile, hsock, hca, hcommand, rfl, hper⟩
  · exact ⟨_, assign_timeout hseconds hmin hmax, hdebug, hfile, hsock, hca, hcommand, huser, hper⟩

/-- A strict round on an argument other than `strict` has a legacy one. -/
lemma ParseState.Alike.round (halike : st.Alike st') (hne : arg ≠ Text.bytes "strict")
    (h : parseArg true env handle st arg = .ok st₁) :
    ∃ st₁', parseArg false env handle st' arg = .ok st₁' ∧ st₁.Alike st₁' := by
  obtain ⟨any, hany, hcases⟩ := parseArg_cases h
  have hround : parseArg false env handle st' arg =
      if any = "debug" then .ok { st' with debug := true }
      else if any = "strict" then .ok st'
      else if any = "sshd_shortcut" then .ok { st' with sshdShortcut := true }
      else parseParameter false env handle st' any := by
    rw [parseArg, hany]
  rw [hround]
  rcases hcases with ⟨hd, rfl⟩ | ⟨hs, -⟩ | ⟨hs, rfl⟩ |
    ⟨hflag, -, expanded, key, value, hexpands, hsplit, hassign⟩
  · rw [if_pos hd]
    obtain ⟨-, hfile, hsock, hca, hcommand, huser, hper⟩ := halike
    exact ⟨_, rfl, rfl, hfile, hsock, hca, hcommand, huser, hper⟩
  · exact absurd (hs ▸ Text.bytes_of_fromUtf8 hany).symm hne
  · rw [if_neg (by rw [hs]; decide), if_neg (by rw [hs]; decide), if_pos hs]
    obtain ⟨hdebug, hfile, hsock, hca, hcommand, huser, hper⟩ := halike
    exact ⟨_, rfl, hdebug, hfile, hsock, hca, hcommand, huser, hper⟩
  · rw [if_neg fun h => hflag (Or.inl h), if_neg fun h => hflag (Or.inr (Or.inl h)),
      if_neg fun h => hflag (Or.inr (Or.inr h))]
    obtain ⟨st₁', hassign', halike'⟩ := (halike.noteFile any).assign hassign
    refine ⟨st₁', ?_, halike'⟩
    have hcheck : (if false = true then validateTrustSourceArgument any else .ok ()) = .ok () := rfl
    rw [parseParameter, hcheck, Except.ok_bind, hexpands, Except.ok_bind, Text.splitn2, hsplit]
    exact hassign'

/-! ## The whole list -/

/-- The loop without `strict` goes through when the strict one does. -/
lemma ParseState.Alike.foldlM (halike : st.Alike st')
    (h : args.foldlM (parseArg true env handle) st = .ok st₁) :
    ∃ st₁', (withoutStrict args).foldlM (parseArg false env handle) st' = .ok st₁' ∧
      st₁.Alike st₁' := by
  induction args generalizing st st' with
  | nil =>
    obtain rfl : st = st₁ := Except.ok.inj h
    exact ⟨st', rfl, halike⟩
  | cons arg args ih =>
    obtain ⟨st₂, hround, hrest⟩ := Except.foldlM_cons_eq_ok_iff.mp h
    by_cases hne : arg = Text.bytes "strict"
    · have hsame : st₂ = st := by
        have hstay : parseArg true env handle st arg = .ok st := by
          rw [hne, parseArg, Text.fromUtf8_bytes]
          rfl
        exact Except.ok.inj (hround.symm.trans hstay)
      have hdrop : withoutStrict (arg :: args) = withoutStrict args := by
        apply List.filter_cons_of_neg
        rw [decide_eq_true_iff, not_not]
        exact hne
      rw [hdrop]
      exact ih (hsame ▸ halike) hrest
    · obtain ⟨st₂', hround', halike₂⟩ := halike.round hne hround
      obtain ⟨st₁', hrest', halike₁⟩ := ih halike₂ hrest
      have hkeep : withoutStrict (arg :: args) = arg :: withoutStrict args :=
        List.filter_cons_of_pos (decide_eq_true hne)
      rw [hkeep]
      exact ⟨st₁', Except.foldlM_cons_eq_ok_iff.mpr ⟨st₂', hround', hrest'⟩, halike₁⟩

lemma ParseState.Alike.init : (ParseState.init true).Alike (ParseState.init false) :=
  ⟨rfl, rfl, rfl, rfl, rfl, rfl, rfl⟩

/-- What a strict parse accepts, the parse without `strict` accepts with the same sources. -/
lemma parse_withoutStrict {a : Args} (hstrict : hasStrict args = true)
    (h : Args.parse args env handle = .ok a) :
    ∃ a', Args.parse (withoutStrict args) env handle = .ok a' ∧ a.SameSources a' ∧
      a'.strict = false := by
  obtain ⟨st, hfold, hfinish⟩ := Except.bind_eq_ok_iff.mp h
  rw [hstrict] at hfold hfinish
  obtain ⟨st', hfold', halike⟩ := ParseState.Alike.init.foldlM hfold
  obtain ⟨a', hfinish'⟩ : ∃ a', st'.finish false = .ok a' :=
    finish_isOk_iff.mpr ⟨fun h => absurd h (by decide), fun h => absurd h (by decide)⟩
  refine ⟨a', ?_, ?_, ?_⟩
  · rw [← hasStrict_withoutStrict args] at hfold' hfinish'
    exact Except.bind_eq_ok_iff.mpr ⟨st', hfold', hfinish'⟩
  · rw [fields_of_finish hfinish, fields_of_finish hfinish']
    exact ⟨halike.file, halike.defaultSshAuthSock, halike.caKeysFile,
      halike.authorizedKeysCommand, halike.authorizedKeysCommandUser⟩
  · rw [fields_of_finish hfinish']

end PamSshAgent
