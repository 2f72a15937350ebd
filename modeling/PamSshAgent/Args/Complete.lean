import PamSshAgent.Args.AtOnce
import PamSshAgent.Library.RewriteOnce

/-!
# Complete expansion

Each pass of `expand_vars` replaces the first occurrence of its variable.  When the machine
answers without `%` and `~`, the result is nevertheless complete for the texts that have no
second `~` and that, read from the right, have no variable twice and none that only arises
after its pass; for every other text something is left.
-/

namespace PamSshAgent

open Occurrence Provenance RewriteOnce

/-- The text has no character that starts a variable. -/
def PlainText (t : Text) : Prop := '%' ∉ t ∧ '~' ∉ t

/-- The machine and the transaction answer with plain texts. -/
structure PlainAnswers (env : Environment) (pamHandle : PamHandleExt) : Prop where
  homedir : ∀ user home, env.getHomedir user = .ok home → PlainText home
  hostname : ∀ host, env.getHostname = .ok host → PlainText host
  fqdn : ∀ host, env.getFqdn = .ok host → PlainText host
  callingUser : ∀ user, pamHandle.getCallingUser = .ok user → PlainText user

/-- Nothing is left to expand. -/
def Complete (out : Text) : Prop :=
  '~' ∉ out ∧ ∀ pattern ∈ (["%h", "%H", "%u", "%f", "%U"] : List Text), ¬ pattern <:+: out

/-- An answer, or nothing in its place. -/
def answerOr (value : Except Error Text) : Text := value.toOption.getD []

/-! ## The variables as rules -/

variable {input out : Text} {env : Environment} {pamHandle : PamHandleExt}

lemma plainText_answerOr {value : Except Error Text} (h : ∀ t, value = .ok t → PlainText t) :
    PlainText (answerOr value) := by
  cases value with
  | error error => exact ⟨List.not_mem_nil, List.not_mem_nil⟩
  | ok t => exact h t rfl

lemma plainText_ofUid (uid : Uid) : PlainText (Text.ofUid uid) :=
  ⟨fun h => absurd (Text.isDigit_of_mem_ofUid h) (by decide),
    fun h => absurd (Text.isDigit_of_mem_ofUid h) (by decide)⟩

/-- The answers that the passes ask for are plain. -/
lemma PlainAnswers.passes (hplain : PlainAnswers env pamHandle) :
    ∀ pass ∈ passes env pamHandle, PlainText (answerOr pass.value) := by
  intro pass hpass
  refine plainText_answerOr ?_
  fin_cases hpass
  · intro home h
    obtain ⟨user, -, hhome⟩ := Except.bind_eq_ok_iff.mp h
    exact hplain.homedir user home hhome
  · exact hplain.hostname
  · exact hplain.callingUser
  · exact hplain.fqdn
  · intro t h
    obtain ⟨user, -, h⟩ := Except.bind_eq_ok_iff.mp h
    obtain ⟨uid, -, h⟩ := Except.bind_eq_ok_iff.mp h
    exact Except.ok.inj h ▸ plainText_ofUid uid

/-- The passes as rules: each replaces a `%` and its letter. -/
def variableRules (env : Environment) (pamHandle : PamHandleExt) : List (Rule Char) :=
  (passes env pamHandle).map fun pass => ⟨pass.pattern.getLast?.getD '%', answerOr pass.value⟩

/-- The variables, with their plain values. -/
def variableSystem (hplain : PlainAnswers env pamHandle) : System Char where
  marker := '%'
  rules := variableRules env pamHandle
  nodup := by
    have hletters : (variableRules env pamHandle).map Rule.letter = ['h', 'H', 'u', 'f', 'U'] := rfl
    rw [hletters]
    decide
  letter_ne := by
    intro rule hrule
    obtain ⟨pass, hpass, rfl⟩ := List.mem_map.mp hrule
    obtain ⟨c, hc, hpattern⟩ := passes_pattern hpass
    have hletter : pass.pattern.getLast?.getD '%' = c := by rw [hpattern]; rfl
    rw [hletter]
    rintro rfl
    exact absurd hc (by decide)
  value_free := by
    intro rule hrule
    obtain ⟨pass, hpass, rfl⟩ := List.mem_map.mp hrule
    exact (hplain.passes pass hpass).1

/-- The text has no `~` outside its first `~user`. -/
def TildeOnce (input : Text) : Prop :=
  ∀ idx ∈ find ['~'] input, '~' ∉ input.drop (idx + 1 + (getUsername input idx).length)

instance (input : Text) : Decidable (TildeOnce input) :=
  inferInstanceAs (Decidable (∀ idx ∈ find ['~'] input,
    '~' ∉ input.drop (idx + 1 + (getUsername input idx).length)))

/-- There is one `~user` at most.  With its home directory in its place, and read from the
right, the text has no variable twice and none that arises after its pass. -/
structure ExpandsOnce (hplain : PlainAnswers env pamHandle) (input : Text) : Prop where
  tilde : TildeOnce input
  once : ∀ pieces, homePieces input (getHome env pamHandle) = .ok pieces →
    ((variableSystem hplain).read 0 (text pieces)).isSome

instance (hplain : PlainAnswers env pamHandle) (input : Text) :
    Decidable (ExpandsOnce hplain input) :=
  decidable_of_iff (TildeOnce input ∧ ∀ pieces, homePieces input (getHome env pamHandle) = .ok pieces →
    ((variableSystem hplain).read 0 (text pieces)).isSome)
    ⟨fun h => ⟨h.1, h.2⟩, fun h => ⟨h.tilde, h.once⟩⟩

/-! ## The run of the passes -/

/-- A pass applies its rule. -/
lemma run_eq_replaceFirst {pass : Pass Error Char} {word word' : Text}
    (h : pass.run word = .ok word') :
    word' = replaceFirst pass.pattern (answerOr pass.value) word := by
  rw [Pass.run] at h
  cases hfind : find pass.pattern word with
  | none =>
    rw [hfind] at h
    rw [replaceFirst, hfind]
    exact (Except.ok.inj h).symm
  | some i =>
    rw [hfind] at h
    obtain ⟨value, hvalue, hword⟩ := Except.bind_eq_ok_iff.mp h
    rw [replaceFirst_of_find hfind, hvalue]
    exact (Except.ok.inj hword).symm

lemma foldlM_eq_foldl {ps : List (Pass Error Char)} {word : Text}
    (h : ps.foldlM (fun word pass => pass.run word) word = .ok out) :
    out = ps.foldl (fun word pass => replaceFirst pass.pattern (answerOr pass.value) word) word := by
  induction ps generalizing word with
  | nil => exact (Except.ok.inj h).symm
  | cons pass ps ih =>
    obtain ⟨word', hpass, hrest⟩ := Except.foldlM_cons_eq_ok_iff.mp h
    rw [ih hrest, run_eq_replaceFirst hpass]
    rfl

/-- The passes after the first are the run of the rules. -/
lemma eq_runFrom (hplain : PlainAnswers env pamHandle) {word : Text}
    (h : (passes env pamHandle).foldlM (fun word pass => pass.run word) word = .ok out) :
    out = (variableSystem hplain).runFrom 0 word := by
  rw [foldlM_eq_foldl h]
  rfl

/-- No pass adds or removes a `~`. -/
lemma tilde_mem_iff (hplain : PlainAnswers env pamHandle) {word : Text}
    (h : (passes env pamHandle).foldlM (fun word pass => pass.run word) word = .ok out) :
    '~' ∈ out ↔ '~' ∈ word := by
  have hpass : ∀ pass ∈ passes env pamHandle, '~' ∉ pass.pattern := by
    intro pass hpass htilde
    obtain ⟨c, hc, hpattern⟩ := passes_pattern hpass
    rw [hpattern, List.mem_cons, List.mem_singleton] at htilde
    rcases htilde with h | rfl
    · exact absurd h (by decide)
    · exact absurd hc (by decide)
  have hvalue := hplain.passes
  revert h hpass hvalue
  generalize passes env pamHandle = ps
  intro h hpass hvalue
  induction ps generalizing word with
  | nil => rw [Except.ok.inj h]
  | cons pass ps ih =>
    obtain ⟨word', hrun, hrest⟩ := Except.foldlM_cons_eq_ok_iff.mp h
    refine (ih hrest (fun p hp => hpass p (List.mem_cons_of_mem pass hp))
      fun p hp => hvalue p (List.mem_cons_of_mem pass hp)).trans ?_
    rw [run_eq_replaceFirst hrun]
    exact mem_replaceFirst_iff (hpass pass List.mem_cons_self) (hvalue pass List.mem_cons_self).2

/-- The first pass pastes a home directory. -/
lemma getHome_eq_ok {s home : Text} (h : getHome env pamHandle s = .ok home) :
    ∃ user, env.getHomedir user = .ok home := by
  unfold getHome at h
  split_ifs at h with hs
  · obtain ⟨user, -, hdir⟩ := Except.bind_eq_ok_iff.mp h
    exact ⟨user, hdir⟩
  · exact ⟨s, h⟩

/-- What the first pass leaves has no `~` when there was only one. -/
lemma tildeOnce_iff (hplain : PlainAnswers env pamHandle) {pieces : List (Piece Char)}
    (h : homePieces input (getHome env pamHandle) = .ok pieces) :
    TildeOnce input ↔ '~' ∉ text pieces := by
  rw [homePieces] at h
  rw [TildeOnce]
  cases hfind : find ['~'] input with
  | none =>
    rw [hfind] at h
    have habsent : '~' ∉ input := by
      rw [← List.singleton_infix_iff]
      exact find_eq_none_iff.mp hfind
    rw [← Except.ok.inj h]
    simpa [Piece.word] using habsent
  | some idx =>
    rw [hfind] at h
    obtain ⟨home, hhome, hpieces⟩ := Except.bind_eq_ok_iff.mp h
    have hbefore : '~' ∉ input.take idx := by
      have hsplit : input.splitOnce '~' = some (input.take idx, input.drop (idx + 1)) := by
        rw [Text.splitOnce, hfind]
        rfl
      exact (Text.splitOnce_eq_some hsplit).2
    have hplainHome : '~' ∉ home := by
      obtain ⟨user, hdir⟩ := getHome_eq_ok hhome
      exact (hplain.homedir user home hdir).2
    rw [← Except.ok.inj hpieces]
    simp [Piece.word, hbefore, hplainHome]

/-- With plain answers the expansion is complete exactly for the texts that are expanded by
one replacement for each variable. -/
theorem expandVars_complete_iff (input : Text) (env : Environment) (pamHandle : PamHandleExt)
    (out : Text) (hplain : PlainAnswers env pamHandle)
    (h : expandVars input env pamHandle = .ok out) : Complete out ↔ ExpandsOnce hplain input := by
  rw [expandVars_eq_passes, expandHomedir_eq_pieces] at h
  cases hpieces : homePieces input (getHome env pamHandle) with
  | error error =>
    rw [hpieces] at h
    exact absurd h (by simp [Except.map])
  | ok pieces =>
    rw [hpieces] at h
    have hfold : (passes env pamHandle).foldlM (fun word pass => pass.run word) (text pieces) =
        .ok out := h
    have hvariables : (∀ pattern ∈ (["%h", "%H", "%u", "%f", "%U"] : List Text),
        ¬ pattern <:+: out) ↔ ((variableSystem hplain).read 0 (text pieces)).isSome := by
      rw [← System.clean_run_iff, ← eq_runFrom hplain hfold]
      simp [System.Clean, variableSystem, variableRules, passes]
    rw [Complete, hvariables, tilde_mem_iff hplain hfold, ← tildeOnce_iff hplain hpieces]
    constructor
    · rintro ⟨htilde, hread⟩
      refine ⟨htilde, fun pieces' h' => ?_⟩
      rw [← Except.ok.inj (hpieces.symm.trans h')]
      exact hread
    · intro honce
      exact ⟨honce.tilde, honce.once pieces hpieces⟩

/-! ## A variable that is written twice -/

lemma homeEnv_plainAnswers {user : Text} (huser : PlainText user) :
    PlainAnswers (homeEnv "/home") (pamUser user) where
  homedir name home h := by
    rw [← Except.ok.inj h]
    exact ⟨by decide, by decide⟩
  hostname host h := by
    rw [← Except.ok.inj h]
    exact ⟨by decide, by decide⟩
  fqdn host h := by
    rw [← Except.ok.inj h]
    exact ⟨by decide, by decide⟩
  callingUser name h := by
    rw [← Except.ok.inj h]
    exact huser

lemma bob_plainText : PlainText "bob" := ⟨by decide, by decide⟩

lemma hob_plainText : PlainText "hob" := ⟨by decide, by decide⟩

/-- The second `%u` of a path is left. -/
theorem not_expandVars_complete : ¬ ∀ input env pamHandle out, PlainAnswers env pamHandle →
    expandVars input env pamHandle = .ok out → Complete out := by
  intro h
  have hout : expandVars "/keys/%u/%u" (homeEnv "/home") (pamUser "bob") =
      .ok ("/keys/bob/%u" : Text) := by
    decide +kernel
  have hcomplete := (h _ _ _ _ (homeEnv_plainAnswers bob_plainText) hout).2 "%u" (by simp)
  exact absurd hcomplete (by decide +kernel)

/-- A path with each variable once is expanded completely, although the name `bob` comes to
stand next to a `%`; the name `hob` completes a variable there whose pass is over. -/
theorem expandVars_complete_once :
    Complete "/home/x/%bob/host-1000" ∧ ¬ Complete "/home/x/%hob/host-1000" := by
  constructor
  · exact (expandVars_complete_iff "~/x/%%u/%H-%U" _ _ _ (homeEnv_plainAnswers bob_plainText)
      (by decide +kernel)).mpr (by decide +kernel)
  · intro hcomplete
    have honce := (expandVars_complete_iff "~/x/%%u/%H-%U" _ _ _
      (homeEnv_plainAnswers hob_plainText) (by decide +kernel)).mp hcomplete
    exact absurd honce (by decide +kernel)

end PamSshAgent
