import PamSshAgent.Environment

/-!
# Variable expansions

`expand_vars` edits a text in six passes, one after another: the first `~` with the user
name after it, then the first occurrence of each of `%h`, `%H`, `%u`, `%f` and `%U`.  Each
pass works on the result of the one before.
-/

namespace PamSshAgent

open Occurrence

/-- `get_username`: the text after the tilde at `idx`, up to the next slash. -/
def getUsername (input : Text) (idx : ℕ) : Text :=
  (input.drop (idx + 1)).takeWhile (· ≠ '/')

/-- `expand_var`. -/
def expandVar (input pattern : Text) (getValue : Except Error Text) : Except Error Text :=
  match find pattern input with
  | none => .ok input
  | some idx => do
    let value ← getValue
    return input.take idx ++ value ++ input.drop (idx + pattern.length)

/-- `expand_homedir`. -/
def expandHomedir (input : Text) (getHomedir : Text → Except Error Text) : Except Error Text :=
  match find ['~'] input with
  | none => .ok input
  | some idx => do
    let user := getUsername input idx
    let home ← getHomedir user
    return input.take idx ++ home ++ input.drop (idx + 1 + user.length)

/-- `expand_vars`. -/
def expandVars (input : Text) (env : Environment) (pamHandle : PamHandleExt) :
    Except Error Text := do
  let getHome (s : Text) : Except Error Text := do
    let user ← if s = [] then pamHandle.getCallingUser else pure s
    env.getHomedir user
  let input ← expandHomedir input getHome
  let input ← expandVar input "%h" (pamHandle.getCallingUser >>= env.getHomedir)
  let input ← expandVar input "%H" env.getHostname
  let input ← expandVar input "%u" pamHandle.getCallingUser
  let input ← expandVar input "%f" env.getFqdn
  expandVar input "%U" do
    let user ← pamHandle.getCallingUser
    let uid ← env.getUid user
    return Text.ofUid uid

/-! ## The passes -/

lemma expandVar_of_not_occurs {input pattern : Text} (h : ¬ pattern <:+: input)
    (getValue : Except Error Text) : expandVar input pattern getValue = .ok input := by
  simp [expandVar, find_eq_none_iff.mpr h]

lemma expandVar_of_occurs {input pattern : Text} (h : pattern <:+: input)
    (getValue : Except Error Text) :
    expandVar input pattern getValue =
      getValue.map fun value => replaceFirst pattern value input := by
  obtain ⟨i, hi⟩ := find_eq_some_of_occurs h
  cases getValue with
  | error e =>
    simp only [expandVar, hi]
    rfl
  | ok value =>
    simp only [expandVar, hi, Except.map, replaceFirst_of_find hi]
    rfl

/-- A pass that succeeds either finds nothing and changes nothing, or replaces the first
occurrence of its pattern. -/
lemma expandVar_eq_ok {input pattern out : Text} {getValue : Except Error Text}
    (h : expandVar input pattern getValue = .ok out) :
    (¬ pattern <:+: input ∧ out = input) ∨
      (pattern <:+: input ∧ ∃ value, getValue = .ok value ∧
        out = replaceFirst pattern value input) := by
  by_cases hp : pattern <:+: input
  · rw [expandVar_of_occurs hp] at h
    cases getValue with
    | error e => simp [Except.map] at h
    | ok value => exact Or.inr ⟨hp, value, rfl, by simpa [Except.map] using h.symm⟩
  · rw [expandVar_of_not_occurs hp] at h
    exact Or.inl ⟨hp, by simpa using h.symm⟩

lemma expandHomedir_of_notMem {input : Text} (h : '~' ∉ input)
    (getHomedir : Text → Except Error Text) : expandHomedir input getHomedir = .ok input := by
  have hfind : find ['~'] input = none := by
    rw [find_eq_none_iff, List.singleton_infix_iff]
    exact h
  simp [expandHomedir, hfind]

/-! ## Texts without patterns -/

/-- A text that no pass fed by the home directory touches. -/
def HomeFree (t : Text) : Prop := '~' ∉ t ∧ ¬ ("%h" : Text) <:+: t

/-- A text that no pass touches. -/
def Static (t : Text) : Prop :=
  HomeFree t ∧ ∀ pattern ∈ (["%u", "%U", "%H", "%f"] : List Text), ¬ pattern <:+: t

/-- On a text without a tilde and without `%h` the home directories do not matter. -/
lemma expandVars_homeFree {t : Text} (h : HomeFree t) {env env' : Environment}
    (hagree : AgreeExceptHomedir env env') (pamHandle : PamHandleExt) :
    expandVars t env pamHandle = expandVars t env' pamHandle := by
  simp only [expandVars, expandHomedir_of_notMem h.1, Except.ok_bind,
    expandVar_of_not_occurs h.2, hagree.hostname, hagree.fqdn, hagree.uid]

/-- A static text is its own expansion. -/
lemma expandVars_static {t : Text} (h : Static t) (env : Environment)
    (pamHandle : PamHandleExt) : expandVars t env pamHandle = .ok t := by
  obtain ⟨⟨htilde, hhome⟩, hrest⟩ := h
  have hu := hrest "%u" (by simp)
  have hU := hrest "%U" (by simp)
  have hH := hrest "%H" (by simp)
  have hf := hrest "%f" (by simp)
  simp only [expandVars, expandHomedir_of_notMem htilde, Except.ok_bind,
    expandVar_of_not_occurs hhome, expandVar_of_not_occurs hH, expandVar_of_not_occurs hu,
    expandVar_of_not_occurs hf, expandVar_of_not_occurs hU]

end PamSshAgent
