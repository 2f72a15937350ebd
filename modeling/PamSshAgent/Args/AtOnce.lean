import PamSshAgent.Args.TrustSources
import PamSshAgent.Library.Provenance

/-!
# Expansion at once

The passes of `expand_vars` search the text that the passes before have left, with the
values that they have pasted.  This file compares them with the replacement of the first
`~user` and the first occurrence of each variable in the original text, and has the
condition under which no pass reads a pasted value as part of its variable.
-/

namespace PamSshAgent

open Occurrence Provenance

/-- `get_home` of `expand_vars`. -/
def getHome (env : Environment) (pamHandle : PamHandleExt) (s : Text) : Except Error Text := do
  let user ← if s = [] then pamHandle.getCallingUser else pure s
  env.getHomedir user

/-- The passes after the one for `~`. -/
def passes (env : Environment) (pamHandle : PamHandleExt) : List (Pass Error Char) :=
  [⟨"%h", pamHandle.getCallingUser >>= env.getHomedir⟩, ⟨"%H", env.getHostname⟩,
    ⟨"%u", pamHandle.getCallingUser⟩, ⟨"%f", env.getFqdn⟩,
    ⟨"%U", do
      let user ← pamHandle.getCallingUser
      let uid ← env.getUid user
      return Text.ofUid uid⟩]

/-- The original text, around the home directory that is pasted for its first `~user`. -/
def homePieces (input : Text) (getHomedir : Text → Except Error Text) :
    Except Error (List (Piece Char)) :=
  match find ['~'] input with
  | none => .ok [.literal 0 input]
  | some idx => do
    let user := getUsername input idx
    let home ← getHomedir user
    return [.literal 0 (input.take idx), .value home,
      .literal (idx + 1 + user.length) (input.drop (idx + 1 + user.length))]

/-- The expansion at once: the first `~user` and the first occurrence of each variable
outside it, all in the original text. -/
def expandAtOnce (input : Text) (env : Environment) (pamHandle : PamHandleExt) :
    Except Error (List (Piece Char)) := do
  let pieces ← homePieces input (getHome env pamHandle)
  replaceAll (passes env pamHandle) pieces

/-- `expand_homedir`, with the position of every letter that it keeps. -/
def expandHomedirTraced (input : Text) (getHomedir : Text → Except Error Text) :
    Except Error (Traced Char) :=
  let origin := (Piece.literal 0 input).traced
  match find ['~'] input with
  | none => .ok origin
  | some idx => do
    let user := getUsername input idx
    let home ← getHomedir user
    return origin.take idx ++ home.map (fun c => (c, none)) ++ origin.drop (idx + 1 + user.length)

/-- In the run of `expand_vars` no pass after the first reads a pasted value, alone or
together with its neighbours, as part of its variable. -/
def NeverRereads (input : Text) (env : Environment) (pamHandle : PamHandleExt) : Prop :=
  ∀ t, expandHomedirTraced input (getHome env pamHandle) = .ok t →
    NeverReread (passes env pamHandle) t

/-- The result is the expansion at once, and no pasted value is read again. -/
def ExpandsAtOnce (input : Text) (env : Environment) (pamHandle : PamHandleExt) (out : Text) :
    Prop :=
  (expandAtOnce input env pamHandle).map text = .ok out ∧ NeverRereads input env pamHandle

/-- No variable arises in what stands before its first occurrence in the original text (in
the whole text, if it does not occur there) when the first `~user` and the variables of the
passes before are replaced. -/
def VariablesApart (input : Text) (env : Environment) (pamHandle : PamHandleExt) : Prop :=
  ∀ pieces, homePieces input (getHome env pamHandle) = .ok pieces →
    ValuesApart (passes env pamHandle) pieces

instance (input : Text) (env : Environment) (pamHandle : PamHandleExt) :
    Decidable (VariablesApart input env pamHandle) :=
  inferInstanceAs (Decidable (∀ pieces, homePieces input (getHome env pamHandle) = .ok pieces →
    ValuesApart (passes env pamHandle) pieces))

/-! ## The passes of `expand_vars` -/

variable {input out : Text} {env : Environment} {pamHandle : PamHandleExt}

/-- The patterns of the passes. -/
lemma passes_pattern {pass : Pass Error Char} (hpass : pass ∈ passes env pamHandle) :
    ∃ c ∈ ['h', 'H', 'u', 'f', 'U'], pass.pattern = ['%', c] := by
  fin_cases hpass
  · exact ⟨'h', by decide, rfl⟩
  · exact ⟨'H', by decide, rfl⟩
  · exact ⟨'u', by decide, rfl⟩
  · exact ⟨'f', by decide, rfl⟩
  · exact ⟨'U', by decide, rfl⟩

lemma passes_pairs : ∀ pass ∈ passes env pamHandle, IsPair pass.pattern := by
  intro pass hpass
  obtain ⟨c, hc, hpattern⟩ := passes_pattern hpass
  refine ⟨'%', c, ?_, hpattern⟩
  rintro rfl
  exact absurd hc (by decide)

lemma expandVars_eq_passes (input : Text) (env : Environment) (pamHandle : PamHandleExt) :
    expandVars input env pamHandle = (expandHomedir input (getHome env pamHandle) >>= fun t =>
      (passes env pamHandle).foldlM (fun word pass => pass.run word) t) := by
  rw [expandVars]
  refine congrArg (expandHomedir input (getHome env pamHandle) >>= ·) (funext fun t => ?_)
  simp only [passes, List.foldlM_cons, List.foldlM_nil, bind_pure]
  rfl

/-- The pieces are the text that the first pass leaves. -/
lemma expandHomedir_eq_pieces (input : Text) (getHomedir : Text → Except Error Text) :
    expandHomedir input getHomedir = (homePieces input getHomedir).map text := by
  rw [expandHomedir, homePieces]
  cases find ['~'] input with
  | none => simp [Except.map, Piece.word]
  | some idx =>
    dsimp only
    cases getHomedir (getUsername input idx) with
    | error error => rfl
    | ok home => simp [Except.map, Piece.word, pure, Except.pure]

/-- The pieces have the positions of the letters that the first pass keeps. -/
lemma expandHomedirTraced_eq_pieces (input : Text) (getHomedir : Text → Except Error Text) :
    expandHomedirTraced input getHomedir = (homePieces input getHomedir).map traced := by
  rw [expandHomedirTraced, homePieces]
  cases find ['~'] input with
  | none => simp [Except.map, traced]
  | some idx =>
    dsimp only
    cases getHomedir (getUsername input idx) with
    | error error => rfl
    | ok home =>
      rw [Except.ok_bind, Except.ok_bind, take_literal, drop_literal, Nat.zero_add]
      simp [Except.map, traced, Piece.traced, pure, Except.pure]

/-- The stretches around the home directory do not touch: the `~` is between them. -/
lemma homePieces_separated {getHomedir : Text → Except Error Text} {pieces : List (Piece Char)}
    (h : homePieces input getHomedir = .ok pieces) : Separated 0 pieces := by
  rw [homePieces] at h
  cases hfind : find ['~'] input with
  | none =>
    rw [hfind] at h
    rw [← Except.ok.inj h]
    exact ⟨le_rfl, trivial⟩
  | some idx =>
    rw [hfind] at h
    obtain ⟨home, -, hpieces⟩ := Except.bind_eq_ok_iff.mp h
    rw [← Except.ok.inj hpieces]
    refine ⟨le_rfl, ?_, trivial⟩
    have hlength : (input.take idx).length ≤ idx := List.length_take_le idx input
    omega

/-- The expansion is at once, and no value is read again, exactly when the variables are kept
apart from the values. -/
theorem expandsAtOnce_iff (input : Text) (env : Environment) (pamHandle : PamHandleExt)
    (out : Text) (h : expandVars input env pamHandle = .ok out) :
    ExpandsAtOnce input env pamHandle out ↔ VariablesApart input env pamHandle := by
  rw [expandVars_eq_passes, expandHomedir_eq_pieces] at h
  cases hpieces : homePieces input (getHome env pamHandle) with
  | error error =>
    rw [hpieces] at h
    exact absurd h (by simp [Except.map])
  | ok pieces =>
    rw [hpieces] at h
    have hfold : (passes env pamHandle).foldlM (fun word pass => pass.run word) (text pieces) =
        .ok out := h
    have hsep := homePieces_separated hpieces
    have hreads : NeverRereads input env pamHandle ↔
        NeverReread (passes env pamHandle) (traced pieces) := by
      simp [NeverRereads, expandHomedirTraced_eq_pieces, hpieces, Except.map]
    have hvariables : VariablesApart input env pamHandle ↔
        ValuesApart (passes env pamHandle) pieces := by
      simp [VariablesApart, hpieces]
    rw [ExpandsAtOnce, hreads, hvariables, neverReread_iff passes_pairs hsep]
    refine and_iff_right_of_imp fun hapart => ?_
    rw [expandAtOnce, hpieces, Except.ok_bind, ← hfold]
    exact (foldlM_run_of_valuesApart passes_pairs hsep hapart).symm

/-! ## A user name that is a variable -/

/-- The user `%f` gets the name of the host for `%u`. -/
theorem not_expandsAtOnce : ¬ ∀ input env pamHandle out,
    expandVars input env pamHandle = .ok out → ExpandsAtOnce input env pamHandle out := by
  intro h
  have hout : expandVars "/keys/%u" (homeEnv "/home") (pamUser "%f") = .ok ("/keys/host" : Text) := by
    decide +kernel
  have honce : (expandAtOnce "/keys/%u" (homeEnv "/home") (pamUser "%f")).map text =
      .ok ("/keys/%f" : Text) := by
    decide +kernel
  have hsame := honce.symm.trans (h _ _ _ _ hout).1
  exact absurd hsame (by decide)

/-- A plain user is expanded at once; a name that completes a `%` on its left is not. -/
theorem expandsAtOnce_plainUser :
    ExpandsAtOnce "~/%u/%%u%f" (homeEnv "/home") (pamUser "bob") "/home/bob/%%uhost" ∧
      ¬ ExpandsAtOnce "~/%%u" (homeEnv "/home") (pamUser "fbob") "/home/hostbob" :=
  ⟨(expandsAtOnce_iff _ _ _ _ (by decide +kernel)).mpr (by decide +kernel), fun h =>
    absurd ((expandsAtOnce_iff _ _ _ _ (by decide +kernel)).mp h) (by decide +kernel)⟩

end PamSshAgent
