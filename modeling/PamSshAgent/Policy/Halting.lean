import PamSshAgent.Cmd.Deadline
import PamSshAgent.Policy.Roles
import PamSshAgent.Trust.Bounded

/-!
# Loading the policy comes to an end

The loops of a load are those that read a file and those that watch the helper.  None of them
can be kept going by what a file or the helper delivers, so a load ends with a policy or with an
error, unless reads are interrupted again and again or the clock stands still.
-/

namespace PamSshAgent

open Interaction

/-- The calls to the file system in a load. -/
def fileCallsOf (es : List (Event PolicyCalls)) : List (Event FsCalls) :=
  es.filterMap fun
    | ⟨.inl query, reply⟩ => some ⟨query, reply⟩
    | _ => none

/-- The calls for the helper in a load. -/
def helperCallsOf (es : List (Event PolicyCalls)) : List (Event CmdCalls) :=
  es.filterMap fun
    | ⟨.inr query, reply⟩ => some ⟨query, reply⟩
    | _ => none

/-- How often the loops of a load could go on. -/
def loadStalls (es : List (Event PolicyCalls)) : ℕ :=
  (fileCallsOf es).countP Interrupted + helperStalls maxDuration (helperCallsOf es)

/-- What the loops do at most besides that. -/
def loopBound : ℕ := maxOutputBytes + maxPolicyBytes + 2

/-- After the calls `before`, the calls `es` could keep a loop with this bound going. -/
def KeptGoing (fuel : ℕ) (before es : List (Event PolicyCalls)) : Prop :=
  fuel ≤ loadStalls (before ++ es) + loopBound

variable {fuel : ℕ} {crate : SshKeyCrate} {host : Host} {sources : PolicySources}
  {mode : PolicyMode} {before es es' : List (Event PolicyCalls)}

lemma keptGoing_append : KeptGoing fuel before (es ++ es') ↔ KeptGoing fuel (before ++ es) es' := by
  rw [KeptGoing, KeptGoing, List.append_assoc]

lemma fileCallsOf_append : fileCallsOf (es ++ es') = fileCallsOf es ++ fileCallsOf es' :=
  List.filterMap_append

lemma helperCallsOf_append : helperCallsOf (es ++ es') = helperCallsOf es ++ helperCallsOf es' :=
  List.filterMap_append

@[simp] lemma fileCallsOf_fsPart (calls : List (Event FsCalls)) :
    fileCallsOf (calls.map fsPart.event) = calls := by
  rw [fileCallsOf, List.filterMap_map]
  exact List.filterMap_some

@[simp] lemma helperCallsOf_cmdPart (calls : List (Event CmdCalls)) :
    helperCallsOf (calls.map cmdPart.event) = calls := by
  rw [helperCallsOf, List.filterMap_map]
  exact List.filterMap_some

/-- Calls to the file system are none of the helper's. -/
@[simp] lemma helperCallsOf_fsPart (calls : List (Event FsCalls)) :
    helperCallsOf (calls.map fsPart.event) = [] := by
  rw [helperCallsOf, List.filterMap_map]
  exact List.filterMap_eq_nil_iff.mpr fun _ _ => rfl

/-- A file that is read. -/
lemma lift_spins_file {α : Type} {p : Prog FsCalls Error α}
    (h : p.SpinsOnly fun calls => fuel ≤ calls.countP Interrupted + maxPolicyBytes + 2) :
    (p.lift fsPart).SpinsOnly (KeptGoing fuel before) := by
  refine Prog.SpinsOnly.lift (h.mono fun calls hcalls => ?_)
  rw [KeptGoing, loadStalls, loopBound, fileCallsOf_append, fileCallsOf_fsPart, List.countP_append]
  omega

lemma fromFile_spins (filename : OsStr) (caKeys : Bool) :
    (fromFile fuel crate filename caKeys mode).SpinsOnly (KeptGoing fuel before) := by
  rw [fromFile]
  refine Prog.SpinsOnly.bind ?_ fun _ contents _ => ?_
  · cases mode with
    | legacy => exact lift_spins_file (fsCall_spins _)
    | strict => exact lift_spins_file (readStrictFile_spins fuel filename 0)
  · split
    · exact Prog.spinsOnly_fail _
    · exact Prog.spinsOnly_ofExcept _

lemma fileItems_spins :
    (sources.fileItems fuel crate mode).SpinsOnly (KeptGoing fuel before) := by
  rw [PolicySources.fileItems]
  refine (fromFile_spins _ _).attempt.bind fun _ items _ => ?_
  rcases items with error | keys
  · dsimp only
    split_ifs
    · exact Prog.spinsOnly_ret _
    · exact Prog.spinsOnly_fail _
  · exact Prog.spinsOnly_ret _

lemma caItems_spins : (sources.caItems fuel crate mode).SpinsOnly (KeptGoing fuel before) := by
  rw [PolicySources.caItems]
  split
  · exact fromFile_spins _ _
  · exact Prog.spinsOnly_ret _

/-! ## The files come before the helper -/

lemma helperCallsOf_of_fileLoads {filename : OsStr} {entries : List Entry}
    (h : FileLoads fuel crate filename mode es entries) : helperCallsOf es = [] := by
  obtain ⟨text, hcontents, -⟩ := h
  cases mode with
  | legacy =>
    obtain ⟨calls, rfl, -⟩ := Prog.returns_lift.mp hcontents
    exact helperCallsOf_fsPart calls
  | strict =>
    obtain ⟨calls, rfl, -⟩ := Prog.returns_lift.mp hcontents
    exact helperCallsOf_fsPart calls

lemma helperCallsOf_of_fileItems {items : List Authorized}
    (h : (sources.fileItems fuel crate mode).Returns es items) : helperCallsOf es = [] := by
  obtain ⟨entries, hloads | ⟨-, -, rfl⟩, -⟩ := returns_fileItems.mp h
  · exact helperCallsOf_of_fileLoads hloads
  · exact helperCallsOf_fsPart [_]

lemma helperCallsOf_of_caItems {items : List Authorized}
    (h : (sources.caItems fuel crate mode).Returns es items) : helperCallsOf es = [] := by
  obtain ⟨entries, hloads, -⟩ := returns_caItems.mp h
  cases hsource : sources.caKeysFile with
  | none =>
    rw [hsource] at hloads
    rw [hloads.1]
    rfl
  | some caKeysFile =>
    rw [hsource] at hloads
    exact helperCallsOf_of_fileLoads hloads

lemma helperCallsOf_of_helperPath {command path : Text}
    (h : (helperPath command mode).Returns es path) : helperCallsOf es = [] := by
  cases mode with
  | legacy =>
    obtain ⟨rfl, -⟩ := Prog.returns_ret.mp h
    rfl
  | strict =>
    obtain ⟨calls, rfl, -⟩ := returns_helperPath h
    exact helperCallsOf_fsPart calls

/-- The helper that is run after the files. -/
lemma runHelper_spins {command : List Text} {uid : Uid} {gid : Option Gid} {prevent : Bool}
    (hbefore : helperCallsOf before = []) :
    ((runInner fuel command maxDuration uid gid prevent).lift cmdPart).SpinsOnly
      (KeptGoing fuel before) := by
  refine Prog.SpinsOnly.lift ((runInner_spins _ _ _ _ _ _).mono fun calls hcalls => ?_)
  rw [KeptGoing, loadStalls, loopBound, helperCallsOf_append, hbefore, helperCallsOf_cmdPart,
    List.nil_append]
  omega

lemma helperItems_spins (hbefore : helperCallsOf before = []) :
    (sources.helperItems fuel crate host mode).SpinsOnly (KeptGoing fuel before) := by
  rw [PolicySources.helperItems]
  split
  swap
  · exact Prog.spinsOnly_ret _
  rename_i command _
  refine (Prog.spinsOnly_ofExcept _).bind fun es₀ uid huid => ?_
  obtain ⟨rfl, -⟩ := Prog.returns_ofExcept.mp huid
  rw [fromCommand]
  have hpath : (helperPath command mode).SpinsOnly (KeptGoing fuel before) := by
    cases mode with
    | legacy => exact Prog.spinsOnly_ret _
    | strict =>
      refine (lift_spins_file (validateTrustPath_spins _ _)).bind fun _ canonical _ => ?_
      split
      · exact Prog.spinsOnly_ret _
      · exact Prog.spinsOnly_fail _
  refine hpath.bind fun es₁ path hreturns => ?_
  have hfiles : helperCallsOf (before ++ es₁) = [] := by
    rw [helperCallsOf_append, hbefore, helperCallsOf_of_helperPath hreturns, List.append_nil]
  have houtput : (helperOutput fuel path uid sources.callingUser mode).SpinsOnly
      fun es => KeptGoing fuel before (es₁ ++ es) := by
    simp only [keptGoing_append]
    cases mode with
    | legacy => exact runHelper_spins hfiles
    | strict => exact runHelper_spins hfiles
  exact houtput.bind fun _ _ _ => Prog.spinsOnly_ofExcept _

/-- Neither the files nor the helper can keep a load from ending. -/
lemma newWithMode_spins : (IdentityFilter.newWithMode fuel crate host sources mode).SpinsOnly
    fun es => fuel ≤ loadStalls es + loopBound := by
  have hstart : (IdentityFilter.newWithMode fuel crate host sources mode).SpinsOnly
      (KeptGoing fuel []) := by
    rw [IdentityFilter.newWithMode]
    refine fileItems_spins.bind fun es₁ file hfile => ?_
    have hfiles := helperCallsOf_of_fileItems hfile
    simp only [keptGoing_append]
    refine caItems_spins.bind fun es₂ ca hca => ?_
    have hcas : helperCallsOf ([] ++ es₁ ++ es₂) = [] := by
      rw [List.nil_append, helperCallsOf_append, hfiles, helperCallsOf_of_caItems hca,
        List.append_nil]
    simp only [keptGoing_append]
    exact (helperItems_spins hcas).bind fun _ _ _ => Prog.spinsOnly_ret _
  exact hstart

end PamSshAgent
