import PamSshAgent.Library.Responders
import PamSshAgent.Policy.Halting
import PamSshAgent.Trust.Delivered

/-!
# What the sources deliver

A policy is loaded exactly when every configured source delivers a text that parses.  What a
source delivers is said by the replies alone: a file by one call or by reads up to its end, a
helper by all that it prints until its pipes are closed and it has exited with success.
-/

namespace PamSshAgent

open Interaction

/-- The calls `es` deliver the text of the file. -/
def FileDelivers (fuel : ℕ) (filename : OsStr) (text : Text) (es : List (Event PolicyCalls)) :
    PolicyMode → Prop
  | .legacy => es = [fsPart.event ⟨.readToString filename, .ok text⟩]
  | .strict => ∃ calls, es = calls.map fsPart.event ∧ StrictFileDelivers fuel filename 0 calls text

/-- The calls `es` lead to the path of the helper: in strict mode it passes its checks and has no
symbolic links. -/
def HelperFound (command path : Text) (es : List (Event PolicyCalls)) : PolicyMode → Prop
  | .legacy => es = [] ∧ path = command
  | .strict => ∃ calls canonical, es = calls.map fsPart.event ∧
      PathPasses command.bytes 0 calls canonical ∧ Text.fromUtf8 canonical = some path

/-- The calls `es` run the helper as a user that exists, up to the end of its output, and this is
the text. -/
def HelperDelivers (fuel : ℕ) (host : Host) (command user callingUser text : Text)
    (mode : PolicyMode) (es : List (Event PolicyCalls)) : Prop :=
  ∃ uid path esPath calls, host.getUid user = .ok uid ∧ es = esPath ++ calls.map cmdPart.event ∧
    HelperFound command path esPath mode ∧ CompleteOutput calls text ∧
    (runInner fuel [path, callingUser] maxDuration uid none (mode = .strict)).Returns calls text

/-- The file delivers a text that parses, with the given entries. -/
def FileContributes (fuel : ℕ) (crate : SshKeyCrate) (filename : OsStr) (mode : PolicyMode)
    (es : List (Event PolicyCalls)) (entries : List Entry) : Prop :=
  ∃ text, FileDelivers fuel filename text es mode ∧ (Text.fromUtf8 filename).isSome = true ∧
    Parses crate text mode ∧ entries = parsedEntries crate text

/-- The helper delivers a text that parses, with the given entries. -/
def HelperContributes (fuel : ℕ) (crate : SshKeyCrate) (host : Host)
    (command user callingUser : Text) (mode : PolicyMode) (es : List (Event PolicyCalls))
    (entries : List Entry) : Prop :=
  ∃ text, HelperDelivers fuel host command user callingUser text mode es ∧
    Parses crate text mode ∧ entries = parsedEntries crate text

/-- A source that need not be configured: nothing is called for one that is not there. -/
def IfConfigured {γ : Type} (contributes : γ → List (Event PolicyCalls) → List Entry → Prop) :
    Option γ → List (Event PolicyCalls) → List Entry → Prop
  | some source, es, entries => contributes source es entries
  | none, es, entries => es = [] ∧ entries = []

/-- Every configured source delivers its entries; in legacy mode the authorized-keys file may be
missing. -/
def SourcesDeliver (fuel : ℕ) (crate : SshKeyCrate) (host : Host) (sources : PolicySources)
    (mode : PolicyMode) (es : List (Event PolicyCalls)) (loaded : LoadedEntries) : Prop :=
  ∃ esFile esCa esHelper, es = esFile ++ esCa ++ esHelper ∧
    (FileContributes fuel crate sources.authorizedKeysFile mode esFile loaded.file ∨
      mode = .legacy ∧ loaded.file = [] ∧
        esFile = [fsPart.event ⟨.readToString sources.authorizedKeysFile, .error .notFound⟩]) ∧
    IfConfigured (fun filename => FileContributes fuel crate filename mode) sources.caKeysFile esCa
      loaded.ca ∧
    IfConfigured (fun command => HelperContributes fuel crate host command sources.helperUser
      sources.callingUser mode) sources.authorizedKeysCommand esHelper loaded.helper

variable {fuel : ℕ} {crate : SshKeyCrate} {host : Host} {sources : PolicySources}
  {mode : PolicyMode} {es : List (Event PolicyCalls)} {filename : OsStr} {text : Text}
  {entries : List Entry} {loaded : LoadedEntries}

/-- The contents of a file are what it delivers. -/
lemma returns_fileContents :
    (fileContents fuel filename mode).Returns es text ↔ FileDelivers fuel filename text es mode := by
  cases mode with
  | legacy =>
    refine Prog.returns_lift.trans ?_
    constructor
    · rintro ⟨calls, rfl, hcall⟩
      rw [returns_fsCall.mp hcall]
      rfl
    · rintro rfl
      exact ⟨_, rfl, returns_fsCall.mpr rfl⟩
  | strict =>
    refine Prog.returns_lift.trans ?_
    simp only [returns_readStrictFile, FileDelivers]

lemma fileLoads_iff : FileLoads fuel crate filename mode es entries ↔
    FileContributes fuel crate filename mode es entries := by
  simp only [FileLoads, FileContributes, returns_fileContents]

lemma returns_helperPath_iff {command path : Text} :
    (helperPath command mode).Returns es path ↔ HelperFound command path es mode := by
  cases mode with
  | legacy => exact Prog.returns_ret
  | strict =>
    rw [returns_helperPath_strict]
    simp only [returns_validateTrustPath, HelperFound]

/-- The output of the helper is complete. -/
lemma returns_helperOutput {path callingUser : Text} {uid : Uid} :
    (helperOutput fuel path uid callingUser mode).Returns es text ↔
      ∃ calls, es = calls.map cmdPart.event ∧ CompleteOutput calls text ∧
        (runInner fuel [path, callingUser] maxDuration uid none (mode = .strict)).Returns calls
          text := by
  have hlift : (helperOutput fuel path uid callingUser mode).Returns es text ↔
      ((runInner fuel [path, callingUser] maxDuration uid none (mode = .strict)).lift
        cmdPart).Returns es text := by
    cases mode with
    | legacy => exact Iff.rfl
    | strict => exact Iff.rfl
  rw [hlift, Prog.returns_lift]
  exact exists_congr fun calls => and_congr_right fun _ =>
    ⟨fun h => ⟨completeOutput_of_returns h, h⟩, And.right⟩

lemma helperLoads_iff {command user callingUser : Text} :
    HelperLoads fuel crate host command user callingUser mode es entries ↔
      HelperContributes fuel crate host command user callingUser mode es entries := by
  simp only [HelperLoads, HelperContributes, HelperDelivers, returns_helperPath_iff,
    returns_helperOutput]
  constructor
  · rintro ⟨uid, path, text, esPath, _, huid, rfl, hfound, ⟨calls, rfl, hcomplete, hrun⟩, hparses,
      rfl⟩
    exact ⟨text, ⟨uid, path, esPath, calls, huid, rfl, hfound, hcomplete, hrun⟩, hparses, rfl⟩
  · rintro ⟨text, ⟨uid, path, esPath, calls, huid, rfl, hfound, hcomplete, hrun⟩, hparses, rfl⟩
    exact ⟨uid, path, text, esPath, _, huid, rfl, hfound, ⟨calls, rfl, hcomplete, hrun⟩, hparses,
      rfl⟩

/-- The sources load exactly what they deliver. -/
lemma sourcesLoad_iff : SourcesLoad fuel crate host sources mode es loaded ↔
    SourcesDeliver fuel crate host sources mode es loaded := by
  cases hca : sources.caKeysFile with
  | none =>
    cases hcommand : sources.authorizedKeysCommand with
    | none => simp only [SourcesLoad, SourcesDeliver, IfConfigured, hca, hcommand, fileLoads_iff]
    | some command =>
      simp only [SourcesLoad, SourcesDeliver, IfConfigured, hca, hcommand, fileLoads_iff,
        helperLoads_iff]
  | some caKeysFile =>
    cases hcommand : sources.authorizedKeysCommand with
    | none => simp only [SourcesLoad, SourcesDeliver, IfConfigured, hca, hcommand, fileLoads_iff]
    | some command =>
      simp only [SourcesLoad, SourcesDeliver, IfConfigured, hca, hcommand, fileLoads_iff,
        helperLoads_iff]

/-- **The roles that a policy gives.**  In either mode and whatever the replies are, the policy is
loaded exactly when every configured source delivers a text that parses, where in legacy mode the
authorized-keys file may be missing, and then it accepts exactly the identities that have the role
they need.  Every load comes to an end, unless reads are interrupted or the clock is read before
the deadline of the helper more often than any bound on the loops. -/
theorem policy_roles (fuel : ℕ) (crate : SshKeyCrate) (host : Host) (sources : PolicySources)
    (mode : PolicyMode) :
    (∀ es, (∃ policy,
        (IdentityFilter.newWithMode fuel crate host sources mode).Returns es policy) ↔
      ∃ loaded, SourcesDeliver fuel crate host sources mode es loaded) ∧
    (∀ es policy, (IdentityFilter.newWithMode fuel crate host sources mode).Returns es policy →
      ∀ loaded, SourcesDeliver fuel crate host sources mode es loaded →
        ∀ identity, policy.filter identity = true ↔ loaded.Accepts identity) ∧
    ∀ (σ : Type) (responder : Prog.Responder PolicyCalls σ) (s : σ),
      let run := (IdentityFilter.newWithMode fuel crate host sources mode).run responder s
      loadStalls run.2.1 + loopBound < fuel → ∃ x, run.1 = Prog.ofExcept x ∧
        ((∃ policy, x = .ok policy) ↔
          ∃ loaded, SourcesDeliver fuel crate host sources mode run.2.1 loaded) := by
  have hloads : ∀ es, (∃ policy,
      (IdentityFilter.newWithMode fuel crate host sources mode).Returns es policy) ↔
        ∃ loaded, SourcesDeliver fuel crate host sources mode es loaded := by
    intro es
    constructor
    · rintro ⟨policy, hreturns⟩
      obtain ⟨loaded, hloaded, -⟩ := returns_newWithMode.mp hreturns
      exact ⟨loaded, sourcesLoad_iff.mp hloaded⟩
    · rintro ⟨loaded, hloaded⟩
      exact ⟨_, returns_newWithMode.mpr ⟨loaded, sourcesLoad_iff.mpr hloaded, rfl⟩⟩
  refine ⟨hloads, ?_, ?_⟩
  · intro es policy hreturns loaded hloaded
    -- the calls determine the policy
    have hsame := returns_newWithMode.mpr ⟨loaded, sourcesLoad_iff.mpr hloaded, rfl⟩
    have hends : (IdentityFilter.newWithMode fuel crate host sources mode).Ends es (.ok policy) :=
      hreturns
    obtain rfl := Except.ok.inj (hends.unique hsame)
    exact loaded.filter_authorized _
  · intro σ responder s run hfuel
    obtain ⟨x, hx⟩ := newWithMode_spins.exists_ends (Nat.not_le.mpr hfuel)
    have hends : (IdentityFilter.newWithMode fuel crate host sources mode).Ends run.2.1 x := by
      have hsteps := Prog.steps_run responder
        (IdentityFilter.newWithMode fuel crate host sources mode) s
      rwa [hx] at hsteps
    refine ⟨x, hx, Iff.trans ?_ (hloads run.2.1)⟩
    constructor
    · rintro ⟨policy, rfl⟩
      exact ⟨policy, hends⟩
    · rintro ⟨policy, hreturns⟩
      exact ⟨policy, hends.unique hreturns⟩

/-- Every file holds the line with the key. -/
def keyLineFiles : Prog.Responder FsCalls Unit
  | .readToString _, _ => (.ok keyLine, ())
  | _, _ => (.error .notFound, ())

/-- The load that reads it. -/
def keyLineRun : Prog PolicyCalls Error IdentityFilter × List (Event PolicyCalls) ×
    (Unit × Schedule) :=
  (IdentityFilter.newWithMode (2 ^ 22) keyLineCrate emptyHost keyLineSources .legacy).run
    (keyLineFiles.onFst.sum Schedule.responder.onSnd) ((), sleeper)

/-- That load gives a policy with the role of the key. -/
theorem policy_roles_keyLine : ∃ policy loaded, keyLineRun.1 = .ret policy ∧
    SourcesDeliver (2 ^ 22) keyLineCrate emptyHost keyLineSources .legacy keyLineRun.2.1 loaded ∧
      ∀ identity, policy.filter identity = true ↔ loaded.Accepts identity := by
  obtain ⟨hloads, hroles, hends⟩ :=
    policy_roles (2 ^ 22) keyLineCrate emptyHost keyLineSources .legacy
  have hreturns : (IdentityFilter.newWithMode (2 ^ 22) keyLineCrate emptyHost keyLineSources
      .legacy).Returns keyLineRun.2.1 (IdentityFilter.ofAuthorized [.key lineKey.keyData] false) :=
    keyLine_loads (2 ^ 22) emptyHost
  obtain ⟨loaded, hloaded⟩ := (hloads _).mp ⟨_, hreturns⟩
  obtain ⟨x, hx, hsucceeds⟩ := hends (Unit × Schedule)
    (keyLineFiles.onFst.sum Schedule.responder.onSnd) ((), sleeper) (by decide +kernel)
  obtain ⟨policy, rfl⟩ := hsucceeds.mpr ⟨loaded, hloaded⟩
  have hpolicy : (IdentityFilter.newWithMode (2 ^ 22) keyLineCrate emptyHost keyLineSources
      .legacy).Returns keyLineRun.2.1 policy := by
    have hsteps := Prog.steps_run (keyLineFiles.onFst.sum Schedule.responder.onSnd)
      (IdentityFilter.newWithMode (2 ^ 22) keyLineCrate emptyHost keyLineSources .legacy)
      ((), sleeper)
    rwa [hx] at hsteps
  exact ⟨policy, loaded, hx, hloaded, hroles _ policy hpolicy loaded hloaded⟩

end PamSshAgent
