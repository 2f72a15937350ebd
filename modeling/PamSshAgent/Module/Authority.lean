import PamSshAgent.Cmd.Output
import PamSshAgent.Module.Agreement
import PamSshAgent.Module.Answers
import PamSshAgent.Module.HelperFile

/-!
# What the success of a strict call rests on

In strict mode nobody but root decides whom the policy trusts: each of its entries is a line of a
file that only root can replace, or a line that a helper has printed whose program only root can
replace.  This holds while unprivileged users change the file system between the calls of the
module, and while the agent is anyone.  So a strict call that succeeds by its agent has been
vouched for by the holder of a key that root has chosen.
-/

namespace PamSshAgent

open Interaction Interleaving

/-- In a call of the module with these events, the entry is a line of what a part of them has read
from the path: the file that was opened is kept from that moment on, and it was read as it was
there, unless others can write to it. -/
inductive FileAuthority (fuel : ℕ) (crate : SshKeyCrate) (tr : List (Fs × Event ModuleCalls))
    (path : OsStr) (entry : Entry) : Prop where
  | intro (reads : List (Fs × Event FsCalls)) (text : Text) (now : Fs) (canonical : OsStr)
      (file : FileId) (trail : Trail)
      (among : reads.map (Prod.map id trustPart.event) <:+: tr)
      (returned : (readStrictFile fuel path 0).Returns (reads.map Prod.snd) text)
      (opened : (now, ⟨.openFile canonical, .ok file⟩) ∈ reads)
      (kept : now.Kept 0 canonical trail) (here : file = now.here trail)
      (content : now.StoreClosed canonical → (now.node file).content = .file text.bytes)
      (line : .ok entry ∈ crate.authorizedKeys text)

/-- In a call of the module with these events, the entry is a line of the complete output of the
helper that a part of them has run: its program is the path that was checked, and is kept from the
moment on when it is started. -/
inductive HelperAuthority (crate : SshKeyCrate) (tr : List (Fs × Event ModuleCalls))
    (path : Text) (entry : Entry) : Prop where
  | intro (checks : List (Fs × Event FsCalls)) (calls : List (Fs × Event CmdCalls)) (text : Text)
      (now : Fs) (command : Command) (child : Child) (trail : Trail)
      (among : checks.map (Prod.map id trustPart.event) ++ calls.map (Prod.map id helperPart.event)
        <:+: tr)
      (checked : (validateTrustPath path.bytes 0).Returns (checks.map Prod.snd)
        command.program.bytes)
      (started : (now, ⟨.spawn command, .ok child⟩) ∈ calls)
      (kept : now.Kept 0 command.program.bytes trail)
      (printed : CompleteOutput (calls.map Prod.snd) text)
      (line : .ok entry ∈ crate.authorizedKeys text)

variable {fuel : ℕ} {crate : SshKeyCrate} {host : Host} {fs fs' : Fs} {entry : Entry}
  {tr tr₁ tr₂ tr₃ : List (Fs × Event ModuleCalls)} {entries : List Entry}

lemma mem_of_parsedEntries {text : Text} (h : entry ∈ parsedEntries crate text) :
    .ok entry ∈ crate.authorizedKeys text := by
  obtain ⟨line, hline, hentry⟩ := List.mem_filterMap.mp h
  cases line with
  | error error => exact absurd hentry (by simp [Except.toOption])
  | ok entry' =>
    obtain rfl : entry' = entry := Option.some.inj hentry
    exact hline

/-- The entries of a file that is loaded in strict mode. -/
lemma authority_of_fileLoads {filename : OsStr} {es : List (Event PolicyCalls)}
    (hserves : Serves (moduleWorld 0) fs tr fs') (htr : tr = tr₁ ++ tr₂ ++ tr₃)
    (hevents : tr₂.map Prod.snd = es.map policyPart.event)
    (h : FileLoads fuel crate filename .strict es entries) (hentry : entry ∈ entries) :
    FileAuthority fuel crate tr filename entry := by
  subst htr
  obtain ⟨text, hcontents, -, -, rfl⟩ := h
  obtain ⟨calls, rfl, hread⟩ := Prog.returns_lift.mp hcontents
  rw [List.map_map] at hevents
  obtain ⟨_, hread', -⟩ := hserves.split
  obtain ⟨_, -, hserves₂⟩ := hread'.split
  obtain ⟨tr', rfl, hruns⟩ := runs_of_serves hserves₂ hevents hread
  obtain ⟨now, canonical, file, trail, hopened, hkept, hhere, hcontent⟩ :=
    kept_of_readStrictFile hruns
  exact .intro tr' text now canonical file trail ⟨tr₁, tr₃, rfl⟩ hruns.2 hopened hkept hhere
    hcontent (mem_of_parsedEntries hentry)

/-- What `run_inner` calls first. -/
lemma exists_spawn_of_returns {executable : Text} {args : List Text} {timeout : Duration}
    {uid : Uid} {gid : Option Gid} {prevent : Bool} {es : List (Event CmdCalls)} {text : Text}
    (h : (runInner fuel (executable :: args) timeout uid gid prevent).Returns es text) :
    ∃ command child, command.program = executable ∧
      (⟨.spawn command, .ok child⟩ : Event CmdCalls) ∈ es := by
  rw [runInner] at h
  split_ifs at h with habsolute
  · exact absurd h Prog.not_returns_fail
  obtain ⟨es₀, es₁, lowGid, rfl, hgid, hrest⟩ := Prog.returns_bind.mp h
  rw [Prog.query_bind, Prog.returns_ask] at hrest
  obtain ⟨euid, es₂, rfl, hrest⟩ := hrest
  rw [Prog.query_bind, Prog.returns_ask] at hrest
  obtain ⟨start, es₃, rfl, hrest⟩ := hrest
  rw [Prog.query_bind, Prog.returns_ask] at hrest
  obtain ⟨reply, es₄, rfl, hrest⟩ := hrest
  cases reply with
  | error error => exact absurd hrest Prog.not_returns_fail
  | ok child => exact ⟨helperCommand executable args euid uid lowGid prevent, child, rfl, by simp⟩

/-- The entries of a helper that runs in strict mode. -/
lemma authority_of_helperLoads {command user callingUser : Text} {es : List (Event PolicyCalls)}
    (hserves : Serves (moduleWorld 0) fs tr fs') (htr : tr = tr₁ ++ tr₂ ++ tr₃)
    (hevents : tr₂.map Prod.snd = es.map policyPart.event)
    (h : HelperLoads fuel crate host command user callingUser .strict es entries)
    (hentry : entry ∈ entries) : HelperAuthority crate tr command entry := by
  subst htr
  obtain ⟨uid, path, text, es₁, es₂, -, rfl, hpath, houtput, -, rfl⟩ := h
  obtain ⟨checks, rfl, hchecks⟩ := returns_helperPath hpath
  obtain ⟨calls, rfl, hrun⟩ := Prog.returns_lift.mp houtput
  rw [List.map_append, List.map_map, List.map_map] at hevents
  obtain ⟨trCheck, trRun, rfl, hcheck, hrunEvents⟩ := List.map_eq_append_iff.mp hevents
  rw [← List.append_assoc, List.append_assoc (tr₁ ++ trCheck)] at hserves
  obtain ⟨trail, hkept⟩ := kept_of_checked hserves hcheck hchecks
  obtain ⟨trCheck', rfl, rfl⟩ := Embedding.exists_recorded (f := trustPart) hcheck
  obtain ⟨trRun', rfl, rfl⟩ := Embedding.exists_recorded (f := helperPart) hrunEvents
  obtain ⟨started, child, rfl, hspawn⟩ := exists_spawn_of_returns hrun
  obtain ⟨⟨now, e⟩, hmem, rfl⟩ := List.mem_map.mp hspawn
  have hnow := hkept _ (List.mem_append_left _ (List.mem_map_of_mem hmem))
  exact .intro trCheck' trRun' text now started child trail ⟨tr₁, tr₃, rfl⟩ hchecks hmem hnow
    (completeOutput_of_returns hrun) (mem_of_parsedEntries hentry)

/-- The entries of all sources of a strict call. -/
lemma authority_of_sourcesLoad {sources : PolicySources} {es : List (Event PolicyCalls)}
    {loaded : LoadedEntries} (hserves : Serves (moduleWorld 0) fs tr fs')
    (htr : tr = tr₁ ++ tr₂ ++ tr₃) (hevents : tr₂.map Prod.snd = es.map policyPart.event)
    (h : SourcesLoad fuel crate host sources .strict es loaded) :
    (∀ entry ∈ loaded.file, FileAuthority fuel crate tr sources.authorizedKeysFile entry) ∧
      (∀ entry ∈ loaded.ca, ∃ path, sources.caKeysFile = some path ∧
        FileAuthority fuel crate tr path entry) ∧
      ∀ entry ∈ loaded.helper, ∃ path, sources.authorizedKeysCommand = some path ∧
        HelperAuthority crate tr path entry := by
  obtain ⟨esFile, esCa, esHelper, rfl, hfile, hca, hhelper⟩ := h
  rw [List.map_append, List.map_append] at hevents
  obtain ⟨_, trHelper, rfl, hboth, hevHelper⟩ := List.map_eq_append_iff.mp hevents
  obtain ⟨trFile, trCa, rfl, hevFile, hevCa⟩ := List.map_eq_append_iff.mp hboth
  refine ⟨fun entry hentry => ?_, fun entry hentry => ?_, fun entry hentry => ?_⟩
  · rcases hfile with hfile | ⟨hmode, -⟩
    · have htr' : tr = tr₁ ++ trFile ++ (trCa ++ trHelper ++ tr₃) := by simp [htr]
      exact authority_of_fileLoads hserves htr' hevFile hfile hentry
    · exact absurd hmode (by simp)
  · have htr' : tr = (tr₁ ++ trFile) ++ trCa ++ (trHelper ++ tr₃) := by simp [htr]
    cases hsource : sources.caKeysFile with
    | none =>
      rw [hsource] at hca
      rw [hca.2] at hentry
      exact absurd hentry (by simp)
    | some caKeysFile =>
      rw [hsource] at hca
      exact ⟨caKeysFile, rfl, authority_of_fileLoads hserves htr' hevCa hca hentry⟩
  · have htr' : tr = (tr₁ ++ trFile ++ trCa) ++ trHelper ++ tr₃ := by simp [htr]
    cases hsource : sources.authorizedKeysCommand with
    | none =>
      rw [hsource] at hhelper
      rw [hhelper.2] at hentry
      exact absurd hentry (by simp)
    | some command =>
      rw [hsource] at hhelper
      exact ⟨command, rfl, authority_of_helperLoads hserves htr' hevHelper hhelper hentry⟩

/-! ## The call -/

variable {ι : Type}

/-- What the success of a strict call with the events `tr` rests on, whose calls `calls` have loaded
the policy. -/
structure Grounded (fuel : ℕ) (crate : SshKeyCrate) (call : Call)
    (tr : List (Fs × Event ModuleCalls)) (history : List (Act ι)) (i : ι)
    (calls : List (Event PolicyCalls)) (entries : LoadedEntries) (loaded : Loaded) : Prop where
  /-- The entries are those of the sources, each in its role, and they were loaded first. -/
  loads : LoadedFrom fuel crate call.host call.handle call.args calls entries loaded
  first : loadEvents loaded calls <+: tr.map Prod.snd
  /-- Root has chosen whom the policy trusts. -/
  file : ∀ entry ∈ entries.file, FileAuthority fuel crate tr
    (loaded.args.policySources loaded.context).authorizedKeysFile entry
  ca : ∀ entry ∈ entries.ca, ∃ path,
    (loaded.args.policySources loaded.context).caKeysFile = some path ∧
      FileAuthority fuel crate tr path entry
  helper : ∀ entry ∈ entries.helper, ∃ path,
    (loaded.args.policySources loaded.context).authorizedKeysCommand = some path ∧
      HelperAuthority crate tr path entry
  /-- Sshd passes on a key if it was asked for, else the holder of a key signs; what a security
  key signs with is checked. -/
  vouched : (Text.bytes "sshd_shortcut" ∈ call.args ∧
      ∃ key, PassedOn crate call.host loaded key ∧ entries.Key key.keyData) ∨
    ∃ now identity data signature,
      Trusted crate entries now loaded.context.callingUser identity ∧
        SignedFor history i identity data signature ∧
        validateSkSignature identity signature = .ok ()

/-- **What the success of a strict call rests on.**  Unprivileged users change the file system
between the calls of the module, other calls run beside it and the agent is anyone: a strict call
that succeeds has loaded a policy that is root's in each of its entries, and the holder of a key
that this policy trusts has signed for this call, or sshd has passed on such a key at the wish of
the configuration. -/
theorem strict_success_grounded [DecidableEq ι] (fuel : ℕ) (crate : SshKeyCrate) (call : Call)
    (hstrict : Text.bytes "strict" ∈ call.args) (i : ι) (history : List (Act ι))
    (hideal : Ideal crate history) (fs fs' : Fs) (tr : List (Fs × Event ModuleCalls))
    (hserves : Serves (moduleWorld 0) fs tr fs') (hacts : actsOf i history = tr.map Prod.snd)
    (hsuccess : call.Succeeds fuel crate (actsOf i history)) : ∃ calls entries loaded,
      Grounded fuel crate call tr history i calls entries loaded := by
  have hflag : hasStrict call.args = true := List.any_eq_true.mpr ⟨_, hstrict, by simp⟩
  obtain ⟨calls, entries, loaded, rest, hevents, hfrom, hbacked⟩ := hideal.backed hsuccess
  have hmode : loaded.args.policyMode = .strict := if_pos ((parse_strict hfrom.parses).trans hflag)
  rw [hacts] at hevents
  have hsources := hfrom.sources
  rw [hmode] at hsources
  have hload := hevents
  rw [loadEvents] at hload
  obtain ⟨trLoad, trRest, rfl, hload, -⟩ := List.map_eq_append_iff.mp hload
  obtain ⟨trInit, trPolicy, rfl, -, hpolicy⟩ := List.map_eq_append_iff.mp hload
  obtain ⟨hfile, hca, hhelper⟩ := authority_of_sourcesLoad hserves rfl hpolicy hsources
  refine ⟨calls, entries, loaded, hfrom, ⟨rest, hevents.symm⟩, hfile, hca, hhelper, ?_⟩
  · rcases hbacked with ⟨key, hpassed, hlisted⟩ |
      ⟨now, identity, data, signature, htrusted, hsigned, hformat⟩
    · left
      rcases parse_sshdShortcut hfrom.parses hpassed.1 with hnone | hasked
      · exact absurd hstrict hnone
      · exact ⟨hasked, key, hpassed, hlisted⟩
    · have hpolicy : loaded.policy.strict = true := by
        rw [hfrom.policy, hmode]
        rfl
      exact Or.inr ⟨now, identity, data, signature, htrusted, hsigned, hformat hpolicy⟩

/-! ## A strict call for `bob` -/

/-- A file system with a file of keys for `bob`. -/
def bobKeysFs : Fs :=
  tableFs [dirNode 0 0o755 [("bob", 1)], ⟨0, 0o644, .file (Text.bytes keyLine)⟩]

/-- The call. -/
def bobStrict : Call := ⟨bobAgentHost, ⟨.ok "bob", .ok "sudo"⟩, cstrs ["strict", "file=/%u"]⟩

/-- What it loads. -/
def bobStrictLoaded : Loaded :=
  ⟨⟨"bob", "sudo"⟩,
    { file := "/bob", strict := true, sshdShortcut := false, agentTimeout := some 30 },
    IdentityFilter.ofAuthorized [.key lineKey.keyData] true⟩

lemma exists_bobStrict_loads : ∃ calls : List (Event FsCalls), (∀ e ∈ calls, bobKeysFs.Gives e) ∧
    LoadedFrom 3 echoCrate bobStrict.host bobStrict.handle bobStrict.args
      (calls.map fsPart.event) ⟨[⟨[], lineKey⟩], [], []⟩ bobStrictLoaded := by
  obtain ⟨tr, ⟨hserves, hreturns⟩, hall⟩ := exists_undisturbed_run 3 (Text.bytes "/bob") 0 bobKeysFs
    keyLine (by decide +kernel)
  refine ⟨tr.map Prod.snd, ?_, ?_⟩
  · intro e he
    obtain ⟨x, hx, rfl⟩ := List.mem_map.mp he
    obtain ⟨_, hgives, -⟩ := hserves.replies x hx
    exact hall x hx ▸ hgives
  have hline : echoCrate.authorizedKeys keyLine = [.ok ⟨[], lineKey⟩] := rfl
  refine
    { context := rfl
      parses := by decide +kernel
      users := rfl
      sources := ⟨(tr.map Prod.snd).map fsPart.event, [], [],
        by rw [List.append_nil, List.append_nil], Or.inl ⟨keyLine, ?_, ?_⟩, ⟨rfl, rfl⟩, ⟨rfl, rfl⟩⟩
      policy := rfl }
  · exact Prog.returns_lift.mpr ⟨_, rfl, hreturns⟩
  · refine ⟨by decide +kernel, ?_, ?_⟩
    · show (∀ entry ∈ echoCrate.authorizedKeys keyLine, StrictEntry entry) ∧
        (echoCrate.authorizedKeys keyLine).length ≤ maxPolicyEntries
      rw [hline]
      exact ⟨by simp [StrictEntry], by decide⟩
    · rw [parsedEntries, hline]
      rfl

/-- The success of the call rests on the file of root and on the holder of the key. -/
theorem strict_success_grounded_bob : ∃ tr history calls entries loaded,
    Grounded 3 echoCrate bobStrict tr history () calls entries loaded := by
  obtain ⟨calls, hgives, hloads⟩ := exists_bobStrict_loads
  have hsuccess := succeeds_sevens hloads (by decide) rfl (.ask (.ask (.ask (.ask (.refl _)))))
  have hserves : Serves (moduleWorld 0) bobKeysFs ((actsOf () (sevensHistory bobStrictLoaded
      (calls.map fsPart.event))).map fun e => (bobKeysFs, e)) bobKeysFs := by
    refine Serves.of_constant fun e he => ⟨rfl, ?_⟩
    rintro call rfl
    have hcalls : fileCalls (actsOf () (sevensHistory bobStrictLoaded (calls.map fsPart.event))) =
        calls := by
      have hpolicy := fileCalls_policy (calls.map fsPart.event)
      rw [fileCallsOf_fsPart, fileCalls] at hpolicy
      rw [actsOf_sevensHistory, loadEvents, fileCalls, List.filterMap_append,
        List.filterMap_append, hpolicy]
      exact List.append_nil calls
    have hmem : call ∈ fileCalls (actsOf () (sevensHistory bobStrictLoaded
        (calls.map fsPart.event))) := List.mem_filterMap.mpr ⟨_, he, rfl⟩
    exact hgives call (hcalls ▸ hmem)
  exact ⟨_, _, strict_success_grounded 3 echoCrate bobStrict (by decide) () _ sevensHistory_ideal
    bobKeysFs bobKeysFs _ hserves (by simp [Function.comp_def]) hsuccess⟩

end PamSshAgent
