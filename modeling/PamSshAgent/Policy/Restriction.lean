import PamSshAgent.Library.Responders
import PamSshAgent.Policy.Channels
import PamSshAgent.Trust.Hops

/-!
# Strict mode loads no more than legacy mode

A policy that loads in strict mode loads in legacy mode as well, with the same entries: the
canonical path that strict mode reads leads to the file that legacy mode reads, the lines
that strict mode accepts have the roles that legacy mode gives them, and the two ways of
running the helper differ in the path and the process limit alone.
-/

namespace PamSshAgent

open Interaction

/-! ## The files -/

variable {fs : Fs} {fuel : ℕ} {path canonical : OsStr} {requiredUid : Uid}
  {calls : List (Event FsCalls)} {text : Text}

/-- What a call to the file system returns is what the file system delivers. -/
lemma delivers_of_returns_fsCall {query : FsQuery} {value : query.Value}
    (h : (fsCall query).Returns calls value) (hcalls : ∀ e ∈ calls, fs.Gives e) :
    fs.Delivers query value := by
  have hends : (fsCall query).Ends calls (.ok value) := h
  obtain ⟨reply, rfl, hreply⟩ := ends_fsCall.mp hends
  cases reply with
  | error error => exact absurd hreply (by simp [Except.mapError])
  | ok result =>
    obtain rfl : value = result := Except.ok.inj hreply
    exact hcalls _ List.mem_cons_self value rfl

/-- No read of a loop that comes to its end failed, except that it was interrupted. -/
lemma undisturbed_of_returns_readToEnd {file : FileId} {limit : ℕ} {done bytes : List UInt8}
    (h : (readToEnd file limit fuel done).Returns calls bytes) (hcalls : ∀ e ∈ calls, fs.Gives e) :
    ∀ e ∈ calls, fs.Undisturbed e := by
  induction fuel generalizing done calls with
  | zero => exact absurd h Prog.not_returns_spin
  | succ fuel ih =>
    rw [readToEnd] at h
    split_ifs at h with hlimit
    · obtain ⟨rfl, -⟩ := Prog.returns_ret.mp h
      exact List.forall_mem_nil _
    rw [Prog.query_bind] at h
    obtain ⟨reply, rest, rfl, hrest⟩ := Prog.returns_ask.mp h
    obtain ⟨hgives, hcalls'⟩ := List.forall_mem_cons.mp hcalls
    refine List.forall_mem_cons.mpr ?_
    cases reply with
    | error error =>
      by_cases hinterrupted : error = .interrupted
      · subst hinterrupted
        exact ⟨Or.inl rfl, ih hrest hcalls'⟩
      · have hfail : (Prog.fail (.io error) : Prog FsCalls Error (List UInt8)).Returns rest
            bytes := by
          cases error <;> first | exact hrest | exact absurd rfl hinterrupted
        exact absurd hfail Prog.not_returns_fail
    | ok chunk =>
      cases chunk with
      | nil =>
        obtain ⟨rfl, -⟩ := Prog.returns_ret.mp hrest
        exact ⟨Or.inr ⟨[], rfl, hgives [] rfl⟩, List.forall_mem_nil _⟩
      | cons b chunk =>
        exact ⟨Or.inr ⟨b :: chunk, rfl, hgives (b :: chunk) rfl⟩, ih hrest hcalls'⟩

lemma undisturbed_of_returns_readBounded {file : FileId}
    (h : (readBounded fuel file).Returns calls text) (hcalls : ∀ e ∈ calls, fs.Gives e) :
    ∀ e ∈ calls, fs.Undisturbed e := by
  obtain ⟨es, es', bytes, rfl, hread, hrest⟩ := Prog.returns_bind.mp h
  have hnil : es' = [] := by
    split_ifs at hrest with hlimit
    · exact absurd hrest Prog.not_returns_fail
    · cases hutf8 : Text.fromUtf8 bytes with
      | none =>
        rw [hutf8] at hrest
        exact absurd hrest Prog.not_returns_fail
      | some result =>
        rw [hutf8] at hrest
        exact (Prog.returns_ret.mp hrest).1
  rw [hnil, List.append_nil] at hcalls ⊢
  exact undisturbed_of_returns_readToEnd hread hcalls

/-- A path that is accepted resolves to a regular file, and so does its canonical path. -/
lemma resolve_of_validateTrustPath
    (h : (validateTrustPath path requiredUid).Returns calls canonical)
    (hcalls : ∀ e ∈ calls, fs.Gives e) :
    ∃ trail, fs.canonicalize path = .ok canonical ∧ (fs.resolve true path).2 = .ok trail ∧
      (fs.resolve true canonical).2 = .ok trail ∧ fs.fileType (fs.here trail) = .file := by
  rw [validateTrustPath] at h
  split_ifs at h with hnormal
  · exact absurd h Prog.not_returns_fail
  obtain ⟨habs, -⟩ := isNormalized_iff.mp (by simpa using hnormal)
  obtain ⟨es₁, _, ⟨⟩, rfl, -, h⟩ := Prog.returns_bind.mp h
  obtain ⟨es₂, _, canonical', rfl, hcanonicalize, h⟩ := Prog.returns_bind.mp h
  obtain ⟨es₃, _, ⟨⟩, rfl, -, h⟩ := Prog.returns_bind.mp h
  obtain ⟨es₄, es₅, metadata, rfl, hmetadata, h⟩ := Prog.returns_bind.mp h
  have hpath : fs.canonicalize path = .ok canonical' :=
    delivers_of_returns_fsCall hcanonicalize fun e he => hcalls e (by simp [he])
  have hkind : fs.metadata canonical' = .ok metadata :=
    delivers_of_returns_fsCall hmetadata fun e he => hcalls e (by simp [he])
  split_ifs at h with hfile
  · exact absurd h Prog.not_returns_fail
  obtain ⟨-, rfl⟩ := Prog.returns_ret.mp h
  obtain ⟨trail, htrail, hlinked, hroot, rfl⟩ := Fs.canonicalize_eq_ok habs hpath
  -- the names of the canonical path lead back to the same place
  have hback := Fs.resolve_names true hlinked hroot
  rw [Fs.metadata, hback] at hkind
  obtain rfl : fs.metadataOf (fs.here trail) = metadata := Except.ok.inj hkind
  exact ⟨trail, hpath, htrail, hback, not_not.mp hfile⟩

/-- What strict mode reads from a path, `read_to_string` reads from it. -/
lemma readToString_of_readStrictFile
    (h : (readStrictFile fuel path requiredUid).Returns calls text)
    (hcalls : ∀ e ∈ calls, fs.Gives e) : fs.readToString path = .ok text := by
  rw [readStrictFile] at h
  obtain ⟨es₁, _, canonical, rfl, hvalidate, h⟩ := Prog.returns_bind.mp h
  obtain ⟨es₂, _, expected, rfl, -, h⟩ := Prog.returns_bind.mp h
  obtain ⟨es₃, _, file, rfl, hopen, h⟩ := Prog.returns_bind.mp h
  obtain ⟨es₄, es₅, actual, rfl, -, h⟩ := Prog.returns_bind.mp h
  split_ifs at h with hchanged
  · exact absurd h Prog.not_returns_fail
  obtain ⟨trail, -, hpath, hcanonical, hkind⟩ :=
    resolve_of_validateTrustPath hvalidate fun e he => hcalls e (by simp [he])
  -- both paths open the same file
  have hopened : fs.openFile canonical = .ok file :=
    delivers_of_returns_fsCall hopen fun e he => hcalls e (by simp [he])
  rw [Fs.openFile, hcanonical] at hopened
  obtain rfl : fs.here trail = file := Except.ok.inj hopened
  have hsame : fs.openFile path = .ok (fs.here trail) := by
    rw [Fs.openFile, hpath]
    rfl
  rw [Fs.fileType] at hkind
  cases hcontent : (fs.node (fs.here trail)).content with
  | file bytes =>
    have hread : (readPolicyFile fuel path (fs.here trail) .strict).Ends es₅ (.ok text) := h
    have hreads := undisturbed_of_returns_readBounded h fun e he => hcalls e (by simp [he])
    have htext := ends_readPolicyFile hcontent hsame hreads hread
    have hutf8 : Text.fromUtf8 bytes = some text := by
      rw [policyText] at htext
      split_ifs at htext
      · exact htext.symm
      · exact absurd htext (by simp [Except.toOption])
    rw [Fs.readToString, hsame, Except.ok_bind, hcontent]
    simp only [hutf8]
  | dir entries => simp [hcontent, Content.fileType] at hkind
  | symlink target => simp [hcontent, Content.fileType] at hkind
  | special => simp [hcontent, Content.fileType] at hkind

/-! ## The helper -/

variable {executable : Text} {running : Running} {collected : Collected}

/-- The name of the executable is in errors only. -/
lemma takeStreams_returnsAlike (executable executable' : Text) (child : Child) :
    (takeStreams executable child).ReturnsAlike (takeStreams executable' child) := by
  unfold takeStreams
  split_ifs with hstdout hstderr
  · exact Prog.returnsAlike_of_not (fun _ _ => Prog.not_returns_fail)
      fun _ _ => Prog.not_returns_fail
  · exact Prog.returnsAlike_of_not (fun _ _ => Prog.not_returns_fail)
      fun _ _ => Prog.not_returns_fail
  · exact Prog.ReturnsAlike.refl _

lemma awaitProgress_returnsAlike (running : Running) (executable : Text) (collected : Collected) :
    (awaitProgress running collected).ReturnsAlike
      (awaitProgress { running with executable } collected) := by
  unfold awaitProgress
  rw [Prog.query_bind, Prog.query_bind]
  refine Prog.ReturnsAlike.ask fun now => ?_
  dsimp only
  split_ifs with hlate
  · exact Prog.returnsAlike_of_not (fun _ _ => not_returns_terminateWith)
      fun _ _ => not_returns_terminateWith
  · exact Prog.ReturnsAlike.refl _

lemma collectOutput_returnsAlike (running : Running) (executable : Text) {fuel : ℕ} :
    (collectOutput running fuel collected).ReturnsAlike
      (collectOutput { running with executable } fuel collected) := by
  induction fuel generalizing collected with
  | zero => exact Prog.ReturnsAlike.refl _
  | succ fuel ih =>
    unfold collectOutput
    refine Prog.ReturnsAlike.bind (Prog.ReturnsAlike.refl _) fun drained => ?_
    split_ifs with hdone
    · exact Prog.ReturnsAlike.refl _
    · refine Prog.ReturnsAlike.bind (Prog.ReturnsAlike.refl _) fun status => ?_
      exact Prog.ReturnsAlike.bind (awaitProgress_returnsAlike _ _ _) fun _ => ih

lemma checkOutput_eq_ok_congr (executable executable' : Text) :
    checkOutput executable collected = .ok text ↔ checkOutput executable' collected = .ok text := by
  unfold checkOutput
  cases collected.status with
  | none => simp
  | some status =>
    dsimp only
    split_ifs with hstatus
    · simp
    · exact Iff.rfl
    · exact Iff.rfl

/-- Another path and another process limit change the command that is started, and what is
returned otherwise stays the same. -/
lemma returns_runInner_congr {es : List (Event CmdCalls)} {args : List Text} {timeout : Duration}
    {uid : Uid} {gid : Option Gid} {prevent : Bool} (executable' : Text) (prevent' : Bool)
    (habs : executable'.isAbsolutePath = true)
    (h : (runInner fuel (executable :: args) timeout uid gid prevent).Returns es text) :
    ∃ (euid : Uid) (lowGid : Gid) (start : Instant) (reply : Except IoError Child)
      (rest : List (Event CmdCalls)),
      es = ⟨.geteuid, euid⟩ :: ⟨.now, start⟩ ::
        ⟨.spawn (helperCommand executable args euid uid lowGid prevent), reply⟩ :: rest ∧
      (runInner fuel (executable' :: args) timeout uid gid prevent').Returns
        (⟨.geteuid, euid⟩ :: ⟨.now, start⟩ ::
          ⟨.spawn (helperCommand executable' args euid uid lowGid prevent'), reply⟩ :: rest) text := by
  unfold runInner at h ⊢
  dsimp only at h ⊢
  rw [if_neg (by simp [habs])]
  split_ifs at h with hrelative
  · exact absurd h Prog.not_returns_fail
  obtain ⟨es₁, es₂, lowGid, rfl, hgid, hrun⟩ := Prog.returns_bind.mp h
  obtain ⟨rfl, hlow⟩ := Prog.returns_ofExcept.mp hgid
  rw [List.nil_append]
  rw [Prog.query_bind] at hrun
  -- the calls before the spawn do not depend on the path
  obtain ⟨euid, es₃, rfl, hclock⟩ := Prog.returns_ask.mp hrun
  rw [Prog.query_bind] at hclock
  obtain ⟨start, es₄, rfl, hspawn⟩ := Prog.returns_ask.mp hclock
  rw [Prog.query_bind] at hspawn
  obtain ⟨reply, rest, rfl, hrest⟩ := Prog.returns_ask.mp hspawn
  refine ⟨euid, lowGid, start, reply, rest, rfl, ?_⟩
  rw [hlow, Prog.ofExcept_ok, Prog.ret_bind]
  refine Prog.returns_ask.mpr ⟨euid, _, rfl, Prog.returns_ask.mpr ⟨start, _, rfl, ?_⟩⟩
  refine Prog.returns_ask.mpr ⟨reply, rest, rfl, ?_⟩
  cases reply with
  | error error => exact absurd hrest Prog.not_returns_fail
  | ok child =>
    -- after the spawn, the path only occurs in the texts of errors
    refine (Prog.ReturnsAlike.attempt_bind (takeStreams_returnsAlike executable executable' child)
      (fun _ => ?_) ?_ ?_ _ _).mp hrest
    · refine Prog.ReturnsAlike.bind (collectOutput_returnsAlike _ executable') fun collected => ?_
      intro es text
      rw [Prog.returns_ofExcept, Prog.returns_ofExcept, checkOutput_eq_ok_congr]
    · exact fun _ _ _ => not_returns_terminateWith
    · exact fun _ _ _ => not_returns_terminateWith

/-! ## The world -/

/-- One command starts the path that the other one starts by its canonical name; otherwise they
differ in the process limit alone. -/
structure Fs.StartsAlike (fs : Fs) (configured canonical : Command) : Prop where
  program : fs.canonicalize configured.program.bytes = .ok canonical.program.bytes
  rest : configured = { canonical with
    program := configured.program, preventDescendants := configured.preventDescendants }

/-- The files, and what the helper and its clock reply.  A file that can be read is read, and
the helper does the same by its configured and by its canonical path, with and without the
process limit. -/
structure PolicyWorld (φ σ : Type) where
  fs : Fs
  files : Prog.Responder FsCalls φ
  helper : Prog.Responder CmdCalls σ
  gives : ∀ query s, fs.Gives ⟨query, (files query s).1⟩
  readToString : ∀ path s, (files (.readToString path) s).1 = fs.readToString path
  sameHelper : ∀ configured canonical, fs.StartsAlike configured canonical →
    ∀ s, helper (.spawn configured) s = helper (.spawn canonical) s

namespace PolicyWorld

variable {φ σ : Type}

/-- What the world replies while the policy is loaded. -/
def respond (world : PolicyWorld φ σ) : Prog.Responder PolicyCalls (φ × σ) :=
  Prog.Responder.sum world.files.onFst world.helper.onSnd

variable {world : PolicyWorld φ σ} {s s' t : φ × σ} {crate : SshKeyCrate} {host : Host}
  {sources : PolicySources} {es : List (Event PolicyCalls)} {entries : List Entry}

lemma answers_files : Prog.Answers world.respond s (calls.map fsPart.event) s' ↔
    Prog.Answers world.files s.1 calls s'.1 ∧ s'.2 = s.2 :=
  Prog.answers_inl.trans Prog.answers_onFst

lemma answers_helper {calls : List (Event CmdCalls)} :
    Prog.Answers world.respond s (calls.map cmdPart.event) s' ↔
      Prog.Answers world.helper s.2 calls s'.2 ∧ s'.1 = s.1 :=
  Prog.answers_inr.trans Prog.answers_onSnd

lemma gives_of_answers {f f' : φ} (h : Prog.Answers world.files f calls f') :
    ∀ e ∈ calls, world.fs.Gives e := by
  induction calls generalizing f with
  | nil => exact List.forall_mem_nil _
  | cons e calls ih =>
    obtain ⟨hreply, hrest⟩ := h
    have hfirst := world.gives e.query f
    rw [hreply] at hfirst
    exact List.forall_mem_cons.mpr ⟨hfirst, ih hrest⟩

/-- The one call by which legacy mode reads a file. -/
lemma exists_readToString (fuel : ℕ) {path : OsStr} (h : world.fs.readToString path = .ok text)
    (t : φ × σ) : ∃ es t', (fileContents fuel path .legacy).Returns es text ∧
      Prog.Answers world.respond t es t' ∧ t'.2 = t.2 := by
  let reply := (world.files (.readToString path) t.1).1
  have hreply : reply = .ok text := (world.readToString path t.1).trans h
  have hcall : (fsCall (.readToString path)).Ends [⟨.readToString path, reply⟩] (.ok text) :=
    ends_fsCall.mpr ⟨reply, rfl, by rw [hreply]; rfl⟩
  have hread : (fileContents fuel path .legacy).Returns
      ([⟨.readToString path, reply⟩].map fsPart.event) text :=
    Prog.returns_lift.mpr ⟨[⟨.readToString path, reply⟩], rfl, hcall⟩
  refine ⟨_, ((world.files (.readToString path) t.1).2, t.2), hread, ?_, rfl⟩
  exact answers_files.mpr ⟨⟨rfl, rfl⟩, rfl⟩

/-- A file that loads in strict mode loads in legacy mode, with the same entries. -/
lemma fileLoads_legacy (h : FileLoads fuel crate path .strict es entries)
    (hanswers : Prog.Answers world.respond s es s') (ht : t.2 = s.2) :
    ∃ es' t', FileLoads fuel crate path .legacy es' entries ∧
      Prog.Answers world.respond t es' t' ∧ t'.2 = s'.2 := by
  obtain ⟨text, hread, hname, -, rfl⟩ := h
  obtain ⟨calls, rfl, hcalls⟩ := Prog.returns_lift.mp hread
  obtain ⟨hfiles, hsame⟩ := answers_files.mp hanswers
  have htext := readToString_of_readStrictFile hcalls (gives_of_answers hfiles)
  obtain ⟨es', t', hlegacy, hanswers', ht'⟩ := exists_readToString fuel htext t
  exact ⟨es', t', ⟨text, hlegacy, hname, trivial, rfl⟩, hanswers', by rw [ht', ht, hsame]⟩

/-- A helper that loads in strict mode loads in legacy mode, with the same entries. -/
lemma helperLoads_legacy {configured user callingUser : Text}
    (habs : configured.isAbsolutePath = true)
    (h : HelperLoads fuel crate host configured user callingUser .strict es entries)
    (hanswers : Prog.Answers world.respond s es s') (ht : t.2 = s.2) :
    ∃ es' t', HelperLoads fuel crate host configured user callingUser .legacy es' entries ∧
      Prog.Answers world.respond t es' t' ∧ t'.2 = s'.2 := by
  obtain ⟨uid, canonical, text, esPath, esOutput, huid, rfl, hpath, houtput, -, rfl⟩ := h
  obtain ⟨s₁, hanswersPath, hanswersOutput⟩ := Prog.answers_append.mp hanswers
  obtain ⟨calls, rfl, hcalls⟩ := returns_helperPath hpath
  obtain ⟨hfiles, hs₁⟩ := answers_files.mp hanswersPath
  obtain ⟨trail, hcanonical, -⟩ :=
    resolve_of_validateTrustPath hcalls (gives_of_answers hfiles)
  obtain ⟨cmdCalls, rfl, hrun⟩ := Prog.returns_lift.mp houtput
  obtain ⟨hhelper, -⟩ := answers_helper.mp hanswersOutput
  obtain ⟨euid, lowGid, start, reply, rest, rfl, hlegacy⟩ :=
    returns_runInner_congr configured false habs hrun
  -- the two commands get the same reply and leave the same state
  have hsame := world.sameHelper
    (helperCommand configured [callingUser] euid uid lowGid false)
    (helperCommand canonical [callingUser] euid uid lowGid true) ⟨hcanonical, rfl⟩
  obtain ⟨heuid, hclock, hspawn, hrest⟩ := hhelper
  have hlegacyAnswers : Prog.Answers world.helper t.2 (⟨.geteuid, euid⟩ :: ⟨.now, start⟩ ::
      ⟨.spawn (helperCommand configured [callingUser] euid uid lowGid false), reply⟩ :: rest)
      s'.2 := by
    rw [ht, ← hs₁]
    refine ⟨heuid, hclock, ?_⟩
    rw [Prog.Answers, hsame]
    exact ⟨hspawn, hrest⟩
  refine ⟨_, (t.1, s'.2), ⟨uid, configured, text, [], _, huid, rfl, Prog.returns_ret.mpr ⟨rfl, rfl⟩,
    Prog.returns_lift.mpr ⟨_, rfl, hlegacy⟩, trivial, rfl⟩, ?_, rfl⟩
  exact answers_helper.mpr ⟨hlegacyAnswers, rfl⟩

/-- The entries of the file of certificate authorities, if one is configured. -/
def CaKeysLoad (fuel : ℕ) (crate : SshKeyCrate) (sources : PolicySources) (mode : PolicyMode)
    (es : List (Event PolicyCalls)) (entries : List Entry) : Prop :=
  match sources.caKeysFile with
  | some caKeysFile => FileLoads fuel crate caKeysFile mode es entries
  | none => es = [] ∧ entries = []

/-- The entries that the helper writes, if one is configured. -/
def CommandLoads (fuel : ℕ) (crate : SshKeyCrate) (host : Host) (sources : PolicySources)
    (mode : PolicyMode) (es : List (Event PolicyCalls)) (entries : List Entry) : Prop :=
  match sources.authorizedKeysCommand with
  | some command => HelperLoads fuel crate host command sources.helperUser sources.callingUser
      mode es entries
  | none => es = [] ∧ entries = []

lemma caKeysLoad_legacy (h : CaKeysLoad fuel crate sources .strict es entries)
    (hanswers : Prog.Answers world.respond s es s') (ht : t.2 = s.2) :
    ∃ es' t', CaKeysLoad fuel crate sources .legacy es' entries ∧
      Prog.Answers world.respond t es' t' ∧ t'.2 = s'.2 := by
  unfold CaKeysLoad at h ⊢
  cases hsource : sources.caKeysFile with
  | none =>
    rw [hsource] at h
    obtain ⟨rfl, hnone⟩ := h
    obtain rfl : s = s' := hanswers
    exact ⟨[], t, ⟨rfl, hnone⟩, rfl, ht⟩
  | some caKeysFile =>
    rw [hsource] at h
    exact fileLoads_legacy h hanswers ht

lemma commandLoads_legacy
    (habs : ∀ configured, sources.authorizedKeysCommand = some configured →
      configured.isAbsolutePath = true)
    (h : CommandLoads fuel crate host sources .strict es entries)
    (hanswers : Prog.Answers world.respond s es s') (ht : t.2 = s.2) :
    ∃ es' t', CommandLoads fuel crate host sources .legacy es' entries ∧
      Prog.Answers world.respond t es' t' ∧ t'.2 = s'.2 := by
  unfold CommandLoads at h ⊢
  cases hsource : sources.authorizedKeysCommand with
  | none =>
    rw [hsource] at h
    obtain ⟨rfl, hnone⟩ := h
    obtain rfl : s = s' := hanswers
    exact ⟨[], t, ⟨rfl, hnone⟩, rfl, ht⟩
  | some command =>
    rw [hsource] at h
    exact helperLoads_legacy (habs command hsource) h hanswers ht

/-- **What loads in strict mode loads in legacy mode**, with the same entries, and the helper
and its clock are left in the same state. -/
lemma sourcesLoad_legacy {loaded : LoadedEntries}
    (habs : ∀ configured, sources.authorizedKeysCommand = some configured →
      configured.isAbsolutePath = true)
    (h : SourcesLoad fuel crate host sources .strict es loaded)
    (hanswers : Prog.Answers world.respond s es s') (ht : t.2 = s.2) :
    ∃ es' t', SourcesLoad fuel crate host sources .legacy es' loaded ∧
      Prog.Answers world.respond t es' t' ∧ t'.2 = s'.2 := by
  obtain ⟨esFile, esCa, esHelper, rfl, hfile, hca, hhelper⟩ := h
  obtain ⟨s₂, hanswers, hanswersHelper⟩ := Prog.answers_append.mp hanswers
  obtain ⟨s₁, hanswersFile, hanswersCa⟩ := Prog.answers_append.mp hanswers
  have hload : FileLoads fuel crate sources.authorizedKeysFile .strict esFile loaded.file := by
    rcases hfile with hfile | ⟨hmode, -⟩
    · exact hfile
    · exact absurd hmode (by simp)
  -- the three sources, one after the other
  obtain ⟨esFile', t₁, hfile', hanswersFile', ht₁⟩ := fileLoads_legacy hload hanswersFile ht
  obtain ⟨esCa', t₂, hca', hanswersCa', ht₂⟩ := caKeysLoad_legacy hca hanswersCa ht₁
  obtain ⟨esHelper', t₃, hhelper', hanswersHelper', ht₃⟩ :=
    commandLoads_legacy habs hhelper hanswersHelper ht₂
  refine ⟨_, t₃, ⟨esFile', esCa', esHelper', rfl, Or.inl hfile', hca', hhelper'⟩, ?_, ht₃⟩
  exact Prog.answers_append.mpr ⟨t₂, Prog.answers_append.mpr ⟨t₁, hanswersFile', hanswersCa'⟩,
    hanswersHelper'⟩

end PolicyWorld

end PamSshAgent
