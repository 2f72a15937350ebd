import PamSshAgent.Cmd.Schedule
import PamSshAgent.Policy.Language

/-!
# The two channels of a policy

The same bytes can reach the policy parser as the contents of the authorized-keys file and
as the output of the helper.  The two readers have limits of their own, and the output of
the helper loses the white space at its end; the policy that is read is the same.
-/

namespace PamSshAgent

open Interaction

/-! ## Reading the file -/

/-- The reply of a file system that is not disturbed: a read may be interrupted or return
less than asked for, and nothing else fails by itself. -/
def Fs.Undisturbed (fs : Fs) : Event FsCalls → Prop
  | ⟨.read file position limit, reply⟩ => reply = .error .interrupted ∨
      ∃ chunk, reply = .ok chunk ∧ fs.Delivers (.read file position limit) chunk
  | ⟨query, reply⟩ => reply = fs.answer query

/-- How the text of the authorized-keys file is read once the file is open. -/
def readPolicyFile (fuel : ℕ) (path : OsStr) (file : FileId) : PolicyMode → Prog FsCalls Error Text
  | .legacy => fsCall (.readToString path)
  | .strict => readBounded fuel file

/-- The text that the bytes of a file stand for, if the mode can read them. -/
def policyText (bytes : List UInt8) : PolicyMode → Option Text
  | .legacy => Text.fromUtf8 bytes
  | .strict => if bytes.length ≤ maxPolicyBytes then Text.fromUtf8 bytes else none

variable {fs : Fs} {file : FileId} {path : OsStr} {bytes : List UInt8} {es : List (Event FsCalls)}
  {mode : PolicyMode}

/-- A bounded read returns the bytes of the file up to the limit. -/
lemma ends_readToEnd {fuel limit : ℕ} {done : List UInt8} {x : Except Error (List UInt8)}
    (hfile : (fs.node file).content = .file bytes) (hdone : done <+: bytes)
    (hlength : done.length ≤ limit) (hes : ∀ e ∈ es, fs.Undisturbed e)
    (h : (readToEnd file limit fuel done).Ends es x) : x = .ok (bytes.take limit) := by
  induction fuel generalizing done es with
  | zero => exact absurd h Prog.not_ends_spin
  | succ fuel ih =>
    rw [readToEnd] at h
    split_ifs at h with hlimit
    · obtain ⟨-, rfl⟩ := Prog.ends_ret.mp h
      have hexact : done.length = limit := by omega
      rw [← hexact, ← List.prefix_iff_eq_take.mp hdone]
    rw [Prog.query_bind] at h
    obtain ⟨reply, es', rfl, hrest⟩ := Prog.ends_ask.mp h
    have hrest' := fun e he => hes e (List.mem_cons_of_mem _ he)
    have hread := hes _ List.mem_cons_self
    simp only [Fs.Undisturbed] at hread
    rcases hread with rfl | ⟨chunk, rfl, hdelivers⟩
    · exact ih hdone hlength hrest' hrest
    -- a reply is a beginning of what is left of the file
    obtain ⟨rest, hrest₁, hchunk, hend⟩ := hdelivers
    rw [Fs.read, hfile] at hrest₁
    obtain rfl := Except.ok.inj hrest₁
    obtain ⟨left, rfl⟩ := hdone
    rw [List.drop_left] at hchunk hend
    cases chunk with
    | nil =>
      obtain ⟨-, rfl⟩ := Prog.ends_ret.mp hrest
      have hnil : left = [] := by
        rcases List.take_eq_nil_iff.mp (hend rfl) with hzero | hnil
        · omega
        · exact hnil
      subst hnil
      rw [List.append_nil, List.take_of_length_le hlength]
    | cons b chunk =>
      have hnext : done ++ (b :: chunk) <+: done ++ left :=
        (List.prefix_append_right_inj done).mpr (hchunk.trans (List.take_prefix _ _))
      have hshort : (b :: chunk).length ≤ limit - done.length :=
        hchunk.length_le.trans (List.length_take_le _ _)
      have hlength' : (done ++ (b :: chunk)).length ≤ limit := by
        rw [List.length_append]
        omega
      exact ih hnext hlength' hrest' hrest

/-- What a read of the authorized-keys file gives. -/
lemma ends_readPolicyFile {fuel : ℕ} {x : Except Error Text}
    (hfile : (fs.node file).content = .file bytes) (hpath : fs.openFile path = .ok file)
    (hes : ∀ e ∈ es, fs.Undisturbed e) (h : (readPolicyFile fuel path file mode).Ends es x) :
    x.toOption = policyText bytes mode := by
  cases mode with
  | legacy =>
    rw [readPolicyFile, ends_fsCall] at h
    obtain ⟨reply, rfl, rfl⟩ := h
    have hreply : reply = fs.readToString path := hes _ List.mem_cons_self
    rw [hreply, Fs.readToString, hpath, Except.ok_bind, hfile, policyText]
    dsimp only
    cases Text.fromUtf8 bytes with
    | some text => rfl
    | none => rfl
  | strict =>
    rw [readPolicyFile, readBounded] at h
    rcases Prog.ends_bind.mp h with ⟨error, -, hread⟩ | ⟨es₁, es₂, read, rfl, hread, hrest⟩
    · have hresult := ends_readToEnd hfile List.nil_prefix (Nat.zero_le _) hes hread
      exact absurd hresult (by simp)
    have hes₁ := fun e he => hes e (List.mem_append_left es₂ he)
    have hresult : Except.ok read = .ok (bytes.take (maxPolicyBytes + 1)) :=
      ends_readToEnd hfile List.nil_prefix (Nat.zero_le _) hes₁ hread
    obtain rfl := Except.ok.inj hresult
    rw [policyText]
    have hlength : (bytes.take (maxPolicyBytes + 1)).length = min (maxPolicyBytes + 1)
        bytes.length := List.length_take
    -- one byte more than the limit is read, so that a longer file is noticed
    by_cases hlimit : bytes.length ≤ maxPolicyBytes
    · have htake : bytes.take (maxPolicyBytes + 1) = bytes :=
        List.take_of_length_le (Nat.le_succ_of_le hlimit)
      rw [htake, if_neg (Nat.not_lt.mpr hlimit)] at hrest
      rw [if_pos hlimit]
      cases htext : Text.fromUtf8 bytes with
      | some text =>
        rw [htext] at hrest
        obtain ⟨-, rfl⟩ := Prog.ends_ret.mp hrest
        rfl
      | none =>
        rw [htext] at hrest
        obtain ⟨-, rfl⟩ := Prog.ends_fail.mp hrest
        rfl
    · have hover : maxPolicyBytes < (bytes.take (maxPolicyBytes + 1)).length := by omega
      rw [if_pos hover] at hrest
      obtain ⟨-, rfl⟩ := Prog.ends_fail.mp hrest
      rw [if_neg hlimit]
      rfl

/-- The read that returns everything asked for. -/
lemma undisturbed_read (hfile : (fs.node file).content = .file bytes) (position limit : ℕ) :
    fs.Undisturbed ⟨.read file position limit, .ok ((bytes.drop position).take limit)⟩ := by
  have hread : fs.read file position limit = .ok ((bytes.drop position).take limit) := by
    rw [Fs.read, hfile]
  exact Or.inr ⟨_, rfl, _, hread, List.prefix_rfl, id⟩

/-- Two reads bring a bounded read to its end. -/
lemma exists_end_readToEnd {fuel limit : ℕ} (hfile : (fs.node file).content = .file bytes)
    (hfuel : 2 ≤ fuel) :
    ∃ es read, (readToEnd file limit fuel []).Returns es read ∧ ∀ e ∈ es, fs.Undisturbed e := by
  obtain ⟨fuel, rfl⟩ := Nat.exists_eq_add_of_le' hfuel
  rw [readToEnd]
  by_cases hzero : limit ≤ ([] : List UInt8).length
  · rw [if_pos hzero]
    exact ⟨[], [], Prog.returns_ret.mpr ⟨rfl, rfl⟩, by simp⟩
  rw [if_neg hzero, Prog.query_bind]
  -- one read returns the file as far as the limit goes
  have hfirst := undisturbed_read hfile 0 (limit - 0)
  rw [List.drop_zero, Nat.sub_zero] at hfirst
  cases hchunk : bytes.take limit with
  | nil =>
    rw [hchunk] at hfirst
    exact ⟨[_], [], Prog.returns_ask.mpr ⟨.ok [], [], rfl, Prog.returns_ret.mpr ⟨rfl, rfl⟩⟩,
      by simpa using hfirst⟩
  | cons b chunk =>
    rw [hchunk] at hfirst
    by_cases hfull : limit ≤ (b :: chunk).length
    · refine ⟨[_], b :: chunk, Prog.returns_ask.mpr ⟨.ok (b :: chunk), [], rfl, ?_⟩,
        by simpa using hfirst⟩
      dsimp only
      rw [List.nil_append, readToEnd, if_pos hfull]
      exact Prog.returns_ret.mpr ⟨rfl, rfl⟩
    · -- the file is shorter than the limit, so the next read finds its end
      have hall : b :: chunk = bytes := by
        have hlength := congrArg List.length hchunk
        rw [List.length_take] at hlength
        rw [← hchunk]
        exact List.take_of_length_le (by omega)
      have hsecond := undisturbed_read hfile bytes.length (limit - bytes.length)
      rw [List.drop_length, List.take_nil] at hsecond
      let second : Event FsCalls := ⟨.read file bytes.length (limit - bytes.length), .ok []⟩
      refine ⟨⟨.read file 0 limit, .ok (b :: chunk)⟩ :: [second], b :: chunk,
        Prog.returns_ask.mpr ⟨.ok (b :: chunk), [second], rfl, ?_⟩, ?_⟩
      · dsimp only
        rw [List.nil_append, readToEnd, if_neg hfull, Prog.query_bind, hall]
        exact Prog.returns_ask.mpr ⟨.ok [], [], rfl, Prog.returns_ret.mpr ⟨rfl, rfl⟩⟩
      · intro e he
        rcases List.mem_cons.mp he with rfl | he
        · exact hfirst
        · obtain rfl := List.mem_singleton.mp he
          exact hsecond

/-- A file system that is not disturbed brings the read of the file to an end. -/
lemma exists_end_readPolicyFile {fuel : ℕ} (hfile : (fs.node file).content = .file bytes)
    (hfuel : 2 ≤ fuel) :
    ∃ es x, (readPolicyFile fuel path file mode).Ends es x ∧ ∀ e ∈ es, fs.Undisturbed e := by
  cases mode with
  | legacy =>
    refine ⟨_, _, ends_fsCall.mpr ⟨fs.readToString path, rfl, rfl⟩, ?_⟩
    intro e he
    obtain rfl := List.mem_singleton.mp he
    rfl
  | strict =>
    obtain ⟨es, read, hread, hes⟩ :=
      @exists_end_readToEnd fs file bytes fuel (maxPolicyBytes + 1) hfile hfuel
    by_cases hlimit : maxPolicyBytes < read.length
    · let error : Error :=
        .anyhow ["Trusted-key policy exceeds ", Text.ofUid maxPolicyBytes, " bytes"]
      refine ⟨es, .error error, Prog.ends_bind.mpr (Or.inr ⟨es, [], read, by simp, hread, ?_⟩), hes⟩
      rw [if_pos hlimit]
      exact Prog.ends_fail.mpr ⟨rfl, rfl⟩
    · cases htext : Text.fromUtf8 read with
      | some text =>
        refine ⟨es, .ok text, Prog.ends_bind.mpr (Or.inr ⟨es, [], read, by simp, hread, ?_⟩), hes⟩
        rw [if_neg hlimit, htext]
        exact Prog.ends_ret.mpr ⟨rfl, rfl⟩
      | none =>
        refine ⟨es, .error .utf8, Prog.ends_bind.mpr (Or.inr ⟨es, [], read, by simp, hread, ?_⟩),
          hes⟩
        rw [if_neg hlimit, htext]
        exact Prog.ends_fail.mpr ⟨rfl, rfl⟩

/-! ## Running the helper -/

/-- How `from_command` runs the helper. -/
def runPolicyHelper (fuel : ℕ) (command : Text) (uid : Uid) (callingUser : Text) :
    PolicyMode → Prog CmdCalls Error Text
  | .legacy => Cmd.run fuel [command, callingUser] maxDuration uid none
  | .strict => Cmd.runWithoutDescendants fuel [command, callingUser] maxDuration uid none

/-- The helper writes the bytes on its standard output, nothing else, and exits with 0. -/
structure Schedule.Prints (schedule : Schedule) (bytes : List UInt8) : Prop where
  stdout : schedule.bytes .stdout = bytes
  stderr : schedule.bytes .stderr = []
  status : schedule.status.code = some 0

/-- The clock shows no time after the deadline while the calls are made. -/
def Schedule.InTime (schedule : Schedule) (timeout : Duration) (es : List (Event CmdCalls)) :
    Prop :=
  ∀ now ∈ (clockReadings es).tail, now < schedule.clock schedule.readings + timeout

/-- What the helper delivers is accepted exactly when strict mode can read the bytes. -/
lemma Schedule.Prints.delivers_iff {schedule : Schedule} (h : schedule.Prints bytes) {text : Text} :
    schedule.Delivers text ↔ policyText bytes .strict = some text := by
  have hnone : Text.fromUtf8 [] = some [] := by decide
  rw [policyText]
  constructor
  · intro hdelivers
    have hlimit : bytes.length ≤ maxPolicyBytes := h.stdout ▸ hdelivers.stdoutLimit
    rw [if_pos hlimit, ← h.stdout]
    exact hdelivers.stdoutUtf8
  · intro htext
    split_ifs at htext with hlimit
    refine ⟨h.stdout ▸ hlimit, by simp [h.stderr], ?_, ?_, h.stdout ▸ htext⟩
    · simpa [ExitStatus.success] using h.status
    · rw [h.stderr, hnone]
      rfl

/-- What a run of the helper gives: the text without the white space at its end. -/
lemma run_runPolicyHelper {fuel : ℕ} {schedule : Schedule} {command callingUser : Text} {uid : Uid}
    (hprints : schedule.Prints bytes) (habs : command.isAbsolutePath = true)
    (hfuel : schedule.untilDone none + schedule.polls.length < fuel)
    (htime : schedule.InTime maxDuration
      ((runPolicyHelper fuel command uid callingUser mode).run Schedule.responder schedule).2.1) :
    ∃ y, ((runPolicyHelper fuel command uid callingUser mode).run Schedule.responder schedule).1 =
        Prog.ofExcept y ∧ y.toOption = (policyText bytes .strict).map Text.trimEnd := by
  have hinner : ∃ prevent, runPolicyHelper fuel command uid callingUser mode =
      runInner fuel [command, callingUser] maxDuration uid none prevent := by
    cases mode <;> exact ⟨_, rfl⟩
  obtain ⟨prevent, hinner⟩ := hinner
  rw [hinner] at htime ⊢
  rcases runInner_outcome habs hfuel htime with
    ⟨error, ⟨es, s', hrun⟩, hnone⟩ | ⟨text, s', ⟨es, hrun⟩, hdelivers⟩
  · refine ⟨.error error, by rw [hrun]; rfl, ?_⟩
    cases htext : policyText bytes .strict with
    | none => rfl
    | some text => exact absurd (hprints.delivers_iff.mpr htext) (hnone text)
  · refine ⟨.ok text.trimEnd, by rw [hrun]; rfl, ?_⟩
    rw [hprints.delivers_iff.mp hdelivers]
    rfl

/-! ## The policy -/

/-- Two texts with the same entries give the same policy. -/
lemma toOption_parsePolicy_congr {crate : SshKeyCrate} {text text' : Text} (what what' : Text)
    (caKeys : Bool) (h : crate.authorizedKeys text = crate.authorizedKeys text') :
    (parsePolicy crate text what caKeys mode).toOption =
      (parsePolicy crate text' what' caKeys mode).toOption := by
  have hsame : ∀ items, parsePolicy crate text what caKeys mode = .ok items ↔
      parsePolicy crate text' what' caKeys mode = .ok items := by
    intro items
    rw [parsePolicy_eq_ok, parsePolicy_eq_ok, parsedEntries, parsedEntries, h]
    cases mode <;> simp only [Parses, h]
  cases hparse : parsePolicy crate text what caKeys mode with
  | ok items => rw [(hsame items).mp hparse]
  | error error =>
    cases hparse' : parsePolicy crate text' what' caKeys mode with
    | ok items => exact absurd ((hsame items).mpr hparse') (by simp [hparse])
    | error error' => rfl

/-- A successful first part is all that matters of it. -/
lemma toOption_bind {ε α β : Type} (x : Except ε α) (f : α → Except ε β) :
    (x >>= f).toOption = x.toOption.bind fun a => (f a).toOption := by
  cases x <;> rfl

/-- **A policy means the same from a file and from a helper.**  Whatever the bytes are, the
file that holds them and the helper that prints them are both rejected or give the same keys
with the same roles; in legacy mode, which does not limit the file, for bytes within the limit
of the helper. -/
theorem same_policy_from_helper (crate : SshKeyCrate) (hcrate : crate.LineWise)
    (mode : PolicyMode) (bytes : List UInt8) (hlimit : mode = .legacy → bytes.length ≤ 1024 * 1024)
    (fs : Fs) (path : OsStr) (file : FileId) (hpath : fs.openFile path = .ok file)
    (hfile : (fs.node file).content = .file bytes) (schedule : Schedule)
    (hprints : schedule.Prints bytes) (command callingUser : Text) (uid : Uid)
    (habs : command.isAbsolutePath = true) (what what' : Text) :
    ∃ enough, ∀ fuel, enough ≤ fuel →
      (∃ es x, (readPolicyFile fuel path file mode).Ends es x ∧ ∀ e ∈ es, fs.Undisturbed e) ∧
      ∀ es x, (readPolicyFile fuel path file mode).Ends es x → (∀ e ∈ es, fs.Undisturbed e) →
        let run := (runPolicyHelper fuel command uid callingUser mode).run Schedule.responder
          schedule
        schedule.InTime maxDuration run.2.1 → ∃ y, run.1 = Prog.ofExcept y ∧
          (x >>= fun text => parsePolicy crate text what false mode).toOption =
            (y >>= fun text => parsePolicy crate text what' false mode).toOption := by
  refine ⟨schedule.untilDone none + schedule.polls.length + 2, fun fuel hfuel => ⟨?_, ?_⟩⟩
  · exact exists_end_readPolicyFile hfile (by omega)
  · intro es x hends hes run htime
    have hx := ends_readPolicyFile hfile hpath hes hends
    obtain ⟨y, hy, hresult⟩ := run_runPolicyHelper hprints habs (by omega) htime
    refine ⟨y, hy, ?_⟩
    -- within the limit both modes read the bytes as the same text
    have htext : policyText bytes mode = policyText bytes .strict := by
      cases mode with
      | strict => rfl
      | legacy => exact (if_pos (hlimit rfl)).symm
    rw [toOption_bind, toOption_bind, hx, hresult, htext, Option.bind_map]
    congr 1
    funext text
    exact toOption_parsePolicy_congr _ _ _ (hcrate.trimEnd text).symm

/-! ## A policy with one key -/

/-- The crate on texts of which at most the line of the key parses. -/
def lineWiseCrate : SshKeyCrate :=
  { keyLineCrate with
    authorizedKeys := fun text => (policyLines text).map fun line =>
      if line = keyLine then .ok ⟨[], lineKey⟩ else .error "unexpected length" }

/-- The line of the key, with white space after it. -/
def printedKey : List UInt8 := Text.bytes (keyLine ++ ("  \n\n" : Text))

/-- A file system with these bytes in `/keys`. -/
def keyFs : Fs where
  node id :=
    if id.ino = 0 then
      ⟨0, 0o755, .dir fun name => if name = Text.bytes "keys" then some ⟨0, 1⟩ else none⟩
    else ⟨0, 0o644, .file printedKey⟩
  root := ⟨0, 0⟩
  cwd := []

/-- A helper that prints these bytes at once. -/
def keyHelper : Schedule where
  pid := 5
  euid := 0
  stdout := [.data (printedKey.headD 0) printedKey.tail]
  stderr := []
  running := 0
  status := ⟨some 0⟩
  polls := []
  clock _ := 0
  readings := 0

/-- The key is read from the file and from the helper. -/
theorem same_policy_from_helper_key :
    ∃ enough, ∀ fuel, enough ≤ fuel →
      (∃ es x, (readPolicyFile fuel (Text.bytes "/keys") ⟨0, 1⟩ .strict).Ends es x ∧
        ∀ e ∈ es, keyFs.Undisturbed e) ∧
      ∀ es x, (readPolicyFile fuel (Text.bytes "/keys") ⟨0, 1⟩ .strict).Ends es x →
        (∀ e ∈ es, keyFs.Undisturbed e) →
        let run := (runPolicyHelper fuel "/bin/keys" 99 "bob" .strict).run Schedule.responder
          keyHelper
        keyHelper.InTime maxDuration run.2.1 → ∃ y, run.1 = Prog.ofExcept y ∧
          (x >>= fun text => parsePolicy lineWiseCrate text "/keys" false .strict).toOption =
            (y >>= fun text => parsePolicy lineWiseCrate text "/bin/keys:(output):" false
              .strict).toOption :=
  same_policy_from_helper lineWiseCrate ⟨_, fun _ => rfl⟩ .strict printedKey (by simp) keyFs
    (Text.bytes "/keys") ⟨0, 1⟩ (by decide +kernel) rfl keyHelper
    ⟨by decide +kernel, rfl, rfl⟩ "/bin/keys" "bob" 99 (by decide) "/keys" "/bin/keys:(output):"

end PamSshAgent
