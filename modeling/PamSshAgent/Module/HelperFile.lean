import PamSshAgent.Module.Confinement
import PamSshAgent.Trust.Kept

/-!
# The file that a strict call starts

The path of the helper is checked many calls before the helper is started, and the child executes
it later still.  In between others may change the file system as they can.  What has been checked
of the path is kept by every such change, so that the file that is executed is the one that was
checked.
-/

namespace PamSshAgent

open Interaction

/-- The file system while the module runs; it answers the calls that are made to it. -/
def moduleWorld (requiredUid : Uid) : World ModuleCalls Fs where
  interfere := Unprivileged requiredUid
  reply fs event fs' := fs' = fs ∧ ∀ call, event = trustPart.event call → fs.Gives call

variable {requiredUid : Uid} {fs fs' : Fs} {trail : Trail} {tr : List (Fs × Event ModuleCalls)}

/-- Calls to the file system among those of the module are served by the file system. -/
lemma runs_of_serves {es : List (Event FsCalls)} {α : Type} {p : Prog FsCalls Error α} {a : α}
    (hserves : Serves (moduleWorld requiredUid) fs tr fs')
    (hevents : tr.map Prod.snd = es.map trustPart.event) (h : p.Returns es a) :
    ∃ tr', tr = tr'.map (Prod.map id trustPart.event) ∧
      Runs (unprivilegedWorld requiredUid) p fs tr' fs' a := by
  have hreply : ∀ s call s', (moduleWorld requiredUid).reply s (trustPart.event call) s' →
      (unprivilegedWorld requiredUid).reply s call s' := by
    rintro s call s' ⟨rfl, hgives⟩
    exact ⟨hgives call rfl, rfl⟩
  obtain ⟨tr', htr, rfl, hserves'⟩ := hserves.of_embedding (f := trustPart)
    (W := unprivilegedWorld requiredUid) (fun _ _ hstep => hstep) hreply hevents
  exact ⟨tr', htr, hserves', h⟩

/-- A held file stays held while the module runs. -/
lemma heldFile_of_serves (hserves : Serves (moduleWorld requiredUid) fs tr fs')
    (h : HeldFile requiredUid trail fs) : ∀ x ∈ tr, HeldFile requiredUid trail x.1 := by
  have hstable : Stable (moduleWorld requiredUid) (HeldFile requiredUid trail) :=
    stable_heldFile trail
  have hreply : ∀ s e s', (moduleWorld requiredUid).reply s e s' →
      HeldFile requiredUid trail s → HeldFile requiredUid trail s' := by
    rintro s - s' ⟨rfl, -⟩ hheld
    exact hheld
  exact hserves.keeps hstable hreply h

/-- A path that has been checked is kept at every later call of the module. -/
lemma kept_of_checked {tr₁ tr₂ tr₃ : List (Fs × Event ModuleCalls)} {calls : List (Event FsCalls)}
    {path canonical : OsStr} (hserves : Serves (moduleWorld requiredUid) fs (tr₁ ++ tr₂ ++ tr₃) fs')
    (hevents : tr₂.map Prod.snd = calls.map trustPart.event)
    (hcalls : (validateTrustPath path requiredUid).Returns calls canonical) :
    ∃ trail, ∀ x ∈ tr₃, x.1.Kept requiredUid canonical trail := by
  obtain ⟨fs₂, hchecked, hlater⟩ := hserves.split
  obtain ⟨fs₁, -, hcheck⟩ := hchecked.split
  obtain ⟨_, -, hruns⟩ := runs_of_serves hcheck hevents hcalls
  obtain ⟨trail, hne, rfl, hheld⟩ := exists_trail_of_validateTrustPath hruns
  exact ⟨trail, fun x hx => kept_of_heldFile (heldFile_of_serves hlater hheld x hx) hne⟩

/-- **The helper of a strict call is the file that was checked.**  Whatever unprivileged users do
between the calls of the module, the program that a strict call starts as its helper is, at that
moment and from then on, the path of one regular file of root, which only root can replace; others
cannot change what it holds either, unless its path is `/nix/store`. -/
theorem strict_helper_kept (fuel : ℕ) (crate : SshKeyCrate) (host : Host) (handle : PamHandleExt)
    (args : List CStr) (hstrict : Text.bytes "strict" ∈ args) (fs fs' : Fs)
    (tr : List (Fs × Event ModuleCalls)) (rest : Prog ModuleCalls Error Unit)
    (hserves : Serves (moduleWorld 0) fs tr fs')
    (hrun : (run fuel crate host handle args).Steps (tr.map Prod.snd) rest)
    (before after : List (Fs × Event ModuleCalls)) (now : Fs) (command : Command)
    (reply : Except IoError Child)
    (hspawn : tr = before ++ (now, helperPart.event ⟨.spawn command, reply⟩) :: after) :
    ∃ trail, now.Kept 0 command.program.bytes trail := by
  have hflag : hasStrict args = true := List.any_eq_true.mpr ⟨_, hstrict, by simp⟩
  subst hspawn
  obtain ⟨context, parsed, configured, account, hhelper⟩ :=
    hrun.asksAfter (run_strictSpawn hflag) (before.map Prod.snd) _ (after.map Prod.snd)
      (by rw [List.map_append, List.map_cons])
  obtain ⟨calls, hcalls, earlier, between, hsplit⟩ := hhelper.canonical
  rw [List.nil_append] at hsplit
  -- the calls of the check stand one after the other
  obtain ⟨tr₁₂, tr₃, rfl, htr₁₂, -⟩ := List.map_eq_append_iff.mp hsplit.symm
  obtain ⟨tr₁, tr₂, rfl, -, htr₂⟩ := List.map_eq_append_iff.mp htr₁₂
  rw [List.append_assoc (tr₁ ++ tr₂)] at hserves
  obtain ⟨trail, hkept⟩ := kept_of_checked hserves htr₂ hcalls
  exact ⟨trail, hkept _ (List.mem_append_right tr₃ List.mem_cons_self)⟩

/-! ## A helper behind a link that changes -/

/-- A file system where the helper `/bin/link` leads through `/evil/hop`, a link of user 1000, to
the file `/bin/keys` of root. -/
def linkedHelperFs : Fs :=
  tableFs [dirNode 0 0o755 [("bob", 1), ("bin", 2), ("evil", 3)], ⟨0, 0o644, .file []⟩,
    dirNode 0 0o755 [("link", 4), ("keys", 5)], dirNode 1000 0o755 [("hop", 6)],
    linkNode 0 "/evil/hop", ⟨0, 0o755, .file []⟩, linkNode 1000 "/bin/keys"]

/-- The file system after user 1000 has pointed `/evil/hop` at the other file. -/
def redirectedHelperFs : Fs := linkedHelperFs.set ⟨0, 6⟩ (linkNode 1000 "/bob")

lemma unprivileged_redirectedHelperFs : Unprivileged 0 linkedHelperFs redirectedHelperFs :=
  .alter (by decide) (by decide)

/-- The replies of a file system to a process of root that can start no helper and has no
agent. -/
def fsReplies (fs : Fs) : (query : ModuleCalls.Query) → ModuleCalls.Reply query
  | .inr (.inl (.inl query)) => fs.answer query
  | query => (rootReplies query ()).1

/-- Strict arguments with this helper. -/
def linkedHelperArgs : List CStr :=
  cstrs ["strict", "file=/%u", "authorized_keys_command=/bin/link"]

/-- A strict call for `bob`, whose helper path is changed by user 1000 once it was followed. -/
def linkedHelperRun : Prog ModuleCalls Error Unit × List (Event ModuleCalls) × ℕ :=
  (run 3 keyLineCrate bobHost ⟨.ok "bob", .ok "sudo"⟩ linkedHelperArgs).run
    (.changing (fsReplies linkedHelperFs) (fsReplies redirectedHelperFs)) 15

/-- The helper of that call. -/
def linkedHelperCommand : Command := helperCommand "/bin/keys" ["bob"] 0 1000 65534 true

lemma fsReplies_reply (fs : Fs) (query : ModuleCalls.Query) :
    (moduleWorld 0).reply fs ⟨query, fsReplies fs query⟩ fs := by
  refine ⟨rfl, ?_⟩
  rintro ⟨call, value⟩ heq
  obtain ⟨rfl, hvalue⟩ := Event.mk.inj heq
  obtain rfl : fs.answer call = value := eq_of_heq hvalue
  exact fs.gives_answer call

lemma linkedHelperRun_serves : Serves (moduleWorld 0) linkedHelperFs
    ((linkedHelperRun.2.1.take 15).map (fun e => (linkedHelperFs, e)) ++
      (linkedHelperRun.2.1.drop 15).map fun e => (redirectedHelperFs, e)) redirectedHelperFs := by
  rw [linkedHelperRun]
  exact Serves.of_change (fsReplies_reply _) unprivileged_redirectedHelperFs (fsReplies_reply _) _ 15

lemma linkedHelperRun_steps :
    (run 3 keyLineCrate bobHost ⟨.ok "bob", .ok "sudo"⟩ linkedHelperArgs).Steps
      linkedHelperRun.2.1 linkedHelperRun.1 := by
  rw [linkedHelperRun]
  exact Prog.steps_run _ _ _

/-- The helper of a strict call for `bob`, started when its path leads elsewhere. -/
theorem strict_helper_kept_bob : ∃ tr reply trail,
    Serves (moduleWorld 0) linkedHelperFs tr redirectedHelperFs ∧
      redirectedHelperFs.canonicalize (Text.bytes "/bin/link") = .ok (Text.bytes "/bob") ∧
      (redirectedHelperFs, helperPart.event ⟨.spawn linkedHelperCommand, reply⟩) ∈ tr ∧
      redirectedHelperFs.Kept 0 (Text.bytes "/bin/keys") trail := by
  have hstart : (linkedHelperRun.2.1.drop 15).findSome? startedCommand =
      some linkedHelperCommand := by
    decide +kernel
  obtain ⟨before, reply, after, hspawn⟩ := exists_start hstart
  have hserves := linkedHelperRun_serves
  have hsteps := linkedHelperRun_steps
  generalize linkedHelperRun.1 = rest at hsteps
  generalize linkedHelperRun.2.1 = es at hspawn hserves hsteps
  rw [hspawn, List.map_append, List.map_cons, ← List.append_assoc] at hserves
  obtain ⟨trail, hkept⟩ := strict_helper_kept 3 keyLineCrate bobHost ⟨.ok "bob", .ok "sudo"⟩
    linkedHelperArgs (by decide) _ _ _ rest hserves
    (by simpa [Function.comp_def, ← hspawn] using hsteps) _ _ _ linkedHelperCommand reply rfl
  exact ⟨_, reply, trail, hserves, by decide +kernel,
    List.mem_append_right _ List.mem_cons_self, hkept⟩

end PamSshAgent
