import PamSshAgent.Trust.Race

/-!
# Files that stay as they were checked

What the check of a path says about the file there is kept by everything that unprivileged users
can do: the path goes on to lead to this file, and what it holds stays the same unless it was open
to others when it was checked.
-/

namespace PamSshAgent

open Interaction

/-- The path is that of a regular file of the required user, without symbolic links on the way
and for good. -/
structure Fs.Kept (fs : Fs) (requiredUid : Uid) (path : OsStr) (trail : Trail) : Prop where
  names : path = Path.ofNames trail.names
  linked : fs.Linked trail
  owner : (fs.node (fs.here trail)).uid = requiredUid
  above : ∀ above, above <:+ trail → above ≠ trail → fs.Guarded requiredUid above
  /-- Whatever others do, the path leads to this file. -/
  same : ∀ later, Relation.ReflTransGen (Unprivileged requiredUid) fs later →
    later.openFile path = .ok (fs.here trail) ∧ later.fileType (fs.here trail) = .file
  /-- What it holds is kept as well, unless it is a file at `/nix/store` that is open to
  others. -/
  content : (∀ later, Relation.ReflTransGen (Unprivileged requiredUid) fs later →
    (later.node (fs.here trail)).content = (fs.node (fs.here trail)).content) ↔
      fs.StoreClosed path

variable {requiredUid : Uid} {fs fs' : Fs} {trail : Trail}

lemma Fs.exists_bytes_of_fileType {id : FileId} (h : fs.fileType id = .file) :
    ∃ bytes, (fs.node id).content = .file bytes := by
  rw [Fs.fileType] at h
  cases hcontent : (fs.node id).content with
  | file bytes => exact ⟨bytes, rfl⟩
  | _ => simp [hcontent, Content.fileType] at h

/-- The root of a held path is a directory. -/
lemma Fs.Held.root_dir (h : fs.Held requiredUid trail) (hne : trail ≠ []) :
    fs.fileType fs.root = .dir := by
  induction trail with
  | nil => exact absurd rfl hne
  | cons entry trail ih =>
    obtain ⟨htrail, -, hdir, -⟩ := h
    by_cases hnil : trail = []
    · subst hnil
      exact hdir
    · exact ih htrail hnil

/-- A held path leads to its end. -/
lemma Fs.Held.openFile (h : fs.Held requiredUid trail) (hne : trail ≠ []) :
    fs.openFile (Path.ofNames trail.names) = .ok (fs.here trail) := by
  rw [Fs.openFile, Fs.resolve_names _ h.linked (h.root_dir hne)]
  rfl

lemma Fs.Held.storeClosed_iff (h : fs.Held requiredUid trail) (hne : trail ≠ []) :
    fs.StoreClosed (Path.ofNames trail.names) ↔ ¬ (fs.node (fs.here trail)).openToOthers := by
  have hmetadata : fs.metadata (Path.ofNames trail.names) =
      .ok (fs.metadataOf (fs.here trail)) := by
    rw [Fs.metadata, Fs.resolve_names _ h.linked (h.root_dir hne)]
    rfl
  constructor
  · intro hclosed
    rcases h.guarded.2 with hguarded | ⟨hpath, -⟩
    · exact hguarded
    · exact not_not.mpr (hclosed hpath _ hmetadata)
  · rintro hclosed - metadata hvalue
    obtain rfl := Except.ok.inj (hmetadata.symm.trans hvalue)
    exact not_not.mp hclosed

/-- What is checked of a path is kept. -/
lemma kept_of_heldFile (h : HeldFile requiredUid trail fs) (hne : trail ≠ []) :
    fs.Kept requiredUid (Path.ofNames trail.names) trail := by
  obtain ⟨hheld, hfile⟩ := h
  obtain ⟨bytes, hbytes⟩ := Fs.exists_bytes_of_fileType hfile
  refine
    { names := rfl
      linked := hheld.linked
      owner := hheld.guarded.1
      above := fun above habove _ => (hheld.suffix habove).guarded
      same := fun later hlater => ?_
      content := ?_ }
  · have hhere := here_eq (root_eq_of_changes hlater) trail
    obtain ⟨hheld', hfile'⟩ := (stable_heldFile trail).changes hlater ⟨hheld, hfile⟩
    rw [← hhere]
    exact ⟨hheld'.openFile hne, hfile'⟩
  · rw [hheld.storeClosed_iff hne]
    constructor
    · -- a file that is open to others can be written at once
      intro hsame hopen
      have hwrite := hsame _ (.single (.write (bytes ++ [0]) hbytes hopen))
      rw [hbytes] at hwrite
      simp at hwrite
    · intro hclosed later hlater
      have hhere := here_eq (root_eq_of_changes hlater) trail
      obtain ⟨-, -, hbytes'⟩ :=
        (stable_heldBytes trail bytes).changes hlater ⟨hheld, hclosed, hbytes⟩
      rw [← hhere, hbytes', hhere, hbytes]

/-! ## Strict reads -/

lemma Fs.here_eq_of_openFile {file : FileId} (h : fs.Held requiredUid trail) (hne : trail ≠ [])
    (hopen : fs.openFile (Path.ofNames trail.names) = .ok file) : file = fs.here trail :=
  Except.ok.inj (hopen.symm.trans (h.openFile hne))

/-- A strict read opens a file that is kept, and returns what it holds if it is closed to
others. -/
lemma kept_of_readStrictFile {fuel : ℕ} {path : OsStr} {tr : List (Fs × Event FsCalls)}
    {text : Text} (h : Runs (unprivilegedWorld requiredUid) (readStrictFile fuel path requiredUid) fs tr fs'
      text) :
    ∃ now canonical file trail, (now, ⟨.openFile canonical, .ok file⟩) ∈ tr ∧
      now.Kept requiredUid canonical trail ∧ file = now.here trail ∧
      (now.StoreClosed canonical → (now.node file).content = .file text.bytes) := by
  obtain ⟨_, _, fs₁, canonical, rfl, hvalidate, hrest₁⟩ := Runs.of_bind h
  obtain ⟨_, _, fs₂, expected, rfl, hmetadata, hrest₂⟩ := Runs.of_bind hrest₁
  obtain ⟨_, _, fs₃, file, rfl, hopen, hrest₃⟩ := Runs.of_bind hrest₂
  obtain ⟨_, _, fs₄, actual, rfl, hstat, hrest₄⟩ := Runs.of_bind hrest₃
  clear h hrest₁ hrest₂ hrest₃
  split_ifs at hrest₄
  · exact absurd hrest₄ Runs.not_fail
  obtain ⟨trail, hne, rfl, hchecked⟩ := exists_trail_of_validateTrustPath hvalidate
  obtain ⟨_, rfl, hchanges₁, -, hchanges₂⟩ := Runs.of_fsCall hmetadata
  obtain ⟨now, rfl, hchanges₃, hfile, hchanges₄⟩ := Runs.of_fsCall hopen
  obtain ⟨_, rfl, hchanges₅, -, hchanges₆⟩ := Runs.of_fsCall hstat
  have hnow : HeldFile requiredUid trail now :=
    (stable_heldFile trail).changes ((hchanges₁.trans hchanges₂).trans hchanges₃) hchecked
  obtain rfl := Fs.here_eq_of_openFile hnow.1 hne hfile
  refine ⟨now, _, _, trail, by simp, kept_of_heldFile hnow hne, rfl, fun hstore => ?_⟩
  have hclosed := (hnow.1.storeClosed_iff hne).mp hstore
  obtain ⟨bytes, hbytes⟩ := Fs.exists_bytes_of_fileType hnow.2
  -- the file is still the same when it is read
  have hchanges := (hchanges₄.trans hchanges₅).trans hchanges₆
  have hread := (stable_heldBytes trail bytes).changes hchanges ⟨hnow.1, hclosed, hbytes⟩
  have hhere : fs₄.here trail = now.here trail := here_eq (root_eq_of_changes hchanges) trail
  rw [hbytes, bytes_of_readBounded hread (hhere ▸ hrest₄)]

end PamSshAgent
