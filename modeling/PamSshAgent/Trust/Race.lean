import PamSshAgent.Trust.Hops

/-!
# Reading a trust file while others change the file system

Between the calls of `read_strict_file` unprivileged users may change what they own and
what they can write to.  The check of the resolved path goes from the root down.  Once a
node on it was accepted, nobody but the required user can take it away from its place, so
the part of the path that was checked is held.  The whole path is held when the file is
opened, and so is the content of the file unless others may write to it.
-/

namespace PamSshAgent

open Interaction

namespace Fs

/-- The file system with another node under an identity. -/
def set (fs : Fs) (id : FileId) (node : Node) : Fs :=
  { fs with node := Function.update fs.node id node }

@[simp] lemma set_root (fs : Fs) (id : FileId) (node : Node) : (fs.set id node).root = fs.root :=
  rfl

@[simp] lemma set_node_self (fs : Fs) (id : FileId) (node : Node) :
    (fs.set id node).node id = node := by
  simp [set]

lemma set_node_of_ne (fs : Fs) {id other : FileId} (node : Node) (h : other ≠ id) :
    (fs.set id node).node other = fs.node other := by
  simp [set, h]

/-- A node that the root is or that some directory has an entry for. -/
def Referenced (fs : Fs) (id : FileId) : Prop :=
  id = fs.root ∨ ∃ dir name, fs.lookup dir name = some id

end Fs

/-- A mode that lets the group or others write. -/
def Node.openToOthers (node : Node) : Prop := node.mode &&& 0o022 ≠ 0

/-- A mode with the sticky bit. -/
def Node.sticky (node : Node) : Prop := node.mode &&& 0o1000 ≠ 0

/-- What an unprivileged user can do to the file system. -/
inductive Unprivileged (requiredUid : Uid) : Fs → Fs → Prop
  /-- Change an object that the required user does not own. -/
  | alter {fs : Fs} {id : FileId} {node : Node} (howner : (fs.node id).uid ≠ requiredUid)
      (hkeep : node.uid ≠ requiredUid) : Unprivileged requiredUid fs (fs.set id node)
  /-- Write to a regular file that is open to others. -/
  | write {fs : Fs} {id : FileId} {old : List UInt8} (new : List UInt8)
      (hfile : (fs.node id).content = .file old) (hopen : (fs.node id).openToOthers) :
      Unprivileged requiredUid fs (fs.set id { fs.node id with content := .file new })
  /-- Add, remove or replace an entry of a directory that the required user does not own or
  that is open to others; in a sticky directory of the required user, not an entry that the
  required user owns. -/
  | relink {fs : Fs} {dir : FileId} {entries : OsStr → Option FileId} (name : OsStr)
      (entry : Option FileId) (hdir : (fs.node dir).content = .dir entries)
      (hopen : (fs.node dir).uid ≠ requiredUid ∨ (fs.node dir).openToOthers)
      (hsticky : (fs.node dir).uid = requiredUid → (fs.node dir).sticky →
        ∀ old, entries name = some old → (fs.node old).uid ≠ requiredUid) :
      Unprivileged requiredUid fs (fs.set dir
        { fs.node dir with content := .dir (Function.update entries name entry) })
  /-- Make a new object, under an identity that nothing refers to. -/
  | create {fs : Fs} {id : FileId} {node : Node} (hfree : ¬ fs.Referenced id)
      (hkeep : node.uid ≠ requiredUid) : Unprivileged requiredUid fs (fs.set id node)

/-- The file system among unprivileged users. -/
def unprivilegedWorld (requiredUid : Uid) : World FsCalls Fs where
  interfere := Unprivileged requiredUid
  reply fs event fs' := fs.Gives event ∧ fs' = fs

variable {requiredUid : Uid} {fs fs' : Fs} {trail : Trail} {id : FileId}

/-! ## What an unprivileged step leaves alone -/

lemma fileType_of_content {content : Content} (h : (fs.node id).content = content) :
    fs.fileType id = content.fileType := by
  rw [Fs.fileType, h]

lemma lookup_of_content {entries : OsStr → Option FileId}
    (h : (fs.node id).content = .dir entries) (name : OsStr) :
    fs.lookup id name = entries name := by
  rw [Fs.lookup, h]

/-- What others leave alone of a node that the required user owns. -/
structure LeftAlone (requiredUid : Uid) (fs fs' : Fs) (id : FileId) : Prop where
  uid : (fs'.node id).uid = requiredUid
  mode : (fs'.node id).mode = (fs.node id).mode
  fileType : fs'.fileType id = fs.fileType id
  content : ¬ (fs.node id).openToOthers → ∀ bytes, (fs.node id).content = .file bytes →
    (fs'.node id).content = .file bytes
  lookup : ∀ name old, fs.lookup id name = some old → (fs.node old).uid = requiredUid →
    ¬ (fs.node id).openToOthers ∨ (fs.node id).sticky → fs'.lookup id name = some old

lemma LeftAlone.of_eq (huid : (fs.node id).uid = requiredUid)
    (h : fs'.node id = fs.node id) : LeftAlone requiredUid fs fs' id where
  uid := by rw [h, huid]
  mode := by rw [h]
  fileType := by rw [Fs.fileType, Fs.fileType, h]
  content _ _ hbytes := by rw [h, hbytes]
  lookup _ _ hold _ _ := by
    rw [Fs.lookup] at hold ⊢
    rw [h]
    exact hold

/-- An unprivileged step leaves alone what the required user owns. -/
lemma Unprivileged.leftAlone (h : Unprivileged requiredUid fs fs')
    (huid : (fs.node id).uid = requiredUid) (href : fs.Referenced id) :
    LeftAlone requiredUid fs fs' id := by
  cases h with
  | @alter other node howner _ =>
    have hne : id ≠ other := fun heq => howner (heq ▸ huid)
    exact .of_eq huid (fs.set_node_of_ne node hne)
  | @create other node hfree _ =>
    have hne : id ≠ other := fun heq => hfree (heq ▸ href)
    exact .of_eq huid (fs.set_node_of_ne node hne)
  -- a file of the required user is written only if it is open to others
  | @write other old new hfile hopen =>
    by_cases hne : id = other
    · subst hne
      refine ⟨by simpa using huid, by simp, ?_, ?_, ?_⟩
      · rw [fileType_of_content hfile, Fs.fileType, Fs.set_node_self]
        rfl
      · exact fun hclosed => absurd hopen hclosed
      · intro name entry hentry
        rw [Fs.lookup, hfile] at hentry
        exact absurd hentry (by simp)
    · exact .of_eq huid (fs.set_node_of_ne _ hne)
  -- an entry is replaced only in a directory that others may write, and there the sticky
  -- bit protects the entries of the required user
  | @relink dir entries name entry hdir hopen hsticky =>
    by_cases hne : id = dir
    · subst hne
      have hopen' : (fs.node id).openToOthers := hopen.resolve_left (not_not.mpr huid)
      refine ⟨by simpa using huid, by simp, ?_, ?_, ?_⟩
      · rw [fileType_of_content hdir, Fs.fileType, Fs.set_node_self]
        rfl
      · exact fun hclosed => absurd hopen' hclosed
      · intro name' old hold hown hguard
        have hstick : (fs.node id).sticky := hguard.resolve_left (not_not.mpr hopen')
        rw [lookup_of_content hdir] at hold
        have hother : name' ≠ name := by
          rintro rfl
          exact hsticky huid hstick old hold hown
        rw [Fs.lookup, Fs.set_node_self]
        simp [hother, hold]
    · exact .of_eq huid (fs.set_node_of_ne _ hne)

lemma Unprivileged.root_eq (h : Unprivileged requiredUid fs fs') : fs'.root = fs.root := by
  cases h <;> rfl

lemma root_eq_of_changes (h : Relation.ReflTransGen (Unprivileged requiredUid) fs fs') :
    fs'.root = fs.root := by
  induction h with
  | refl => rfl
  | tail _ hstep ih => rw [hstep.root_eq, ih]

/-! ## Held paths -/

namespace Fs

/-- The required user owns the node at the end of a trail, and others cannot write to it,
up to the exception for the path `/nix/store`. -/
def Guarded (fs : Fs) (requiredUid : Uid) (trail : Trail) : Prop :=
  (fs.node (fs.here trail)).uid = requiredUid ∧
    (¬ (fs.node (fs.here trail)).openToOthers ∨
      Path.ofNames trail.names = nixStore ∧ (fs.node (fs.here trail)).sticky)

/-- A linked trail with every node guarded. -/
def Held (fs : Fs) (requiredUid : Uid) : Trail → Prop
  | [] => fs.Guarded requiredUid []
  | (name, id) :: trail => fs.Held requiredUid trail ∧ Path.IsName name ∧
      fs.fileType (fs.here trail) = .dir ∧ fs.lookup (fs.here trail) name = some id ∧
      fs.linkTarget id = none ∧ fs.Guarded requiredUid ((name, id) :: trail)

lemma Held.guarded (h : fs.Held requiredUid trail) : fs.Guarded requiredUid trail := by
  cases trail with
  | nil => exact h
  | cons entry trail => exact h.2.2.2.2.2

lemma Held.linked (h : fs.Held requiredUid trail) : fs.Linked trail := by
  induction trail with
  | nil => exact trivial
  | cons entry trail ih =>
    obtain ⟨htrail, hname, hdir, hlookup, hlink, -⟩ := h
    exact ⟨ih htrail, hname, hdir, hlookup, hlink⟩

lemma Held.suffix (h : fs.Held requiredUid trail) {above : Trail} (habove : above <:+ trail) :
    fs.Held requiredUid above := by
  obtain ⟨below, rfl⟩ := habove
  induction below with
  | nil => exact h
  | cons entry below ih => exact ih h.1

lemma Held.referenced (h : fs.Held requiredUid trail) : fs.Referenced (fs.here trail) := by
  cases trail with
  | nil => exact Or.inl rfl
  | cons entry trail => exact Or.inr ⟨fs.here trail, entry.1, h.2.2.2.1⟩

lemma linkTarget_eq_none_iff {id : FileId} : fs.linkTarget id = none ↔ fs.fileType id ≠ .symlink := by
  rw [linkTarget, Fs.fileType]
  cases (fs.node id).content <;> simp [Content.fileType]

end Fs

lemma here_eq (hroot : fs'.root = fs.root) (trail : Trail) : fs'.here trail = fs.here trail := by
  cases trail with
  | nil => exact hroot
  | cons _ _ => rfl

lemma LeftAlone.guarded (h : LeftAlone requiredUid fs fs' (fs.here trail))
    (hroot : fs'.root = fs.root) (hguarded : fs.Guarded requiredUid trail) :
    fs'.Guarded requiredUid trail := by
  rw [Fs.Guarded, here_eq hroot]
  refine ⟨h.uid, ?_⟩
  rw [Node.openToOthers, Node.sticky, h.mode]
  exact hguarded.2

/-- A held path stays held. -/
lemma Unprivileged.held (h : Unprivileged requiredUid fs fs') (hheld : fs.Held requiredUid trail) :
    fs'.Held requiredUid trail := by
  induction trail with
  | nil => exact (h.leftAlone hheld.guarded.1 hheld.referenced).guarded h.root_eq hheld
  | cons entry trail ih =>
    have halone := h.leftAlone hheld.guarded.1 hheld.referenced
    have hguarded := halone.guarded h.root_eq hheld.guarded
    obtain ⟨htrail, hname, hdir, hlookup, hlink, hentry⟩ := hheld
    have hparent := h.leftAlone htrail.guarded.1 htrail.referenced
    refine ⟨ih htrail, hname, ?_, ?_, ?_, hguarded⟩
    · rw [here_eq h.root_eq, hparent.fileType, hdir]
    · rw [here_eq h.root_eq]
      exact hparent.lookup _ _ hlookup hentry.1 (htrail.guarded.2.imp_right fun hsticky => hsticky.2)
    · have hkind : fs'.fileType entry.2 = fs.fileType entry.2 := halone.fileType
      rw [Fs.linkTarget_eq_none_iff] at hlink ⊢
      rwa [hkind]

/-- A held path that leads to a regular file. -/
def HeldFile (requiredUid : Uid) (trail : Trail) (fs : Fs) : Prop :=
  fs.Held requiredUid trail ∧ fs.fileType (fs.here trail) = .file

/-- A held path that leads to a regular file with the given bytes. -/
def HeldBytes (requiredUid : Uid) (trail : Trail) (bytes : List UInt8) (fs : Fs) : Prop :=
  fs.Held requiredUid trail ∧ ¬ (fs.node (fs.here trail)).openToOthers ∧
    (fs.node (fs.here trail)).content = .file bytes

lemma stable_held (trail : Trail) :
    Stable (unprivilegedWorld requiredUid) fun fs => fs.Held requiredUid trail :=
  fun _ _ hstep hheld => Unprivileged.held hstep hheld

lemma stable_heldFile (trail : Trail) :
    Stable (unprivilegedWorld requiredUid) (HeldFile requiredUid trail) := by
  rintro fs fs' hstep ⟨hheld, hfile⟩
  have halone := Unprivileged.leftAlone hstep hheld.guarded.1 hheld.referenced
  refine ⟨Unprivileged.held hstep hheld, ?_⟩
  rw [here_eq (Unprivileged.root_eq hstep), halone.fileType, hfile]

lemma stable_heldBytes (trail : Trail) (bytes : List UInt8) :
    Stable (unprivilegedWorld requiredUid) (HeldBytes requiredUid trail bytes) := by
  rintro fs fs' hstep ⟨hheld, hclosed, hbytes⟩
  have halone := Unprivileged.leftAlone hstep hheld.guarded.1 hheld.referenced
  refine ⟨Unprivileged.held hstep hheld, ?_, ?_⟩
  · rw [here_eq (Unprivileged.root_eq hstep), Node.openToOthers, halone.mode]
    exact hclosed
  · rw [here_eq (Unprivileged.root_eq hstep)]
    exact halone.content hclosed bytes hbytes

/-! ## The checks hold the path -/

variable {tr : List (Fs × Event FsCalls)} {canonical : OsStr}

/-- A call that succeeds: the state of the moment, unchanged by it, delivered the value. -/
lemma Runs.of_fsCall {query : FsQuery} {value : query.Value}
    (h : Runs (unprivilegedWorld requiredUid) (fsCall query) fs tr fs' value) :
    ∃ now, tr = [(now, ⟨query, .ok value⟩)] ∧
      Relation.ReflTransGen (Unprivileged requiredUid) fs now ∧
      now.Delivers query value ∧ Relation.ReflTransGen (Unprivileged requiredUid) now fs' := by
  obtain ⟨reply, now, now', tr', rfl, hbefore, ⟨hgives, rfl⟩, hrest⟩ := Runs.of_ask h
  obtain ⟨rfl, hok, hafter⟩ := Runs.of_ofExcept hrest
  cases reply with
  | error e => simp [Except.mapError] at hok
  | ok value' =>
    obtain rfl : value' = value := Except.ok.inj hok
    exact ⟨now', rfl, hbefore, hgives value' rfl, hafter⟩

/-- The next component below a held path, found and accepted, is held as well. -/
lemma held_of_validateComponent {name : OsStr} {metadata : Metadata}
    (hheld : fs.Held requiredUid trail) (hname : Path.IsName name)
    (hmetadata : fs.symlinkMetadata (Path.ofNames (trail.names ++ [name])) = .ok metadata)
    (hcheck : validateComponent (Path.ofNames (trail.names ++ [name])) requiredUid false metadata =
      .ok ()) :
    ∃ id, fs.Held requiredUid ((name, id) :: trail) := by
  rw [Fs.symlinkMetadata] at hmetadata
  cases hresolve : (fs.resolve false (Path.ofNames (trail.names ++ [name]))).2 with
  | error e => simp [hresolve, Except.map] at hmetadata
  | ok trail' =>
  rw [hresolve] at hmetadata
  obtain rfl : fs.metadataOf (fs.here trail') = metadata := Except.ok.inj hmetadata
  have hroot := Fs.root_dir_of_resolve (Path.isAbsolute_ofNames _) hresolve
  rw [Fs.resolve_along _ hheld.linked hroot (by simpa using hname.1)] at hresolve
  obtain ⟨huid, ⟨-, hfalse⟩ | ⟨hkind, hmode⟩⟩ := validateComponent_eq_ok hcheck
  · simp at hfalse
  have hplain : IsPlain name := hname.2
  obtain ⟨hdir, ⟨hskip, -⟩ | ⟨hparent, -⟩ | ⟨-, id, hlookup, hend⟩⟩ :=
    Fs.walk_cons_eq_ok hresolve
  · exact absurd hskip (not_or.mpr ⟨hplain.1, hplain.2.1⟩)
  · exact absurd hparent hplain.2.2
  -- the last segment is not followed, so it is the entry itself
  have htrail : trail' = (name, id) :: trail := by
    rcases hend with ⟨-, hwalk⟩ | ⟨target, -, ⟨-, hstop⟩ | ⟨hgo, -⟩⟩
    · simpa using hwalk.symm
    · exact hstop
    · exact absurd ⟨rfl, rfl⟩ hgo
  subst htrail
  refine ⟨id, hheld, hname, hdir, hlookup, Fs.linkTarget_eq_none_iff.mpr hkind, huid, ?_⟩
  rcases validateMode_eq_ok hmode with hclosed | ⟨hstore, hsticky⟩
  · exact Or.inl (not_not.mpr hclosed)
  · have hnames : ∀ n ∈ trail.names ++ [name], Path.IsName n := by
      intro n hn
      rcases List.mem_append.mp hn with hn | hn
      · exact hheld.linked.isName n hn
      · exact List.mem_singleton.mp hn ▸ hname
    exact Or.inr ⟨by simpa using ofNames_eq_nixStore hnames hstore, hsticky⟩

/-- The root, found and accepted, is held. -/
lemma held_root {metadata : Metadata} (hmetadata : fs.symlinkMetadata (Path.ofNames []) = .ok metadata)
    (hcheck : validateComponent (Path.ofNames []) requiredUid false metadata = .ok ()) :
    fs.Held requiredUid [] := by
  rw [Fs.symlinkMetadata] at hmetadata
  cases hresolve : (fs.resolve false (Path.ofNames [])).2 with
  | error e => simp [hresolve, Except.map] at hmetadata
  | ok trail' =>
  rw [hresolve] at hmetadata
  obtain rfl : fs.metadataOf (fs.here trail') = metadata := Except.ok.inj hmetadata
  have hroot := Fs.root_dir_of_resolve (Path.isAbsolute_ofNames _) hresolve
  have hself := @Fs.resolve_names fs [] false trivial hroot
  obtain rfl : [] = trail' := Except.ok.inj (hself.symm.trans hresolve)
  obtain ⟨huid, ⟨-, hfalse⟩ | ⟨-, hmode⟩⟩ := validateComponent_eq_ok hcheck
  · simp at hfalse
  refine ⟨huid, ?_⟩
  rcases validateMode_eq_ok hmode with hclosed | ⟨hstore, -⟩
  · exact Or.inl (not_not.mpr hclosed)
  · exact absurd hstore (by decide +kernel)

/-- The loop of the second walk, from a held path on. -/
lemma held_of_validateComponentsFrom (trail : Trail) {names : List OsStr}
    (hnames : ∀ name ∈ names, Path.IsName name) (hheld : fs.Held requiredUid trail)
    (h : Runs (unprivilegedWorld requiredUid) (validateComponentsFrom requiredUid false
      (Path.ofNames trail.names) (names.map .normal)) fs tr fs' ()) :
    ∃ trail', trail'.names = trail.names ++ names ∧ fs'.Held requiredUid trail' := by
  induction names generalizing fs trail tr with
  | nil =>
    obtain ⟨-, -, hchanges⟩ := Runs.of_ret h
    exact ⟨trail, by simp, (stable_held trail).changes hchanges hheld⟩
  | cons name names ih =>
    simp only [List.mem_cons, forall_eq_or_imp] at hnames
    rw [List.map_cons, @validateComponentsFrom_cons _ _ _
      (Path.ofNames (trail.names ++ [name])) (.normal name) _
      (Path.push_ofNames hheld.linked.isName hnames.1)] at h
    obtain ⟨_, _, fs₁, metadata, -, hcall, h⟩ := Runs.of_bind h
    obtain ⟨now, -, hbefore, hmetadata, hafter⟩ := Runs.of_fsCall hcall
    obtain ⟨_, _, fs₂, ⟨⟩, -, hcheck, h⟩ := Runs.of_bind h
    obtain ⟨-, hcheck, hchanges⟩ := Runs.of_ofExcept hcheck
    have hnow := (stable_held trail).changes hbefore hheld
    obtain ⟨id, hnext⟩ := held_of_validateComponent hnow hnames.1 hmetadata hcheck
    have hnext' := (stable_held _).changes (hafter.trans hchanges) hnext
    rw [← Fs.names_cons name id trail] at h
    obtain ⟨trail', hsplit, hheld'⟩ := ih _ hnames.2 hnext' h
    exact ⟨trail', by rw [hsplit, Fs.names_cons, List.append_assoc]; rfl, hheld'⟩

/-- The second walk holds the whole resolved path. -/
lemma held_of_validateComponents {names : List OsStr} (hnames : ∀ name ∈ names, Path.IsName name)
    (h : Runs (unprivilegedWorld requiredUid)
      (validateComponents (Path.ofNames names) requiredUid false) fs tr fs' ()) :
    ∃ trail, trail.names = names ∧ fs'.Held requiredUid trail := by
  rw [validateComponents, Path.components_ofNames hnames,
    validateComponentsFrom_cons _ _ _ Path.push_rootDir] at h
  obtain ⟨_, _, fs₁, metadata, -, hcall, h⟩ := Runs.of_bind h
  obtain ⟨now, -, -, hmetadata, hafter⟩ := Runs.of_fsCall hcall
  obtain ⟨_, _, fs₂, ⟨⟩, -, hcheck, h⟩ := Runs.of_bind h
  obtain ⟨-, hcheck, hchanges⟩ := Runs.of_ofExcept hcheck
  have hroot := (stable_held []).changes (hafter.trans hchanges) (held_root hmetadata hcheck)
  simpa using held_of_validateComponentsFrom [] hnames hroot h

/-- A path that is accepted resolves to a regular file below the root and is held. -/
lemma exists_trail_of_validateTrustPath {path : OsStr}
    (h : Runs (unprivilegedWorld requiredUid) (validateTrustPath path requiredUid) fs tr fs'
      canonical) :
    ∃ trail : Trail, trail ≠ [] ∧ canonical = Path.ofNames trail.names ∧
      HeldFile requiredUid trail fs' := by
  rw [validateTrustPath] at h
  split_ifs at h with hnormal
  · exact absurd h Runs.not_fail
  obtain ⟨habs, -⟩ := isNormalized_iff.mp (by simpa using hnormal)
  obtain ⟨_, _, fs₁, ⟨⟩, -, -, h⟩ := Runs.of_bind h
  obtain ⟨_, _, fs₂, canonical', -, hcanonical, h⟩ := Runs.of_bind h
  obtain ⟨now, -, -, hresolve, -⟩ := Runs.of_fsCall hcanonical
  obtain ⟨_, _, fs₃, ⟨⟩, -, hcomponents, h⟩ := Runs.of_bind h
  obtain ⟨_, _, fs₄, metadata, -, hmetadata, h⟩ := Runs.of_bind h
  obtain ⟨now', -, hbefore, hkind, hafter⟩ := Runs.of_fsCall hmetadata
  split_ifs at h with hfile
  · exact absurd h Runs.not_fail
  obtain ⟨-, rfl, hchanges⟩ := Runs.of_ret h
  -- the names of the resolved path
  obtain ⟨names, hnames, rfl⟩ : ∃ names, (∀ name ∈ names, Path.IsName name) ∧
      canonical = Path.ofNames names := by
    obtain ⟨trail, -, hlinked, -, hnames⟩ := Fs.canonicalize_eq_ok habs hresolve
    exact ⟨trail.names, hlinked.isName, hnames⟩
  obtain ⟨trail, rfl, hheld⟩ := held_of_validateComponents hnames hcomponents
  have hnow := (stable_held trail).changes hbefore hheld
  change now'.metadata _ = .ok metadata at hkind
  rw [Fs.metadata] at hkind
  cases htrail : (now'.resolve true (Path.ofNames trail.names)).2 with
  | error e => simp [htrail, Except.map] at hkind
  | ok trail' =>
    have hroot := Fs.root_dir_of_resolve (Path.isAbsolute_ofNames _) htrail
    rw [Fs.resolve_names _ hnow.linked hroot] at htrail
    obtain rfl := Except.ok.inj htrail
    rw [Fs.resolve_names _ hnow.linked hroot] at hkind
    obtain rfl := Except.ok.inj hkind
    have hregular : now'.fileType (now'.here trail) = .file := not_not.mp hfile
    refine ⟨trail, ?_, rfl,
      (stable_heldFile trail).changes (hafter.trans hchanges) ⟨hnow, hregular⟩⟩
    rintro rfl
    exact absurd (hroot.symm.trans hregular) (by simp)

lemma heldFile_of_validateTrustPath {path : OsStr}
    (h : Runs (unprivilegedWorld requiredUid) (validateTrustPath path requiredUid) fs tr fs'
      canonical) :
    ∃ trail, canonical = Path.ofNames trail.names ∧ HeldFile requiredUid trail fs' := by
  obtain ⟨trail, -, hpath, hheld⟩ := exists_trail_of_validateTrustPath h
  exact ⟨trail, hpath, hheld⟩

/-! ## Reading -/

/-- The read loop on a held file that is closed to others returns its bytes, up to the
limit. -/
lemma bytes_of_readToEnd {fuel limit : ℕ} {bytes done result : List UInt8}
    (hheld : HeldBytes requiredUid trail bytes fs) (hdone : done <+: bytes)
    (h : Runs (unprivilegedWorld requiredUid) (readToEnd (fs.here trail) limit fuel done)
      fs tr fs' result) : result <+: bytes ∧ (result.length < limit → result = bytes) := by
  induction fuel generalizing fs tr done with
  | zero => exact absurd h Runs.not_spin
  | succ fuel ih =>
    rw [readToEnd] at h
    split_ifs at h with hlimit
    · obtain ⟨-, rfl, -⟩ := Runs.of_ret h
      exact ⟨hdone, fun hlt => absurd hlimit (by omega)⟩
    obtain ⟨reply, now, now', tr', -, hbefore, ⟨hgives, rfl⟩, h⟩ := Runs.of_ask h
    -- the file is still the same when the read is answered
    have hnow := (stable_heldBytes trail bytes).changes hbefore hheld
    have hhere : now'.here trail = fs.here trail := here_eq (root_eq_of_changes hbefore) trail
    cases reply with
    | error e =>
      cases e with
      | interrupted => exact ih hnow hdone (hhere ▸ h)
      | _ => exact absurd h Runs.not_fail
    | ok chunk =>
      have hread : now'.Delivers (.read (fs.here trail) done.length (limit - done.length)) chunk :=
        hgives chunk rfl
      obtain ⟨rest, hrest, hchunk, hend⟩ := hread
      rw [← hhere, Fs.read, hnow.2.2] at hrest
      obtain rfl := Except.ok.inj hrest
      obtain ⟨left, rfl⟩ := hdone
      rw [List.drop_left] at hchunk hend
      cases chunk with
      | nil =>
        obtain ⟨-, rfl, -⟩ := Runs.of_ret h
        have hnil : left = [] := by
          have htake := hend rfl
          rcases List.take_eq_nil_iff.mp htake with hzero | hnil
          · omega
          · exact hnil
        subst hnil
        simp
      | cons b chunk =>
        have hnext : done ++ (b :: chunk) <+: done ++ left :=
          (List.prefix_append_right_inj done).mpr (hchunk.trans (List.take_prefix _ _))
        exact ih hnow hnext (hhere ▸ h)

/-! ## The call that opens the file -/

/-- The call opens a file. -/
def FsQuery.Opens : FsQuery → Prop
  | openFile _ => True
  | _ => False

instance : DecidablePred FsQuery.Opens
  | .openFile _ => .isTrue trivial
  | .symlinkMetadata _ | .metadata _ | .canonicalize _ | .fileMetadata _ | .read _ _ _ |
    .readToString _ => .isFalse not_false

lemma asks_fsCall {Q : FsQuery → Prop} {query : FsQuery} (h : Q query) :
    (fsCall query).Asks Q :=
  ⟨h, fun _ => Prog.asks_ofExcept _⟩

lemma validateComponents_not_opens (path : OsStr) (requiredUid : Uid) (allowSymlink : Bool) :
    (validateComponents path requiredUid allowSymlink).Asks fun query : FsQuery => ¬ query.Opens := by
  rw [validateComponents]
  generalize Path.components path = components
  generalize ([] : OsStr) = current
  induction components generalizing current with
  | nil => trivial
  | cons component rest ih =>
    rw [validateComponentsFrom_cons _ _ _ rfl]
    exact (asks_fsCall id).bind fun _ => (Prog.asks_ofExcept _).bind fun _ => ih _

lemma validateTrustPath_not_opens (path : OsStr) (requiredUid : Uid) :
    (validateTrustPath path requiredUid).Asks fun query : FsQuery => ¬ query.Opens := by
  rw [validateTrustPath]
  split_ifs
  · trivial
  refine (validateComponents_not_opens _ _ _).bind fun _ => ?_
  refine (asks_fsCall id).bind fun canonical => ?_
  refine (validateComponents_not_opens _ _ _).bind fun _ => ?_
  refine (asks_fsCall id).bind fun metadata => ?_
  split_ifs <;> trivial

lemma readToEnd_not_opens (file : FileId) (limit fuel : ℕ) (bytes : List UInt8) :
    (readToEnd file limit fuel bytes).Asks fun query : FsQuery => ¬ query.Opens := by
  induction fuel generalizing bytes with
  | zero => trivial
  | succ fuel ih =>
    rw [readToEnd]
    split_ifs
    · trivial
    rw [Prog.query_bind]
    refine ⟨id, fun reply => ?_⟩
    dsimp only
    split
    · exact ih _
    · trivial
    · trivial
    · exact ih _

lemma readBounded_not_opens (fuel : ℕ) (file : FileId) :
    (readBounded fuel file).Asks fun query : FsQuery => ¬ query.Opens := by
  refine (readToEnd_not_opens _ _ _ _).bind fun bytes => ?_
  split_ifs
  · trivial
  · split <;> trivial

/-- The file behind the path is a regular file with the given text, which the required
user owns and others cannot write to, and so is every directory above it, up to the
exception for `/nix/store`; no symbolic link is on the way. -/
def Fs.OpensSafely (fs : Fs) (requiredUid : Uid) (canonical : OsStr) (text : Text) : Prop :=
  ∃ trail, canonical = Path.ofNames trail.names ∧ fs.Linked trail ∧
    (fs.node (fs.here trail)).content = .file text.bytes ∧
    (fs.node (fs.here trail)).uid = requiredUid ∧ ¬ (fs.node (fs.here trail)).openToOthers ∧
    ∀ above, above <:+ trail → above ≠ trail → fs.Guarded requiredUid above

/-- The path is not `/nix/store`, or what is there is closed to others. -/
def Fs.StoreClosed (fs : Fs) (canonical : OsStr) : Prop :=
  canonical = nixStore → ∀ metadata, fs.metadata canonical = .ok metadata →
    metadata.mode &&& 0o022 = 0

/-- A strict read returns the content of a file that was safe when it was opened. -/
def StrictReadsSafe : Prop :=
  ∀ (fuel : ℕ) (path : OsStr) (requiredUid : Uid) (fs fs' : Fs)
    (tr : List (Fs × Event FsCalls)) (text : Text),
    Runs (unprivilegedWorld requiredUid) (readStrictFile fuel path requiredUid) fs tr fs' text →
      ∃ now canonical file, (now, ⟨.openFile canonical, .ok file⟩) ∈ tr ∧
        now.OpensSafely requiredUid canonical text

/-- What reading a held file returns. -/
lemma bytes_of_readBounded {fuel : ℕ} {bytes : List UInt8} {text : Text}
    (hheld : HeldBytes requiredUid trail bytes fs)
    (h : Runs (unprivilegedWorld requiredUid) (readBounded fuel (fs.here trail)) fs tr fs' text) :
    bytes = text.bytes := by
  obtain ⟨_, _, fs₁, result, -, hread, h⟩ := Runs.of_bind h
  obtain ⟨-, hwhole⟩ := bytes_of_readToEnd hheld List.nil_prefix hread
  split_ifs at h with hsize
  · exact absurd h Runs.not_fail
  obtain rfl := hwhole (by omega)
  cases htext : Text.fromUtf8 result with
  | none =>
    rw [htext] at h
    exact absurd h Runs.not_fail
  | some text' =>
    rw [htext] at h
    obtain ⟨-, rfl, -⟩ := Runs.of_ret h
    exact (Text.bytes_of_fromUtf8 htext).symm

/-- **Whatever unprivileged users do between the calls, the text that a strict read returns
is that of a file that was safe when it was opened, if and only if the path opened is not
`/nix/store` or what was there was closed to others.** -/
theorem opensSafely_iff_storeClosed (fuel : ℕ) (path : OsStr) (requiredUid : Uid) (fs fs' : Fs)
    (tr : List (Fs × Event FsCalls)) (text : Text)
    (h : Runs (unprivilegedWorld requiredUid) (readStrictFile fuel path requiredUid) fs tr fs'
      text) :
    ∃ before after now canonical file,
      tr = before ++ (now, ⟨.openFile canonical, .ok file⟩) :: after ∧
        (∀ x ∈ before ++ after, ¬ x.2.query.Opens) ∧
        (now.OpensSafely requiredUid canonical text ↔ now.StoreClosed canonical) := by
  obtain ⟨tr₁, _, fs₁, canonical, rfl, hvalidate, hrest₁⟩ := Runs.of_bind h
  obtain ⟨_, _, fs₂, expected, rfl, hmetadata, hrest₂⟩ := Runs.of_bind hrest₁
  obtain ⟨_, _, fs₃, file, rfl, hopen, hrest₃⟩ := Runs.of_bind hrest₂
  obtain ⟨_, _, fs₄, actual, rfl, hstat, hrest₄⟩ := Runs.of_bind hrest₃
  clear h hrest₁ hrest₂ hrest₃
  split_ifs at hrest₄
  · exact absurd hrest₄ Runs.not_fail
  obtain ⟨trail, rfl, hheld₁⟩ := heldFile_of_validateTrustPath hvalidate
  have hbefore := hvalidate.asks (validateTrustPath_not_opens _ _)
  have hquery := hmetadata.asks (asks_fsCall (Q := fun query : FsQuery => ¬ query.Opens) id)
  have hstat' := hstat.asks (asks_fsCall (Q := fun query : FsQuery => ¬ query.Opens) id)
  have hafter := hrest₄.asks (readBounded_not_opens _ _)
  obtain ⟨_, rfl, hchanges₁, -, hchanges₂⟩ := Runs.of_fsCall hmetadata
  obtain ⟨now, rfl, hchanges₃, hfile, hchanges₄⟩ := Runs.of_fsCall hopen
  obtain ⟨_, rfl, hchanges₅, -, hchanges₆⟩ := Runs.of_fsCall hstat
  have hnow : HeldFile requiredUid trail now :=
    (stable_heldFile trail).changes ((hchanges₁.trans hchanges₂).trans hchanges₃) hheld₁
  -- the open file is the end of the held path
  change now.openFile _ = .ok file at hfile
  rw [Fs.openFile] at hfile
  have hroot : now.fileType now.root = .dir := by
    cases hresolve : (now.resolve true (Path.ofNames trail.names)).2 with
    | error e => simp [hresolve, Except.map] at hfile
    | ok trail' => exact Fs.root_dir_of_resolve (Path.isAbsolute_ofNames _) hresolve
  rw [Fs.resolve_names _ hnow.1.linked hroot] at hfile
  obtain rfl : now.here trail = file := Except.ok.inj hfile
  refine ⟨tr₁ ++ [_], [_] ++ _, now, _, _, (List.append_assoc tr₁ [_] _).symm, ?_, ?_, ?_⟩
  · intro x hx
    simp only [List.mem_append] at hx
    rcases hx with (hx | hx) | hx | hx
    · exact hbefore x hx
    · exact hquery x hx
    · exact hstat' x hx
    · exact hafter x hx
  · -- a safe file is closed, also at `/nix/store`
    rintro ⟨trail', hpath, hlinked, -, -, hclosed, -⟩ - metadata hmetadata
    rw [Fs.metadata, hpath, Fs.resolve_names _ hlinked hroot] at hmetadata
    obtain rfl := Except.ok.inj hmetadata
    exact not_not.mp hclosed
  · intro hstore
    have hclosed : ¬ (now.node (now.here trail)).openToOthers := by
      rcases hnow.1.guarded.2 with hclosed | ⟨hpath, -⟩
      · exact hclosed
      · refine not_not.mpr (hstore hpath (now.metadataOf (now.here trail)) ?_)
        rw [Fs.metadata, Fs.resolve_names _ hnow.1.linked hroot]
        rfl
    obtain ⟨bytes, hbytes⟩ : ∃ bytes, (now.node (now.here trail)).content = .file bytes := by
      have hkind := hnow.2
      rw [Fs.fileType] at hkind
      cases hcontent : (now.node (now.here trail)).content with
      | file bytes => exact ⟨bytes, rfl⟩
      | _ => simp [hcontent, Content.fileType] at hkind
    have hchanges := (hchanges₄.trans hchanges₅).trans hchanges₆
    have hhere : fs₄.here trail = now.here trail := here_eq (root_eq_of_changes hchanges) trail
    have hread : HeldBytes requiredUid trail bytes fs₄ :=
      (stable_heldBytes trail bytes).changes hchanges ⟨hnow.1, hclosed, hbytes⟩
    obtain rfl := bytes_of_readBounded hread (hhere ▸ hrest₄)
    refine ⟨trail, rfl, hnow.1.linked, hbytes, hnow.1.guarded.1, hclosed, ?_⟩
    exact fun above habove _ => (hnow.1.suffix habove).guarded

/-! ## Concrete reads -/

/-- An undisturbed read in a fixed file system. -/
lemma exists_undisturbed_run (fuel : ℕ) (path : OsStr) (requiredUid : Uid) (fs : Fs) (text : Text)
    (h : (readStrictFile fuel path requiredUid).eval fs.answer = some (.ok text)) :
    ∃ tr, Runs (unprivilegedWorld requiredUid) (readStrictFile fuel path requiredUid) fs tr fs text ∧
      ∀ x ∈ tr, x.1 = fs := by
  have hreply : ∀ query, (unprivilegedWorld requiredUid).reply fs ⟨query, fs.answer query⟩ fs :=
    fun query => ⟨fs.gives_answer query, rfl⟩
  exact Runs.exists_of_eval hreply h

/-- The file system after user 1000 has pointed `/evil/hop` at a directory. -/
def redirectedFs : Fs := (linkedFs "/evil/hop").set ⟨0, 6⟩ (linkNode 1000 "/evil")

lemma unprivileged_redirectedFs : Unprivileged 0 (linkedFs "/evil/hop") redirectedFs :=
  .alter (by decide) (by decide)

/-- The calls of a read through this link, which user 1000 changes once it was followed. -/
def redirectedRun : Prog FsCalls Error Text × List (Event FsCalls) × ℕ :=
  (readStrictFile 3 (Text.bytes "/a/link") 0).run
    (.changing (linkedFs "/evil/hop").answer redirectedFs.answer) 4

lemma redirectedRun_runs : Runs (unprivilegedWorld 0) (readStrictFile 3 (Text.bytes "/a/link") 0)
    (linkedFs "/evil/hop") ((redirectedRun.2.1.take 4).map (fun e => (linkedFs "/evil/hop", e)) ++
      (redirectedRun.2.1.drop 4).map fun e => (redirectedFs, e)) redirectedFs "key" := by
  have hreply : ∀ fs query, (unprivilegedWorld 0).reply fs ⟨query, fs.answer query⟩ fs :=
    fun fs query => ⟨fs.gives_answer query, rfl⟩
  have hreturned : redirectedRun.1.returned = some "key" := by decide +kernel
  rw [redirectedRun] at hreturned ⊢
  exact Runs.of_change (hreply _) unprivileged_redirectedFs (hreply _) hreturned

/-- A read through a symbolic link that leads elsewhere when the file is opened. -/
theorem opensSafely_linkedFs : ∃ tr canonical file,
    Runs (unprivilegedWorld 0) (readStrictFile 3 (Text.bytes "/a/link") 0) (linkedFs "/evil/hop")
        tr redirectedFs "key" ∧
      redirectedFs.canonicalize (Text.bytes "/a/link") = .ok (Text.bytes "/evil") ∧
      (redirectedFs, ⟨.openFile canonical, .ok file⟩) ∈ tr ∧
      (redirectedFs.OpensSafely 0 canonical "key" ↔ redirectedFs.StoreClosed canonical) := by
  have hfirst : ∀ e ∈ redirectedRun.2.1.take 4, ¬ e.query.Opens := by decide +kernel
  have hruns := redirectedRun_runs
  generalize redirectedRun.2.1 = es at hfirst hruns
  obtain ⟨before, after, now, canonical, file, htr, -, hiff⟩ :=
    opensSafely_iff_storeClosed 3 (Text.bytes "/a/link") 0 _ _ _ "key" hruns
  have hmem : (now, (⟨.openFile canonical, .ok file⟩ : Event FsCalls)) ∈ before ++ _ :: after :=
    List.mem_append_right before List.mem_cons_self
  rw [← htr] at hmem
  -- the first calls open nothing
  have hnow : now = redirectedFs := by
    rcases List.mem_append.mp hmem with hmem | hmem
    · obtain ⟨e, he, heq⟩ := List.mem_map.mp hmem
      obtain ⟨-, rfl⟩ := Prod.mk.inj heq
      exact absurd trivial (hfirst _ he)
    · obtain ⟨e, -, heq⟩ := List.mem_map.mp hmem
      exact (Prod.mk.inj heq).1.symm
  subst hnow
  exact ⟨_, canonical, file, hruns, by decide +kernel, hmem, hiff⟩

/-- A file system where `/nix/store` is a regular file that everybody can write to, with the
sticky bit. -/
def storeFileFs : Fs :=
  tableFs [dirNode 0 0o755 [("nix", 1)], dirNode 0 0o755 [("store", 2)],
    ⟨0, 0o1666, .file (Text.bytes "key")⟩]

/-- The file at `/nix/store` is read although everybody can write to it. -/
theorem not_strictReadsSafe : ¬ StrictReadsSafe := by
  intro h
  obtain ⟨tr, hrun, hall⟩ := exists_undisturbed_run 3 nixStore 0 storeFileFs "key"
    (by decide +kernel)
  obtain ⟨now, canonical, file, hmem, trail, -, -, hcontent, -, hclosed, -⟩ :=
    h 3 nixStore 0 storeFileFs storeFileFs tr "key" hrun
  obtain rfl : now = storeFileFs := hall _ hmem
  have hopen : ∀ id bytes, (storeFileFs.node id).content = .file bytes →
      (storeFileFs.node id).openToOthers := by
    rintro ⟨dev, _ | _ | _ | ino⟩ bytes hfile
    · simp [storeFileFs, tableFs, dirNode] at hfile
    · simp [storeFileFs, tableFs, dirNode] at hfile
    · simp [storeFileFs, tableFs, Node.openToOthers]
    · simp [storeFileFs, tableFs] at hfile
  exact hclosed (hopen _ _ hcontent)

end PamSshAgent
