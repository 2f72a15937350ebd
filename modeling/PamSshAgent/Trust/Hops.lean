import PamSshAgent.Fs.Walk
import PamSshAgent.Trust.Path

/-!
# The hops of a validated path

`validate_trust_path` looks at the prefixes of the path and at the prefixes of the path it
resolves to.  The resolution itself can make further hops: the target of a symbolic link
may pass through directories and symbolic links that are named by neither.  This file
shows that every hop outside those is controlled by the required user, and that nothing is
known about those.
-/

namespace PamSshAgent

open Interaction

namespace Fs

variable (fs : Fs)

/-- Only the owner can change a node with this mode, up to the exception for the sticky
directory `/nix/store`. -/
def SafeMode (id : FileId) : Prop :=
  (fs.node id).mode &&& 0o022 = 0 ∨
    (fs.node id).mode &&& 0o1000 ≠ 0 ∧ ∃ trail, (fs.resolve false nixStore).2 = .ok trail ∧
      fs.here trail = id

/-- The node belongs to the user, and nobody else can change it. -/
def Controlled (uid : Uid) (id : FileId) : Prop :=
  (fs.node id).uid = uid ∧ (fs.fileType id = .symlink ∨ fs.SafeMode id)

/-- The directories searched and the symbolic links followed when a path is resolved. -/
def hops (path : OsStr) : List Hop := (fs.resolve true path).1

/-- The node that a path resolves to, or a directory above it. -/
def OnWay (path : OsStr) (id : FileId) : Prop :=
  ∃ trail, (fs.resolve true path).2 = .ok trail ∧ (id = fs.root ∨ id ∈ trail.map Prod.snd)

end Fs

/-- An accepted trust path has only controlled hops. -/
def TrustPathsControlled : Prop :=
  ∀ (fs : Fs) (path canonical : OsStr) (requiredUid : Uid),
    (validateTrustPath path requiredUid).eval fs.answer = some (.ok canonical) →
      ∀ hop ∈ fs.hops path, fs.Controlled requiredUid hop.id

variable {fs : Fs} {requiredUid : Uid} {path canonical : OsStr}

/-! ## What the checks of the components say -/

/-- The names of the components of a path. -/
def plainPieces (path : OsStr) : List OsStr := (Path.pieces path).filter fun piece => IsPlain piece

lemma isName_of_mem_plainPieces : ∀ name ∈ plainPieces path, Path.IsName name := by
  intro name hname
  obtain ⟨hpiece, hplain⟩ := List.mem_filter.mp hname
  exact ⟨Path.slash_notMem_of_mem_pieces hpiece, of_decide_eq_true hplain⟩

lemma filterMap_pieceComponent_of_not_dotdot {pieces : List OsStr} (h : dotdot ∉ pieces) :
    pieces.filterMap Path.pieceComponent =
      (pieces.filter fun piece => IsPlain piece).map .normal := by
  induction pieces with
  | nil => rfl
  | cons piece pieces ih =>
    simp only [List.mem_cons, not_or] at h
    have hne : piece ≠ dotdot := Ne.symm h.1
    by_cases hskip : piece = [] ∨ piece = dot
    · have hplain : ¬ IsPlain piece := fun hp => hskip.elim hp.1 hp.2.1
      rw [List.filterMap_cons, Path.pieceComponent, if_pos hskip, ih h.2,
        List.filter_cons_of_neg (by simpa using hplain)]
    · have hplain : IsPlain piece := by
        rw [not_or] at hskip
        exact ⟨hskip.1, hskip.2, hne⟩
      rw [List.filterMap_cons, Path.pieceComponent, if_neg hskip, if_neg hne, ih h.2,
        List.filter_cons_of_pos (by simpa using hplain), List.map_cons]

lemma isNormalized_iff : isNormalized path = true ↔
    Path.isAbsolute path = true ∧ .curDir ∉ Path.components path ∧
      .parentDir ∉ Path.components path := by
  simp only [isNormalized, Bool.and_eq_true, Bool.not_eq_true', List.any_eq_false,
    Bool.or_eq_true, decide_eq_true_eq, not_or]
  constructor
  · rintro ⟨habs, hall⟩
    exact ⟨habs, fun hc => (hall _ hc).1 rfl, fun hp => (hall _ hp).2 rfl⟩
  · rintro ⟨habs, hcur, hparent⟩
    refine ⟨habs, fun component hc => ⟨?_, ?_⟩⟩
    · rintro rfl
      exact hcur hc
    · rintro rfl
      exact hparent hc

/-- The components of a normalized path. -/
lemma components_of_isNormalized (h : isNormalized path = true) :
    dotdot ∉ Path.pieces path ∧
      Path.components path = .rootDir :: (plainPieces path).map .normal := by
  obtain ⟨habs, -, hparent⟩ := isNormalized_iff.mp h
  rw [Path.components, if_pos habs] at hparent ⊢
  have hdotdot : dotdot ∉ Path.pieces path := by
    intro hmem
    have hcomponent : Component.parentDir ∈ (Path.pieces path).filterMap Path.pieceComponent :=
      List.mem_filterMap.mpr ⟨dotdot, hmem, by decide⟩
    exact hparent (List.mem_append_right _ hcomponent)
  exact ⟨hdotdot, by rw [filterMap_pieceComponent_of_not_dotdot hdotdot]; rfl⟩

lemma eval_fsCall_eq_ok {query : FsQuery} {value : query.Value} :
    (fsCall query).eval fs.answer = some (.ok value) ↔ fs.answer query = .ok value := by
  rw [fsCall, Prog.query_bind, Prog.eval, Prog.eval_ofExcept_eq_ok]
  cases fs.answer query <;> simp [Except.mapError]

lemma validateComponentsFrom_cons (allowSymlink : Bool) {current next : OsStr}
    (component : Component) (rest : List Component)
    (hnext : Path.push current component.asOsStr = next) :
    validateComponentsFrom requiredUid allowSymlink current (component :: rest) =
      (do
        let metadata ← fsCall (.symlinkMetadata next)
        Prog.ofExcept (validateComponent next requiredUid allowSymlink metadata)
        validateComponentsFrom requiredUid allowSymlink next rest) := by
  subst hnext
  rfl

/-- The check of every component from a prefix on. -/
lemma validateComponentsFrom_eq_ok {allowSymlink : Bool} {done names : List OsStr}
    (hdone : ∀ name ∈ done, Path.IsName name) (hnames : ∀ name ∈ names, Path.IsName name)
    (h : (validateComponentsFrom requiredUid allowSymlink (Path.ofNames done)
      (names.map .normal)).eval fs.answer = some (.ok ())) :
    ∀ before after, names = before ++ after → before ≠ [] →
      ∃ metadata, fs.symlinkMetadata (Path.ofNames (done ++ before)) = .ok metadata ∧
        validateComponent (Path.ofNames (done ++ before)) requiredUid allowSymlink metadata =
          .ok () := by
  induction names generalizing done with
  | nil =>
    intro before after hsplit hne
    exact absurd (List.append_eq_nil_iff.mp hsplit.symm).1 hne
  | cons name names ih =>
    simp only [List.mem_cons, forall_eq_or_imp] at hnames
    rw [List.map_cons, validateComponentsFrom_cons _ (.normal name) _
      (Path.push_ofNames hdone hnames.1)] at h
    obtain ⟨metadata, hcall, h⟩ := Prog.eval_bind_eq_ok.mp h
    obtain ⟨⟨⟩, hcheck, h⟩ := Prog.eval_bind_eq_ok.mp h
    have hdone' : ∀ n ∈ done ++ [name], Path.IsName n := by
      intro n hn
      rcases List.mem_append.mp hn with hn | hn
      · exact hdone n hn
      · exact List.mem_singleton.mp hn ▸ hnames.1
    intro before after hsplit hne
    obtain ⟨first, before, rfl⟩ := List.exists_cons_of_ne_nil hne
    obtain ⟨rfl, htail⟩ := List.cons.inj hsplit
    by_cases hnil : before = []
    · subst hnil
      exact ⟨metadata, eval_fsCall_eq_ok.mp hcall, Prog.eval_ofExcept_eq_ok.mp hcheck⟩
    · simpa using ih hdone' hnames.2 h before after htail hnil

/-- Each prefix of a path through names was looked up and accepted. -/
lemma validateComponents_eq_ok {allowSymlink : Bool} {names : List OsStr}
    (hcomponents : Path.components path = .rootDir :: names.map .normal)
    (hnames : ∀ name ∈ names, Path.IsName name)
    (h : (validateComponents path requiredUid allowSymlink).eval fs.answer = some (.ok ())) :
    ∀ before after, names = before ++ after →
      ∃ metadata, fs.symlinkMetadata (Path.ofNames before) = .ok metadata ∧
        validateComponent (Path.ofNames before) requiredUid allowSymlink metadata = .ok () := by
  rw [validateComponents, hcomponents, validateComponentsFrom_cons _ _ _ Path.push_rootDir] at h
  obtain ⟨metadata, hcall, h⟩ := Prog.eval_bind_eq_ok.mp h
  obtain ⟨⟨⟩, hcheck, h⟩ := Prog.eval_bind_eq_ok.mp h
  intro before after hsplit
  by_cases hnil : before = []
  · subst hnil
    exact ⟨metadata, eval_fsCall_eq_ok.mp hcall, Prog.eval_ofExcept_eq_ok.mp hcheck⟩
  · simpa using validateComponentsFrom_eq_ok (by simp) hnames h before after hsplit hnil

lemma ofNames_eq_nixStore {names : List OsStr} (hnames : ∀ name ∈ names, Path.IsName name)
    (h : Path.components (Path.ofNames names) = Path.components nixStore) :
    Path.ofNames names = nixStore := by
  have hstore : Path.components nixStore =
      .rootDir :: ([Text.bytes "nix", Text.bytes "store"] : List OsStr).map .normal := by
    decide +kernel
  rw [Path.components_ofNames hnames, hstore] at h
  have hmap := (List.cons.inj h).2
  have hinj : Function.Injective Component.normal := fun _ _ heq => Component.normal.inj heq
  rw [List.map_injective_iff.mpr hinj hmap]
  decide +kernel

/-- What `validate_mode` accepts. -/
lemma validateMode_eq_ok {metadata : Metadata} (h : validateMode path metadata = .ok ()) :
    metadata.mode &&& 0o022 = 0 ∨
      Path.components path = Path.components nixStore ∧ metadata.mode &&& 0o1000 ≠ 0 := by
  rw [validateMode] at h
  split_ifs at h with hmode hstore
  · exact Or.inl hmode
  · exact Or.inr hstore

/-- What the check of one component accepts. -/
lemma validateComponent_eq_ok {allowSymlink : Bool} {metadata : Metadata}
    (h : validateComponent path requiredUid allowSymlink metadata = .ok ()) :
    metadata.uid = requiredUid ∧
      (metadata.fileType = .symlink ∧ allowSymlink = true ∨
        metadata.fileType ≠ .symlink ∧ validateMode path metadata = .ok ()) := by
  rw [validateComponent] at h
  split_ifs at h with huid hlink hallow
  · exact ⟨not_not.mp huid, Or.inl ⟨hlink, by simpa using hallow⟩⟩
  · exact ⟨not_not.mp huid, Or.inr ⟨hlink, h⟩⟩

/-- A node whose path was accepted is controlled. -/
lemma controlled_of_validateComponent {allowSymlink : Bool} {names : List OsStr} {trail : Trail}
    {metadata : Metadata} (hnames : ∀ name ∈ names, Path.IsName name)
    (hresolve : (fs.resolve false (Path.ofNames names)).2 = .ok trail)
    (hmetadata : fs.symlinkMetadata (Path.ofNames names) = .ok metadata)
    (h : validateComponent (Path.ofNames names) requiredUid allowSymlink metadata = .ok ()) :
    fs.Controlled requiredUid (fs.here trail) := by
  rw [Fs.symlinkMetadata, hresolve] at hmetadata
  obtain rfl : fs.metadataOf (fs.here trail) = metadata := Except.ok.inj hmetadata
  obtain ⟨huid, ⟨hlink, -⟩ | ⟨-, hmode⟩⟩ := validateComponent_eq_ok h
  · exact ⟨huid, Or.inl hlink⟩
  · refine ⟨huid, Or.inr ?_⟩
    rcases validateMode_eq_ok hmode with hclosed | ⟨hstore, hsticky⟩
    · exact Or.inl hclosed
    · rw [ofNames_eq_nixStore hnames hstore] at hresolve
      exact Or.inr ⟨hsticky, trail, hresolve, rfl⟩

/-! ## Coverage -/

/-- The steps of a successful validation. -/
lemma validateTrustPath_eq_ok
    (h : (validateTrustPath path requiredUid).eval fs.answer = some (.ok canonical)) :
    isNormalized path = true ∧
      (validateComponents path requiredUid true).eval fs.answer = some (.ok ()) ∧
      fs.canonicalize path = .ok canonical ∧
      (validateComponents canonical requiredUid false).eval fs.answer = some (.ok ()) := by
  rw [validateTrustPath] at h
  split_ifs at h with hnormal
  · simp [Prog.eval] at h
  · obtain ⟨⟨⟩, hpath, h⟩ := Prog.eval_bind_eq_ok.mp h
    obtain ⟨canonical', hcanonical, h⟩ := Prog.eval_bind_eq_ok.mp h
    obtain ⟨⟨⟩, hresolved, h⟩ := Prog.eval_bind_eq_ok.mp h
    obtain ⟨metadata, -, h⟩ := Prog.eval_bind_eq_ok.mp h
    split_ifs at h
    · simp [Prog.eval] at h
    · obtain rfl : canonical' = canonical := Except.ok.inj (Option.some.inj h)
      exact ⟨by simpa using hnormal, hpath, eval_fsCall_eq_ok.mp hcanonical, hresolved⟩

/-- A hop of the path itself is the root or what a prefix of its names leads to. -/
lemma hop_of_path (hnormal : isNormalized path = true) (hroot : fs.fileType fs.root = .dir)
    {hop : Hop} (hhop : hop ∈ fs.hops path) (hown : hop.inTarget = false) :
    ∃ before after trail, plainPieces path = before ++ after ∧
      (fs.resolve false (Path.ofNames before)).2 = .ok trail ∧ fs.here trail = hop.id := by
  obtain ⟨habs, -⟩ := isNormalized_iff.mp hnormal
  obtain ⟨hdotdot, -⟩ := components_of_isNormalized hnormal
  rw [Fs.hops, Fs.resolve_of_isAbsolute habs] at hhop
  -- a normalized path has no segment that goes up
  have hup : ∀ segment ∈ segments false path, segment.inTarget = false →
      segment.name ≠ dotdot := by
    intro segment hsegment _ hname
    obtain ⟨piece, hpiece, rfl⟩ := List.mem_map.mp hsegment
    exact hdotdot (hname ▸ hpiece)
  rcases Fs.hop_of_walk hup hhop hown with ⟨-, hid⟩ |
    ⟨before, segment, after, trail, hsplit, hs, hplain, hwalk⟩
  · refine ⟨[], plainPieces path, [], rfl, ?_, hid.symm⟩
    exact @Fs.resolve_names _ [] _ trivial hroot
  · -- the kept segments are the names of the prefix
    obtain ⟨pieces₁, pieces₂, hpieces, rfl, hafter⟩ := List.map_eq_append_iff.mp hsplit
    obtain ⟨piece, pieces₃, rfl, rfl, rfl⟩ := List.map_eq_cons_iff.mp hafter
    have hkept : (pieces₁.map fun piece => (⟨piece, false⟩ : Segment)).filter Fs.kept ++
        [⟨piece, false⟩] = Fs.ownSegments ((pieces₁.filter fun piece => IsPlain piece) ++ [piece]) := by
      simp only [Fs.ownSegments, List.map_append, List.filter_map, List.map_cons, List.map_nil]
      rfl
    have hnames : plainPieces path = ((pieces₁.filter fun piece => IsPlain piece) ++ [piece]) ++
        pieces₃.filter fun piece => IsPlain piece := by
      rw [plainPieces, hpieces, List.filter_append,
        List.filter_cons_of_pos (by simpa using hplain)]
      simp
    refine ⟨_, _, (piece, hop.id) :: trail, hnames, ?_, rfl⟩
    have hslash : ∀ name ∈ (pieces₁.filter fun piece => IsPlain piece) ++ [piece],
        slash ∉ name := by
      intro name hname
      have hmem : name ∈ plainPieces path := by
        rw [hnames]
        exact List.mem_append_left _ hname
      exact (isName_of_mem_plainPieces name hmem).1
    have halong := @Fs.resolve_along _ [] false _ trivial hroot hslash
    rw [hkept] at hwalk
    exact halong.trans hwalk

/-- A node on the way to the resolved file is what a prefix of the resolved path leads to. -/
lemma prefix_of_linked {trail : Trail} (hlinked : fs.Linked trail) {id : FileId}
    (hid : id = fs.root ∨ id ∈ trail.map Prod.snd) :
    ∃ before after trail', trail.names = before ++ after ∧ fs.Linked trail' ∧
      before = trail'.names ∧ fs.here trail' = id := by
  induction trail with
  | nil =>
    obtain rfl : id = fs.root := by simpa using hid
    exact ⟨[], [], [], rfl, trivial, rfl, rfl⟩
  | cons entry trail ih =>
    obtain ⟨name, entryId⟩ := entry
    by_cases hlast : id = entryId
    · exact ⟨_, [], (name, entryId) :: trail, (List.append_nil _).symm, hlinked, rfl, hlast.symm⟩
    · have hid' : id = fs.root ∨ id ∈ trail.map Prod.snd := by
        simpa [hlast] using hid
      obtain ⟨before, after, trail', hsplit, hlinked', hnames, hhere⟩ := ih hlinked.1 hid'
      refine ⟨before, after ++ [name], trail', ?_, hlinked', hnames, hhere⟩
      rw [Fs.names_cons, hsplit, List.append_assoc]

/-- **When a trust path is accepted, every hop of its resolution is controlled by the
required user if and only if the hops inside the targets of symbolic links are that do not
lie on the way to the resolved file.** -/
theorem controlled_hops_iff (fs : Fs) (path canonical : OsStr) (requiredUid : Uid)
    (h : (validateTrustPath path requiredUid).eval fs.answer = some (.ok canonical)) :
    (∀ hop ∈ fs.hops path, fs.Controlled requiredUid hop.id) ↔
      ∀ hop ∈ fs.hops path, hop.inTarget = true → ¬ fs.OnWay path hop.id →
        fs.Controlled requiredUid hop.id := by
  refine ⟨fun hall hop hhop _ _ => hall hop hhop, fun hinner hop hhop => ?_⟩
  obtain ⟨hnormal, hpath, hcanonical, hresolved⟩ := validateTrustPath_eq_ok h
  obtain ⟨habs, -⟩ := isNormalized_iff.mp hnormal
  obtain ⟨trail, htrail, hlinked, hroot, rfl⟩ := Fs.canonicalize_eq_ok habs hcanonical
  by_cases hway : fs.OnWay path hop.id
  · -- the second walk has checked every node on the way to the file
    obtain ⟨trail', htrail', hid⟩ := hway
    obtain rfl : trail = trail' := Except.ok.inj (htrail.symm.trans htrail')
    obtain ⟨before, after, trail', hsplit, hlinked', rfl, hhere⟩ := prefix_of_linked hlinked hid
    obtain ⟨metadata, hmetadata, hcheck⟩ := validateComponents_eq_ok
      (Path.components_ofNames hlinked.isName) hlinked.isName hresolved _ after hsplit
    rw [← hhere]
    exact controlled_of_validateComponent hlinked'.isName (Fs.resolve_names _ hlinked' hroot)
      hmetadata hcheck
  · by_cases htarget : hop.inTarget = true
    · exact hinner hop hhop htarget hway
    · -- the first walk has checked every prefix of the path
      obtain ⟨before, after, trail', hsplit, hresolve, hhere⟩ :=
        hop_of_path hnormal hroot hhop (by simpa using htarget)
      obtain ⟨metadata, hmetadata, hcheck⟩ := validateComponents_eq_ok
        (components_of_isNormalized hnormal).2 isName_of_mem_plainPieces hpath before after hsplit
      have hnames : ∀ name ∈ before, Path.IsName name := fun name hname =>
        isName_of_mem_plainPieces name (hsplit ▸ List.mem_append_left _ hname)
      rw [← hhere]
      exact controlled_of_validateComponent hnames hresolve hmetadata hcheck

/-! ## Concrete file systems -/

/-- A directory with the given entries, by the numbers of their nodes. -/
def dirNode (uid mode : ℕ) (entries : List (Text × ℕ)) : Node where
  uid := uid
  mode := mode
  content := .dir fun name =>
    (entries.find? fun entry => entry.1.bytes = name).map fun entry => ⟨0, entry.2⟩

/-- A symbolic link. -/
def linkNode (uid : ℕ) (target : Text) : Node := ⟨uid, 0o777, .symlink target.bytes⟩

/-- The file system with the given nodes; the first one is the root. -/
def tableFs (nodes : List Node) : Fs where
  node id := nodes.getD id.ino ⟨0, 0, .special⟩
  root := ⟨0, 0⟩
  cwd := []

/-- A file system where `/a/link` leads through `hop` to the file `/b/file`, with every
node owned by root but the directory `/evil`. -/
def linkedFs (hop : Text) : Fs :=
  tableFs [dirNode 0 0o755 [("a", 1), ("b", 2), ("evil", 3)], dirNode 0 0o755 [("link", 4)],
    dirNode 0 0o755 [("file", 5)], dirNode 1000 0o755 [("hop", 6)], linkNode 0 hop,
    ⟨0, 0o644, .file (Text.bytes "key")⟩, linkNode 1000 "/b/file"]

/-- Straight to the file, every hop is controlled. -/
theorem controlled_hops_linkedFs :
    (validateTrustPath (Text.bytes "/a/link") 0).eval (linkedFs "/b/file").answer =
        some (.ok (Text.bytes "/b/file")) ∧
      ∀ hop ∈ (linkedFs "/b/file").hops (Text.bytes "/a/link"),
        (linkedFs "/b/file").Controlled 0 hop.id := by
  refine ⟨by decide +kernel, ?_⟩
  refine (controlled_hops_iff (linkedFs "/b/file") (Text.bytes "/a/link") (Text.bytes "/b/file") 0
    (by decide +kernel)).mpr fun hop hhop htarget hway => absurd ?_ hway
  have hhops : ∀ hop ∈ (linkedFs "/b/file").hops (Text.bytes "/a/link"), hop.inTarget = true →
      hop.id = ⟨0, 0⟩ ∨ hop.id = ⟨0, 2⟩ := by
    decide +kernel
  have htrail : ((linkedFs "/b/file").resolve true (Text.bytes "/a/link")).2 =
      .ok [(Text.bytes "file", ⟨0, 5⟩), (Text.bytes "b", ⟨0, 2⟩)] := by
    decide +kernel
  exact ⟨_, htrail, (hhops hop hhop htarget).imp id fun hid => by simp [hid]⟩

/-- Through the directory of another user the file is accepted all the same. -/
theorem not_trustPathsControlled : ¬ TrustPathsControlled := by
  intro h
  have hevil : (⟨⟨0, 3⟩, true⟩ : Hop) ∈ (linkedFs "/evil/hop").hops (Text.bytes "/a/link") := by
    decide +kernel
  obtain ⟨huid, -⟩ := h (linkedFs "/evil/hop") (Text.bytes "/a/link") (Text.bytes "/b/file") 0
    (by decide +kernel) _ hevil
  exact absurd huid (by decide +kernel)

end PamSshAgent
