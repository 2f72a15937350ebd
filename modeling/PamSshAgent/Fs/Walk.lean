import PamSshAgent.Fs.Tree

/-!
# Walks

Two facts about the resolution of paths.  A walk that follows every symbolic link ends on a
linked trail, one that names its nodes from the root down without a symbolic link; and the
path along a linked trail leads back to it.  Each hop that a walk did not make inside the
target of a symbolic link is what a prefix of its path names.
-/

namespace PamSshAgent

/-- A piece of a path that is looked up in a directory. -/
def IsPlain (piece : OsStr) : Prop := piece ≠ [] ∧ piece ≠ dot ∧ piece ≠ dotdot

instance (piece : OsStr) : Decidable (IsPlain piece) := inferInstanceAs (Decidable (_ ∧ _ ∧ _))

namespace Fs

variable {fs : Fs} {follow : Bool} {budget : ℕ} {place : Place} {segment : Segment}
  {rest : List Segment} {id : FileId} {trail : Trail}

/-! ## One piece of a path -/

@[simp] lemma walk_nil : fs.walk follow budget place [] = .stop (.ok place.trail) := by
  cases budget <;> rfl

/-- A walk with a segment left needs a directory. -/
lemma walk_of_not_dir (hdir : fs.fileType (fs.here place.trail) ≠ .dir) :
    fs.walk follow budget place (segment :: rest) = .stop (.error .notADirectory) := by
  cases budget <;> rw [walk, walkWith, if_pos hdir]

lemma walk_skip (hdir : fs.fileType (fs.here place.trail) = .dir)
    (hname : segment.name = [] ∨ segment.name = dot) :
    fs.walk follow budget place (segment :: rest) =
      Walk.after ⟨fs.here place.trail, place.inTarget⟩ (fs.walk follow budget place rest) := by
  cases budget <;>
  · rw [walk, walkWith, if_neg (not_not.mpr hdir), if_pos hname]

lemma walk_parent (hdir : fs.fileType (fs.here place.trail) = .dir)
    (hname : segment.name = dotdot) :
    fs.walk follow budget place (segment :: rest) =
      Walk.after ⟨fs.here place.trail, place.inTarget⟩
        (fs.walk follow budget ⟨place.trail.tail, segment.inTarget⟩ rest) := by
  cases budget <;>
  · rw [walk, walkWith, if_neg (not_not.mpr hdir), if_neg (by rw [hname]; decide), if_pos hname]

lemma walk_notFound (hdir : fs.fileType (fs.here place.trail) = .dir)
    (hname : IsPlain segment.name) (hlookup : fs.lookup (fs.here place.trail) segment.name = none) :
    fs.walk follow budget place (segment :: rest) =
      Walk.after ⟨fs.here place.trail, place.inTarget⟩ (.stop (.error .notFound)) := by
  cases budget <;>
  · rw [walk, walkWith, if_neg (not_not.mpr hdir), if_neg (by simp [hname.1, hname.2.1]),
      if_neg hname.2.2]
    simp only [hlookup]

/-- A walk enters an entry that is no symbolic link. -/
lemma walk_enter (hdir : fs.fileType (fs.here place.trail) = .dir) (hname : IsPlain segment.name)
    (hlookup : fs.lookup (fs.here place.trail) segment.name = some id)
    (hlink : fs.linkTarget id = none) :
    fs.walk follow budget place (segment :: rest) =
      Walk.after ⟨fs.here place.trail, place.inTarget⟩
        (fs.walk follow budget ⟨(segment.name, id) :: place.trail, segment.inTarget⟩ rest) := by
  cases budget <;>
  · rw [walk, walkWith, if_neg (not_not.mpr hdir), if_neg (by simp [hname.1, hname.2.1]),
      if_neg hname.2.2]
    simp only [hlookup, hlink]

/-- A walk stops at a symbolic link that it does not follow. -/
lemma walk_stop_at_link {target : OsStr} (hdir : fs.fileType (fs.here place.trail) = .dir)
    (hname : IsPlain segment.name)
    (hlookup : fs.lookup (fs.here place.trail) segment.name = some id)
    (hlink : fs.linkTarget id = some target) :
    fs.walk false budget place [segment] =
      Walk.after ⟨fs.here place.trail, place.inTarget⟩
        (.stop (.ok ((segment.name, id) :: place.trail))) := by
  cases budget <;>
  · rw [walk, walkWith, if_neg (not_not.mpr hdir), if_neg (by simp [hname.1, hname.2.1]),
      if_neg hname.2.2]
    simp only [hlookup, hlink, and_self, if_true]

lemma walk_link_zero {target : OsStr} (hdir : fs.fileType (fs.here place.trail) = .dir)
    (hname : IsPlain segment.name)
    (hlookup : fs.lookup (fs.here place.trail) segment.name = some id)
    (hlink : fs.linkTarget id = some target) (hgo : ¬ (rest = [] ∧ follow = false)) :
    fs.walk follow 0 place (segment :: rest) =
      Walk.after ⟨fs.here place.trail, place.inTarget⟩
        (Walk.after ⟨id, segment.inTarget⟩ (.stop (.error .filesystemLoop))) := by
  rw [walk, walkWith, if_neg (not_not.mpr hdir), if_neg (by simp [hname.1, hname.2.1]),
    if_neg hname.2.2]
  simp only [hlookup, hlink, if_neg hgo]

/-- A walk follows a symbolic link. -/
lemma walk_link_succ {target : OsStr} (hdir : fs.fileType (fs.here place.trail) = .dir)
    (hname : IsPlain segment.name)
    (hlookup : fs.lookup (fs.here place.trail) segment.name = some id)
    (hlink : fs.linkTarget id = some target) (hgo : ¬ (rest = [] ∧ follow = false)) :
    fs.walk follow (budget + 1) place (segment :: rest) =
      Walk.after ⟨fs.here place.trail, place.inTarget⟩ (Walk.after ⟨id, segment.inTarget⟩
        (fs.walk follow budget (place.afterLink target) (segments true target ++ rest))) := by
  rw [walk, walkWith, if_neg (not_not.mpr hdir), if_neg (by simp [hname.1, hname.2.1]),
    if_neg hname.2.2]
  simp only [hlookup, hlink, if_neg hgo]

/-! ## Linked trails -/

/-- A trail whose names lead from the root, over nodes that are no symbolic links. -/
def Linked (fs : Fs) : Trail → Prop
  | [] => True
  | (name, id) :: trail => fs.Linked trail ∧ Path.IsName name ∧
      fs.fileType (fs.here trail) = .dir ∧ fs.lookup (fs.here trail) name = some id ∧
      fs.linkTarget id = none

lemma Linked.tail (h : fs.Linked trail) : fs.Linked trail.tail := by
  cases trail with
  | nil => exact trivial
  | cons _ _ => exact h.1

lemma Linked.isName (h : fs.Linked trail) : ∀ name ∈ trail.names, Path.IsName name := by
  induction trail with
  | nil => simp [Trail.names]
  | cons entry trail ih =>
    obtain ⟨name, id⟩ := entry
    intro x hx
    simp only [Trail.names, List.map_cons, List.reverse_cons, List.mem_append,
      List.mem_singleton] at hx
    rcases hx with hx | rfl
    · exact ih h.1 x hx
    · exact h.2.1

@[simp] lemma names_nil : Trail.names [] = [] := rfl

@[simp] lemma names_cons (name : OsStr) (id : FileId) (trail : Trail) :
    Trail.names ((name, id) :: trail) = trail.names ++ [name] := by
  simp [Trail.names]

/-- The segments of a list of names. -/
def ownSegments (names : List OsStr) : List Segment := names.map fun name => ⟨name, false⟩

lemma segments_slash_notMem {inTarget : Bool} {path : OsStr} :
    ∀ segment ∈ segments inTarget path, slash ∉ segment.name := by
  intro segment hsegment
  obtain ⟨piece, hpiece, rfl⟩ := List.mem_map.mp hsegment
  exact Path.slash_notMem_of_mem_pieces hpiece

/-- The steps of a successful walk. -/
lemma walk_cons_eq_ok (h : (fs.walk follow budget place (segment :: rest)).2 = .ok trail) :
    fs.fileType (fs.here place.trail) = .dir ∧
      ((segment.name = [] ∨ segment.name = dot) ∧
          (fs.walk follow budget place rest).2 = .ok trail ∨
        segment.name = dotdot ∧
          (fs.walk follow budget ⟨place.trail.tail, segment.inTarget⟩ rest).2 = .ok trail ∨
        IsPlain segment.name ∧
          ∃ id, fs.lookup (fs.here place.trail) segment.name = some id ∧
            (fs.linkTarget id = none ∧ (fs.walk follow budget
                ⟨(segment.name, id) :: place.trail, segment.inTarget⟩ rest).2 = .ok trail ∨
              ∃ target, fs.linkTarget id = some target ∧
                ((rest = [] ∧ follow = false) ∧ trail = (segment.name, id) :: place.trail ∨
                  ¬ (rest = [] ∧ follow = false) ∧ ∃ left, budget = left + 1 ∧
                    (fs.walk follow left (place.afterLink target)
                      (segments true target ++ rest)).2 = .ok trail))) := by
  by_cases hdir : fs.fileType (fs.here place.trail) = .dir
  swap
  · simp [walk_of_not_dir hdir] at h
  refine ⟨hdir, ?_⟩
  by_cases hskip : segment.name = [] ∨ segment.name = dot
  · rw [walk_skip hdir hskip] at h
    exact Or.inl ⟨hskip, h⟩
  by_cases hparent : segment.name = dotdot
  · rw [walk_parent hdir hparent] at h
    exact Or.inr (Or.inl ⟨hparent, h⟩)
  have hplain : IsPlain segment.name := by
    rw [not_or] at hskip
    exact ⟨hskip.1, hskip.2, hparent⟩
  refine Or.inr (Or.inr ⟨hplain, ?_⟩)
  cases hlookup : fs.lookup (fs.here place.trail) segment.name with
  | none => simp [walk_notFound hdir hplain hlookup] at h
  | some id =>
    refine ⟨id, rfl, ?_⟩
    cases hlink : fs.linkTarget id with
    | none =>
      rw [walk_enter hdir hplain hlookup hlink] at h
      exact Or.inl ⟨rfl, h⟩
    | some target =>
      refine Or.inr ⟨target, rfl, ?_⟩
      by_cases hstop : rest = [] ∧ follow = false
      · obtain ⟨rfl, rfl⟩ := hstop
        rw [walk_stop_at_link hdir hplain hlookup hlink] at h
        exact Or.inl ⟨⟨rfl, rfl⟩, (Except.ok.inj h).symm⟩
      · cases budget with
        | zero => simp [walk_link_zero hdir hplain hlookup hlink hstop] at h
        | succ left =>
          rw [walk_link_succ hdir hplain hlookup hlink hstop] at h
          exact Or.inr ⟨hstop, left, rfl, h⟩

/-- A walk that follows every symbolic link ends on a linked trail. -/
lemma linked_of_walk {segs : List Segment} (hlinked : fs.Linked place.trail)
    (hslash : ∀ segment ∈ segs, slash ∉ segment.name)
    (h : (fs.walk true budget place segs).2 = .ok trail) : fs.Linked trail := by
  induction budget using Nat.strong_induction_on generalizing place segs with
  | _ budget ihb =>
    induction segs generalizing place with
    | nil =>
      obtain rfl : place.trail = trail := by simpa using h
      exact hlinked
    | cons segment rest ih =>
      simp only [List.mem_cons, forall_eq_or_imp] at hslash
      obtain ⟨hdir, ⟨-, hrest⟩ | ⟨-, hrest⟩ | ⟨hplain, id, hlookup, ⟨hlink, hrest⟩ |
        ⟨target, -, ⟨⟨-, hstop⟩, -⟩ | ⟨-, left, rfl, hrest⟩⟩⟩⟩ := walk_cons_eq_ok h
      · exact ih hlinked hslash.2 hrest
      · exact ih hlinked.tail hslash.2 hrest
      · have hentry : fs.Linked ((segment.name, id) :: place.trail) :=
          ⟨hlinked, ⟨hslash.1, hplain⟩, hdir, hlookup, hlink⟩
        exact ih hentry hslash.2 hrest
      · exact absurd hstop (by simp)
      · refine ihb left (Nat.lt_succ_self left) ?_ ?_ hrest
        · rw [Place.afterLink]
          split_ifs
          · exact trivial
          · exact hlinked
        · intro segment hsegment
          rcases List.mem_append.mp hsegment with hsegment | hsegment
          · exact segments_slash_notMem segment hsegment
          · exact hslash.2 segment hsegment

/-- Along a linked trail a walk comes to its end. -/
lemma walk_along (hlinked : fs.Linked trail) (rest : List Segment) :
    (fs.walk follow budget ⟨[], false⟩ (ownSegments trail.names ++ rest)).2 =
      (fs.walk follow budget ⟨trail, false⟩ rest).2 := by
  induction trail generalizing rest with
  | nil => rfl
  | cons entry trail ih =>
    obtain ⟨name, id⟩ := entry
    obtain ⟨htrail, hname, hdir, hlookup, hlink⟩ := hlinked
    have hsplit : ownSegments (Trail.names ((name, id) :: trail)) ++ rest =
        ownSegments (Trail.names trail) ++ (⟨name, false⟩ :: rest) := by
      simp [ownSegments]
    have hplain : IsPlain (Segment.mk name false).name := hname.2
    rw [hsplit, ih htrail, walk_enter hdir hplain hlookup hlink, Walk.after_result]

/-- The resolution of an absolute path that goes on after a linked trail. -/
lemma resolve_along (follow : Bool) {names : List OsStr} (hlinked : fs.Linked trail)
    (hdir : fs.fileType fs.root = .dir) (hnames : ∀ name ∈ names, slash ∉ name) :
    (fs.resolve follow (Path.ofNames (trail.names ++ names))).2 =
      (fs.walk follow maxSymlinks ⟨trail, false⟩ (ownSegments names)).2 := by
  have hall : ∀ name ∈ trail.names ++ names, slash ∉ name := by
    intro name hname
    rcases List.mem_append.mp hname with hname | hname
    · exact (hlinked.isName name hname).1
    · exact hnames name hname
  have hne : Path.ofNames (trail.names ++ names) ≠ [] := by
    intro hnil
    have habs := Path.isAbsolute_ofNames (trail.names ++ names)
    rw [hnil] at habs
    exact absurd habs (by decide)
  rw [resolve, if_neg hne, if_pos (Path.isAbsolute_ofNames _), segments, Path.pieces_ofNames hall]
  have hroot : fs.fileType (fs.here (Place.mk [] false).trail) = .dir := hdir
  split_ifs with hnil
  · obtain ⟨htrail, rfl⟩ := List.append_eq_nil_iff.mp hnil
    obtain rfl : trail = [] := by simpa [Trail.names] using htrail
    rw [List.map_cons, walk_skip hroot (Or.inl rfl), List.map_cons, Walk.after_result,
      walk_skip hroot (Or.inl rfl)]
    rfl
  · rw [List.map_cons, walk_skip hroot (Or.inl rfl), Walk.after_result, List.map_append]
    exact walk_along hlinked (ownSegments names)

/-- The path along a linked trail leads to its end. -/
lemma resolve_names (follow : Bool) (hlinked : fs.Linked trail) (hdir : fs.fileType fs.root = .dir) :
    (fs.resolve follow (Path.ofNames trail.names)).2 = .ok trail := by
  have h := resolve_along follow hlinked hdir (List.forall_mem_nil fun name => slash ∉ name)
  simpa [ownSegments] using h

/-- The resolution of an absolute path starts at the root. -/
lemma resolve_of_isAbsolute {path : OsStr} (habs : Path.isAbsolute path = true) (follow : Bool) :
    fs.resolve follow path = fs.walk follow maxSymlinks ⟨[], false⟩ (segments false path) := by
  have hne : path ≠ [] := by
    rintro rfl
    exact absurd habs (by decide)
  rw [resolve, if_neg hne, if_pos habs]

/-- A resolution that succeeds starts at a directory. -/
lemma root_dir_of_resolve {path : OsStr} (habs : Path.isAbsolute path = true)
    (h : (fs.resolve follow path).2 = .ok trail) : fs.fileType fs.root = .dir := by
  rw [resolve_of_isAbsolute habs] at h
  obtain ⟨first, rest, hpieces⟩ := List.exists_cons_of_ne_nil (List.splitOn_ne_nil slash path)
  rw [segments, Path.pieces, hpieces, List.map_cons] at h
  exact (walk_cons_eq_ok h).1

/-- A canonical path is made of the names of the trail that the path leads to. -/
lemma canonicalize_eq_ok {path canonical : OsStr} (habs : Path.isAbsolute path = true)
    (h : fs.canonicalize path = .ok canonical) :
    ∃ trail, (fs.resolve true path).2 = .ok trail ∧ fs.Linked trail ∧
      fs.fileType fs.root = .dir ∧ canonical = Path.ofNames trail.names := by
  rw [canonicalize] at h
  cases htrail : (fs.resolve true path).2 with
  | error error =>
    rw [htrail] at h
    exact absurd h (by simp [Except.map])
  | ok trail =>
    rw [htrail] at h
    have hroot := root_dir_of_resolve habs htrail
    have hlinked : fs.Linked trail := by
      have hstart : fs.Linked (Place.mk [] false).trail := trivial
      rw [resolve_of_isAbsolute habs] at htrail
      exact linked_of_walk hstart segments_slash_notMem htrail
    exact ⟨trail, rfl, hlinked, hroot, (Except.ok.inj h).symm⟩

/-! ## Hops of the path itself -/

/-- Where a hop of a walk comes from. -/
lemma mem_hops_cons {hop : Hop}
    (h : hop ∈ (fs.walk follow budget place (segment :: rest)).1) :
    fs.fileType (fs.here place.trail) = .dir ∧
      (hop = ⟨fs.here place.trail, place.inTarget⟩ ∨
        (segment.name = [] ∨ segment.name = dot) ∧
          hop ∈ (fs.walk follow budget place rest).1 ∨
        segment.name = dotdot ∧
          hop ∈ (fs.walk follow budget ⟨place.trail.tail, segment.inTarget⟩ rest).1 ∨
        IsPlain segment.name ∧
          ∃ id, fs.lookup (fs.here place.trail) segment.name = some id ∧
            (fs.linkTarget id = none ∧ hop ∈ (fs.walk follow budget
                ⟨(segment.name, id) :: place.trail, segment.inTarget⟩ rest).1 ∨
              ∃ target, fs.linkTarget id = some target ∧
                (hop = ⟨id, segment.inTarget⟩ ∨
                  ∃ left, budget = left + 1 ∧ hop ∈ (fs.walk follow left
                    (place.afterLink target) (segments true target ++ rest)).1))) := by
  -- every segment is looked at in a directory, which is a hop itself
  by_cases hdir : fs.fileType (fs.here place.trail) = .dir
  swap
  · simp [walk_of_not_dir hdir] at h
  refine ⟨hdir, ?_⟩
  by_cases hskip : segment.name = [] ∨ segment.name = dot
  · rw [walk_skip hdir hskip, Walk.after_hops, List.mem_cons] at h
    exact h.imp_right fun h => Or.inl ⟨hskip, h⟩
  by_cases hparent : segment.name = dotdot
  · rw [walk_parent hdir hparent, Walk.after_hops, List.mem_cons] at h
    exact h.imp_right fun h => Or.inr (Or.inl ⟨hparent, h⟩)
  have hplain : IsPlain segment.name := by
    rw [not_or] at hskip
    exact ⟨hskip.1, hskip.2, hparent⟩
  cases hlookup : fs.lookup (fs.here place.trail) segment.name with
  | none =>
    rw [walk_notFound hdir hplain hlookup] at h
    exact Or.inl (by simpa using h)
  | some id =>
    cases hlink : fs.linkTarget id with
    | none =>
      rw [walk_enter hdir hplain hlookup hlink, Walk.after_hops, List.mem_cons] at h
      exact h.imp_right fun h => Or.inr (Or.inr ⟨hplain, id, rfl, Or.inl ⟨hlink, h⟩⟩)
    | some target =>
      by_cases hstop : rest = [] ∧ follow = false
      · obtain ⟨rfl, rfl⟩ := hstop
        rw [walk_stop_at_link hdir hplain hlookup hlink] at h
        exact Or.inl (by simpa using h)
      · cases budget with
        | zero =>
          rw [walk_link_zero hdir hplain hlookup hlink hstop, Walk.after_hops,
            List.mem_cons] at h
          refine h.imp_right fun h => Or.inr (Or.inr ⟨hplain, id, rfl, Or.inr ⟨target, hlink, ?_⟩⟩)
          exact Or.inl (by simpa using h)
        | succ left =>
          rw [walk_link_succ hdir hplain hlookup hlink hstop, Walk.after_hops,
            Walk.after_hops, List.mem_cons, List.mem_cons] at h
          refine h.imp_right fun h => Or.inr (Or.inr ⟨hplain, id, rfl, Or.inr ⟨target, hlink, ?_⟩⟩)
          exact h.imp_right fun h => ⟨left, rfl, h⟩

/-- A segment of a target, or one of the path that is not skipped. -/
def kept (segment : Segment) : Bool := segment.inTarget || decide (IsPlain segment.name)

lemma filter_kept_segments (target : OsStr) :
    (segments true target).filter kept = segments true target := by
  refine List.filter_eq_self.mpr fun segment hsegment => ?_
  obtain ⟨piece, -, rfl⟩ := List.mem_map.mp hsegment
  rfl

/-- A segment of the path itself is behind those of a target before it. -/
lemma split_behind_target {target : OsStr} {rest before after : List Segment} {segment : Segment}
    (h : segments true target ++ rest = before ++ segment :: after)
    (hown : segment.inTarget = false) :
    ∃ before', before = segments true target ++ before' ∧ rest = before' ++ segment :: after := by
  rcases List.append_eq_append_iff.mp h with ⟨before', hb, hr⟩ | ⟨tail, ht, hr⟩
  · exact ⟨before', hb, hr⟩
  · cases tail with
    | nil => exact ⟨[], by simpa using ht.symm, by simpa using hr.symm⟩
    | cons s tail =>
      obtain ⟨rfl, -⟩ := List.cons.inj hr
      have hmem : segment ∈ segments true target := by
        rw [ht]
        exact List.mem_append_right _ List.mem_cons_self
      obtain ⟨piece, -, rfl⟩ := List.mem_map.mp hmem
      exact absurd hown (by simp)

/-- A hop that is not made inside a target is the start of the walk or what a prefix of the
path names. -/
lemma hop_of_walk {segs : List Segment}
    (hup : ∀ segment ∈ segs, segment.inTarget = false → segment.name ≠ dotdot) {hop : Hop}
    (hhop : hop ∈ (fs.walk true budget place segs).1) (hown : hop.inTarget = false) :
    place.inTarget = false ∧ hop.id = fs.here place.trail ∨
      ∃ before segment after trail, segs = before ++ segment :: after ∧
        segment.inTarget = false ∧ IsPlain segment.name ∧
        (fs.walk false budget place (before.filter kept ++ [segment])).2 =
          .ok ((segment.name, hop.id) :: trail) := by
  -- a target may be longer than the link it replaces, so the budget decreases first
  induction budget using Nat.strong_induction_on generalizing place segs with
  | _ budget ihb =>
    induction segs generalizing place with
    | nil => simp at hhop
    | cons segment rest ih =>
      have hup' : ∀ segment ∈ rest, segment.inTarget = false → segment.name ≠ dotdot :=
        fun s hs => hup s (List.mem_cons_of_mem _ hs)
      obtain ⟨hdir, rfl | ⟨hskip, hrest⟩ | ⟨hparent, hrest⟩ | ⟨hplain, id, hlookup,
        ⟨hlink, hrest⟩ | ⟨target, hlink, rfl | ⟨left, rfl, hrest⟩⟩⟩⟩ := mem_hops_cons hhop
      · exact Or.inl ⟨hown, rfl⟩
      · -- a skipped segment
        refine (ih hup' hrest).imp_right ?_
        rintro ⟨before, s, after, trail, rfl, hs, hsplain, hwalk⟩
        refine ⟨segment :: before, s, after, trail, rfl, hs, hsplain, ?_⟩
        by_cases hkept : kept segment = true
        · rw [List.filter_cons_of_pos hkept, List.cons_append, walk_skip hdir hskip]
          exact hwalk
        · rw [List.filter_cons_of_neg hkept]
          exact hwalk
      · -- a segment that goes up is part of a target
        have htarget : segment.inTarget = true := by
          by_contra hfalse
          exact hup segment (List.mem_cons_self ..) (by simpa using hfalse) hparent
        rcases ih hup' hrest with ⟨hfalse, -⟩ | ⟨before, s, after, trail, rfl, hs, hsplain, hwalk⟩
        · simp [htarget] at hfalse
        · refine Or.inr ⟨segment :: before, s, after, trail, rfl, hs, hsplain, ?_⟩
          have hkept : kept segment = true := by simp [kept, htarget]
          rw [List.filter_cons_of_pos hkept, List.cons_append, walk_parent hdir hparent]
          exact hwalk
      · -- an entry that is no symbolic link
        have hkept : kept segment = true := by simp [kept, hplain]
        rcases ih hup' hrest with ⟨hs, hid⟩ | ⟨before, s, after, trail, rfl, hs, hsplain, hwalk⟩
        · refine Or.inr ⟨[], segment, rest, place.trail, rfl, hs, hplain, ?_⟩
          rw [List.filter_nil, List.nil_append, walk_enter hdir hplain hlookup hlink, hid]
          simp [here]
        · refine Or.inr ⟨segment :: before, s, after, trail, rfl, hs, hsplain, ?_⟩
          rw [List.filter_cons_of_pos hkept, List.cons_append,
            walk_enter hdir hplain hlookup hlink]
          exact hwalk
      · -- the symbolic link itself
        refine Or.inr ⟨[], segment, rest, place.trail, rfl, hown, hplain, ?_⟩
        rw [List.filter_nil, List.nil_append, walk_stop_at_link hdir hplain hlookup hlink]
        rfl
      · -- behind a symbolic link, its target comes first
        have hkept : kept segment = true := by simp [kept, hplain]
        have hup'' : ∀ s ∈ segments true target ++ rest, s.inTarget = false → s.name ≠ dotdot := by
          intro s hs hfalse
          rcases List.mem_append.mp hs with hs | hs
          · obtain ⟨piece, -, rfl⟩ := List.mem_map.mp hs
            exact absurd hfalse (by simp)
          · exact hup' s hs hfalse
        rcases ihb left (Nat.lt_succ_self left) hup'' hrest with ⟨hplace, hid⟩ |
          ⟨before, s, after, trail, hsegs, hs, hsplain, hwalk⟩
        · rw [Place.afterLink] at hplace hid
          split_ifs at hplace hid
          exact Or.inl ⟨hplace, hid⟩
        · obtain ⟨before', rfl, rfl⟩ := split_behind_target hsegs hs
          refine Or.inr ⟨segment :: before', s, after, trail, rfl, hs, hsplain, ?_⟩
          rw [List.filter_append, filter_kept_segments, List.append_assoc] at hwalk
          rw [List.filter_cons_of_pos hkept, List.cons_append,
            walk_link_succ hdir hplain hlookup hlink (by simp)]
          exact hwalk

end Fs

end PamSshAgent
