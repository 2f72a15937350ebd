import PamSshAgent.Rust.Text

/-!
# Paths

A Unix `Path` is a string of bytes.  The program looks at it through its components, and
the kernel through the pieces between its slashes; the two agree on absolute paths made of
plain names, and these are the paths that `canonicalize` returns.
-/

namespace PamSshAgent

/-- The bytes of a Rust `OsStr`, and of a `Path`. -/
abbrev OsStr := List UInt8

/-- The byte `/`. -/
def slash : UInt8 := 47

/-- The name `.`. -/
def dot : OsStr := [46]

/-- The name `..`. -/
def dotdot : OsStr := [46, 46]

/-- `std::path::Component` on Unix. -/
inductive Component where
  | rootDir
  | curDir
  | parentDir
  | normal (name : OsStr)
deriving DecidableEq, Repr

/-- `Component::as_os_str`. -/
def Component.asOsStr : Component → OsStr
  | rootDir => [slash]
  | curDir => dot
  | parentDir => dotdot
  | normal name => name

namespace Path

/-- The pieces of a path between its slashes. -/
def pieces (path : OsStr) : List OsStr := path.splitOn slash

/-- `Path::is_absolute`. -/
def isAbsolute (path : OsStr) : Bool := path.head? = some slash

/-- The component made by one piece; an empty piece and a `.` make none. -/
def pieceComponent (piece : OsStr) : Option Component :=
  if piece = [] ∨ piece = dot then none
  else if piece = dotdot then some .parentDir
  else some (.normal piece)

/-- `Path::components`. -/
def components (path : OsStr) : List Component :=
  (if isAbsolute path then [.rootDir]
    else if (pieces path).head? = some dot then [.curDir]
    else []) ++ (pieces path).filterMap pieceComponent

/-- `PathBuf::push`. -/
def push (path name : OsStr) : OsStr :=
  if isAbsolute name then name
  else if path = [] ∨ path.getLast? = some slash then path ++ name
  else path ++ slash :: name

/-- A name that a directory can hold. -/
def IsName (piece : OsStr) : Prop :=
  slash ∉ piece ∧ piece ≠ [] ∧ piece ≠ dot ∧ piece ≠ dotdot

/-- The absolute path through the given names. -/
def ofNames : List OsStr → OsStr
  | [] => [slash]
  | names => names.flatMap (slash :: ·)

lemma slash_notMem_of_mem_pieces {path piece : OsStr} (h : piece ∈ pieces path) :
    slash ∉ piece := by
  induction path generalizing piece with
  | nil =>
    obtain rfl : piece = [] := by simpa [pieces] using h
    simp
  | cons c path ih =>
    rw [pieces, List.splitOn_cons_eq_if_modifyHead] at h
    split_ifs at h with hc
    · rcases List.mem_cons.mp h with rfl | h
      · simp
      · exact ih h
    · obtain ⟨first, rest, hpieces⟩ := List.exists_cons_of_ne_nil (List.splitOn_ne_nil slash path)
      rw [hpieces, List.modifyHead_cons] at h
      rcases List.mem_cons.mp h with rfl | h
      · have hfirst : slash ∉ first := ih (by rw [pieces, hpieces]; simp)
        simp only [beq_iff_eq] at hc
        simp [Ne.symm hc, hfirst]
      · exact ih (by rw [pieces, hpieces]; exact List.mem_cons_of_mem _ h)

/-! ## Absolute paths through names -/

variable {names : List OsStr} {name : OsStr}

lemma ofNames_of_ne_nil (h : names ≠ []) : ofNames names = names.flatMap (slash :: ·) := by
  cases names with
  | nil => exact absurd rfl h
  | cons _ _ => rfl

lemma isAbsolute_ofNames (names : List OsStr) : isAbsolute (ofNames names) = true := by
  cases names <;> simp [ofNames, isAbsolute]

lemma intercalate_cons (first : OsStr) (names : List OsStr) :
    [slash].intercalate (first :: names) = first ++ names.flatMap (slash :: ·) := by
  induction names generalizing first with
  | nil => simp
  | cons name names ih => simp [List.intercalate_cons_cons, ih]

lemma pieces_flatMap (h : ∀ name ∈ names, slash ∉ name) :
    pieces (names.flatMap (slash :: ·)) = [] :: names := by
  have hjoin := intercalate_cons [] names
  rw [List.nil_append] at hjoin
  rw [← hjoin, pieces]
  exact List.splitOn_intercalate slash (by simpa using h) (by simp)

/-- The pieces of an absolute path through names; the root alone has a second, empty one. -/
lemma pieces_ofNames (h : ∀ name ∈ names, slash ∉ name) :
    pieces (ofNames names) = if names = [] then [[], []] else [] :: names := by
  cases names with
  | nil => decide
  | cons name names =>
    rw [if_neg (by simp)]
    exact pieces_flatMap h

lemma pieceComponent_of_isName (h : IsName name) :
    pieceComponent name = some (.normal name) := by
  obtain ⟨-, h₁, h₂, h₃⟩ := h
  simp [pieceComponent, h₁, h₂, h₃]

lemma filterMap_pieceComponent (h : ∀ name ∈ names, IsName name) :
    names.filterMap pieceComponent = names.map .normal := by
  induction names with
  | nil => rfl
  | cons name names ih =>
    simp only [List.mem_cons, forall_eq_or_imp] at h
    rw [List.filterMap_cons, pieceComponent_of_isName h.1, ih h.2, List.map_cons]

lemma components_ofNames (h : ∀ name ∈ names, IsName name) :
    components (ofNames names) = .rootDir :: names.map .normal := by
  have hslash : ∀ name ∈ names, slash ∉ name := fun name hname => (h name hname).1
  rw [components, if_pos (isAbsolute_ofNames names), pieces_ofNames hslash]
  split_ifs with hnil
  · subst hnil
    rfl
  · rw [List.filterMap_cons, filterMap_pieceComponent h]
    rfl

lemma isAbsolute_of_isName (h : IsName name) : isAbsolute name = false := by
  obtain ⟨hslash, -⟩ := h
  cases name with
  | nil => rfl
  | cons c name =>
    have hc : c ≠ slash := fun heq => hslash (by simp [heq])
    simp [isAbsolute, hc]

/-- Pushing a name onto an absolute path through names. -/
lemma push_ofNames (hnames : ∀ name ∈ names, IsName name) (h : IsName name) :
    push (ofNames names) name = ofNames (names ++ [name]) := by
  rw [push, isAbsolute_of_isName h, if_neg (by simp)]
  rcases List.eq_nil_or_concat names with rfl | ⟨init, last, rfl⟩
  · rw [if_pos (by decide)]
    simp [ofNames]
  · have hlast : IsName last := hnames last (by simp)
    have hne : ofNames (init ++ [last]) ≠ [] := by
      rw [ofNames_of_ne_nil (by simp)]
      simp
    have hend : (ofNames (init ++ [last])).getLast? ≠ some slash := by
      rw [ofNames_of_ne_nil (by simp), List.flatMap_append]
      intro hslash
      have hmem : slash ∈ last := by
        obtain ⟨c, tail, rfl⟩ := List.exists_cons_of_ne_nil hlast.2.1
        simp only [List.flatMap_cons, List.flatMap_nil, List.append_nil] at hslash
        rw [List.getLast?_append_of_ne_nil _ (by simp), List.getLast?_cons_cons] at hslash
        exact List.mem_of_getLast? hslash
      exact hlast.1 hmem
    rw [if_neg (by simp [hne, hend]), ofNames_of_ne_nil (by simp), ofNames_of_ne_nil (by simp)]
    simp

lemma push_rootDir : push [] Component.rootDir.asOsStr = ofNames [] := rfl

end Path

end PamSshAgent
