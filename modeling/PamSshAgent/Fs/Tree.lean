import PamSshAgent.Rust.Error
import PamSshAgent.Rust.Path

/-!
# The file system

A file system is a tree of nodes with owner and mode, with symbolic links.  The kernel
resolves a path piece by piece from the root or the current directory, and a symbolic link
on the way puts the pieces of its target in front of those that are left.  The walk keeps
the trail of names and nodes from the root to where it is, and records its hops: each
directory it searched and each symbolic link it followed.
-/

namespace PamSshAgent

/-- What identifies an object of the file system: the numbers that `dev()` and `ino()`
return. -/
structure FileId where
  dev : ℕ
  ino : ℕ
deriving DecidableEq, Repr

/-- What a node holds.  A special node is a device, a socket or a pipe. -/
inductive Content where
  | file (bytes : List UInt8)
  | dir (entries : OsStr → Option FileId)
  | symlink (target : OsStr)
  | special

/-- `FileType`. -/
inductive FileType where
  | file
  | dir
  | symlink
  | special
deriving DecidableEq, Repr

/-- The type of a node, by what it holds. -/
def Content.fileType : Content → FileType
  | file _ => .file
  | dir _ => .dir
  | symlink _ => .symlink
  | special => .special

/-- An object of the file system, with the permission bits of its mode. -/
structure Node where
  uid : Uid
  mode : ℕ
  content : Content

/-- The names and nodes passed from the root down, the last one first. -/
abbrev Trail := List (OsStr × FileId)

/-- The names of a trail, from the root down. -/
def Trail.names (trail : Trail) : List OsStr := (trail.map Prod.fst).reverse

/-- A file system, as one process sees it. -/
structure Fs where
  node : FileId → Node
  root : FileId
  cwd : Trail

/-- `Metadata`: the fields that the program reads. -/
structure Metadata where
  uid : Uid
  mode : ℕ
  fileType : FileType
  dev : ℕ
  ino : ℕ
deriving DecidableEq, Repr

/-- A piece of a path that is left to resolve, and whether it comes from the target of a
symbolic link. -/
structure Segment where
  name : OsStr
  inTarget : Bool
deriving DecidableEq, Repr

/-- Where the walk is, and whether it came there inside the target of a symbolic link. -/
structure Place where
  trail : Trail
  inTarget : Bool
deriving DecidableEq, Repr

/-- A directory that the walk searched or a symbolic link that it followed, and whether it
came there inside the target of a symbolic link. -/
structure Hop where
  id : FileId
  inTarget : Bool
deriving DecidableEq, Repr

/-- The hops of a walk and where it ended. -/
abbrev Walk := List Hop × Except IoError Trail

/-- A walk after one more hop. -/
def Walk.after (hop : Hop) (walk : Walk) : Walk := (hop :: walk.1, walk.2)

/-- A walk that ends here. -/
def Walk.stop (result : Except IoError Trail) : Walk := ([], result)

@[simp] lemma Walk.after_hops (hop : Hop) (walk : Walk) :
    (walk.after hop).1 = hop :: walk.1 := rfl

@[simp] lemma Walk.after_result (hop : Hop) (walk : Walk) : (walk.after hop).2 = walk.2 := rfl

@[simp] lemma Walk.stop_hops (result : Except IoError Trail) : (Walk.stop result).1 = [] := rfl

@[simp] lemma Walk.stop_result (result : Except IoError Trail) :
    (Walk.stop result).2 = result := rfl

/-- The segments of a path or of a target. -/
def segments (inTarget : Bool) (path : OsStr) : List Segment :=
  (Path.pieces path).map fun piece => ⟨piece, inTarget⟩

/-- The most symbolic links that one walk follows. -/
def maxSymlinks : ℕ := 40

/-- The place from which the target of a symbolic link is resolved. -/
def Place.afterLink (place : Place) (target : OsStr) : Place :=
  if Path.isAbsolute target then ⟨[], true⟩ else place

namespace Fs

variable (fs : Fs)

/-- The node at the end of a trail. -/
def here : Trail → FileId
  | [] => fs.root
  | (_, id) :: _ => id

def fileType (id : FileId) : FileType := (fs.node id).content.fileType

/-- The entry of a directory. -/
def lookup (dir : FileId) (name : OsStr) : Option FileId :=
  match (fs.node dir).content with
  | .dir entries => entries name
  | _ => none

/-- The target of a symbolic link. -/
def linkTarget (id : FileId) : Option OsStr :=
  match (fs.node id).content with
  | .symlink target => some target
  | _ => none

/-- The walk along the given segments; `onLink` goes on after a symbolic link, and `follow`
says whether a symbolic link at the end is followed. -/
def walkWith (onLink : Place → List Segment → Walk) (follow : Bool) :
    Place → List Segment → Walk
  | place, [] => .stop (.ok place.trail)
  | place, segment :: rest =>
    let dir := fs.here place.trail
    if fs.fileType dir ≠ .dir then .stop (.error .notADirectory)
    else Walk.after ⟨dir, place.inTarget⟩ <|
      if segment.name = [] ∨ segment.name = dot then walkWith onLink follow place rest
      else if segment.name = dotdot then
        walkWith onLink follow ⟨place.trail.tail, segment.inTarget⟩ rest
      else
        match fs.lookup dir segment.name with
        | none => .stop (.error .notFound)
        | some id =>
          match fs.linkTarget id with
          | none => walkWith onLink follow ⟨(segment.name, id) :: place.trail, segment.inTarget⟩ rest
          | some target =>
            if rest = [] ∧ follow = false then .stop (.ok ((segment.name, id) :: place.trail))
            else Walk.after ⟨id, segment.inTarget⟩
              (onLink (place.afterLink target) (segments true target ++ rest))

/-- The walk along the given segments that follows at most `budget` symbolic links. -/
def walk (follow : Bool) : (budget : ℕ) → Place → List Segment → Walk
  | 0 => fs.walkWith (fun _ _ => .stop (.error .filesystemLoop)) follow
  | budget + 1 => fs.walkWith (walk follow budget) follow

/-- The resolution of a path. -/
def resolve (follow : Bool) (path : OsStr) : Walk :=
  if path = [] then .stop (.error .notFound)
  else
    let start := if Path.isAbsolute path then [] else fs.cwd
    fs.walk follow maxSymlinks ⟨start, false⟩ (segments false path)

/-- The metadata of a node. -/
def metadataOf (id : FileId) : Metadata where
  uid := (fs.node id).uid
  mode := (fs.node id).mode
  fileType := fs.fileType id
  dev := id.dev
  ino := id.ino

/-! ## The calls of `std::fs` -/

/-- `fs::symlink_metadata`. -/
def symlinkMetadata (path : OsStr) : Except IoError Metadata :=
  (fs.resolve false path).2.map fun trail => fs.metadataOf (fs.here trail)

/-- `fs::metadata`. -/
def metadata (path : OsStr) : Except IoError Metadata :=
  (fs.resolve true path).2.map fun trail => fs.metadataOf (fs.here trail)

/-- `fs::canonicalize`. -/
def canonicalize (path : OsStr) : Except IoError OsStr :=
  (fs.resolve true path).2.map fun trail => Path.ofNames trail.names

/-- `File::open`; an open file is known by its node. -/
def openFile (path : OsStr) : Except IoError FileId :=
  (fs.resolve true path).2.map fs.here

/-- The bytes of an open file from a position on, at most `limit` of them.  A device, a socket or a
pipe replies as a directory does, here and in `readToString`. -/
def read (file : FileId) (position limit : ℕ) : Except IoError (List UInt8) :=
  match (fs.node file).content with
  | .file bytes => .ok ((bytes.drop position).take limit)
  | _ => .error (.other 21 "Is a directory")

/-- `fs::read_to_string`. -/
def readToString (path : OsStr) : Except IoError Text := do
  let file ← fs.openFile path
  match (fs.node file).content with
  | .file bytes =>
    match Text.fromUtf8 bytes with
    | some text => .ok text
    | none => .error (.invalidData "stream did not contain valid UTF-8")
  | _ => .error (.other 21 "Is a directory")

end Fs

end PamSshAgent
