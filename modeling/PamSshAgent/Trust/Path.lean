import PamSshAgent.Fs.Calls

/-!
# Reading a trust file in strict mode

Strict mode reads a trust file only when the directories that lead to it belong to the
required user and nobody else can write to them.  The program checks the prefixes of the
path as it is given, where symbolic links are allowed, and then the prefixes of the path
without symbolic links that it resolves to.
-/

namespace PamSshAgent

open Interaction

/-- `MAX_POLICY_BYTES`. -/
def maxPolicyBytes : ℕ := 1024 * 1024

/-- The path `/nix/store`. -/
def nixStore : OsStr := Text.bytes "/nix/store"

/-- `validate_mode`. -/
def validateMode (path : OsStr) (metadata : Metadata) : Except Error Unit :=
  let mode := metadata.mode
  if mode &&& 0o022 = 0 then .ok ()
  else if Path.components path = Path.components nixStore ∧ mode &&& 0o1000 ≠ 0 then .ok ()
  else .error (.anyhow ["Trusted-key path is group- or world-writable"])

/-- The check of one component in `validate_components`. -/
def validateComponent (current : OsStr) (requiredUid : Uid) (allowSymlink : Bool)
    (metadata : Metadata) : Except Error Unit :=
  if metadata.uid ≠ requiredUid then
    .error (.anyhow ["Trusted-key path is not owned by uid ", Text.ofUid requiredUid])
  else if metadata.fileType = .symlink then
    if !allowSymlink then .error (.anyhow ["Resolved trusted-key path contains a symlink"])
    else .ok ()
  else validateMode current metadata

/-- The loop of `validate_components`, from the path `current` on. -/
def validateComponentsFrom (requiredUid : Uid) (allowSymlink : Bool) :
    OsStr → List Component → Prog FsCalls Error Unit
  | _, [] => .ret ()
  | current, component :: rest => do
    let current := Path.push current component.asOsStr
    let metadata ← fsCall (.symlinkMetadata current)
    Prog.ofExcept (validateComponent current requiredUid allowSymlink metadata)
    validateComponentsFrom requiredUid allowSymlink current rest

/-- `validate_components`. -/
def validateComponents (path : OsStr) (requiredUid : Uid) (allowSymlink : Bool) :
    Prog FsCalls Error Unit :=
  validateComponentsFrom requiredUid allowSymlink [] (Path.components path)

/-- The path is absolute and has neither a `.` nor a `..` among its components. -/
def isNormalized (path : OsStr) : Bool :=
  Path.isAbsolute path &&
    !(Path.components path).any fun component => component = .curDir || component = .parentDir

/-- `validate_trust_path`. -/
def validateTrustPath (path : OsStr) (requiredUid : Uid) : Prog FsCalls Error OsStr :=
  if !isNormalized path then
    .fail (.anyhow ["Strict trusted-key path must be absolute and normalized"])
  else do
    validateComponents path requiredUid true
    let canonical ← fsCall (.canonicalize path)
    validateComponents canonical requiredUid false
    let metadata ← fsCall (.metadata canonical)
    if metadata.fileType ≠ .file then
      .fail (.anyhow ["Strict trusted-key path is not a regular file"])
    else .ret canonical

/-- `Read::read_to_end` on the file cut off after `limit` bytes; `fuel` bounds the number
of reads. -/
def readToEnd (file : FileId) (limit : ℕ) : (fuel : ℕ) → List UInt8 → Prog FsCalls Error (List UInt8)
  | 0, _ => .spin
  | fuel + 1, bytes =>
    if limit ≤ bytes.length then .ret bytes
    else do
      match ← Prog.query (I := FsCalls) (.read file bytes.length (limit - bytes.length)) with
      | .error .interrupted => readToEnd file limit fuel bytes
      | .error error => .fail (.io error)
      | .ok [] => .ret bytes
      | .ok (chunk : List UInt8) => readToEnd file limit fuel (bytes ++ chunk)

/-- `read_bounded`. -/
def readBounded (fuel : ℕ) (file : FileId) : Prog FsCalls Error Text := do
  let bytes ← readToEnd file (maxPolicyBytes + 1) fuel []
  if maxPolicyBytes < bytes.length then
    .fail (.anyhow ["Trusted-key policy exceeds ", Text.ofUid maxPolicyBytes, " bytes"])
  else
    match Text.fromUtf8 bytes with
    | some text => .ret text
    | none => .fail .utf8

/-- `read_strict_file`. -/
def readStrictFile (fuel : ℕ) (path : OsStr) (requiredUid : Uid) : Prog FsCalls Error Text := do
  let canonical ← validateTrustPath path requiredUid
  let expected ← fsCall (.metadata canonical)
  let file ← fsCall (.openFile canonical)
  let actual ← fsCall (.fileMetadata file)
  if expected.dev ≠ actual.dev ∨ expected.ino ≠ actual.ino then
    .fail (.anyhow ["Trusted-key file changed while opening"])
  else readBounded fuel file

end PamSshAgent
