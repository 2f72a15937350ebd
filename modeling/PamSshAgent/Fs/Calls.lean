import PamSshAgent.Fs.Tree
import PamSshAgent.Library.Interference

/-!
# Calls to the file system

The calls of `std::fs` that the module makes, as queries, and what a file system replies.
A call may fail for any reason; when it succeeds, its value is that of the file system.
-/

namespace PamSshAgent

open Interaction

/-- A call to the file system; an open file is read from a position on. -/
inductive FsQuery where
  | symlinkMetadata (path : OsStr)
  | metadata (path : OsStr)
  | canonicalize (path : OsStr)
  | openFile (path : OsStr)
  | fileMetadata (file : FileId)
  | read (file : FileId) (position limit : ℕ)
  | readToString (path : OsStr)

/-- What a call returns when it succeeds. -/
@[reducible] def FsQuery.Value : FsQuery → Type
  | symlinkMetadata _ | metadata _ | fileMetadata _ => Metadata
  | canonicalize _ => OsStr
  | openFile _ => FileId
  | read _ _ _ => List UInt8
  | readToString _ => Text

/-- The calls to the file system. -/
abbrev FsCalls : Interface := ⟨FsQuery, fun query => Except IoError query.Value⟩

/-- A call whose error is passed on by `?`. -/
def fsCall (query : FsQuery) : Prog FsCalls Error query.Value := do
  let reply ← Prog.query (I := FsCalls) query
  Prog.ofExcept (reply.mapError Error.io)

/-- A call to the file system ends with its reply. -/
lemma ends_fsCall {query : FsQuery} {calls : List (Event FsCalls)}
    {x : Except Error query.Value} : (fsCall query).Ends calls x ↔
      ∃ reply, calls = [⟨query, reply⟩] ∧ x = reply.mapError Error.io := by
  rw [fsCall, Prog.query_bind, Prog.ends_ask]
  constructor
  · rintro ⟨reply, rest, rfl, hrest⟩
    obtain ⟨rfl, rfl⟩ := Prog.ends_ofExcept.mp hrest
    exact ⟨reply, rfl, rfl⟩
  · rintro ⟨reply, rfl, rfl⟩
    exact ⟨reply, [], rfl, Prog.ends_ofExcept.mpr ⟨rfl, rfl⟩⟩

lemma returns_fsCall {query : FsQuery} {calls : List (Event FsCalls)} {value : query.Value} :
    (fsCall query).Returns calls value ↔ calls = [⟨query, .ok value⟩] := by
  have hends : (fsCall query).Returns calls value ↔ (fsCall query).Ends calls (.ok value) := Iff.rfl
  rw [hends, ends_fsCall]
  constructor
  · rintro ⟨error | value', rfl, heq⟩
    · exact absurd heq (by simp [Except.mapError])
    · rw [Except.ok.inj heq]
  · rintro rfl
    exact ⟨.ok value, rfl, rfl⟩

/-- What begins with a call to the file system returns only if that succeeds. -/
lemma returns_fsCall_bind {α : Type} {query : FsQuery} {f : query.Value → Prog FsCalls Error α}
    {calls : List (Event FsCalls)} {a : α} : (fsCall query >>= f).Returns calls a ↔
      ∃ value rest, calls = ⟨query, .ok value⟩ :: rest ∧ (f value).Returns rest a := by
  rw [Prog.returns_bind]
  constructor
  · rintro ⟨calls₁, rest, value, rfl, hcall, hrest⟩
    obtain rfl := returns_fsCall.mp hcall
    exact ⟨value, rest, rfl, hrest⟩
  · rintro ⟨value, rest, rfl, hrest⟩
    exact ⟨_, rest, value, rfl, returns_fsCall.mpr rfl, hrest⟩

namespace Fs

variable (fs : Fs)

/-- The reply of a file system that never fails by itself. -/
def answer : (query : FsQuery) → Except IoError query.Value
  | .symlinkMetadata path => fs.symlinkMetadata path
  | .metadata path => fs.metadata path
  | .canonicalize path => fs.canonicalize path
  | .openFile path => fs.openFile path
  | .fileMetadata file => .ok (fs.metadataOf file)
  | .read file position limit => fs.read file position limit
  | .readToString path => fs.readToString path

/-- The values that a successful call can have: a read may return less than asked for. -/
def Delivers : (query : FsQuery) → query.Value → Prop
  | .read file position limit, (chunk : List UInt8) =>
    ∃ bytes, fs.read file position limit = .ok bytes ∧ chunk <+: bytes ∧ (chunk = [] → bytes = [])
  | query, value => fs.answer query = .ok value

/-- The replies that the file system can give. -/
def Gives (event : Event FsCalls) : Prop :=
  ∀ value, event.reply = .ok value → fs.Delivers event.query value

lemma gives_answer (query : FsQuery) : fs.Gives ⟨query, fs.answer query⟩ := by
  intro value hvalue
  cases query with
  | read file position limit => exact ⟨value, hvalue, List.prefix_rfl, id⟩
  | _ => exact hvalue

end Fs

end PamSshAgent
