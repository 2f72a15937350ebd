import PamSshAgent.Trust.Bounded

/-!
# What a trust file delivers

The replies with which `read_strict_file` gives a text: those of a path that passes its checks,
of one file behind this path and behind the open file, and of reads that bring this file up to
its end.
-/

namespace PamSshAgent

open Interaction

/-- The components of a path pass their checks, from the path `current` on. -/
def ComponentsPass (requiredUid : Uid) (allowSymlink : Bool) :
    OsStr → List Component → List (Event FsCalls) → Prop
  | _, [], es => es = []
  | current, component :: rest, es => ∃ metadata es',
      es = ⟨.symlinkMetadata (Path.push current component.asOsStr), .ok metadata⟩ :: es' ∧
        validateComponent (Path.push current component.asOsStr) requiredUid allowSymlink metadata =
          .ok () ∧
        ComponentsPass requiredUid allowSymlink (Path.push current component.asOsStr) rest es'

/-- The path passes its checks, and without symbolic links it is the path `canonical` of a regular
file. -/
def PathPasses (path : OsStr) (requiredUid : Uid) (es : List (Event FsCalls)) (canonical : OsStr) :
    Prop :=
  isNormalized path = true ∧ ∃ given resolved metadata,
    es = given ++ ⟨.canonicalize path, .ok canonical⟩ ::
      (resolved ++ [⟨.metadata canonical, .ok metadata⟩]) ∧
    ComponentsPass requiredUid true [] (Path.components path) given ∧
    ComponentsPass requiredUid false [] (Path.components canonical) resolved ∧
    metadata.fileType = .file

/-- Behind the bytes `done`, the reads bring the rest of the file up to its end, which comes
before the limit. -/
inductive ReadThrough (file : FileId) (limit : ℕ) :
    List UInt8 → List (Event FsCalls) → List UInt8 → Prop
  | ended {done : List UInt8} (h : done.length < limit) :
      ReadThrough file limit done [⟨.read file done.length (limit - done.length), .ok []⟩] done
  | interrupted {done bytes : List UInt8} {es : List (Event FsCalls)} (h : done.length < limit)
      (rest : ReadThrough file limit done es bytes) : ReadThrough file limit done
        (⟨.read file done.length (limit - done.length), .error .interrupted⟩ :: es) bytes
  | chunk {done bytes chunk : List UInt8} {es : List (Event FsCalls)} (h : done.length < limit)
      (hchunk : chunk ≠ []) (rest : ReadThrough file limit (done ++ chunk) es bytes) :
      ReadThrough file limit done
        (⟨.read file done.length (limit - done.length), .ok chunk⟩ :: es) bytes

/-- The file at the path passes its checks and delivers the text. -/
def StrictFileDelivers (fuel : ℕ) (path : OsStr) (requiredUid : Uid) (es : List (Event FsCalls))
    (text : Text) : Prop :=
  ∃ checks canonical expected file actual reads bytes,
    es = checks ++ ⟨.metadata canonical, .ok expected⟩ :: ⟨.openFile canonical, .ok file⟩ ::
      ⟨.fileMetadata file, .ok actual⟩ :: reads ∧
    PathPasses path requiredUid checks canonical ∧
    expected.dev = actual.dev ∧ expected.ino = actual.ino ∧
    ReadThrough file (maxPolicyBytes + 1) [] reads bytes ∧ reads.length ≤ fuel ∧
    Text.fromUtf8 bytes = some text

variable {file : FileId} {limit fuel : ℕ} {requiredUid : Uid} {path canonical : OsStr}
  {done bytes : List UInt8} {es : List (Event FsCalls)} {text : Text}

lemma returns_validateComponentsFrom {allowSymlink : Bool} {current : OsStr}
    {components : List Component} :
    (validateComponentsFrom requiredUid allowSymlink current components).Returns es () ↔
      ComponentsPass requiredUid allowSymlink current components es := by
  induction components generalizing current es with
  | nil =>
    rw [validateComponentsFrom, Prog.returns_ret]
    exact and_iff_left rfl
  | cons component rest ih =>
    rw [validateComponentsFrom]
    refine returns_fsCall_bind.trans ?_
    simp only [Prog.returns_bind, Prog.returns_ofExcept, ih, ComponentsPass]
    constructor
    · rintro ⟨metadata, _, rfl, _, es', _, rfl, ⟨rfl, hcheck⟩, hrest⟩
      exact ⟨metadata, es', rfl, hcheck, hrest⟩
    · rintro ⟨metadata, es', rfl, hcheck, hrest⟩
      exact ⟨metadata, es', rfl, [], es', (), rfl, ⟨rfl, hcheck⟩, hrest⟩

/-- A path is accepted exactly when it passes its checks. -/
lemma returns_validateTrustPath : (validateTrustPath path requiredUid).Returns es canonical ↔
    PathPasses path requiredUid es canonical := by
  rw [validateTrustPath, PathPasses]
  cases hnormalized : isNormalized path with
  | false => simp
  | true =>
    simp only [Bool.not_true, Bool.false_eq_true, if_false, true_and, validateComponents]
    constructor
    · intro h
      obtain ⟨given, _, _, rfl, hgiven, hcanonicalize⟩ := Prog.returns_bind.mp h
      obtain ⟨resolvedPath, _, rfl, hresolve⟩ := returns_fsCall_bind.mp hcanonicalize
      obtain ⟨resolved, _, _, rfl, hresolved, hmetadata⟩ := Prog.returns_bind.mp hresolve
      obtain ⟨metadata, _, rfl, hrest⟩ := returns_fsCall_bind.mp hmetadata
      split_ifs at hrest with hfile
      · exact absurd hrest Prog.not_returns_fail
      obtain ⟨rfl, rfl⟩ := Prog.returns_ret.mp hrest
      exact ⟨given, resolved, metadata, rfl, returns_validateComponentsFrom.mp hgiven,
        returns_validateComponentsFrom.mp hresolved, not_not.mp hfile⟩
    · rintro ⟨given, resolved, metadata, rfl, hgiven, hresolved, hfile⟩
      refine Prog.returns_bind.mpr ⟨given, _, (), rfl, returns_validateComponentsFrom.mpr hgiven, ?_⟩
      refine returns_fsCall_bind.mpr ⟨canonical, _, rfl, ?_⟩
      refine Prog.returns_bind.mpr
        ⟨resolved, _, (), rfl, returns_validateComponentsFrom.mpr hresolved, ?_⟩
      refine returns_fsCall_bind.mpr ⟨metadata, _, rfl, ?_⟩
      rw [if_neg (not_not.mpr hfile)]
      exact Prog.returns_ret.mpr ⟨rfl, rfl⟩

lemma ReadThrough.length_lt (h : ReadThrough file limit done es bytes) : bytes.length < limit := by
  induction h with
  | ended h => exact h
  | interrupted _ _ ih => exact ih
  | chunk _ _ _ ih => exact ih

/-- Reading gives fewer bytes than the limit exactly when these are all. -/
lemma returns_readToEnd : (readToEnd file limit fuel done).Returns es bytes ∧ bytes.length < limit ↔
    ReadThrough file limit done es bytes ∧ es.length ≤ fuel := by
  constructor
  · rintro ⟨hreturns, hshort⟩
    induction fuel generalizing done es with
    | zero => exact absurd hreturns Prog.not_returns_spin
    | succ fuel ih =>
      rw [readToEnd] at hreturns
      split_ifs at hreturns with hfull
      · obtain ⟨rfl, rfl⟩ := Prog.returns_ret.mp hreturns
        omega
      have hdone := Nat.not_le.mp hfull
      rw [Prog.query_bind, Prog.returns_ask] at hreturns
      obtain ⟨reply, es', rfl, hrest⟩ := hreturns
      rcases reply with error | _ | ⟨byte, chunk⟩
      · cases error with
        | interrupted =>
          obtain ⟨hthrough, hlength⟩ := ih hrest
          exact ⟨.interrupted hdone hthrough, Nat.succ_le_succ hlength⟩
        | _ => exact absurd hrest Prog.not_returns_fail
      · obtain ⟨rfl, rfl⟩ := Prog.returns_ret.mp hrest
        exact ⟨.ended hdone, Nat.succ_le_succ (Nat.zero_le _)⟩
      · obtain ⟨hthrough, hlength⟩ := ih hrest
        exact ⟨.chunk hdone (by simp) hthrough, Nat.succ_le_succ hlength⟩
  · rintro ⟨hthrough, hlength⟩
    refine ⟨?_, hthrough.length_lt⟩
    induction hthrough generalizing fuel with
    | ended h =>
      obtain ⟨fuel, rfl⟩ := Nat.exists_eq_add_of_le' hlength
      rw [List.length_singleton, readToEnd, if_neg (Nat.not_le.mpr h)]
      exact .ask (.refl _)
    | interrupted h _ ih =>
      obtain ⟨fuel, rfl⟩ := Nat.exists_eq_add_of_le' hlength
      rw [List.length_cons, ← Nat.add_assoc, readToEnd, if_neg (Nat.not_le.mpr h)]
      exact .ask (ih (Nat.le_add_left _ _))
    | @chunk _ _ chunk _ h hchunk _ ih =>
      obtain ⟨fuel, rfl⟩ := Nat.exists_eq_add_of_le' hlength
      rw [List.length_cons, ← Nat.add_assoc, readToEnd, if_neg (Nat.not_le.mpr h)]
      cases chunk with
      | nil => exact absurd rfl hchunk
      | cons byte chunk => exact .ask (ih (Nat.le_add_left _ _))

lemma returns_readBounded : (readBounded fuel file).Returns es text ↔
    ∃ bytes, ReadThrough file (maxPolicyBytes + 1) [] es bytes ∧ es.length ≤ fuel ∧
      Text.fromUtf8 bytes = some text := by
  rw [readBounded, Prog.returns_bind]
  constructor
  · rintro ⟨es₁, es₂, bytes, rfl, hread, hrest⟩
    split_ifs at hrest with hlimit
    · exact absurd hrest Prog.not_returns_fail
    cases htext : Text.fromUtf8 bytes with
    | none =>
      rw [htext] at hrest
      exact absurd hrest Prog.not_returns_fail
    | some text' =>
      rw [htext] at hrest
      obtain ⟨rfl, rfl⟩ := Prog.returns_ret.mp hrest
      obtain ⟨hthrough, hlength⟩ := returns_readToEnd.mp ⟨hread, by omega⟩
      rw [List.append_nil]
      exact ⟨bytes, hthrough, hlength, htext⟩
  · rintro ⟨bytes, hthrough, hlength, htext⟩
    obtain ⟨hread, hshort⟩ := returns_readToEnd.mpr ⟨hthrough, hlength⟩
    refine ⟨es, [], bytes, (List.append_nil es).symm, hread, ?_⟩
    rw [if_neg (by omega), htext]
    exact Prog.returns_ret.mpr ⟨rfl, rfl⟩

/-- A trust file is loaded exactly when it delivers its text. -/
lemma returns_readStrictFile : (readStrictFile fuel path requiredUid).Returns es text ↔
    StrictFileDelivers fuel path requiredUid es text := by
  rw [readStrictFile, StrictFileDelivers]
  constructor
  · intro h
    obtain ⟨checks, _, canonical, rfl, hchecks, hexpected⟩ := Prog.returns_bind.mp h
    obtain ⟨expected, _, rfl, hopen⟩ := returns_fsCall_bind.mp hexpected
    obtain ⟨file, _, rfl, hactual⟩ := returns_fsCall_bind.mp hopen
    obtain ⟨actual, reads, rfl, hrest⟩ := returns_fsCall_bind.mp hactual
    split_ifs at hrest with hother
    · exact absurd hrest Prog.not_returns_fail
    obtain ⟨hdev, hino⟩ := not_or.mp hother
    obtain ⟨bytes, hthrough, hlength, htext⟩ := returns_readBounded.mp hrest
    exact ⟨checks, canonical, expected, file, actual, reads, bytes, rfl,
      returns_validateTrustPath.mp hchecks, not_not.mp hdev, not_not.mp hino, hthrough, hlength,
      htext⟩
  · rintro ⟨checks, canonical, expected, file, actual, reads, bytes, rfl, hchecks, hdev, hino,
      hthrough, hlength, htext⟩
    refine Prog.returns_bind.mpr
      ⟨checks, _, canonical, rfl, returns_validateTrustPath.mpr hchecks, ?_⟩
    refine returns_fsCall_bind.mpr ⟨expected, _, rfl, ?_⟩
    refine returns_fsCall_bind.mpr ⟨file, _, rfl, ?_⟩
    refine returns_fsCall_bind.mpr ⟨actual, reads, rfl, ?_⟩
    rw [if_neg (not_or.mpr ⟨not_not.mpr hdev, not_not.mpr hino⟩)]
    exact returns_readBounded.mpr ⟨bytes, hthrough, hlength, htext⟩

end PamSshAgent
