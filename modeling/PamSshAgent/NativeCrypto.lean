import PamSshAgent.Auth.Agent

/-!
# Signatures checked by OpenSSL

With the feature `native-crypto` signatures are checked by OpenSSL instead of `ssh_key`.
The key and the digest are chosen by the kind of the key, the encoding of the signature by
the algorithm that the signature declares.  Only the arm for RSA keys compares the two.
-/

namespace PamSshAgent

/-- `openssl::hash::MessageDigest`, as far as the module uses it. -/
inductive MessageDigest where
  | sha256
  | sha384
  | sha512
deriving DecidableEq, Repr

/-- `signature::Error`, by its source. -/
abbrev SignatureError := Option Error

/-- The functions of `openssl`, `p256`, `p384`, `p521` and `ssh_key` that the module calls.
`Rsa` and `PKey` are the keys of OpenSSL. -/
structure NativeCrates (Rsa PKey : Type) where
  /-- `PKey::from_ec_key` of the point on the curve, after `check_key`. -/
  ecKey : EcdsaCurve → List UInt8 → Except Error PKey
  /-- `PKey::public_key_from_raw_bytes` with the id of Ed25519. -/
  ed25519Key : List UInt8 → Except Error PKey
  /-- `Rsa::from_public_components` of the two numbers in the material. -/
  fromPublicComponents : List UInt8 → Except Error Rsa
  /-- `PKey::from_rsa`. -/
  fromRsa : Rsa → Except Error PKey
  /-- `Verifier::new`, or `Verifier::new_without_digest`. -/
  newVerifier : Option MessageDigest → PKey → Except Error Unit
  /-- `Verifier::verify_oneshot` of a signature and a message. -/
  verifyOneshot : Option MessageDigest → PKey → List UInt8 → List UInt8 → Except Error Bool
  /-- The two numbers of the signature, read by the crate of the curve. -/
  scalars : EcdsaCurve → Signature → Except SignatureError (ℕ × ℕ)
  /-- `to_der` of the two numbers. -/
  toDer : ℕ × ℕ → List UInt8
  /-- `Algorithm` as `Debug` writes it. -/
  debug : Algorithm → Text

/-- `KeyData::algorithm`. -/
def KeyData.algorithm : KeyData → Algorithm
  | dsa _ => .dsa
  | ecdsa curve _ => .ecdsa curve
  | ed25519 _ => .ed25519
  | rsa _ => .rsa none
  | skEcdsaSha2NistP256 _ => .skEcdsaSha2NistP256
  | skEd25519 _ => .skEd25519
  | other name _ => .other name

/-- The digest that goes with a curve. -/
def EcdsaCurve.digest : EcdsaCurve → MessageDigest
  | nistP256 => .sha256
  | nistP384 => .sha384
  | nistP521 => .sha512

namespace NativeCrates

variable {Rsa PKey : Type} (crates : NativeCrates Rsa PKey)

/-- The digest of an RSA signature, by the algorithm that the signature declares. -/
def rsaDigest (signature : Signature) : Except Error MessageDigest :=
  match signature.algorithm with
  | .rsa none => .error (.anyhow ["No RSA hash algorithm specified"])
  | .rsa (some .sha256) => .ok .sha256
  | .rsa (some .sha512) => .ok .sha512
  | algorithm =>
    .error (.anyhow ["Trying to read a non-RSA signature with an RSA key: ",
      crates.debug algorithm])

/-- `get_key_and_digest`. -/
def getKeyAndDigest (keyData : KeyData) (signature : Signature) :
    Except Error (PKey × Option MessageDigest) :=
  match keyData with
  | .ecdsa curve material => do
    let key ← crates.ecKey curve material
    return (key, some curve.digest)
  | .ed25519 material => do
    let key ← crates.ed25519Key material
    return (key, none)
  | .rsa material => do
    let rsa ← crates.fromPublicComponents material
    let digest ← crates.rsaDigest signature
    let key ← crates.fromRsa rsa
    return (key, some digest)
  | keyData => .error (.anyhow ["Key type is not supported: ", crates.debug keyData.algorithm])

/-- `convert_signature`. -/
def convertSignature (signature : Signature) : Except SignatureError (List UInt8) :=
  match signature.algorithm with
  | .ecdsa curve => do
    let sig ← crates.scalars curve signature
    return crates.toDer sig
  | .ed25519 => .ok signature.bytes
  | .rsa _ => .ok signature.bytes
  | _ => .error (some (.anyhow ["unsupported signature type"]))

/-- `signature::Error::from_source`, on a result. -/
def fromSource {α : Type} (result : Except Error α) : Except SignatureError α :=
  result.mapError some

/-- `PublicKeyVerifier::verify` of `KeyData`. -/
def verify (keyData : KeyData) (message : List UInt8) (signature : Signature) :
    Except SignatureError Unit := do
  let (key, digest) ← fromSource (crates.getKeyAndDigest keyData signature)
  let _ ← fromSource (crates.newVerifier digest key)
  let converted ← crates.convertSignature signature
  let valid ← fromSource (crates.verifyOneshot digest key converted message)
  if valid then .ok () else .error none

/-- `ssh_key` with its `verify` replaced, as `verify.rs` does it with the feature. -/
def nativeCrate (crate : SshKeyCrate) : SshKeyCrate :=
  { crate with
    verify := fun keyData message signature =>
      (crates.verify keyData message signature).mapError fun _ => () }

end NativeCrates

/-! ## The binding of the algorithm -/

/-- The declared algorithm is the one of the key. -/
def Algorithm.Matches (algorithm : Algorithm) : KeyData → Prop
  | .ecdsa curve _ => algorithm = .ecdsa curve
  | .ed25519 _ => algorithm = .ed25519
  | .rsa _ => algorithm = .rsa (some .sha256) ∨ algorithm = .rsa (some .sha512)
  | _ => False

/-- The signature is handed over as it is. -/
def Algorithm.Raw (algorithm : Algorithm) : Prop :=
  algorithm = .ed25519 ∨ ∃ hash, algorithm = .rsa hash

/-- The valid signatures: the texts of Ed25519 and the pairs of numbers of ECDSA. -/
structure Validity (PKey : Type) where
  ed25519 : PKey → List UInt8 → List UInt8 → Prop
  ecdsa : PKey → MessageDigest → List UInt8 → ℕ × ℕ → Prop

namespace NativeCrates

variable {Rsa PKey : Type} (crates : NativeCrates Rsa PKey) (validity : Validity PKey)

/-- OpenSSL accepts the signature. -/
def Accepts (digest : Option MessageDigest) (key : PKey) (signature message : List UInt8) : Prop :=
  crates.newVerifier digest key = .ok () ∧
    crates.verifyOneshot digest key signature message = .ok true

/-- OpenSSL accepts the valid raw signatures of an Ed25519 key and the encodings of the valid
pairs of an ECDSA key, and nothing else. -/
structure AcceptsExactly : Prop where
  ed25519 : ∀ material key signature message, crates.ed25519Key material = .ok key →
    (crates.Accepts none key signature message ↔ validity.ed25519 key message signature)
  ecdsa : ∀ curve material key digest signature message, crates.ecKey curve material = .ok key →
    (crates.Accepts (some digest) key signature message ↔
      ∃ pair, signature = crates.toDer pair ∧ validity.ecdsa key digest message pair)
  toDer_injective : Function.Injective crates.toDer

/-- No signature that `ssh_key` admits is accepted for a key of another algorithm. -/
def AlgorithmBound (admits : Signature → Prop) : Prop :=
  ∀ keyData message signature, admits signature →
    crates.verify keyData message signature = .ok () → signature.algorithm.Matches keyData

/-- The signature declares an algorithm that is not the one of the key, and what it carries
is a valid signature of the key. -/
inductive Misdeclared (message : List UInt8) (signature : Signature) : KeyData → Prop
  /-- The bytes of an RSA signature are a signature of the Ed25519 key. -/
  | ed25519Raw (material : List UInt8) (key : PKey) (hkey : crates.ed25519Key material = .ok key)
      (hash : Option HashAlg) (hlabel : signature.algorithm = .rsa hash)
      (hvalid : validity.ed25519 key message signature.bytes) :
      Misdeclared message signature (.ed25519 material)
  /-- The encoding of an ECDSA signature is a signature of the Ed25519 key. -/
  | ed25519Der (material : List UInt8) (key : PKey) (hkey : crates.ed25519Key material = .ok key)
      (curve : EcdsaCurve) (hlabel : signature.algorithm = .ecdsa curve) (pair : ℕ × ℕ)
      (hpair : crates.scalars curve signature = .ok pair)
      (hvalid : validity.ed25519 key message (crates.toDer pair)) :
      Misdeclared message signature (.ed25519 material)
  /-- The bytes of an Ed25519 or RSA signature encode a pair of the ECDSA key. -/
  | ecdsaRaw (curve : EcdsaCurve) (material : List UInt8) (key : PKey)
      (hkey : crates.ecKey curve material = .ok key) (hlabel : signature.algorithm.Raw)
      (pair : ℕ × ℕ) (hbytes : signature.bytes = crates.toDer pair)
      (hvalid : validity.ecdsa key curve.digest message pair) :
      Misdeclared message signature (.ecdsa curve material)
  /-- The pair of a signature on another curve is a pair of the ECDSA key. -/
  | ecdsaCurve (curve curve' : EcdsaCurve) (material : List UInt8) (key : PKey)
      (hkey : crates.ecKey curve material = .ok key) (hlabel : signature.algorithm = .ecdsa curve')
      (hcurve : curve' ≠ curve) (pair : ℕ × ℕ) (hpair : crates.scalars curve' signature = .ok pair)
      (hvalid : validity.ecdsa key curve.digest message pair) :
      Misdeclared message signature (.ecdsa curve material)

/-! ## What `verify` accepts -/

variable {crates validity} {keyData : KeyData} {message : List UInt8} {signature : Signature}

lemma fromSource_eq_ok {α : Type} {result : Except Error α} {a : α} :
    fromSource result = .ok a ↔ result = .ok a := by
  cases result <;> simp [fromSource, Except.mapError]

/-- A signature is accepted when OpenSSL accepts its conversion. -/
lemma verify_eq_ok_iff : crates.verify keyData message signature = .ok () ↔
    ∃ key digest converted, crates.getKeyAndDigest keyData signature = .ok (key, digest) ∧
      crates.convertSignature signature = .ok converted ∧
      crates.Accepts digest key converted message := by
  constructor
  · intro h
    obtain ⟨⟨key, digest⟩, hkey, h⟩ := Except.bind_eq_ok_iff.mp h
    obtain ⟨_, hnew, h⟩ := Except.bind_eq_ok_iff.mp h
    obtain ⟨converted, hconvert, h⟩ := Except.bind_eq_ok_iff.mp h
    obtain ⟨valid, hvalid, h⟩ := Except.bind_eq_ok_iff.mp h
    have htrue : valid = true := by
      by_contra hne
      rw [if_neg hne] at h
      exact absurd h (by simp)
    rw [htrue] at hvalid
    exact ⟨key, digest, converted, fromSource_eq_ok.mp hkey, hconvert,
      fromSource_eq_ok.mp hnew, fromSource_eq_ok.mp hvalid⟩
  · rintro ⟨key, digest, converted, hkey, hconvert, hnew, hvalid⟩
    rw [verify, fromSource_eq_ok.mpr hkey, Except.ok_bind]
    dsimp only
    rw [fromSource_eq_ok.mpr hnew, Except.ok_bind, hconvert, Except.ok_bind,
      fromSource_eq_ok.mpr hvalid, Except.ok_bind]
    rfl

/-- What a signature is converted to. -/
lemma convertSignature_eq_ok {converted : List UInt8}
    (h : crates.convertSignature signature = .ok converted) :
    (signature.algorithm.Raw ∧ converted = signature.bytes) ∨
      ∃ curve pair, signature.algorithm = .ecdsa curve ∧
        crates.scalars curve signature = .ok pair ∧ converted = crates.toDer pair := by
  rw [convertSignature] at h
  cases hlabel : signature.algorithm with
  | ecdsa curve =>
    rw [hlabel] at h
    obtain ⟨pair, hpair, hder⟩ := Except.bind_eq_ok_iff.mp h
    exact Or.inr ⟨curve, pair, rfl, hpair, (Except.ok.inj hder).symm⟩
  | ed25519 =>
    rw [hlabel] at h
    exact Or.inl ⟨Or.inl rfl, (Except.ok.inj h).symm⟩
  | rsa hash =>
    rw [hlabel] at h
    exact Or.inl ⟨Or.inr ⟨hash, rfl⟩, (Except.ok.inj h).symm⟩
  | _ => exact absurd h (by simp [hlabel])

lemma convertSignature_raw (hraw : signature.algorithm.Raw) :
    crates.convertSignature signature = .ok signature.bytes := by
  rcases hraw with h | ⟨hash, h⟩
  · rw [convertSignature, h]
  · rw [convertSignature, h]

lemma convertSignature_ecdsa {curve : EcdsaCurve} {pair : ℕ × ℕ}
    (hlabel : signature.algorithm = .ecdsa curve) (hpair : crates.scalars curve signature = .ok pair) :
    crates.convertSignature signature = .ok (crates.toDer pair) := by
  rw [convertSignature, hlabel]
  dsimp only
  rw [hpair]
  rfl

/-- The keys and digests: by the kind of the key, and for RSA by the signature as well. -/
lemma getKeyAndDigest_ecdsa {curve : EcdsaCurve} {material : List UInt8} {key : PKey}
    {digest : Option MessageDigest} :
    crates.getKeyAndDigest (.ecdsa curve material) signature = .ok (key, digest) ↔
      crates.ecKey curve material = .ok key ∧ digest = some curve.digest := by
  rw [getKeyAndDigest, Except.bind_eq_ok_iff]
  simp [eq_comm]

lemma getKeyAndDigest_ed25519 {material : List UInt8} {key : PKey}
    {digest : Option MessageDigest} :
    crates.getKeyAndDigest (.ed25519 material) signature = .ok (key, digest) ↔
      crates.ed25519Key material = .ok key ∧ digest = none := by
  rw [getKeyAndDigest, Except.bind_eq_ok_iff]
  simp [eq_comm]

/-- For an RSA key the declared algorithm is checked. -/
lemma getKeyAndDigest_rsa {material : List UInt8} {key : PKey} {digest : Option MessageDigest}
    (h : crates.getKeyAndDigest (.rsa material) signature = .ok (key, digest)) :
    signature.algorithm.Matches (.rsa material) := by
  obtain ⟨rsa, -, h⟩ := Except.bind_eq_ok_iff.mp h
  obtain ⟨chosen, hdigest, -⟩ := Except.bind_eq_ok_iff.mp h
  rw [rsaDigest] at hdigest
  cases hlabel : signature.algorithm with
  | rsa hash =>
    rcases hash with - | - | -
    · exact absurd hdigest (by simp [hlabel])
    · exact Or.inl rfl
    · exact Or.inr rfl
  | _ => exact absurd hdigest (by simp [hlabel])

/-! ## The exact condition -/

/-- The algorithms of the raw signatures are not those of ECDSA. -/
lemma raw_ne_ecdsa {algorithm : Algorithm} {curve : EcdsaCurve} (hraw : algorithm.Raw) :
    algorithm ≠ .ecdsa curve := by
  rcases hraw with rfl | ⟨hash, rfl⟩ <;> simp

lemma Misdeclared.not_matches (h : crates.Misdeclared validity message signature keyData) :
    ¬ signature.algorithm.Matches keyData := by
  cases h with
  | ed25519Raw material key hkey hash hlabel =>
    rw [hlabel]
    simp [Algorithm.Matches]
  | ed25519Der material key hkey curve hlabel =>
    rw [hlabel]
    simp [Algorithm.Matches]
  | ecdsaRaw curve material key hkey hlabel => exact raw_ne_ecdsa hlabel
  | ecdsaCurve curve curve' material key hkey hlabel hcurve =>
    rw [hlabel]
    simpa [Algorithm.Matches] using hcurve

/-- A valid signature passes under the wrong name. -/
lemma Misdeclared.verify (hexact : crates.AcceptsExactly validity)
    (h : crates.Misdeclared validity message signature keyData) :
    crates.verify keyData message signature = .ok () := by
  rw [verify_eq_ok_iff]
  cases h with
  | ed25519Raw material key hkey hash hlabel hvalid =>
    have haccepts := (hexact.ed25519 material key _ message hkey).mpr hvalid
    exact ⟨key, none, signature.bytes, getKeyAndDigest_ed25519.mpr ⟨hkey, rfl⟩,
      convertSignature_raw (Or.inr ⟨hash, hlabel⟩), haccepts⟩
  | ed25519Der material key hkey curve hlabel pair hpair hvalid =>
    have haccepts := (hexact.ed25519 material key _ message hkey).mpr hvalid
    exact ⟨key, none, crates.toDer pair, getKeyAndDigest_ed25519.mpr ⟨hkey, rfl⟩,
      convertSignature_ecdsa hlabel hpair, haccepts⟩
  | ecdsaRaw curve material key hkey hlabel pair hbytes hvalid =>
    have haccepts := (hexact.ecdsa curve material key _ signature.bytes message hkey).mpr
      ⟨pair, hbytes, hvalid⟩
    exact ⟨key, some curve.digest, signature.bytes, getKeyAndDigest_ecdsa.mpr ⟨hkey, rfl⟩,
      convertSignature_raw hlabel, haccepts⟩
  | ecdsaCurve curve curve' material key hkey hlabel hcurve pair hpair hvalid =>
    have haccepts := (hexact.ecdsa curve material key _ (crates.toDer pair) message hkey).mpr
      ⟨pair, rfl, hvalid⟩
    exact ⟨key, some curve.digest, crates.toDer pair, getKeyAndDigest_ecdsa.mpr ⟨hkey, rfl⟩,
      convertSignature_ecdsa hlabel hpair, haccepts⟩

/-- A signature accepted for an Ed25519 key. -/
lemma matches_or_misdeclared_ed25519 {material converted : List UInt8} {key : PKey}
    (hkey : crates.ed25519Key material = .ok key)
    (hconvert : crates.convertSignature signature = .ok converted)
    (hvalid : validity.ed25519 key message converted) :
    signature.algorithm.Matches (.ed25519 material) ∨
      crates.Misdeclared validity message signature (.ed25519 material) := by
  rcases convertSignature_eq_ok hconvert with ⟨hlabel | ⟨hash, hlabel⟩, rfl⟩ |
    ⟨curve, pair, hlabel, hpair, rfl⟩
  · exact Or.inl hlabel
  · exact Or.inr (.ed25519Raw material key hkey hash hlabel hvalid)
  · exact Or.inr (.ed25519Der material key hkey curve hlabel pair hpair hvalid)

/-- A signature accepted for an ECDSA key. -/
lemma matches_or_misdeclared_ecdsa (hinjective : Function.Injective crates.toDer)
    {curve : EcdsaCurve} {material converted : List UInt8} {key : PKey} {pair : ℕ × ℕ}
    (hkey : crates.ecKey curve material = .ok key)
    (hconvert : crates.convertSignature signature = .ok converted)
    (hder : converted = crates.toDer pair)
    (hvalid : validity.ecdsa key curve.digest message pair) :
    signature.algorithm.Matches (.ecdsa curve material) ∨
      crates.Misdeclared validity message signature (.ecdsa curve material) := by
  rcases convertSignature_eq_ok hconvert with ⟨hraw, rfl⟩ | ⟨curve', pair', hlabel, hpair, rfl⟩
  · exact Or.inr (.ecdsaRaw curve material key hkey hraw pair hder hvalid)
  · obtain rfl : pair' = pair := hinjective hder
    by_cases hcurve : curve' = curve
    · exact Or.inl (hcurve ▸ hlabel)
    · exact Or.inr (.ecdsaCurve curve curve' material key hkey hlabel hcurve pair' hpair hvalid)

/-- What is accepted matches the key, or it is a valid signature under the wrong name. -/
lemma matches_or_misdeclared (hexact : crates.AcceptsExactly validity)
    (h : crates.verify keyData message signature = .ok ()) :
    signature.algorithm.Matches keyData ∨
      crates.Misdeclared validity message signature keyData := by
  obtain ⟨key, digest, converted, hget, hconvert, haccepts⟩ := verify_eq_ok_iff.mp h
  cases keyData with
  | ecdsa curve material =>
    obtain ⟨hkey, rfl⟩ := getKeyAndDigest_ecdsa.mp hget
    obtain ⟨pair, hder, hvalid⟩ :=
      (hexact.ecdsa curve material key _ converted message hkey).mp haccepts
    exact matches_or_misdeclared_ecdsa hexact.toDer_injective hkey hconvert hder hvalid
  | ed25519 material =>
    obtain ⟨hkey, rfl⟩ := getKeyAndDigest_ed25519.mp hget
    have hvalid := (hexact.ed25519 material key converted message hkey).mp haccepts
    exact matches_or_misdeclared_ed25519 hkey hconvert hvalid
  | rsa material => exact Or.inl (getKeyAndDigest_rsa hget)
  | dsa | skEcdsaSha2NistP256 | skEd25519 | other => exact absurd hget (by simp [getKeyAndDigest])

/-- OpenSSL accepts a signature for a key of another algorithm exactly when the signature is a
valid one of the key, under the wrong name. -/
theorem verify_bound_iff (crates : NativeCrates Rsa PKey) (validity : Validity PKey)
    (keyData : KeyData) (message : List UInt8) (signature : Signature)
    (hexact : crates.AcceptsExactly validity) :
    (crates.verify keyData message signature = .ok () → signature.algorithm.Matches keyData) ↔
      ¬ crates.Misdeclared validity message signature keyData := by
  constructor
  · intro h hmisdeclared
    exact hmisdeclared.not_matches (h (hmisdeclared.verify hexact))
  · intro hnot hverify
    exact (matches_or_misdeclared hexact hverify).resolve_right hnot

/-- Without such signatures the module accepts what matches the key of the identity. -/
lemma verifySignature_matches {crate : SshKeyCrate} {identity : Identity} {strict : Bool}
    {data : Challenge} (hexact : crates.AcceptsExactly validity)
    (hnot : ¬ crates.Misdeclared validity data.toList signature identity.keyData)
    (h : verifySignature (crates.nativeCrate crate) identity strict data signature = .ok true) :
    signature.algorithm.Matches identity.keyData := by
  obtain ⟨_, -, h⟩ := Except.bind_eq_ok_iff.mp h
  cases hresult : crates.verify identity.keyData data.toList signature with
  | ok _ => exact (matches_or_misdeclared hexact hresult).resolve_right hnot
  | error error => exact absurd h (by simp [nativeCrate, hresult, Except.mapError])

end NativeCrates

/-! ## A mislabelled signature -/

/-- The Ed25519 key of the tests of `verify.rs`. -/
def testKey : List UInt8 :=
  [41, 247, 31, 154, 122, 9, 23, 131, 38, 157, 28, 103, 233, 223, 206, 202, 144, 238, 59, 238, 67,
    61, 123, 164, 16, 94, 200, 209, 181, 179, 40, 194]

/-- The signature of its tests. -/
def testSignature : List UInt8 :=
  [86, 139, 108, 92, 200, 247, 100, 11, 213, 171, 161, 85, 246, 68, 223, 158, 33, 125, 143, 135, 57,
    135, 22, 144, 6, 212, 169, 130, 215, 66, 106, 148, 4, 37, 143, 224, 61, 118, 139, 52, 166, 93,
    8, 237, 126, 207, 33, 24, 115, 201, 162, 83, 227, 126, 58, 160, 168, 88, 35, 220, 9, 114, 255,
    1]

/-- The message of its tests, `challenge`. -/
def testMessage : List UInt8 := Text.bytes "challenge"

/-- The one valid signature. -/
def testValidity : Validity (List UInt8) where
  ed25519 key message signature :=
    key = testKey ∧ message = testMessage ∧ signature = testSignature
  ecdsa _ _ _ _ := False

/-- A stand-in for the encoding of a pair. -/
def unaryPair (pair : ℕ × ℕ) : List UInt8 :=
  List.replicate pair.1 1 ++ 0 :: List.replicate pair.2 1

lemma takeWhile_unaryPair (pair : ℕ × ℕ) :
    (unaryPair pair).takeWhile (· = 1) = List.replicate pair.1 1 := by
  rw [unaryPair, List.takeWhile_append_of_pos (by simp)]
  simp

lemma unaryPair_injective : Function.Injective unaryPair := by
  intro pair pair' h
  have hfirst : pair.1 = pair'.1 := by
    have hones := congrArg (fun bytes : List UInt8 => (bytes.takeWhile (· = 1)).length) h
    simpa [takeWhile_unaryPair] using hones
  have hlength := congrArg List.length h
  simp only [unaryPair, List.length_append, List.length_cons, List.length_replicate] at hlength
  exact Prod.ext hfirst (by omega)

/-- OpenSSL on the Ed25519 key; the other keys are refused, and no encoding is asked for. -/
def testCrates : NativeCrates (List UInt8) (List UInt8) where
  ecKey _ _ := .error (.msg "unsupported curve")
  ed25519Key material := if material.length = 32 then .ok material else .error (.msg "invalid key")
  fromPublicComponents material := .ok material
  fromRsa rsa := .ok rsa
  newVerifier _ _ := .ok ()
  verifyOneshot digest key signature message :=
    .ok (digest = none ∧ key = testKey ∧ message = testMessage ∧ signature = testSignature)
  scalars _ _ := .error none
  toDer := unaryPair
  debug _ := "Algorithm"

lemma testCrates_acceptsExactly : testCrates.AcceptsExactly testValidity where
  ed25519 material key signature message hkey := by
    constructor
    · rintro ⟨-, hvalid⟩
      exact (of_decide_eq_true (Except.ok.inj hvalid)).2
    · intro hvalid
      exact ⟨rfl, congrArg Except.ok (decide_eq_true ⟨rfl, hvalid⟩)⟩
  ecdsa curve material key digest signature message hkey := by
    have herror : (Except.error (.msg "unsupported curve") : Except Error (List UInt8)) = .ok key :=
      hkey
    exact absurd herror (by simp)
  toDer_injective := unaryPair_injective

/-- The signature of the test passes for the same key when it is labelled as one of RSA,
which `ssh_key` admits with any bytes. -/
theorem not_algorithmBound : testCrates.AcceptsExactly testValidity ∧
    ∀ admits : Signature → Prop, (∀ hash bytes, admits ⟨.rsa hash, bytes⟩) →
      ¬ testCrates.AlgorithmBound admits := by
  refine ⟨testCrates_acceptsExactly, fun admits hadmits hbound => ?_⟩
  have hverify : testCrates.verify (.ed25519 testKey) testMessage
      ⟨.rsa (some .sha512), testSignature⟩ = .ok () := by
    decide +kernel
  have hmatches := hbound _ _ _ (hadmits (some .sha512) testSignature) hverify
  exact absurd hmatches (by simp [Algorithm.Matches])

/-- Under its own label the signature of the test is bound to its algorithm; under the label
of RSA it is the kind of signature that is not. -/
theorem verify_bound_testKey :
    (testCrates.verify (.ed25519 testKey) testMessage ⟨.ed25519, testSignature⟩ = .ok () →
      Algorithm.ed25519.Matches (.ed25519 testKey)) ∧
    testCrates.Misdeclared testValidity testMessage ⟨.rsa (some .sha512), testSignature⟩
      (.ed25519 testKey) := by
  constructor
  · refine (NativeCrates.verify_bound_iff testCrates testValidity _ _ _
      testCrates_acceptsExactly).mpr fun h => ?_
    cases h with
    | ed25519Raw material key hkey hash hlabel => exact absurd hlabel (by simp)
    | ed25519Der material key hkey curve hlabel => exact absurd hlabel (by simp)
  · exact .ed25519Raw testKey testKey (by decide +kernel) (some .sha512) rfl ⟨rfl, rfl, rfl⟩

end PamSshAgent
