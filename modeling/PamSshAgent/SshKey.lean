import PamSshAgent.Rust.Error

/-!
# Keys, certificates and signatures

The values of the `ssh_key` crate that the module handles, with what it reads of them, and
the functions of the crate that it calls.  The crate is not part of the repository; its
functions are parameters.
-/

namespace PamSshAgent

/-- `ssh_key::EcdsaCurve`. -/
inductive EcdsaCurve where
  | nistP256
  | nistP384
  | nistP521
deriving DecidableEq, Repr

/-- `ssh_key::HashAlg`. -/
inductive HashAlg where
  | sha256
  | sha512
deriving DecidableEq, Repr

/-- `ssh_key::Algorithm`. -/
inductive Algorithm where
  | dsa
  | ecdsa (curve : EcdsaCurve)
  | ed25519
  | rsa (hash : Option HashAlg)
  | skEcdsaSha2NistP256
  | skEd25519
  | other (name : Text)
deriving DecidableEq, Repr

/-- `ssh_key::public::KeyData`: the kind of a key and its encoded material. -/
inductive KeyData where
  | dsa (material : List UInt8)
  | ecdsa (curve : EcdsaCurve) (material : List UInt8)
  | ed25519 (material : List UInt8)
  | rsa (material : List UInt8)
  | skEcdsaSha2NistP256 (material : List UInt8)
  | skEd25519 (material : List UInt8)
  | other (name : Text) (material : List UInt8)
deriving DecidableEq, Repr

/-- `KeyData::is_sk_ed25519`. -/
def KeyData.isSkEd25519 : KeyData → Bool
  | skEd25519 _ => true
  | _ => false

/-- `KeyData::is_sk_ecdsa_p256`. -/
def KeyData.isSkEcdsaP256 : KeyData → Bool
  | skEcdsaSha2NistP256 _ => true
  | _ => false

/-- `ssh_key::PublicKey`. -/
structure PublicKey where
  keyData : KeyData
  comment : Text
deriving DecidableEq, Repr

/-- `ssh_key::certificate::CertType`. -/
inductive CertType where
  | user
  | host
deriving DecidableEq, Repr

/-- `ssh_key::Certificate`: the fields that the module reads, and the encoded certificate
with all the others. -/
structure Certificate where
  publicKey : KeyData
  signatureKey : KeyData
  certType : CertType
  validPrincipals : List Text
  criticalOptions : List (Text × Text)
  encoded : List UInt8
deriving DecidableEq, Repr

/-- `ssh_agent_client_rs::Identity`. -/
inductive Identity where
  | publicKey (key : PublicKey)
  | certificate (cert : Certificate)
deriving DecidableEq, Repr

/-- The key that an identity signs with. -/
def Identity.keyData : Identity → KeyData
  | publicKey key => key.keyData
  | certificate cert => cert.publicKey

/-- `ssh_key::Signature`. -/
structure Signature where
  algorithm : Algorithm
  bytes : List UInt8
deriving DecidableEq, Repr

/-- `ssh_key::authorized_keys::Entry`. -/
structure Entry where
  configOpts : List Text
  publicKey : PublicKey
deriving DecidableEq, Repr

/-- The functions of the `ssh_key` crate that the module calls. -/
structure SshKeyCrate where
  /-- The entries that `AuthorizedKeys::new` yields, with the texts of their errors. -/
  authorizedKeys : Text → List (Except Text Entry)
  /-- `PublicKey::from_openssh`. -/
  fromOpenssh : Text → Except Text PublicKey
  /-- `KeyData::fingerprint`. -/
  fingerprint : KeyData → HashAlg → Text
  /-- `Certificate::validate_at`, at a number of seconds since the epoch. -/
  validateAt : Certificate → ℕ → List Text → Except Text Unit
  /-- `KeyData::verify`, by the crate or by OpenSSL. -/
  verify : KeyData → List UInt8 → Signature → Except Unit Unit

end PamSshAgent
