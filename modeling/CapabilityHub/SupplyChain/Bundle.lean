import CapabilityHub.Data.Base64
import CapabilityHub.Data.Checks
import CapabilityHub.Data.Json
import CapabilityHub.Models
import CapabilityHub.SupplyChain.Transparency
import Mathlib.Algebra.GroupWithZero.Nat
import Mathlib.Data.Finset.Basic

/-! # Transparency bundles

The records of `supply_chain_bundle.py` and the part of `SigstoreBundleVerifier.verify`
that reads neither the checkpoint observer nor the online log: the bounds of a
bundle, the certificate chain, the identity of its leaf and the signature of the
artifact (`CapabilityHub.SupplyChain.authenticate`). Parsing certificates and
checking Ed25519 signatures are operations of the `cryptography` package and
parameters here.
-/

namespace CapabilityHub.SupplyChain

/-- What `SigstoreBundleVerifier.verify` raises: a code of its own, or an exception of
the standard library that it does not translate. -/
inductive VerifyError where
  | supplyChain (code : SupplyChainError)
  | typeError
  | valueError
  | overflowError
  | timestampOutOfRange
  deriving DecidableEq, Repr

/-- `raise SupplyChainError(code)`. -/
def reject {α : Type} (code : SupplyChainError) : Except VerifyError α :=
  .error (.supplyChain code)

def rejectIf (condition : Prop) [Decidable condition] (code : SupplyChainError) :
    Except VerifyError Unit :=
  raiseIf condition (.supplyChain code)

@[simp] theorem rejectIf_eq_ok {condition : Prop} [Decidable condition] {code : SupplyChainError} :
    rejectIf condition code = .ok () ↔ ¬condition :=
  raiseIf_eq_ok

/-- The errors of the proof checks, as errors of the verification. -/
def checked {α : Type} : Except SupplyChainError α → Except VerifyError α
  | .ok value => .ok value
  | .error code => reject code

/-- `hmac.compare_digest` on two texts: texts outside ASCII are a `TypeError`. -/
def compareDigest (first second : String) : Except VerifyError Bool :=
  if first.toList.all (·.toNat < 128) ∧ second.toList.all (·.toNat < 128) then .ok (first = second)
  else .error .typeError

/-! ## Certificates -/

/-- A distinguished name: the attributes of each relative name, type and value. -/
structure DistinguishedName where
  attributes : List (List (String × String))
  deriving DecidableEq

inductive PublicKey where
  | ed25519 (key : Bytes)
  | other

structure BasicConstraints where
  critical : Bool
  ca : Bool
  pathLength : Option Nat

structure KeyUsage where
  critical : Bool
  digitalSignature : Bool
  keyCertSign : Bool

structure SubjectAlternativeName where
  rfc822Names : List String
  dnsNames : List String
  uris : List String

structure Extensions where
  basicConstraints : Option BasicConstraints
  keyUsage : Option KeyUsage
  extendedKeyUsage : Option (List String)
  subjectAlternativeName : Option SubjectAlternativeName

/-- A certificate as `cryptography` reads it; `extensions` is `none` where reading
them raises `ValueError`. -/
structure Certificate where
  notValidBefore : Int
  notValidAfter : Int
  issuer : DistinguishedName
  subject : DistinguishedName
  publicKey : PublicKey
  signature : Bytes
  tbsCertificateBytes : Bytes
  extensions : Option Extensions
  der : Bytes

/-- The operations of the `cryptography` package. -/
structure Cryptography where
  loadPemX509Certificate : Bytes → Option Certificate
  rfc4514String : DistinguishedName → String
  /-- Whether a signature of a message verifies under a public key. -/
  ed25519Verify : Bytes → Bytes → Bytes → Bool

/-! ## Policies and bundles -/

structure TrustedCertificateRoot where
  certificatePem : Bytes
  publisher : String
  registry : String
  revoked : Bool

structure TrustedTransparencyLog where
  logId : String
  publicKey : Bytes
  notBefore : Int
  expiresAt : Option Int
  revoked : Bool
  logId_ne : logId ≠ ""
  publicKey_size : publicKey.length = 32

structure SignedCheckpoint where
  logId : String
  treeSize : Int
  rootHash : String
  timestamp : Int
  signature : String
  deriving DecidableEq

structure TransparencyInclusionProof where
  checkpoint : SignedCheckpoint
  leafIndex : Int
  hashes : List String

structure TransparencyConsistencyProof where
  checkpoint : SignedCheckpoint
  hashes : List String

structure SigstoreBundle where
  certificateChainPem : List Bytes
  artifactSignature : String
  issuedAt : Int
  inclusionProof : TransparencyInclusionProof

structure BundleTrustPolicy where
  trustedPublishers : Finset String
  trustedRegistries : Finset String
  roots : String → Option TrustedCertificateRoot
  logs : String → Option TrustedTransparencyLog
  trustedCertificateIssuers : Finset String
  trustedCertificateSubjects : Finset String
  requireOnlineCheckpoint : Bool
  requireCheckpointObserver : Bool
  maxCheckpointAgeSeconds : Int
  publishers_nonempty : trustedPublishers.Nonempty
  registries_nonempty : trustedRegistries.Nonempty
  roots_nonempty : ∃ rootId, (roots rootId).isSome
  logs_nonempty : ∃ logId, (logs logId).isSome
  maxCheckpointAge_pos : 0 < maxCheckpointAgeSeconds

structure TrustEvidence where
  revision : String
  artifactDigest : String
  publisher : String
  registry : String
  environment : String
  signed : Bool
  algorithm : Option String
  keyId : Option String
  expiresAt : Option Int
  deriving DecidableEq

/-- The arguments of a call of `verify`, without the moment. -/
structure VerifyArguments where
  identity : CapabilityIdentity
  artifact : Bytes
  publisher : String
  registry : String
  attested : Bool
  bundle : Option SigstoreBundle

variable (sha256 : Bytes → Digest) (crypto : Cryptography)

/-! ## Payloads -/

def artifactDomain : Bytes := encodeUtf8 "capabilityhub-sigstore-bundle-artifact-v1\x00"

def checkpointDomain : Bytes := encodeUtf8 "capabilityhub-transparency-checkpoint-v1\x00"

def certificateFingerprint (certificate : Certificate) : String := (sha256 certificate.der).hex

def artifactPayload (identity : CapabilityIdentity) (digest publisher registry : String)
    (issuedAt : Int) : Json :=
  .obj [("artifact_digest", .str digest), ("issued_at", .int issuedAt),
    ("publisher", .str publisher), ("registry", .str registry),
    ("revision", .str identity.revision), ("version", .int 1)]

def logEntry (payload : Json) (signature : String) (leaf : Certificate) : Bytes :=
  canonical (.obj [("artifact_payload", .str (String.ofList payload.dump)),
    ("artifact_signature", .str signature),
    ("certificate_fingerprint", .str (certificateFingerprint sha256 leaf)), ("version", .int 1)])

def checkpointPayload (checkpoint : SignedCheckpoint) : Bytes :=
  canonical (.obj [("log_id", .str checkpoint.logId), ("root_hash", .str checkpoint.rootHash),
    ("timestamp", .int checkpoint.timestamp), ("tree_size", .int checkpoint.treeSize),
    ("version", .int 1)])

/-- `_decode`: the padding is completed before decoding. -/
def decode (text : String) : Option Bytes :=
  urlsafeB64Decode (text ++ String.ofList (List.replicate ((4 - text.length % 4) % 4) '='))

/-! ## The bundle itself -/

def maxBundleBytes : Nat := 128 * 1024
def maxCertificateBytes : Nat := 32 * 1024
def maxSignatureChars : Nat := 2048
def maxIdentityChars : Nat := 512

/-- The bytes of a bundle that `_validate_bundle_bounds` counts. -/
def encodedSize (bundle : SigstoreBundle) : Nat :=
  let checkpoint := bundle.inclusionProof.checkpoint
  (bundle.certificateChainPem.map List.length).sum +
    (bundle.artifactSignature.toList.filter (·.toNat < 128)).length +
    ([checkpoint.logId, checkpoint.rootHash, checkpoint.signature].map String.utf8ByteSize).sum +
    (bundle.inclusionProof.hashes.map String.utf8ByteSize).sum

def validateBundleBounds (bundle : SigstoreBundle) : Except VerifyError Unit :=
  let chain := bundle.certificateChainPem
  let checkpoint := bundle.inclusionProof.checkpoint
  rejectIf (chain = [] ∨ chain.length > 6 ∨
    (∃ item ∈ chain, item = [] ∨ item.length > maxCertificateBytes) ∨
    bundle.artifactSignature.length > maxSignatureChars ∨
    checkpoint.signature.length > maxSignatureChars ∨
    checkpoint.logId.length > maxIdentityChars ∨ checkpoint.rootHash.length ≠ 64 ∨
    encodedSize bundle > maxBundleBytes) .transparencyBundleTooLarge

/-! ## The certificate chain -/

def codeSigning : String := "1.3.6.1.5.5.7.3.3"

def verifyLeafProfile (certificate : Certificate) : Except VerifyError Unit :=
  match certificate.extensions with
  | none => .error .valueError
  | some extensions =>
      match extensions.basicConstraints, extensions.keyUsage, extensions.extendedKeyUsage with
      | some constraints, some usage, some extended =>
          rejectIf (!constraints.critical || constraints.ca || constraints.pathLength.isSome ||
            !usage.critical || !usage.digitalSignature || usage.keyCertSign ||
            !extended.contains codeSigning) .invalidCertificateProfile
      | _, _, _ => reject .invalidCertificateProfile

/-- The extensions of a certificate above the leaf. -/
def verifyAuthorityProfile (index : Nat) (certificate : Certificate) : Except VerifyError Unit :=
  match certificate.extensions with
  | none => .error .valueError
  | some extensions =>
      match extensions.basicConstraints, extensions.keyUsage with
      | some constraints, some usage => do
          rejectIf (!constraints.critical || !usage.critical || !constraints.ca ||
            !usage.keyCertSign) .invalidCertificateChain
          rejectIf (constraints.pathLength.any (· < index - 1)) .invalidCertificateChain
      | _, _ => reject .invalidCertificateChain

/-- The public key of a certificate, which has to be an Ed25519 key. -/
def ed25519Key (certificate : Certificate) : Except VerifyError Bytes :=
  match certificate.publicKey with
  | .ed25519 key => .ok key
  | .other => reject .unsupportedCertificateKey

/-- The loop of `_verify_chain`: each certificate is valid at the moment and signed by
the next one, the last by itself. -/
def verifyLinks (moment : Int) : Nat → List Certificate → Except VerifyError Unit
  | _, [] => .ok ()
  | index, certificate :: rest => do
      let issuer := rest.head?.getD certificate
      rejectIf (¬(certificate.notValidBefore ≤ moment ∧ moment < certificate.notValidAfter))
        .certificateExpired
      rejectIf (certificate.issuer ≠ issuer.subject) .invalidCertificateChain
      let key ← ed25519Key issuer
      rejectIf (!crypto.ed25519Verify key certificate.signature certificate.tbsCertificateBytes)
        .invalidCertificateChain
      if index = 0 then verifyLeafProfile certificate else verifyAuthorityProfile index certificate
      verifyLinks moment (index + 1) rest

/-- `datetime.fromtimestamp` in UTC: the moments of the years 1 to 9999. -/
def fromTimestamp (seconds : Int) : Except VerifyError Int :=
  if -62135596800 ≤ seconds ∧ seconds ≤ 253402300799 then .ok seconds
  else .error .timestampOutOfRange

def verifyIdentity (policy : BundleTrustPolicy) (leaf : Certificate) : Except VerifyError Unit :=
  match leaf.extensions with
  | none => .error .valueError
  | some extensions =>
      match extensions.subjectAlternativeName with
      | none => reject .certificateIdentityNotTrusted
      | some san => do
          rejectIf (crypto.rfc4514String leaf.issuer ∉ policy.trustedCertificateIssuers)
            .certificateIdentityNotTrusted
          rejectIf (∀ subject ∈ san.rfc822Names ++ san.dnsNames ++ san.uris,
            subject ∉ policy.trustedCertificateSubjects) .certificateIdentityNotTrusted

def verifyChain (policy : BundleTrustPolicy) (bundle : SigstoreBundle)
    (publisher registry : String) : Except VerifyError Certificate := do
  rejectIf (bundle.certificateChainPem = [] ∨ bundle.certificateChainPem.length > 6)
    .invalidCertificateChain
  match bundle.certificateChainPem.mapM crypto.loadPemX509Certificate with
  | none => reject .invalidCertificateChain
  | some chain =>
      let moment ← fromTimestamp bundle.issuedAt
      verifyLinks crypto moment 0 chain
      match chain.head?, chain.getLast? with
      | some leaf, some root =>
          match policy.roots (certificateFingerprint sha256 root) with
          | none => reject .certificateRootNotTrusted
          | some authority =>
              rejectIf authority.revoked .certificateRootNotTrusted
              rejectIf (authority.publisher ≠ publisher ∨ authority.registry ≠ registry)
                .certificateRootScopeMismatch
              match crypto.loadPemX509Certificate authority.certificatePem with
              | none => reject .invalidTrustRoot
              | some configured =>
                  rejectIf (configured.der ≠ root.der) .certificateRootNotTrusted
                  verifyIdentity crypto policy leaf
                  return leaf
      | _, _ => reject .invalidCertificateChain

def verifyArtifactSignature (leaf : Certificate) (payload : Bytes) (encoded : String) :
    Except VerifyError Unit := do
  let key ← ed25519Key leaf
  match decode encoded with
  | none => reject .invalidArtifactSignature
  | some signature =>
      rejectIf (!crypto.ed25519Verify key signature (artifactDomain ++ payload))
        .invalidArtifactSignature

/-- `verify` up to the transparency check: the inclusion proof of the bundle, the log
entry it has to prove and the evidence that will be returned. -/
def authenticate (policy : BundleTrustPolicy) (arguments : VerifyArguments) :
    Except VerifyError (TransparencyInclusionProof × Bytes × TrustEvidence) := do
  rejectIf arguments.attested .unsupportedLegacyAttestation
  match arguments.bundle with
  | none => reject .transparencyBundleRequired
  | some bundle =>
      validateBundleBounds bundle
      rejectIf (arguments.publisher ∉ policy.trustedPublishers) .publisherNotTrusted
      rejectIf (arguments.registry ∉ policy.trustedRegistries) .registryNotTrusted
      let digest := "sha256:" ++ (sha256 arguments.artifact).hex
      rejectIf (!(← compareDigest digest arguments.identity.digest)) .artifactDigestMismatch
      let leaf ← verifyChain sha256 crypto policy bundle arguments.publisher arguments.registry
      let payload := artifactPayload arguments.identity digest arguments.publisher
        arguments.registry bundle.issuedAt
      verifyArtifactSignature crypto leaf (canonical payload) bundle.artifactSignature
      return (bundle.inclusionProof, logEntry sha256 payload bundle.artifactSignature leaf,
        { revision := arguments.identity.revision
          artifactDigest := digest
          publisher := arguments.publisher
          registry := arguments.registry
          environment := "production"
          signed := true
          algorithm := some "ed25519"
          keyId := some (certificateFingerprint sha256 leaf)
          expiresAt := some bundle.inclusionProof.checkpoint.timestamp })

/-- What is proved included is the proof of the bundle. -/
theorem authenticate_proof {sha256 : Bytes → Digest} {crypto : Cryptography}
    {policy : BundleTrustPolicy} {arguments : VerifyArguments}
    {proof : TransparencyInclusionProof} {entry : Bytes} {evidence : TrustEvidence}
    (authentic : authenticate sha256 crypto policy arguments = .ok (proof, entry, evidence)) :
    ∃ bundle, arguments.bundle = some bundle ∧ proof = bundle.inclusionProof := by
  simp only [authenticate, bind_eq_ok, exists_unit] at authentic
  cases given : arguments.bundle with
  | none => simp [given, reject] at authentic
  | some bundle =>
      simp only [given, bind_eq_ok, exists_unit, pure_eq_ok, Prod.mk.injEq] at authentic
      obtain ⟨_, _, _, _, _, _, _, _, _, _, rfl, _⟩ := authentic
      exact ⟨bundle, rfl, rfl⟩

end CapabilityHub.SupplyChain
