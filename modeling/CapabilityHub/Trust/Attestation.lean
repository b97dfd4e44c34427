import CapabilityHub.Data.JsonMembers
import CapabilityHub.Models
import CapabilityHub.References

/-! # Artifact attestations

`supply_chain.py`. A signature is over the canonical JSON of what an attestation states, under a key that
the policy pins, with a domain of its own for each of the two algorithms.
-/

namespace CapabilityHub.Trust

/-- Optional texts are told apart by `==`. -/
local instance lawfulTexts : LawfulBEq (Option String) := inferInstance

/-- `HMAC_SHA256` -/
def hmacSha256 : String := "hmac-sha256"

/-- `ED25519` -/
def ed25519 : String := "ed25519"

/-- `_DOMAIN` -/
def localDomain : Bytes := encodeUtf8 "capabilityhub-local-artifact-attestation-v1\x00"

/-- `_PUBLIC_DOMAIN` -/
def publicDomain : Bytes := encodeUtf8 "capabilityhub-public-artifact-attestation-v1\x00"

inductive Environment where
  | development
  | production
  deriving DecidableEq

/-- `SupplyChainError`. -/
def supplyChainError (code : String) : Raised :=
  .hub { code := code, category := .policy, safeMessage := "Artifact trust verification failed." }

/-- `TrustedHMACKey`. -/
structure TrustedHmacKey where
  keyId : String
  publisher : String
  registry : String
  secret : Bytes
  algorithm : String := hmacSha256
  notBefore : Int := 0
  expiresAt : Option Int := none
  revoked : Bool := false
  named : keyId ≠ "" ∧ publisher ≠ "" ∧ registry ≠ ""
  secret_ne : secret ≠ []
  algorithm_eq : algorithm = hmacSha256
  window : ∀ moment ∈ expiresAt, notBefore < moment

/-- `TrustedEd25519Key`. -/
structure TrustedEd25519Key where
  keyId : String
  publisher : String
  registry : String
  publicKey : Bytes
  issuer : Option String := none
  subject : Option String := none
  notBefore : Int := 0
  expiresAt : Option Int := none
  revoked : Bool := false
  named : keyId ≠ "" ∧ publisher ≠ "" ∧ registry ≠ ""
  publicKey_size : publicKey.length = 32
  identity : issuer.isNone = subject.isNone
  window : ∀ moment ∈ expiresAt, notBefore < moment

/-- `SupplyChainPolicy`. -/
structure SupplyChainPolicy where
  environment : Environment
  trustedPublishers : List String
  trustedRegistries : List String
  keys : Dict String TrustedHmacKey := ∅
  ed25519Keys : Dict String TrustedEd25519Key := ∅
  revokedKeyIds : List String := []
  revokedPublishers : List String := []
  allowUnsignedDevelopment : Bool := true
  trustedCertificateIssuers : List String := []
  trustedCertificateSubjects : List String := []
  requireTransparency : Bool := false
  trusted : trustedPublishers ≠ [] ∧ trustedRegistries ≠ []
  keys_named : ∀ keyId key, keys.get? keyId = some key → key.keyId = keyId
  ed25519Keys_named : ∀ keyId key, ed25519Keys.get? keyId = some key → key.keyId = keyId
  apart : ∀ keyId ∈ keys.keys, keyId ∉ ed25519Keys.keys

/-- What an attestation states. -/
structure Statement where
  revision : String
  artifactDigest : String
  publisher : String
  registry : String
  keyId : String
  algorithm : String
  issuedAt : Int
  expiresAt : Int
  certificateIssuer : Option String := none
  certificateSubject : Option String := none
  transparencyLogId : Option String := none
  transparencyEntryDigest : Option String := none

/-- `ArtifactAttestation`. -/
structure ArtifactAttestation extends Statement where
  signature : String

/-- `TrustEvidence`. -/
structure TrustEvidence where
  revision : String
  artifactDigest : String
  publisher : String
  registry : String
  environment : Environment
  signed : Bool
  algorithm : Option String
  keyId : Option String
  expiresAt : Option Int

/-- The operations of `hashlib`, `hmac` and `cryptography`, where that is installed. -/
structure Cryptography where
  sha256 : Bytes → Bytes
  /-- The digest of a message under a secret. -/
  hmac : Bytes → Bytes → Bytes
  /-- Whether a signature of a message verifies under a public key. -/
  ed25519Verify : Option (Bytes → Bytes → Bytes → Bool)

/-! ## Payloads -/

/-- `None`, or a text. -/
def optionalText : Option String → Json
  | some text => .str text
  | none => .null

/-- The object that `_payload` writes. -/
def Statement.fields (statement : Statement) : List (String × Json) := [
  ("algorithm", .str statement.algorithm), ("artifact_digest", .str statement.artifactDigest),
  ("certificate_issuer", optionalText statement.certificateIssuer),
  ("certificate_subject", optionalText statement.certificateSubject),
  ("expires_at", .int statement.expiresAt), ("issued_at", .int statement.issuedAt),
  ("key_id", .str statement.keyId), ("publisher", .str statement.publisher),
  ("registry", .str statement.registry), ("revision", .str statement.revision),
  ("transparency_entry_digest", optionalText statement.transparencyEntryDigest),
  ("transparency_log_id", optionalText statement.transparencyLogId), ("version", .int 1)]

/-- The bytes of `_payload`. -/
def Statement.payload (statement : Statement) : Bytes :=
  encodeUtf8 (canonicalJson (.obj statement.fields))

/-- `_payload`, which raises `ValueError` at an integer with too many digits. -/
def writePayload (statement : Statement) : Except Raised Bytes := do
  raiseIf ((Json.obj statement.fields).printable = false) .valueError
  pure statement.payload

/-- `_b64`. -/
def b64 (value : Bytes) : String := String.ofList (encodeBase64Chars value)

/-- `_unb64`; `none` where it raises `ValueError`. -/
def unb64 (value : String) : Option Bytes :=
  (urlsafeB64Decode (value ++ String.ofList (List.replicate ((4 - value.length % 4) % 4) '='))).filter
    fun decoded => b64 decoded = value

/-! ## The verifier -/

/-- What a signed attestation is evidence of. -/
def signedEvidence (policy : SupplyChainPolicy) (revision digest publisher registry : String)
    (attestation : ArtifactAttestation) : TrustEvidence where
  revision := revision
  artifactDigest := digest
  publisher := publisher
  registry := registry
  environment := policy.environment
  signed := true
  algorithm := some attestation.algorithm
  keyId := some attestation.keyId
  expiresAt := some attestation.expiresAt

section

variable (crypto : Cryptography) (policy : SupplyChainPolicy)

/-- `"sha256:" + hashlib.sha256(artifact).hexdigest()` -/
def artifactDigest (artifact : Bytes) : String := "sha256:" ++ hex (crypto.sha256 artifact)

/-- `_verify_source_policy`. -/
def verifySourcePolicy (publisher registry : String) : Except Raised Unit := do
  raiseIf (publisher = "" ∨ publisher ∉ policy.trustedPublishers)
    (supplyChainError "publisher_not_trusted")
  raiseIf (registry = "" ∨ registry ∉ policy.trustedRegistries) (supplyChainError "registry_not_trusted")
  raiseIf (publisher ∈ policy.revokedPublishers) (supplyChainError "signing_authority_revoked")

/-- `_verify_attestation_bindings`. -/
def verifyAttestationBindings (attestation : ArtifactAttestation)
    (revision digest publisher registry : String) : Except Raised Unit := do
  raiseIf ("" ∈ [attestation.revision, attestation.artifactDigest, attestation.publisher,
    attestation.registry, attestation.keyId, attestation.algorithm, attestation.signature])
    (supplyChainError "invalid_attestation")
  raiseIf (attestation.revision ≠ revision) (supplyChainError "attestation_binding_mismatch")
  let same ← compareDigest attestation.artifactDigest digest
  raiseIf (same = false ∨ attestation.publisher ≠ publisher ∨ attestation.registry ≠ registry)
    (supplyChainError "attestation_binding_mismatch")
  raiseIf (attestation.expiresAt ≤ attestation.issuedAt) (supplyChainError "invalid_attestation")

/-- What both kinds of keys say of who may sign and when. -/
structure Authority where
  keyId : String
  publisher : String
  registry : String
  notBefore : Int
  expiresAt : Option Int
  revoked : Bool

def TrustedHmacKey.authority (key : TrustedHmacKey) : Authority :=
  ⟨key.keyId, key.publisher, key.registry, key.notBefore, key.expiresAt, key.revoked⟩

def TrustedEd25519Key.authority (key : TrustedEd25519Key) : Authority :=
  ⟨key.keyId, key.publisher, key.registry, key.notBefore, key.expiresAt, key.revoked⟩

/-- The checks of a key that `verify` and `_verify_ed25519` both make. -/
def checkAuthority (authority : Authority) (attestation : ArtifactAttestation)
    (publisher registry : String) (timestamp : Int) : Except Raised Unit := do
  raiseIf (authority.publisher ≠ publisher ∨ authority.registry ≠ registry)
    (supplyChainError "signing_key_scope_mismatch")
  raiseIf (authority.revoked = true ∨ authority.keyId ∈ policy.revokedKeyIds ∨
    publisher ∈ policy.revokedPublishers) (supplyChainError "signing_authority_revoked")
  raiseIf (attestation.expiresAt ≤ timestamp) (supplyChainError "attestation_expired")
  raiseIf (timestamp + 60 < attestation.issuedAt) (supplyChainError "attestation_not_yet_valid")
  raiseIf (attestation.issuedAt < authority.notBefore ∨ ∃ moment ∈ authority.expiresAt,
    moment ≤ attestation.issuedAt ∨ moment ≤ timestamp) (supplyChainError "signing_key_expired")

/-- `_verify_certificate_identity`. -/
def verifyCertificateIdentity (key : TrustedEd25519Key) (attestation : ArtifactAttestation) :
    Except Raised Unit := do
  raiseIf (attestation.certificateIssuer.isNone ≠ attestation.certificateSubject.isNone)
    (supplyChainError "invalid_certificate_identity")
  match key.issuer with
  | none =>
      raiseIf (attestation.certificateIssuer.isSome ∨ attestation.certificateSubject.isSome)
        (supplyChainError "certificate_identity_mismatch")
  | some issuer => do
      raiseIf (attestation.certificateIssuer ≠ key.issuer ∨ attestation.certificateSubject ≠ key.subject)
        (supplyChainError "certificate_identity_mismatch")
      raiseIf (issuer ∉ policy.trustedCertificateIssuers ∨
        ¬key.subject.any fun subject => subject ∈ policy.trustedCertificateSubjects)
        (supplyChainError "certificate_identity_not_trusted")

/-- `_verify_transparency`. -/
def verifyTransparency (attestation : ArtifactAttestation) : Except Raised Unit := do
  let supplied := [attestation.transparencyLogId, attestation.transparencyEntryDigest]
  raiseIf (policy.requireTransparency = true ∧ none ∈ supplied)
    (supplyChainError "transparency_evidence_required")
  if supplied.any Option.isSome then do
    raiseIf (none ∈ supplied ∨ some "" ∈ supplied) (supplyChainError "invalid_transparency_evidence")
    let digest := attestation.transparencyEntryDigest.getD ""
    raiseIf (digest.length ≠ 64 ∨ ¬digest.toList.all fun char => char ∈ "0123456789abcdef".toList)
      (supplyChainError "invalid_transparency_evidence")

/-- `_verify_ed25519`. -/
def verifyEd25519 (attestation : ArtifactAttestation) (revision digest publisher registry : String)
    (timestamp : Int) : Except Raised TrustEvidence := do
  match policy.ed25519Keys.get? attestation.keyId with
  | none => .error (supplyChainError "unknown_signing_key")
  | some key => do
      checkAuthority policy key.authority attestation publisher registry timestamp
      verifyCertificateIdentity policy key attestation
      verifyTransparency policy attestation
      match crypto.ed25519Verify with
      | none => .error (supplyChainError "public_key_verifier_unavailable")
      | some verifies =>
          match unb64 attestation.signature, writePayload attestation.toStatement with
          | some signature, .ok payload => do
              raiseIf (verifies key.publicKey signature (publicDomain ++ payload) = false)
                (supplyChainError "invalid_artifact_signature")
              pure (signedEvidence policy revision digest publisher registry attestation)
          | _, _ => .error (supplyChainError "invalid_artifact_signature")

/-- The rest of `verify`, for an HMAC attestation. -/
def verifyHmac (attestation : ArtifactAttestation) (revision digest publisher registry : String)
    (timestamp : Int) : Except Raised TrustEvidence := do
  raiseIf (attestation.algorithm ≠ hmacSha256) (supplyChainError "unsupported_signature_algorithm")
  match policy.keys.get? attestation.keyId with
  | none => .error (supplyChainError "unknown_signing_key")
  | some key => do
      raiseIf (key.algorithm ≠ attestation.algorithm) (supplyChainError "signature_algorithm_mismatch")
      checkAuthority policy key.authority attestation publisher registry timestamp
      match fromHex attestation.signature with
      | none => .error (supplyChainError "invalid_artifact_signature")
      | some supplied => do
          let payload ← writePayload attestation.toStatement
          raiseIf (supplied ≠ crypto.hmac key.secret (localDomain ++ payload))
            (supplyChainError "invalid_artifact_signature")
          pure (signedEvidence policy revision digest publisher registry attestation)

/-- `verify`, at the time of the clock where none is given. -/
def verify (identity : CapabilityIdentity) (artifact : Bytes) (publisher registry : String)
    (attestation : Option ArtifactAttestation) (bundle : Bool) (now : Option Int) (clock : Int) :
    Except Raised TrustEvidence := do
  raiseIf (bundle = true) (supplyChainError "unsupported_transparency_bundle")
  let digest := artifactDigest crypto artifact
  let same ← compareDigest digest identity.digest
  raiseIf (same = false) (supplyChainError "artifact_digest_mismatch")
  verifySourcePolicy policy publisher registry
  let timestamp := now.getD clock
  match attestation with
  | none => do
      raiseIf (policy.environment = .production ∨ policy.allowUnsignedDevelopment = false)
        (supplyChainError "artifact_signature_required")
      pure {
        revision := identity.revision
        artifactDigest := digest
        publisher := publisher
        registry := registry
        environment := policy.environment
        signed := false
        algorithm := none
        keyId := none
        expiresAt := none }
  | some attestation => do
      verifyAttestationBindings attestation identity.revision digest publisher registry
      if attestation.algorithm = ed25519 then
        verifyEd25519 crypto policy attestation identity.revision digest publisher registry timestamp
      else verifyHmac crypto policy attestation identity.revision digest publisher registry timestamp

end

end CapabilityHub.Trust
