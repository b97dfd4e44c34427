import CapabilityHub.Trust.Soundness

/-! # Attestations that are created

An attestation that is made with a key verifies under every policy that pins the key and trusts what it
stands for, from one minute before it was issued until it or the key expires, and at no other time
(`CapabilityHub.Trust.verify_created`).
-/

namespace CapabilityHub.Trust

section

variable (crypto : Cryptography) (policy : SupplyChainPolicy)

/-- `create_local_hmac_attestation`. -/
def createLocalHmacAttestation (revision artifactDigest : String) (key : TrustedHmacKey)
    (issuedAt expiresAt : Int) : Except Raised ArtifactAttestation := do
  raiseIf (revision = "" ∨ artifactDigest = "") .valueError
  raiseIf (expiresAt ≤ issuedAt) .valueError
  let unsigned : Statement := {
    revision := revision
    artifactDigest := artifactDigest
    publisher := key.publisher
    registry := key.registry
    keyId := key.keyId
    algorithm := key.algorithm
    issuedAt := issuedAt
    expiresAt := expiresAt }
  let payload ← writePayload unsigned
  pure { unsigned with signature := hex (crypto.hmac key.secret (localDomain ++ payload)) }

/-- `create_ed25519_attestation`, where the private key signs with `sign`. -/
def createEd25519Attestation (revision artifactDigest : String) (key : TrustedEd25519Key)
    (sign : Bytes → Bytes) (issuedAt expiresAt : Int)
    (transparencyLogId transparencyEntryDigest : Option String) : Except Raised ArtifactAttestation := do
  raiseIf (expiresAt ≤ issuedAt) .valueError
  let unsigned : Statement := {
    revision := revision
    artifactDigest := artifactDigest
    publisher := key.publisher
    registry := key.registry
    keyId := key.keyId
    algorithm := ed25519
    issuedAt := issuedAt
    expiresAt := expiresAt
    certificateIssuer := key.issuer
    certificateSubject := key.subject
    transparencyLogId := transparencyLogId
    transparencyEntryDigest := transparencyEntryDigest }
  let payload ← writePayload unsigned
  pure { unsigned with signature := b64 (sign (publicDomain ++ payload)) }

end

/-- What a policy trusts of those that may sign. -/
structure SupplyChainPolicy.Trusts (policy : SupplyChainPolicy) (authority : Authority) : Prop where
  publisher : authority.publisher ∈ policy.trustedPublishers
  registry : authority.registry ∈ policy.trustedRegistries
  publishing : authority.publisher ∉ policy.revokedPublishers
  key : authority.revoked = false ∧ authority.keyId ∉ policy.revokedKeyIds

/-- The times at which what was signed from one time to another counts. -/
structure Authority.Open (authority : Authority) (issuedAt expiresAt timestamp : Int) : Prop where
  begun : issuedAt ≤ timestamp + 60
  lasting : timestamp < expiresAt
  window : authority.notBefore ≤ issuedAt ∧
    ∀ moment ∈ authority.expiresAt, issuedAt < moment ∧ timestamp < moment

/-- A policy that trusts the certificate of a key, if it has one. -/
def SupplyChainPolicy.Certifies (policy : SupplyChainPolicy) (key : TrustedEd25519Key) : Prop :=
  (∀ issuer ∈ key.issuer, issuer ∈ policy.trustedCertificateIssuers) ∧
    ∀ subject ∈ key.subject, subject ∈ policy.trustedCertificateSubjects

/-- What a log tells of an entry, as far as a policy asks for it. -/
def SupplyChainPolicy.Logged (policy : SupplyChainPolicy) : Option String → Option String → Prop
  | none, none => policy.requireTransparency = false
  | some logId, some digest => logId ≠ "" ∧ digest.length = 64 ∧
      ∀ char ∈ digest.toList, char ∈ "0123456789abcdef".toList
  | _, _ => False

/-- An attestation that was made with a key that the policy pins, and what it says beside the key. -/
inductive Created (crypto : Cryptography) (policy : SupplyChainPolicy) (revision digest : String)
    (issuedAt expiresAt : Int) : Authority → Prop → ArtifactAttestation → Prop where
  | hmac {key : TrustedHmacKey} {attestation : ArtifactAttestation}
      (pinned : policy.keys.get? key.keyId = some key)
      (done : createLocalHmacAttestation crypto revision digest key issuedAt expiresAt = .ok attestation)
      (sized : attestation.signature ≠ "") :
      Created crypto policy revision digest issuedAt expiresAt key.authority True attestation
  | ed25519 {key : TrustedEd25519Key} {sign : Bytes → Bytes} {verifies : Bytes → Bytes → Bytes → Bool}
      {logId entryDigest : Option String} {attestation : ArtifactAttestation}
      (pinned : policy.ed25519Keys.get? key.keyId = some key)
      (installed : crypto.ed25519Verify = some verifies)
      (pair : ∀ message, verifies key.publicKey (sign message) message = true)
      (done : createEd25519Attestation revision digest key sign issuedAt expiresAt logId entryDigest =
        .ok attestation)
      (sized : attestation.signature ≠ "") :
      Created crypto policy revision digest issuedAt expiresAt key.authority
        (policy.Certifies key ∧ policy.Logged logId entryDigest) attestation

variable {crypto : Cryptography} {policy : SupplyChainPolicy} {identity : CapabilityIdentity}
  {artifact : Bytes} {publisher registry : String} {attestation : ArtifactAttestation}
  {evidence : TrustEvidence} {timestamp issuedAt expiresAt : Int} {statement : Statement}

theorem checkAuthority_iff {authority : Authority} :
    checkAuthority policy authority attestation publisher registry timestamp = .ok () ↔
      (authority.publisher = publisher ∧ authority.registry = registry) ∧
      (authority.revoked = false ∧ authority.keyId ∉ policy.revokedKeyIds ∧
        publisher ∉ policy.revokedPublishers) ∧
      authority.Open attestation.issuedAt attestation.expiresAt timestamp := by
  simp only [checkAuthority, bind_eq_ok, exists_unit, raiseIf_eq_ok, not_or, not_not, not_le, not_lt,
    not_exists, not_and, Bool.not_eq_true]
  constructor
  · rintro ⟨source, revoked, expired, early, window, moments⟩
    exact ⟨source, revoked, early, expired, window, moments⟩
  · rintro ⟨source, revoked, early, expired, window, moments⟩
    exact ⟨source, revoked, expired, early, window, moments⟩

theorem isAscii_artifactDigest : isAscii (artifactDigest crypto artifact) = true := by
  rw [isAscii, artifactDigest, String.toList_append, List.all_append, Bool.and_eq_true]
  refine ⟨by decide, List.all_eq_true.mpr fun char member => ?_⟩
  exact decide_eq_true (hex_ascii _ char member)

theorem artifactDigest_ne_empty : artifactDigest crypto artifact ≠ "" := by
  intro empty
  have letters := congrArg String.toList empty
  rw [artifactDigest, String.toList_append] at letters
  cases letters

theorem revision_ne_empty (identity : CapabilityIdentity) : identity.revision ≠ "" := by
  intro empty
  have sign : '@' ∈ identity.revision.toList := by simp [CapabilityIdentity.revision]
  rw [empty] at sign
  cases sign

theorem compareDigest_iff {first second : String} (ascii : isAscii first = true) :
    compareDigest first second = .ok true ↔ second = first := by
  constructor
  · intro same
    exact (References.compareDigest_eq_ok same).symm
  · rintro rfl
    rw [compareDigest, if_pos ⟨ascii, ascii⟩, beq_self_eq_true]

theorem unb64_b64 (value : Bytes) : unb64 (b64 value) = some value := by
  have padded : b64 value ++ String.ofList (List.replicate ((4 - (b64 value).length % 4) % 4) '=') =
      String.ofList (padBase64 (encodeBase64Chars value)) := by
    rw [padBase64, String.ofList_append, b64, String.length_ofList]
  rw [unb64, padded, urlsafeB64Decode_encode]
  exact Option.filter_eq_some_iff.mpr ⟨rfl, decide_eq_true rfl⟩

theorem writePayload_iff {payload : Bytes} : writePayload statement = .ok payload ↔
    (Json.obj statement.fields).printable = true ∧ statement.payload = payload := by
  simp only [writePayload, bind_eq_ok, exists_unit, raiseIf_eq_ok, pure_eq_ok, Bool.not_eq_false]

/-! ## What both kinds of attestations go through -/

theorem verifySourcePolicy_iff (named : publisher ≠ "" ∧ registry ≠ "") :
    verifySourcePolicy policy publisher registry = .ok () ↔
      publisher ∈ policy.trustedPublishers ∧ registry ∈ policy.trustedRegistries ∧
        publisher ∉ policy.revokedPublishers := by
  simp only [verifySourcePolicy, bind_eq_ok, exists_unit, raiseIf_eq_ok, not_or, not_not, named,
    not_false_eq_true, true_and]

/-- The statement is about the capability, the artifact and the source that are verified. -/
structure Statement.About (statement : Statement) (crypto : Cryptography) (identity : CapabilityIdentity)
    (artifact : Bytes) (publisher registry : String) : Prop where
  revision : statement.revision = identity.revision
  digest : statement.artifactDigest = Trust.artifactDigest crypto artifact
  source : statement.publisher = publisher ∧ statement.registry = registry
  named : publisher ≠ "" ∧ registry ≠ "" ∧ statement.keyId ≠ "" ∧ statement.algorithm ≠ ""
  lasting : statement.issuedAt < statement.expiresAt

theorem verifyAttestationBindings_about (sized : attestation.signature ≠ "")
    (about : attestation.toStatement.About crypto identity artifact publisher registry) :
    verifyAttestationBindings attestation identity.revision (artifactDigest crypto artifact) publisher
      registry = .ok () := by
  have revision : attestation.revision ≠ "" := by
    rw [about.revision]
    exact revision_ne_empty identity
  have digest : attestation.artifactDigest ≠ "" := by
    rw [about.digest]
    exact artifactDigest_ne_empty
  obtain ⟨published, registered, key, algorithm⟩ := about.named
  obtain ⟨publisher, registry⟩ := about.source
  simp only [verifyAttestationBindings, bind_eq_ok, exists_unit, raiseIf_eq_ok, not_or, not_not, not_le]
  refine ⟨?_, about.revision, true, ?_, ⟨Bool.true_eq_false.mp, publisher, registry⟩, about.lasting⟩
  · subst publisher registry
    simp only [List.mem_cons, List.not_mem_nil, or_false, not_or]
    exact ⟨revision.symm, digest.symm, published.symm, registered.symm, key.symm, algorithm.symm, sized.symm⟩
  · rw [about.digest]
    exact (compareDigest_iff isAscii_artifactDigest).mpr rfl

/-- What is left of `verify` for an attestation about what is verified. -/
theorem verify_about (sized : attestation.signature ≠ "")
    (about : attestation.toStatement.About crypto identity artifact publisher registry) {clock : Int} :
    verify crypto policy identity artifact publisher registry (some attestation) false (some timestamp)
        clock = .ok evidence ↔
      (identity.digest = artifactDigest crypto artifact ∧ publisher ∈ policy.trustedPublishers ∧
        registry ∈ policy.trustedRegistries ∧ publisher ∉ policy.revokedPublishers) ∧
      (if attestation.algorithm = ed25519 then
        verifyEd25519 crypto policy attestation identity.revision (artifactDigest crypto artifact) publisher
          registry timestamp
      else verifyHmac crypto policy attestation identity.revision (artifactDigest crypto artifact) publisher
        registry timestamp) = .ok evidence := by
  have source := @verifySourcePolicy_iff policy publisher registry ⟨about.named.1, about.named.2.1⟩
  have bound := verifyAttestationBindings_about sized about
  constructor
  · intro done
    simp only [verify, bind_eq_ok, exists_unit, raiseIf_eq_ok, Bool.not_eq_false] at done
    obtain ⟨_, same, matched, rfl, trusted, _, accepted⟩ := done
    exact ⟨⟨(compareDigest_iff isAscii_artifactDigest).mp matched, source.mp trusted⟩, accepted⟩
  · rintro ⟨⟨digest, trusted⟩, accepted⟩
    simp only [verify, bind_eq_ok, exists_unit, raiseIf_eq_ok, Bool.not_eq_false]
    exact ⟨Bool.false_ne_true, true, (compareDigest_iff isAscii_artifactDigest).mpr digest, rfl,
      source.mpr trusted, bound, accepted⟩

/-! ## The two kinds -/

theorem verifyHmac_created {key : TrustedHmacKey} {revision digest : String}
    (pinned : policy.keys.get? attestation.keyId = some key) (named : attestation.algorithm = hmacSha256)
    (printable : (Json.obj attestation.fields).printable = true)
    (signed : attestation.signature = hex (crypto.hmac key.secret (localDomain ++ attestation.payload))) :
    verifyHmac crypto policy attestation revision digest publisher registry timestamp = .ok evidence ↔
      checkAuthority policy key.authority attestation publisher registry timestamp = .ok () ∧
      evidence = signedEvidence policy revision digest publisher registry attestation := by
  have read : fromHex attestation.signature =
      some (crypto.hmac key.secret (localDomain ++ attestation.payload)) := by
    rw [signed, fromHex_hex]
  simp only [verifyHmac, bind_eq_ok, exists_unit, raiseIf_eq_ok, not_not, pinned, read, pure_eq_ok]
  constructor
  · rintro ⟨_, _, checked, _, _, _, rfl⟩
    exact ⟨checked, rfl⟩
  · rintro ⟨checked, rfl⟩
    exact ⟨named, key.algorithm_eq.trans named.symm, checked, _, writePayload_iff.mpr ⟨printable, rfl⟩, rfl,
      rfl⟩

theorem verifyCertificateIdentity_iff {key : TrustedEd25519Key}
    (issuer : attestation.certificateIssuer = key.issuer)
    (subject : attestation.certificateSubject = key.subject) :
    verifyCertificateIdentity policy key attestation = .ok () ↔ policy.Certifies key := by
  have both := key.identity
  rw [verifyCertificateIdentity, issuer, subject, SupplyChainPolicy.Certifies]
  cases given : key.issuer with
  | none =>
      rw [given] at both
      have none := Option.isNone_iff_eq_none.mp both.symm
      simp only [none, bind_eq_ok, exists_unit, raiseIf_eq_ok]
      simp
  | some issuer =>
      cases given' : key.subject with
      | none =>
          rw [given, given'] at both
          cases both
      | some subject =>
          simp only [bind_eq_ok, exists_unit, raiseIf_eq_ok]
          simp

theorem verifyTransparency_iff {logId entryDigest : Option String}
    (log : attestation.transparencyLogId = logId) (entry : attestation.transparencyEntryDigest = entryDigest) :
    verifyTransparency policy attestation = .ok () ↔ policy.Logged logId entryDigest := by
  rw [verifyTransparency, log, entry]
  cases logId with
  | none =>
      cases entryDigest with
      | none =>
          simp only [bind_eq_ok, exists_unit, raiseIf_eq_ok]
          simp [SupplyChainPolicy.Logged, pure, Except.pure]
      | some digest =>
          simp only [List.any_cons, Option.isSome, Bool.false_or, Bool.true_or, if_true, bind_eq_ok, exists_unit,
            raiseIf_eq_ok]
          simp [SupplyChainPolicy.Logged]
  | some logId =>
      cases entryDigest with
      | none =>
          simp only [List.any_cons, Option.isSome, Bool.true_or, if_true, bind_eq_ok, exists_unit,
            raiseIf_eq_ok]
          simp [SupplyChainPolicy.Logged]
      | some digest =>
          simp only [List.any_cons, Option.isSome, Bool.true_or, if_true, bind_eq_ok, exists_unit,
            raiseIf_eq_ok, Option.getD_some, not_or, not_not, SupplyChainPolicy.Logged, List.all_eq_true,
            decide_eq_true_eq]
          constructor
          · rintro ⟨_, ⟨_, given⟩, sized, letters⟩
            exact ⟨fun empty => given (by simp [empty]), sized, letters⟩
          · rintro ⟨given, sized, letters⟩
            have filled : digest ≠ "" := by
              rintro rfl
              cases sized
            exact ⟨by simp, by simp [given.symm, filled.symm], sized, letters⟩

theorem verifyEd25519_created {key : TrustedEd25519Key} {sign : Bytes → Bytes} {revision digest : String}
    {verifies : Bytes → Bytes → Bytes → Bool} {logId entryDigest : Option String}
    (pinned : policy.ed25519Keys.get? attestation.keyId = some key)
    (installed : crypto.ed25519Verify = some verifies)
    (pair : ∀ message, verifies key.publicKey (sign message) message = true)
    (printable : (Json.obj attestation.fields).printable = true)
    (signed : attestation.signature = b64 (sign (publicDomain ++ attestation.payload)))
    (issuer : attestation.certificateIssuer = key.issuer)
    (subject : attestation.certificateSubject = key.subject)
    (log : attestation.transparencyLogId = logId)
    (entry : attestation.transparencyEntryDigest = entryDigest) :
    verifyEd25519 crypto policy attestation revision digest publisher registry timestamp = .ok evidence ↔
      (checkAuthority policy key.authority attestation publisher registry timestamp = .ok () ∧
        policy.Certifies key ∧ policy.Logged logId entryDigest) ∧
      evidence = signedEvidence policy revision digest publisher registry attestation := by
  have read : unb64 attestation.signature = some (sign (publicDomain ++ attestation.payload)) := by
    rw [signed, unb64_b64]
  have written : writePayload attestation.toStatement = .ok attestation.payload :=
    writePayload_iff.mpr ⟨printable, rfl⟩
  simp only [verifyEd25519, bind_eq_ok, exists_unit, raiseIf_eq_ok, pinned, installed, read, written,
    pair, pure_eq_ok, verifyCertificateIdentity_iff issuer subject, verifyTransparency_iff log entry]
  constructor
  · rintro ⟨checked, certified, logged, _, rfl⟩
    exact ⟨⟨checked, certified, logged⟩, rfl⟩
  · rintro ⟨⟨checked, certified, logged⟩, rfl⟩
    exact ⟨checked, certified, logged, Bool.true_eq_false.mp, rfl⟩

/-- What an attestation that was made with an HMAC key says. -/
theorem of_createLocal {key : TrustedHmacKey} (done : createLocalHmacAttestation crypto identity.revision
    (artifactDigest crypto artifact) key issuedAt expiresAt = .ok attestation) :
    attestation.toStatement.About crypto identity artifact key.publisher key.registry ∧
      (attestation.keyId = key.keyId ∧ attestation.algorithm = hmacSha256 ∧
        attestation.issuedAt = issuedAt ∧ attestation.expiresAt = expiresAt) ∧
      (Json.obj attestation.fields).printable = true ∧
      attestation.signature = hex (crypto.hmac key.secret (localDomain ++ attestation.payload)) := by
  simp only [createLocalHmacAttestation, bind_eq_ok, exists_unit, raiseIf_eq_ok, not_or, not_le,
    pure_eq_ok] at done
  obtain ⟨_, lasting, payload, written, rfl⟩ := done
  obtain ⟨printable, rfl⟩ := writePayload_iff.mp written
  have filled : key.algorithm ≠ "" := by
    rw [key.algorithm_eq]
    decide
  exact ⟨⟨rfl, rfl, ⟨rfl, rfl⟩, ⟨key.named.2.1, key.named.2.2, key.named.1, filled⟩, lasting⟩,
    ⟨rfl, key.algorithm_eq, rfl, rfl⟩, printable, rfl⟩

/-- What an attestation that was made with a private key says. -/
theorem of_createEd25519 {key : TrustedEd25519Key} {sign : Bytes → Bytes} {logId entryDigest : Option String}
    (done : createEd25519Attestation identity.revision (artifactDigest crypto artifact) key sign issuedAt
      expiresAt logId entryDigest = .ok attestation) :
    attestation.toStatement.About crypto identity artifact key.publisher key.registry ∧
      (attestation.keyId = key.keyId ∧ attestation.algorithm = ed25519 ∧
        attestation.issuedAt = issuedAt ∧ attestation.expiresAt = expiresAt) ∧
      (attestation.certificateIssuer = key.issuer ∧ attestation.certificateSubject = key.subject) ∧
      (attestation.transparencyLogId = logId ∧ attestation.transparencyEntryDigest = entryDigest) ∧
      (Json.obj attestation.fields).printable = true ∧
      attestation.signature = b64 (sign (publicDomain ++ attestation.payload)) := by
  simp only [createEd25519Attestation, bind_eq_ok, exists_unit, raiseIf_eq_ok, not_le, pure_eq_ok] at done
  obtain ⟨lasting, payload, written, rfl⟩ := done
  obtain ⟨printable, rfl⟩ := writePayload_iff.mp written
  have filled : ed25519 ≠ "" := by decide
  exact ⟨⟨rfl, rfl, ⟨rfl, rfl⟩, ⟨key.named.2.1, key.named.2.2, key.named.1, filled⟩, lasting⟩,
    ⟨rfl, rfl, rfl, rfl⟩, ⟨rfl, rfl⟩, ⟨rfl, rfl⟩, printable, rfl⟩

/-- **What is created is verified.** An attestation that was made with a pinned key is accepted exactly
where the policy trusts the key and what it stands for, at the times at which it counts. -/
theorem verify_created {authority : Authority} {further : Prop}
    (created : Created crypto policy identity.revision (artifactDigest crypto artifact) issuedAt expiresAt
      authority further attestation) (timestamp clock : Int) (evidence : TrustEvidence) :
    verify crypto policy identity artifact authority.publisher authority.registry (some attestation) false
        (some timestamp) clock = .ok evidence ↔
      (identity.digest = artifactDigest crypto artifact ∧ policy.Trusts authority ∧ further) ∧
      authority.Open issuedAt expiresAt timestamp ∧
      evidence = signedEvidence policy identity.revision (artifactDigest crypto artifact) authority.publisher
        authority.registry attestation := by
  cases created with
  | @hmac key attestation pinned done sized =>
      obtain ⟨about, ⟨keyId, algorithm, issued, expires⟩, printable, signed⟩ := of_createLocal done
      rw [← keyId] at pinned
      have other : attestation.algorithm ≠ ed25519 := by
        rw [algorithm]
        decide
      refine (verify_about sized about).trans ?_
      rw [if_neg other, verifyHmac_created pinned algorithm printable signed, checkAuthority_iff, issued,
        expires]
      constructor
      · rintro ⟨⟨digest, published, registered, publishing⟩, ⟨_, ⟨revoked, keyed, _⟩, opened⟩, same⟩
        exact ⟨⟨digest, ⟨published, registered, publishing, revoked, keyed⟩, trivial⟩, opened, same⟩
      · rintro ⟨⟨digest, trusts, _⟩, opened, same⟩
        exact ⟨⟨digest, trusts.publisher, trusts.registry, trusts.publishing⟩,
          ⟨⟨rfl, rfl⟩, ⟨trusts.key.1, trusts.key.2, trusts.publishing⟩, opened⟩, same⟩
  | @ed25519 key sign verifies logId entryDigest attestation pinned installed pair done sized =>
      obtain ⟨about, ⟨keyId, algorithm, issued, expires⟩, ⟨issuer, subject⟩, ⟨log, entry⟩, printable,
        signed⟩ := of_createEd25519 done
      rw [← keyId] at pinned
      refine (verify_about sized about).trans ?_
      rw [if_pos algorithm, verifyEd25519_created pinned installed pair printable signed issuer subject log
        entry, checkAuthority_iff, issued, expires]
      constructor
      · rintro ⟨⟨digest, published, registered, publishing⟩, ⟨⟨_, ⟨revoked, keyed, _⟩, opened⟩, further⟩, same⟩
        exact ⟨⟨digest, ⟨published, registered, publishing, revoked, keyed⟩, further⟩, opened, same⟩
      · rintro ⟨⟨digest, trusts, further⟩, opened, same⟩
        exact ⟨⟨digest, trusts.publisher, trusts.registry, trusts.publishing⟩,
          ⟨⟨⟨rfl, rfl⟩, ⟨trusts.key.1, trusts.key.2, trusts.publishing⟩, opened⟩, further⟩, same⟩

theorem created_report : Created localCryptography localPolicy report.revision
    (artifactDigest localCryptography []) 1000060 1003600 releaseKey.authority True reportAttestation := by
  refine .hmac rfl ?_ (by decide)
  have digest : artifactDigest localCryptography [] = report.digest := by decide +kernel
  have printable : (Json.obj reportAttestation.fields).printable = true := by decide +kernel
  have signature : hex ((fromHex reportAttestation.signature).getD []) = reportAttestation.signature := by
    decide +kernel
  have given : report.revision ≠ "" ∧ report.digest ≠ "" := by decide +kernel
  rw [digest]
  simp only [createLocalHmacAttestation, bind_eq_ok, exists_unit, raiseIf_eq_ok, not_or, not_le, pure_eq_ok]
  refine ⟨given, by decide, _, writePayload_iff.mpr ⟨printable, rfl⟩, ?_⟩
  have signed : hex (localCryptography.hmac releaseKey.secret (localDomain ++ reportAttestation.payload)) =
      reportAttestation.signature := by
    rw [hmac_localCryptography ⟨rfl, rfl⟩, signature]
  exact congrArg (ArtifactAttestation.mk reportAttestation.toStatement) signed

theorem verify_created_report :
    verify localCryptography localPolicy report [] "acme" "local" (some reportAttestation) false
        (some 1000100) 0 =
      .ok (signedEvidence localPolicy report.revision (artifactDigest localCryptography []) "acme" "local"
        reportAttestation) := by
  refine (verify_created created_report 1000100 0 _).mpr ⟨⟨by decide +kernel, ?_, trivial⟩, ?_, rfl⟩
  · constructor <;> decide +kernel
  · constructor <;> decide +kernel

end CapabilityHub.Trust
