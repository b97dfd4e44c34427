import CapabilityHub.Trust.Attestation

/-! # Soundness of attestations

Evidence of a signature is returned only where the holder of the pinned key has signed the statement, and
the statement is one about this capability, this artifact, this publisher and this registry
(`CapabilityHub.Trust.verify_sound`).
-/

namespace CapabilityHub.Trust

variable {crypto : Cryptography} {policy : SupplyChainPolicy} {identity : CapabilityIdentity}
  {artifact : Bytes} {publisher registry : String} {attestation : ArtifactAttestation}
  {evidence : TrustEvidence} {timestamp : Int}

/-- One that signs statements. -/
inductive Signer where
  | hmac (secret : Bytes)
  | ed25519 (publicKey : Bytes)

/-- What a signer signs of a payload. -/
def Signer.message : Signer → Bytes → Bytes
  | .hmac _, payload => localDomain ++ payload
  | .ed25519 _, payload => publicDomain ++ payload

/-- A signature that verifies for a message. -/
def Valid (crypto : Cryptography) (signature : String) : Signer → Bytes → Prop
  | .hmac secret, message => fromHex signature = some (crypto.hmac secret message)
  | .ed25519 publicKey, message => ∃ verifies ∈ crypto.ed25519Verify, ∃ bytes ∈ unb64 signature,
      verifies publicKey bytes message = true

/-- The signer whose key the policy maps to an identifier under an algorithm. -/
def SupplyChainPolicy.signer? (policy : SupplyChainPolicy) (algorithm keyId : String) :
    Option (Signer × Authority) :=
  if algorithm = ed25519 then
    (policy.ed25519Keys.get? keyId).map fun key => (.ed25519 key.publicKey, key.authority)
  else if algorithm = hmacSha256 then
    (policy.keys.get? keyId).map fun key => (.hmac key.secret, key.authority)
  else none

/-- The signatures that are presented are not forged: one that verifies for a message under a pinned key is
there because the holder of that key has signed the message, as the payload of a statement. -/
def Unforgeable (crypto : Cryptography) (policy : SupplyChainPolicy) (presented : String → Prop)
    (signed : Signer → Statement → Prop) : Prop :=
  ∀ algorithm keyId signer authority, policy.signer? algorithm keyId = some (signer, authority) →
    ∀ message signature, presented signature → Valid crypto signature signer message →
      ∃ statement, signed signer statement ∧ message = signer.message statement.payload

/-! ## Payloads -/

theorem optionalText_sorted (given : Option String) : (optionalText given).sorted = optionalText given := by
  cases given <;> rfl

theorem optionalText_injective : Function.Injective optionalText := by
  rintro (_ | first) (_ | second) same
  · rfl
  · cases same
  · cases same
  · rw [Json.str.inj same]

theorem nodup_fields (statement : Statement) : (statement.fields.map Prod.fst).Nodup := by
  simp only [Statement.fields, List.map_cons, List.map_nil]
  decide

theorem distinct_fields (statement : Statement) : (Json.obj statement.fields).Distinct := by
  have optional (given : Option String) : (optionalText given).Distinct := by
    cases given <;> trivial
  rw [Json.Distinct, distinctFields_iff]
  refine ⟨nodup_fields statement, ?_⟩
  simp only [Statement.fields, List.forall_mem_cons, List.not_mem_nil, false_implies, implies_true,
    and_true]
  exact ⟨trivial, trivial, optional _, optional _, trivial, trivial, trivial, trivial, trivial, trivial,
    optional _, optional _, trivial⟩

/-- The payload tells all fields apart. -/
theorem payload_injective : Function.Injective Statement.payload := by
  intro first second same
  have equal := sorted_of_canonicalJson (distinct_fields first) (distinct_fields second)
    (References.encodeUtf8_injective same)
  rw [Json.sorted_obj, Json.sorted_obj] at equal
  have each (key : String) :=
    sortedMembers_inj (nodup_fields first) (nodup_fields second) (Json.obj.inj equal) key
  have text {key text text' : String} (found : mappingGet first.fields key = some (.str text))
      (found' : mappingGet second.fields key = some (.str text')) : text = text' := by
    have same := each key
    rw [found, found'] at same
    exact Json.str.inj (Option.some.inj same)
  have number {key : String} {value value' : Int} (found : mappingGet first.fields key = some (.int value))
      (found' : mappingGet second.fields key = some (.int value')) : value = value' := by
    have same := each key
    rw [found, found'] at same
    exact Json.int.inj (Option.some.inj same)
  have optional {key : String} {given given' : Option String}
      (found : mappingGet first.fields key = some (optionalText given))
      (found' : mappingGet second.fields key = some (optionalText given')) : given = given' := by
    have same := each key
    rw [found, found', Option.map_some, Option.map_some, optionalText_sorted, optionalText_sorted] at same
    exact optionalText_injective (Option.some.inj same)
  have algorithm := @text "algorithm" _ _ rfl rfl
  have digest := @text "artifact_digest" _ _ rfl rfl
  have issuer := @optional "certificate_issuer" _ _ rfl rfl
  have subject := @optional "certificate_subject" _ _ rfl rfl
  have expires := @number "expires_at" _ _ rfl rfl
  have issued := @number "issued_at" _ _ rfl rfl
  have key := @text "key_id" _ _ rfl rfl
  have publisher := @text "publisher" _ _ rfl rfl
  have registry := @text "registry" _ _ rfl rfl
  have revision := @text "revision" _ _ rfl rfl
  have entry := @optional "transparency_entry_digest" _ _ rfl rfl
  have log := @optional "transparency_log_id" _ _ rfl rfl
  cases first
  cases second
  dsimp only at algorithm digest issuer subject expires issued key publisher registry revision entry log
  subst algorithm digest issuer subject expires issued key publisher registry revision entry log
  rfl

theorem message_injective (signer : Signer) : Function.Injective signer.message := by
  intro first second same
  cases signer with
  | hmac secret => exact List.append_cancel_left same
  | ed25519 publicKey => exact List.append_cancel_left same

theorem artifactDigest_injective (injective : Function.Injective crypto.sha256) :
    Function.Injective (artifactDigest crypto) := by
  intro first second same
  have letters := congrArg String.toList same
  rw [artifactDigest, artifactDigest, String.toList_append, String.toList_append] at letters
  exact injective (hex_injective (String.toList_inj.mp (List.append_cancel_left letters)))

/-! ## Evidence -/

/-- What a signed attestation has to be for the evidence that is returned. -/
structure Attested (crypto : Cryptography) (policy : SupplyChainPolicy) (signed : Signer → Statement → Prop)
    (identity : CapabilityIdentity) (artifact : Bytes) (publisher registry : String) (timestamp : Int)
    (attestation : ArtifactAttestation) : Prop where
  signer : ∃ signer authority,
    policy.signer? attestation.algorithm attestation.keyId = some (signer, authority) ∧
    signed signer attestation.toStatement ∧
    authority.publisher = publisher ∧ authority.registry = registry ∧ authority.revoked = false ∧
    authority.notBefore ≤ attestation.issuedAt ∧
    ∀ moment ∈ authority.expiresAt, attestation.issuedAt < moment ∧ timestamp < moment
  revision : attestation.revision = identity.revision
  digest : attestation.artifactDigest = artifactDigest crypto artifact
  artifacts : ∀ other, attestation.artifactDigest = artifactDigest crypto other → other = artifact
  published : attestation.publisher = publisher
  registered : attestation.registry = registry
  key : attestation.keyId ∉ policy.revokedKeyIds
  unrevoked : publisher ∉ policy.revokedPublishers
  unexpired : timestamp < attestation.expiresAt
  issued : attestation.issuedAt ≤ timestamp + 60

/-- A signature that verifies for the payload of an attestation is one of its statement. -/
theorem signed_of_valid {presented : String → Prop} {signed : Signer → Statement → Prop} {signer : Signer}
    {authority : Authority} (unforgeable : Unforgeable crypto policy presented signed)
    (mapped : policy.signer? attestation.algorithm attestation.keyId = some (signer, authority))
    (given : presented attestation.signature)
    (valid : Valid crypto attestation.signature signer (signer.message attestation.payload)) :
    signed signer attestation.toStatement := by
  obtain ⟨statement, signs, same⟩ := unforgeable _ _ _ _ mapped _ _ given valid
  have equal := payload_injective (message_injective signer same)
  rwa [equal]

theorem writePayload_eq_ok {statement : Statement} {payload : Bytes}
    (done : writePayload statement = .ok payload) : statement.payload = payload := by
  simp only [writePayload, bind_eq_ok, exists_unit, pure_eq_ok] at done
  exact done.2

/-- What the checks of a key leave. -/
theorem checkAuthority_eq_ok {authority : Authority}
    (passed : checkAuthority policy authority attestation publisher registry timestamp = .ok ()) :
    (authority.publisher = publisher ∧ authority.registry = registry ∧ authority.revoked = false ∧
      authority.notBefore ≤ attestation.issuedAt ∧
      ∀ moment ∈ authority.expiresAt, attestation.issuedAt < moment ∧ timestamp < moment) ∧
    authority.keyId ∉ policy.revokedKeyIds ∧ publisher ∉ policy.revokedPublishers ∧
    timestamp < attestation.expiresAt ∧ attestation.issuedAt ≤ timestamp + 60 := by
  simp only [checkAuthority, bind_eq_ok, exists_unit, raiseIf_eq_ok, not_or, not_not, not_le, not_lt,
    not_exists, not_and, Bool.not_eq_true] at passed
  obtain ⟨⟨publisher, registry⟩, ⟨revoked, key, publishers⟩, expired, early, window, moments⟩ := passed
  exact ⟨⟨publisher, registry, revoked, window, moments⟩, key, publishers, expired, early⟩

theorem verifyEd25519_sound {presented : String → Prop} {signed : Signer → Statement → Prop}
    {revision digest : String} (unforgeable : Unforgeable crypto policy presented signed)
    (given : presented attestation.signature) (named : attestation.algorithm = ed25519)
    (done : verifyEd25519 crypto policy attestation revision digest publisher registry timestamp =
      .ok evidence) :
    ∃ signer authority,
      policy.signer? attestation.algorithm attestation.keyId = some (signer, authority) ∧
      signed signer attestation.toStatement ∧ authority.keyId = attestation.keyId ∧
      checkAuthority policy authority attestation publisher registry timestamp = .ok () ∧
      evidence = signedEvidence policy revision digest publisher registry attestation := by
  rw [verifyEd25519] at done
  cases found : policy.ed25519Keys.get? attestation.keyId with
  | none =>
      rw [found] at done
      cases done
  | some key =>
      simp only [found, bind_eq_ok, exists_unit] at done
      obtain ⟨checked, _, _, done⟩ := done
      cases installed : crypto.ed25519Verify with
      | none =>
          rw [installed] at done
          cases done
      | some verifies =>
          simp only [installed] at done
          split at done
          next signature payload decoded written =>
            simp only [bind_eq_ok, exists_unit, raiseIf_eq_ok, pure_eq_ok, Bool.not_eq_false] at done
            obtain ⟨accepted, rfl⟩ := done
            have mapped : policy.signer? attestation.algorithm attestation.keyId =
                some (.ed25519 key.publicKey, key.authority) := by
              rw [SupplyChainPolicy.signer?, if_pos named, found]
              rfl
            refine ⟨_, _, mapped, ?_, policy.ed25519Keys_named _ key found, checked, rfl⟩
            apply signed_of_valid unforgeable mapped given
            refine ⟨verifies, installed, signature, decoded, ?_⟩
            rw [writePayload_eq_ok written]
            exact accepted
          · cases done

theorem verifyHmac_sound {presented : String → Prop} {signed : Signer → Statement → Prop}
    {revision digest : String} (unforgeable : Unforgeable crypto policy presented signed)
    (given : presented attestation.signature)
    (done : verifyHmac crypto policy attestation revision digest publisher registry timestamp =
      .ok evidence) :
    ∃ signer authority,
      policy.signer? attestation.algorithm attestation.keyId = some (signer, authority) ∧
      signed signer attestation.toStatement ∧ authority.keyId = attestation.keyId ∧
      checkAuthority policy authority attestation publisher registry timestamp = .ok () ∧
      evidence = signedEvidence policy revision digest publisher registry attestation := by
  simp only [verifyHmac, bind_eq_ok, exists_unit, raiseIf_eq_ok, not_not] at done
  obtain ⟨named, done⟩ := done
  cases found : policy.keys.get? attestation.keyId with
  | none =>
      rw [found] at done
      cases done
  | some key =>
      simp only [found, bind_eq_ok, exists_unit, raiseIf_eq_ok] at done
      obtain ⟨_, checked, done⟩ := done
      cases decoded : fromHex attestation.signature with
      | none =>
          rw [decoded] at done
          cases done
      | some supplied =>
          simp only [decoded, bind_eq_ok, exists_unit, raiseIf_eq_ok, pure_eq_ok, not_not] at done
          obtain ⟨payload, written, accepted, rfl⟩ := done
          have other : hmacSha256 ≠ ed25519 := by decide
          have mapped : policy.signer? attestation.algorithm attestation.keyId =
              some (.hmac key.secret, key.authority) := by
            rw [SupplyChainPolicy.signer?, named, if_neg other, if_pos rfl, found]
            rfl
          refine ⟨_, _, mapped, ?_, policy.keys_named _ key found, checked, rfl⟩
          apply signed_of_valid unforgeable mapped given
          rw [Valid, decoded, accepted, writePayload_eq_ok written]
          rfl

/-- **Soundness.** Signed evidence is of a statement that the holder of the pinned key has signed about this
capability, artifact, publisher and registry; unsigned evidence is given in development only. -/
theorem verify_sound {presented : String → Prop} {signed : Signer → Statement → Prop}
    (injective : Function.Injective crypto.sha256) (unforgeable : Unforgeable crypto policy presented signed)
    {given : Option ArtifactAttestation} (shown : ∀ attestation ∈ given, presented attestation.signature)
    {bundle : Bool} {now : Option Int} {clock : Int}
    (done : verify crypto policy identity artifact publisher registry given bundle now clock =
      .ok evidence) :
    (evidence.signed = true → ∃ attestation ∈ given,
      Attested crypto policy signed identity artifact publisher registry (now.getD clock) attestation ∧
      evidence = signedEvidence policy identity.revision (artifactDigest crypto artifact) publisher registry
        attestation) ∧
    (evidence.signed = false → given = none ∧ policy.environment = .development) := by
  simp only [verify, bind_eq_ok, exists_unit, raiseIf_eq_ok, Bool.not_eq_false] at done
  obtain ⟨_, same, matched, rfl, _, done⟩ := done
  cases given with
  | none =>
      simp only [bind_eq_ok, exists_unit, raiseIf_eq_ok, pure_eq_ok, not_or] at done
      obtain ⟨⟨development, _⟩, rfl⟩ := done
      refine ⟨fun signed => absurd signed Bool.false_ne_true, fun _ => ⟨rfl, ?_⟩⟩
      cases environment : policy.environment with
      | development => rfl
      | production => exact absurd environment development
  | some attestation =>
      simp only [bind_eq_ok, exists_unit] at done
      obtain ⟨bound, done⟩ := done
      have presented := shown attestation rfl
      have sound : ∃ signer authority,
          policy.signer? attestation.algorithm attestation.keyId = some (signer, authority) ∧
          signed signer attestation.toStatement ∧ authority.keyId = attestation.keyId ∧
          checkAuthority policy authority attestation publisher registry (now.getD clock) = .ok () ∧
          evidence = signedEvidence policy identity.revision (artifactDigest crypto artifact) publisher
            registry attestation := by
        by_cases asymmetric : attestation.algorithm = ed25519
        · rw [if_pos asymmetric] at done
          exact verifyEd25519_sound unforgeable presented asymmetric done
        · rw [if_neg asymmetric] at done
          exact verifyHmac_sound unforgeable presented done
      obtain ⟨signer, authority, mapped, signs, keyed, checked, rfl⟩ := sound
      obtain ⟨window, key, publishers, expired, early⟩ := checkAuthority_eq_ok checked
      simp only [verifyAttestationBindings, bind_eq_ok, exists_unit, raiseIf_eq_ok, not_not, not_or] at bound
      obtain ⟨_, revision, same, digests, ⟨equal, published, registered⟩, _⟩ := bound
      rw [Bool.not_eq_false] at equal
      subst equal
      have digest := References.compareDigest_eq_ok digests
      refine ⟨fun _ => ⟨attestation, rfl, ?_, rfl⟩, fun unsigned => absurd unsigned.symm Bool.false_ne_true⟩
      exact {
        signer := ⟨signer, authority, mapped, signs, window⟩
        revision := revision
        digest := digest
        artifacts := fun other same =>
          artifactDigest_injective injective (same.symm.trans digest)
        published := published
        registered := registered
        key := keyed ▸ key
        unrevoked := publishers
        unexpired := expired
        issued := early }

/-! ## A local attestation

Of the empty artifact, signed with the shared secret one minute ahead of the clock of the verifier.
-/

/-- The SHA-256 digest of no bytes. -/
def emptyDigest : Bytes := [227, 176, 196, 66, 152, 252, 28, 20, 154, 251, 244, 200, 153, 111, 185, 36,
  39, 174, 65, 228, 100, 155, 147, 76, 164, 149, 153, 27, 120, 82, 184, 85]

def report : CapabilityIdentity where
  capabilityNamespace := "acme"
  name := "report"
  version := "1.0.0"
  digest := "sha256:e3b0c44298fc1c149afbf4c8996fb92427ae41e4649b934ca495991b7852b855"

def releaseKey : TrustedHmacKey where
  keyId := "release"
  publisher := "acme"
  registry := "local"
  secret := [115, 101, 99, 114, 101, 116]
  named := by decide
  secret_ne := by decide
  algorithm_eq := rfl
  window := by
    intro moment given
    cases given

def localPolicy : SupplyChainPolicy where
  environment := .production
  trustedPublishers := ["acme"]
  trustedRegistries := ["local"]
  keys := Dict.set ∅ "release" releaseKey
  trusted := by decide
  keys_named := by
    intro keyId key found
    rw [Dict.get?_set] at found
    split at found
    next same =>
      cases found
      exact same.symm
    next => cases found
  ed25519Keys_named := by
    intro keyId key found
    cases found
  apart := by
    intro keyId _ found
    cases found

def reportAttestation : ArtifactAttestation where
  revision := report.revision
  artifactDigest := report.digest
  publisher := "acme"
  registry := "local"
  keyId := "release"
  algorithm := hmacSha256
  issuedAt := 1000060
  expiresAt := 1003600
  signature := "3a30c72981f9b9d4d142640e0a161689d9fd82a19203fa1d5460ff86d7ea35de"

/-- The digests of the empty artifact and of this statement. -/
def localCryptography : Cryptography where
  sha256 bytes := if bytes = [] then emptyDigest else bytes ++ List.replicate 32 0
  hmac secret message :=
    if secret = releaseKey.secret ∧ message = localDomain ++ reportAttestation.payload then
      (fromHex reportAttestation.signature).getD []
    else []
  ed25519Verify := none

/-- What was signed. -/
def Released (signer : Signer) (statement : Statement) : Prop :=
  signer = .hmac releaseKey.secret ∧ statement = reportAttestation.toStatement

theorem injective_localCryptography : Function.Injective localCryptography.sha256 := by
  intro first second same
  simp only [localCryptography] at same
  split_ifs at same with none none' none'
  · rw [none, none']
  · have lengths := congrArg List.length same
    rw [List.length_append, List.length_replicate] at lengths
    exact absurd (List.length_eq_zero_iff.mp (by simpa [emptyDigest] using lengths)) none'
  · have lengths := congrArg List.length same
    rw [List.length_append, List.length_replicate] at lengths
    exact absurd (List.length_eq_zero_iff.mp (by simpa [emptyDigest] using lengths)) none
  · exact List.append_cancel_right same

theorem hmac_localCryptography {secret message : Bytes}
    (same : secret = releaseKey.secret ∧ message = localDomain ++ reportAttestation.payload) :
    localCryptography.hmac secret message = (fromHex reportAttestation.signature).getD [] := if_pos same

theorem unforgeable_localCryptography :
    Unforgeable localCryptography localPolicy (· = reportAttestation.signature) Released := by
  intro algorithm keyId signer authority mapped message signature presented valid
  cases signer with
  | hmac secret =>
      have read : fromHex signature ≠ some [] := by
        rw [presented]
        decide +kernel
      by_cases same : secret = releaseKey.secret ∧ message = localDomain ++ reportAttestation.payload
      · exact ⟨reportAttestation.toStatement, ⟨by rw [same.1], rfl⟩, same.2⟩
      · exact absurd (valid.trans (congrArg some (if_neg same))) read
  | ed25519 publicKey =>
      obtain ⟨verifies, installed, _⟩ := valid
      cases installed

theorem verify_report :
    verify localCryptography localPolicy report [] "acme" "local" (some reportAttestation) false
      (some 1000000) 0 =
    .ok (signedEvidence localPolicy report.revision report.digest "acme" "local" reportAttestation) := by
  have digest : artifactDigest localCryptography [] = report.digest := by decide +kernel
  have same : compareDigest report.digest report.digest = .ok true := by decide +kernel
  have source : verifySourcePolicy localPolicy "acme" "local" = .ok () := by decide +kernel
  have bound : verifyAttestationBindings reportAttestation report.revision report.digest "acme" "local" =
      .ok () := by decide +kernel
  have checked : checkAuthority localPolicy releaseKey.authority reportAttestation "acme" "local" 1000000 =
      .ok () := by decide +kernel
  have printable : (Json.obj reportAttestation.fields).printable = true := by decide +kernel
  have written : writePayload reportAttestation.toStatement = .ok reportAttestation.payload := by
    rw [writePayload, printable]
    rfl
  have signed : localCryptography.hmac releaseKey.secret (localDomain ++ reportAttestation.payload) =
      (fromHex reportAttestation.signature).getD [] := hmac_localCryptography ⟨rfl, rfl⟩
  have read : fromHex reportAttestation.signature =
      some ((fromHex reportAttestation.signature).getD []) := by decide +kernel
  have found : localPolicy.keys.get? reportAttestation.keyId = some releaseKey := rfl
  have other : ¬reportAttestation.algorithm = ed25519 := by decide
  have accepted : verifyHmac localCryptography localPolicy reportAttestation report.revision report.digest
      "acme" "local" 1000000 =
      .ok (signedEvidence localPolicy report.revision report.digest "acme" "local" reportAttestation) := by
    rw [verifyHmac, found, read]
    simp only [bind_eq_ok, exists_unit, raiseIf_eq_ok, pure_eq_ok, not_not]
    exact ⟨rfl, rfl, checked, _, written, signed.symm, trivial⟩
  simp only [verify, digest, same, source, bound, Option.getD_some, if_neg other, accepted]
  rfl

theorem verify_report_sound :
    (∃ attestation ∈ some reportAttestation,
      Attested localCryptography localPolicy Released report [] "acme" "local" 1000000 attestation ∧
      signedEvidence localPolicy report.revision report.digest "acme" "local" reportAttestation =
        signedEvidence localPolicy report.revision (artifactDigest localCryptography []) "acme" "local"
          attestation) :=
  (verify_sound injective_localCryptography unforgeable_localCryptography
    (fun _ given => congrArg ArtifactAttestation.signature (Option.some.inj given).symm)
    verify_report).1 rfl

/-- **Evidence of the future.** A statement counts up to one minute before it was made. -/
theorem not_verify_issued :
    ¬∀ (crypto : Cryptography) (policy : SupplyChainPolicy) (presented : String → Prop)
      (signed : Signer → Statement → Prop) (identity : CapabilityIdentity) (artifact : Bytes)
      (publisher registry : String) (attestation : ArtifactAttestation) (now : Int)
      (evidence : TrustEvidence), Function.Injective crypto.sha256 →
      Unforgeable crypto policy presented signed → presented attestation.signature →
      verify crypto policy identity artifact publisher registry (some attestation) false (some now) 0 =
        .ok evidence →
      evidence.signed = true → attestation.issuedAt ≤ now := by
  intro inside
  have issued := inside _ _ _ _ _ _ _ _ _ _ _ injective_localCryptography unforgeable_localCryptography rfl
    verify_report rfl
  exact absurd issued (by decide)

end CapabilityHub.Trust
