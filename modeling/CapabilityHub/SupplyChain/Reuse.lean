import CapabilityHub.SupplyChain.Consistency
import CapabilityHub.SupplyChain.Observer
import Mathlib.Data.Set.Basic

/-! # Verifying a bundle again

Verifications and observations of honest append-only logs in any order, over one
observer. What an observer records of a log is always a checkpoint the log issued
(`CapabilityHub.SupplyChain.recorded_run`). A bundle that was accepted once is
accepted again exactly when the record left for its log is not newer than its own
checkpoint (`CapabilityHub.SupplyChain.verify_again_iff`): the verification
observes the checkpoint of the bundle before anything else, and an observer refuses
what is older than its record.
-/

namespace CapabilityHub.SupplyChain

open Merkle

variable {sha256 : Bytes → Digest} (crypto : Cryptography)

variable (sha256) in
/-- **An honest log.** The entries it appended and what its signed checkpoints state:
the roots of prefixes of the entries, ordered in size and time alike. -/
structure AppendOnlyLog where
  entries : List Bytes
  issued : Set Observation
  issued_prefix : ∀ observation ∈ issued,
    0 ≤ observation.treeSize ∧ observation.treeSize ≤ entries.length ∧
      observation.rootHash =
        ((rfc6962 sha256).treeHash (entries.take observation.treeSize.toNat)).hex
  issued_ordered : ∀ first ∈ issued, ∀ second ∈ issued,
    first.treeSize ≤ second.treeSize ∧ first.timestamp ≤ second.timestamp ∨
      second.treeSize ≤ first.treeSize ∧ second.timestamp ≤ first.timestamp

theorem compareDigest_self {text : String} (ascii : text.toList.all (·.toNat < 128) = true) :
    compareDigest text text = .ok true := by
  rw [compareDigest, if_pos ⟨ascii, ascii⟩]
  simp

theorem Digest.hex_ascii (digest : Digest) : digest.hex.toList.all (·.toNat < 128) = true :=
  List.all_eq_true.mpr fun character member =>
    decide_eq_true (CapabilityHub.hex_ascii digest.bytes character member)

namespace AppendOnlyLog

variable {log : AppendOnlyLog sha256} {first second : Observation}

theorem rootHash_eq (member : first ∈ log.issued) (other : second ∈ log.issued)
    (same : first.treeSize = second.treeSize) : first.rootHash = second.rootHash := by
  rw [(log.issued_prefix first member).2.2, (log.issued_prefix second other).2.2, same]

theorem compareDigest_rootHash (member : first ∈ log.issued) :
    compareDigest first.rootHash first.rootHash = .ok true := by
  rw [(log.issued_prefix first member).2.2]
  exact compareDigest_self (Digest.hex_ascii _)

theorem sameRoot_rootHash (observer : CheckpointObservation) (member : first ∈ log.issued) :
    observer.sameRoot first.rootHash first.rootHash = .ok true := by
  cases observer with
  | checkpointObserver => simp [CheckpointObservation.sameRoot]
  | sqliteCheckpointObserver => exact compareDigest_rootHash member

/-- An observer accepts a checkpoint of an honest log after one that is not newer. -/
theorem compare_eq_ok_iff {observer : CheckpointObservation} (member : first ∈ log.issued)
    (other : second ∈ log.issued) :
    observer.compare first (some second) = .ok () ↔
      second.treeSize ≤ first.treeSize ∧ second.timestamp ≤ first.timestamp := by
  rw [CheckpointObservation.compare_eq_ok_iff]
  constructor
  · exact fun ⟨size, time, _⟩ => ⟨size, time⟩
  · rintro ⟨size, time⟩
    refine ⟨size, time, fun same => ?_⟩
    rw [← rootHash_eq member other same]
    exact sameRoot_rootHash observer member

end AppendOnlyLog

/-! ## Runs -/

/-- A call of `verify` on a verifier that shares the observer. -/
structure Call where
  policy : BundleTrustPolicy
  environment : Environment
  arguments : VerifyArguments

variable (sha256) in
def Call.verify (observer : CheckpointObservation) (call : Call) (seen : Seen) :
    Except VerifyError TrustEvidence × Seen :=
  SupplyChain.verify sha256 crypto ⟨call.policy, some observer, fun _ => rfl⟩ call.environment
    call.arguments seen

/-- What reaches the observer between two moments. -/
inductive Event where
  | observe (checkpoint : SignedCheckpoint)
  | verify (call : Call)

variable (sha256) in
def Event.apply (observer : CheckpointObservation) (event : Event) (seen : Seen) : Seen :=
  match event with
  | observe checkpoint => (observer.observe checkpoint seen).2
  | verify call => (call.verify sha256 crypto observer seen).2

@[simp] theorem Event.apply_verify (observer : CheckpointObservation) (call : Call)
    (seen : Seen) :
    (Event.verify call).apply sha256 crypto observer seen =
      (call.verify sha256 crypto observer seen).2 := rfl

variable (sha256) in
def run (observer : CheckpointObservation) (events : List Event) (seen : Seen) : Seen :=
  events.foldl (fun seen event => event.apply sha256 crypto observer seen) seen

@[simp] theorem run_nil (observer : CheckpointObservation) (seen : Seen) :
    run sha256 crypto observer [] seen = seen := rfl

@[simp] theorem run_cons (observer : CheckpointObservation) (event : Event) (events : List Event)
    (seen : Seen) :
    run sha256 crypto observer (event :: events) seen =
      run sha256 crypto observer events (event.apply sha256 crypto observer seen) := rfl

/-- A checkpoint signed under the key of a trusted log was issued by that log. -/
def Attested (histories : String → AppendOnlyLog sha256) (policy : BundleTrustPolicy)
    (logId : String) (checkpoint : SignedCheckpoint) : Prop :=
  ∀ log, policy.logs logId = some log →
    verifyCheckpointSignature crypto log checkpoint = .ok () →
      checkpoint.logId = logId ∧ checkpoint.current ∈ (histories logId).issued

/-- The logs whose checkpoints a call presents are honest. -/
structure Call.Honest (histories : String → AppendOnlyLog sha256) (call : Call) : Prop where
  bundled : ∀ bundle, call.arguments.bundle = some bundle →
    Attested crypto histories call.policy bundle.inclusionProof.checkpoint.logId
      bundle.inclusionProof.checkpoint
  shown : ∀ fetch logId online, call.environment.onlineCheckpoint = some fetch →
    fetch logId = some online → Attested crypto histories call.policy logId online.checkpoint

def Event.Honest (histories : String → AppendOnlyLog sha256) : Event → Prop
  | observe checkpoint => checkpoint.current ∈ (histories checkpoint.logId).issued
  | verify call => call.Honest crypto histories

/-- Every record is a checkpoint that its log issued. -/
def Recorded (histories : String → AppendOnlyLog sha256) (seen : Seen) : Prop :=
  ∀ logId observation, seen logId = some observation → observation ∈ (histories logId).issued

variable {crypto} {histories : String → AppendOnlyLog sha256} {observer : CheckpointObservation}
  {seen : Seen}

theorem recorded_observe {checkpoint : SignedCheckpoint} (recorded : Recorded histories seen)
    (issued : checkpoint.current ∈ (histories checkpoint.logId).issued) :
    Recorded histories (observer.observe checkpoint seen).2 := by
  rcases observer.observe_records checkpoint seen with kept | kept
  · rwa [kept]
  · rw [kept]
    intro logId observation found
    by_cases own : logId = checkpoint.logId
    · subst own
      rw [Function.update_self, Option.some.injEq] at found
      exact found ▸ issued
    · rw [Function.update_of_ne own] at found
      exact recorded logId observation found

theorem recorded_verify {call : Call} (recorded : Recorded histories seen)
    (honest : call.Honest crypto histories) :
    Recorded histories (call.verify sha256 crypto observer seen).2 := by
  refine verify_records recorded fun proof entry evidence authentic => ?_
  obtain ⟨bundle, given, rfl⟩ := authenticate_proof authentic
  refine verifyTransparency_records recorded ?_ ?_
  · intro log found signed seen recorded
    exact recorded_observe recorded (honest.bundled bundle given log found signed).2
  · intro log fetch online found asked answered signed seen recorded
    have attested := honest.shown fetch _ online asked answered log found signed
    exact recorded_observe recorded (attested.1 ▸ attested.2)

/-- **What an observer knows.** After any honest events the record of each log is a
checkpoint the log issued. -/
theorem recorded_run {events : List Event} (recorded : Recorded histories seen)
    (honest : ∀ event ∈ events, event.Honest crypto histories) :
    Recorded histories (run sha256 crypto observer events seen) := by
  induction events generalizing seen with
  | nil => exact recorded
  | cons event events ih =>
      refine ih ?_ fun later member => honest later (List.mem_cons_of_mem event member)
      have own := honest event List.mem_cons_self
      cases event with
      | observe checkpoint => exact recorded_observe recorded own
      | verify call => exact recorded_verify recorded own

/-! ## The same bundle again -/

variable (sha256 crypto) in
/-- What a verification asks of the checkpoint the log shows online: a valid
signature, freshness, and consistency with the checkpoint of the bundle. -/
structure ShowsOnline (policy : BundleTrustPolicy) (environment : Environment)
    (checkpoint : SignedCheckpoint) (online : OnlineCheckpoint) : Prop where
  answered : ∃ fetch, environment.onlineCheckpoint = some fetch ∧
    fetch checkpoint.logId = some online
  signed : ∀ log, policy.logs checkpoint.logId = some log →
    verifyCheckpointSignature crypto log online.checkpoint = .ok ()
  not_early : online.checkpoint.timestamp ≤ environment.timestamp + 60
  fresh : environment.timestamp - online.checkpoint.timestamp ≤ policy.maxCheckpointAgeSeconds
  grown : checkpoint.treeSize ≤ online.checkpoint.treeSize
  consistent : checkpoint.treeSize < online.checkpoint.treeSize →
    verifyConsistency sha256 checkpoint.treeSize online.checkpoint.treeSize checkpoint.rootHash
      online.checkpoint.rootHash online.hashes = .ok ()

theorem ShowsOnline.checkAppendOnly {policy : BundleTrustPolicy} {environment : Environment}
    {checkpoint : SignedCheckpoint} {online : OnlineCheckpoint} {log : AppendOnlyLog sha256}
    (shown : ShowsOnline sha256 crypto policy environment checkpoint online)
    (issued : checkpoint.current ∈ log.issued)
    (current : online.checkpoint.current ∈ log.issued) :
    checkAppendOnly sha256 checkpoint online.checkpoint online.hashes = .ok () := by
  simp only [SupplyChain.checkAppendOnly, bind_eq_ok, exists_unit, rejectIf_eq_ok, Int.not_lt]
  refine ⟨shown.grown, ?_⟩
  by_cases same : online.checkpoint.treeSize = checkpoint.treeSize
  · have equal : online.checkpoint.rootHash = checkpoint.rootHash :=
      AppendOnlyLog.rootHash_eq current issued same
    have compared : compareDigest checkpoint.rootHash checkpoint.rootHash = .ok true :=
      AppendOnlyLog.compareDigest_rootHash issued
    simp only [if_pos same, bind_eq_ok, rejectIf_eq_ok, equal, compared]
    exact ⟨true, rfl, by simp⟩
  · rw [if_neg same, shown.consistent (by have := shown.grown; omega)]
    rfl

/-- **Reuse of an accepted bundle.** In a run of honest logs, a bundle that was
accepted once and whose checkpoint is still recent is accepted again exactly when the
observer's record of its log is not newer than the checkpoint of the bundle, in size or
time, the checkpoint shown online is not older than it, and that one can be recorded. -/
theorem verify_again_iff {policy : BundleTrustPolicy} {arguments : VerifyArguments}
    {bundle : SigstoreBundle} {first second : Environment} {before between : List Event}
    {evidence : TrustEvidence} {online : OnlineCheckpoint}
    (required : policy.requireOnlineCheckpoint = true)
    (presented : arguments.bundle = some bundle)
    (honest : ∀ event ∈ before ++ .verify ⟨policy, first, arguments⟩ :: between,
      event.Honest crypto histories)
    (honestAgain : Call.Honest crypto histories ⟨policy, second, arguments⟩)
    (accepted : (Call.verify sha256 crypto observer ⟨policy, first, arguments⟩
      (run sha256 crypto observer before fun _ => none)).1 = .ok evidence)
    (later : first.timestamp ≤ second.timestamp)
    (recent : second.timestamp - bundle.inclusionProof.checkpoint.timestamp ≤
      policy.maxCheckpointAgeSeconds)
    (shown : ShowsOnline sha256 crypto policy second bundle.inclusionProof.checkpoint online) :
    let checkpoint := bundle.inclusionProof.checkpoint
    let seen := run sha256 crypto observer
      (before ++ .verify ⟨policy, first, arguments⟩ :: between) fun _ => none
    (Call.verify sha256 crypto observer ⟨policy, second, arguments⟩ seen).1 = .ok evidence ↔
      (∀ previous, seen checkpoint.logId = some previous →
        previous.treeSize ≤ checkpoint.treeSize ∧ previous.timestamp ≤ checkpoint.timestamp) ∧
      checkpoint.timestamp ≤ online.checkpoint.timestamp ∧
      observer.Storable online.checkpoint.current := by
  intro checkpoint seen
  obtain ⟨proof, entry, log, _, _, authentic, admitted, kept, _, _⟩ :=
    (verify_eq_ok_iff rfl required).mp (Prod.ext accepted rfl)
  obtain ⟨given, same, rfl⟩ := authenticate_proof authentic
  obtain rfl : given = bundle := Option.some.inj (same.symm.trans presented)
  obtain ⟨found, _, _, _, signed, _⟩ := admitCheckpoint_eq_ok_iff.mp admitted
  obtain ⟨fetch, asked, answered⟩ := shown.answered
  -- what the log issued: the checkpoint of the bundle, the one shown online, the record
  have issued := (honestAgain.bundled given presented log found signed).2
  have onlineSigned := shown.signed log found
  obtain ⟨sameLog, current⟩ :=
    honestAgain.shown fetch checkpoint.logId online asked answered log found onlineSigned
  have recorded : Recorded histories seen := recorded_run (fun _ _ found => nomatch found) honest
  have compared : observer.compare online.checkpoint.current (some checkpoint.current) = .ok () ↔
      checkpoint.treeSize ≤ online.checkpoint.treeSize ∧
        checkpoint.timestamp ≤ online.checkpoint.timestamp :=
    AppendOnlyLog.compare_eq_ok_iff current issued
  constructor
  · intro again
    obtain ⟨_, _, log', recorded', current', authentic', _, kept', online', last⟩ :=
      (verify_eq_ok_iff rfl required).mp (Prod.ext again rfl)
    obtain ⟨rfl, rfl⟩ : given.inclusionProof = _ ∧ entry = _ := by
      simpa using authentic.symm.trans authentic'
    obtain ⟨_, fetch', online₂, asked', answered', rfl, _⟩ := admitOnline_eq_ok_iff.mp online'
    obtain rfl : fetch = fetch' := Option.some.inj (asked.symm.trans asked')
    obtain rfl : online = online₂ := Option.some.inj (answered.symm.trans answered')
    obtain ⟨notNewer, _, rfl⟩ := CheckpointObservation.record_eq_ok_iff.mp kept'
    obtain ⟨notOlder, storable, _⟩ := CheckpointObservation.record_eq_ok_iff.mp last
    rw [sameLog, Function.update_self, compared] at notOlder
    refine ⟨fun previous known => ?_, notOlder.2, storable⟩
    rw [known] at notNewer
    exact (AppendOnlyLog.compare_eq_ok_iff issued (recorded _ _ known)).mp notNewer
  · rintro ⟨notNewer, notOlder, storable⟩
    have recordable : observer.Storable checkpoint.current :=
      (CheckpointObservation.record_eq_ok_iff.mp kept).2.1
    have first : observer.record checkpoint seen =
        .ok (Function.update seen checkpoint.logId (some checkpoint.current)) := by
      refine CheckpointObservation.record_eq_ok_iff.mpr ⟨?_, recordable, rfl⟩
      cases known : seen checkpoint.logId with
      | none => rfl
      | some previous =>
          exact (AppendOnlyLog.compare_eq_ok_iff issued (recorded _ _ known)).mpr
            (notNewer previous known)
    have admittedOnline : admitOnline sha256 crypto policy log checkpoint second =
        .ok online.checkpoint :=
      admitOnline_eq_ok_iff.mpr ⟨recent, fetch, online, asked, answered, rfl, onlineSigned,
        shown.not_early, shown.fresh, shown.checkAppendOnly issued current⟩
    obtain ⟨final, last⟩ : ∃ final, observer.record online.checkpoint
        (Function.update seen checkpoint.logId (some checkpoint.current)) = .ok final := by
      refine ⟨_, CheckpointObservation.record_eq_ok_iff.mpr ⟨?_, storable, rfl⟩⟩
      rw [sameLog, Function.update_self]
      exact compared.mpr ⟨shown.grown, notOlder⟩
    exact congrArg Prod.fst ((verify_eq_ok_iff rfl required).mpr
      ⟨_, entry, log, _, _, authentic, admitCheckpoint_later later admitted, first,
        admittedOnline, last⟩ : verify _ _ _ _ _ _ = (.ok evidence, final))

/-! ## One bundle, with and without growth of the log

A self-signed leaf certificate, a bundle for the artifact `artifact` and a log that
signs a checkpoint of one entry and later one of two entries.
-/

def readHex (text : String) : Bytes := (fromHex text).getD []

def readDigest (text : String) : Digest := (decodeDigest text).getD zeroDigest

def pemLine (text : String) : Bytes :=
  (text.toList.map fun character => .ofNat character.toNat) ++ [0x0a]

def leafPem : Bytes :=
  ["-----BEGIN CERTIFICATE-----",
    "MIIBFTCByKADAgECAgEBMAUGAytlcDAPMQ0wCwYDVQQDDARsZWFmMB4XDTI2MTEx",
    "ODIzMzYwNloXDTM2MTExNTIzMzYwNlowDzENMAsGA1UEAwwEbGVhZjAqMAUGAytl",
    "cAMhALSedGE/KUAd2FYODm/5Ffj+StM434QFmh+qOJK/7TKno0kwRzAMBgNVHRMB",
    "Af8EAjAAMA4GA1UdDwEB/wQEAwIHgDATBgNVHSUEDDAKBggrBgEFBQcDAzASBgNV",
    "HREECzAJggdjaS50ZXN0MAUGAytlcANBACWBf8roSJbshQFL8TWf2US/IXQqM+EU",
    "U/QpHlUt18yC7thjkrqFJ8VggGbilXSNxmAWMkkBSXyMSjWcH4ydgQ0=",
    "-----END CERTIFICATE-----"].flatMap pemLine

def leafTbsCertificate : Bytes :=
  ["3081c8a003020102020101300506032b6570300f310d300b06035504030c046c656166301e170d323631",
    "3131383233333630365a170d3336313131353233333630365a300f310d300b06035504030c046c656166",
    "302a300506032b6570032100b49e74613f29401dd8560e0e6ff915f8fe4ad338df84059a1faa3892bfed",
    "32a7a3493047300c0603551d130101ff04023000300e0603551d0f0101ff04040302078030130603551d",
    "25040c300a06082b0601050507030330120603551d11040b3009820763692e74657374"].flatMap readHex

def leafSignature : Bytes :=
  ["25817fcae84896ec85014bf1359fd944bf21742a33e11453f4291e552dd7cc82eed86392ba8527c56080",
    "66e295748dc66016324901497c8c4a359c1f8c9d810d"].flatMap readHex

def leafKey : Bytes :=
  readHex "b49e74613f29401dd8560e0e6ff915f8fe4ad338df84059a1faa3892bfed32a7"

def logKey : Bytes :=
  readHex "c1df49e30bd847385a28280e48edfceab5d782ca586488addfa8eb5ccc563855"

def artifactDigest : Digest :=
  readDigest "c7c5c1d70c5dec4416ab6158afd0b223ef40c29b1dc1f97ed9428b94d4cadb1c"

def leafFingerprint : Digest :=
  readDigest "a3ad240403225050733472bed341666d2f021ab51543dd76fb902e52565439a5"

def firstLeaf : Digest :=
  readDigest "035c9aa6eb0671525d7b0dce05c5a3fc39d21a13d3f22f587c6728de86d78024"

def secondLeaf : Digest :=
  readDigest "57eb35615d47f34ec714cacdf5fd74608a5e8e102724e80b24b287c0c27b6a31"

def logRoot : Digest :=
  readDigest "15b96639d47b457dde20a95cc357541f530ed38cef5485b569fd794aa7aef4da"

def leafDer : Bytes :=
  [0x30, 0x82, 0x01, 0x15] ++ leafTbsCertificate ++
    [0x30, 0x05, 0x06, 0x03, 0x2b, 0x65, 0x70, 0x03, 0x41, 0x00] ++ leafSignature

def leafCertificate : Certificate where
  notValidBefore := 1795044966
  notValidAfter := 2110404966
  issuer := ⟨[[("2.5.4.3", "leaf")]]⟩
  subject := ⟨[[("2.5.4.3", "leaf")]]⟩
  publicKey := .ed25519 leafKey
  signature := leafSignature
  tbsCertificateBytes := leafTbsCertificate
  extensions := some
    { basicConstraints := some { critical := true, ca := false, pathLength := none }
      keyUsage := some { critical := true, digitalSignature := true, keyCertSign := false }
      extendedKeyUsage := some [codeSigning]
      subjectAlternativeName := some { rfc822Names := [], dnsNames := ["ci.test"], uris := [] } }
  der := leafDer

def reusedIdentity : CapabilityIdentity where
  capabilityNamespace := "tools"
  name := "demo"
  version := "1.0.0"
  digest := "sha256:" ++ artifactDigest.hex

def reusedPayload : Json :=
  artifactPayload reusedIdentity ("sha256:" ++ artifactDigest.hex) "publisher" "registry" 1800000000

def artifactSignature : String :=
  "2Tzp8uioDn3QT1HMOfp6i7qE3uPJJ_vCAsvt_IJm1xyCz2wNjOscuTDvlzxETMQvbRr5FhT0i-3LGhDhjKZYBA"

/-- The first entry of the log, the second one is `b`. -/
def firstEntry : Bytes :=
  logEntry (fun _ => leafFingerprint) reusedPayload artifactSignature leafCertificate

/-- SHA-256 on what is hashed for the bundle and the two entries of the log. -/
def reuseSha256 (input : Bytes) : Digest :=
  if input.head? = some 0x61 then artifactDigest
  else if input.head? = some 0x30 then leafFingerprint
  else if input.head? = some 0x01 then logRoot
  else if input = leafInput firstEntry then firstLeaf
  else secondLeaf

def firstCheckpoint : SignedCheckpoint where
  logId := "log"
  treeSize := 1
  rootHash := firstLeaf.hex
  timestamp := 1800000000
  signature :=
    "nvXRYGeE3d0fAghtGlx4tDkDuuvIz8SPBkfL4RlTUyJHAKhSfiKwfYwoH8P-1Z_HbjoPa4RNXrU-47fvzZhaDw"

def secondCheckpoint : SignedCheckpoint where
  logId := "log"
  treeSize := 2
  rootHash := logRoot.hex
  timestamp := 1800000060
  signature :=
    "GtJHq5FBf9lbDoZ4uL3-WCOQQbm_ZvvflKADU7rChlGRWLKEHObRWIL_vLHqq75icCHXg2Lay8qit49IKu6fAw"

/-- The signatures made under the keys of the leaf and of the log. -/
def reuseSignatures : List (Bytes × Option Bytes × Bytes) :=
  [(leafKey, some leafSignature, leafTbsCertificate),
    (leafKey, decode artifactSignature, artifactDomain ++ canonical reusedPayload),
    (logKey, decode firstCheckpoint.signature,
      checkpointDomain ++ checkpointPayload firstCheckpoint),
    (logKey, decode secondCheckpoint.signature,
      checkpointDomain ++ checkpointPayload secondCheckpoint)]

def reuseCryptography : Cryptography where
  loadPemX509Certificate pem := if pem = leafPem then some leafCertificate else none
  rfc4514String name := if name = leafCertificate.issuer then "CN=leaf" else ""
  ed25519Verify key signature message := decide ((key, some signature, message) ∈ reuseSignatures)

def reuseLog : TrustedTransparencyLog where
  logId := "log"
  publicKey := logKey
  notBefore := 0
  expiresAt := none
  revoked := false
  logId_ne := by decide
  publicKey_size := by decide

def reusePolicy : BundleTrustPolicy where
  trustedPublishers := {"publisher"}
  trustedRegistries := {"registry"}
  roots rootId :=
    if rootId = leafFingerprint.hex then some ⟨leafPem, "publisher", "registry", false⟩ else none
  logs logId := if logId = "log" then some reuseLog else none
  trustedCertificateIssuers := {"CN=leaf"}
  trustedCertificateSubjects := {"ci.test"}
  requireOnlineCheckpoint := true
  requireCheckpointObserver := true
  maxCheckpointAgeSeconds := 3600
  publishers_nonempty := ⟨"publisher", by decide⟩
  registries_nonempty := ⟨"registry", by decide⟩
  roots_nonempty := ⟨leafFingerprint.hex, by rw [if_pos rfl]; rfl⟩
  logs_nonempty := ⟨"log", rfl⟩
  maxCheckpointAge_pos := by decide

def reusedBundle : SigstoreBundle where
  certificateChainPem := [leafPem]
  artifactSignature := artifactSignature
  issuedAt := 1800000000
  inclusionProof := { checkpoint := firstCheckpoint, leafIndex := 0, hashes := [] }

def reusedArguments : VerifyArguments where
  identity := reusedIdentity
  artifact := encodeUtf8 "artifact"
  publisher := "publisher"
  registry := "registry"
  attested := false
  bundle := some reusedBundle

/-- A moment at which the log shows the given checkpoint online. -/
def showing (online : OnlineCheckpoint) (now : Int) : Environment where
  clock := now
  now := none
  onlineCheckpoint := some fun logId => if logId = "log" then some online else none

def grownOnline : OnlineCheckpoint :=
  .consistent { checkpoint := secondCheckpoint, hashes := [secondLeaf.hex] }
def reusedEvidence : TrustEvidence where
  revision := reusedIdentity.revision
  artifactDigest := "sha256:" ++ artifactDigest.hex
  publisher := "publisher"
  registry := "registry"
  environment := "production"
  signed := true
  algorithm := some "ed25519"
  keyId := some leafFingerprint.hex
  expiresAt := some 1800000000

theorem reuseSha256_artifact : reuseSha256 (encodeUtf8 "artifact") = artifactDigest := by
  have head : (encodeUtf8 "artifact").head? = some 0x61 := by decide +kernel
  rw [reuseSha256, if_pos head]

theorem reuseSha256_leaf : reuseSha256 leafCertificate.der = leafFingerprint := by
  have head : leafCertificate.der.head? = some 0x30 := by
    rw [leafCertificate, leafDer, List.append_assoc, List.append_assoc, List.cons_append]
    rfl
  rw [reuseSha256, head, if_neg (by decide), if_pos rfl]

theorem reuseSha256_entry (entry : Bytes) :
    reuseSha256 (leafInput entry) = if entry = firstEntry then firstLeaf else secondLeaf := by
  rw [reuseSha256, leafInput, List.head?_cons, if_neg (by decide), if_neg (by decide),
    if_neg (by decide), leafInput]
  simp only [List.cons.injEq, true_and]

theorem reuseSha256_first : reuseSha256 (leafInput firstEntry) = firstLeaf := by
  rw [reuseSha256_entry, if_pos rfl]

theorem reuseSha256_second : reuseSha256 (leafInput [0x62]) = secondLeaf := by
  obtain ⟨rest, entry⟩ := canonical_obj_cons _
  rw [reuseSha256_entry, firstEntry, logEntry, entry, if_neg (by simp)]

theorem reuseSha256_node : reuseSha256 (nodeInput (firstLeaf, secondLeaf)) = logRoot := by
  rw [reuseSha256, nodeInput, List.head?_cons, if_neg (by decide), if_neg (by decide), if_pos rfl]

theorem firstEntry_eq :
    logEntry reuseSha256 reusedPayload artifactSignature leafCertificate = firstEntry := by
  rw [firstEntry, logEntry, certificateFingerprint, reuseSha256_leaf]
  rfl

theorem length_of_chars {text : String} {chars : List Char} (same : text = String.ofList chars) :
    text.length = chars.length := by
  rw [same, String.length_ofList]

theorem pemLine_cons {text : String} {chars : List Char} {lines : List String} {count : Nat}
    (same : text = String.ofList chars) (rest : (lines.flatMap pemLine).length = count) :
    ((text :: lines).flatMap pemLine).length = chars.length + 1 + count := by
  rw [List.flatMap_cons, List.length_append, pemLine, List.length_append, List.length_map,
    String.length_toList, length_of_chars same, rest]
  rfl

theorem leafPem_length : leafPem.length = 436 := by
  unfold leafPem
  exact (pemLine_cons rfl (pemLine_cons rfl (pemLine_cons rfl (pemLine_cons rfl (pemLine_cons rfl
    (pemLine_cons rfl (pemLine_cons rfl (pemLine_cons rfl rfl)))))))).trans (by decide)

theorem artifactSignature_length : artifactSignature.length = 86 := length_of_chars rfl

theorem firstCheckpoint_length : firstCheckpoint.signature.length = 86 := length_of_chars rfl

theorem firstCheckpoint_rootHash : firstCheckpoint.rootHash.length = 64 := by
  rw [firstCheckpoint, Digest.hex, length_hex, firstLeaf.size_eq]

theorem encodedSize_le {bundle : SigstoreBundle} {pem : Bytes}
    (chain : bundle.certificateChainPem = [pem]) (hashes : bundle.inclusionProof.hashes = [])
    (certificate : pem.length ≤ 1000) (signature : bundle.artifactSignature.length ≤ 1000)
    (logId : bundle.inclusionProof.checkpoint.logId.length ≤ 1000)
    (rootHash : bundle.inclusionProof.checkpoint.rootHash.length ≤ 1000)
    (signed : bundle.inclusionProof.checkpoint.signature.length ≤ 1000) :
    encodedSize bundle ≤ maxBundleBytes := by
  have ascii := bundle.artifactSignature.toList.length_filter_le (·.toNat < 128)
  rw [String.length_toList] at ascii
  have logIdBytes := utf8ByteSize_le bundle.inclusionProof.checkpoint.logId
  have rootBytes := utf8ByteSize_le bundle.inclusionProof.checkpoint.rootHash
  have signatureBytes := utf8ByteSize_le bundle.inclusionProof.checkpoint.signature
  simp only [encodedSize, chain, hashes, List.map_cons, List.map_nil, List.sum_cons, List.sum_nil,
    maxBundleBytes]
  omega

theorem reused_bounds : validateBundleBounds reusedBundle = .ok () := by
  refine rejectIf_eq_ok.mpr ?_
  simp only [reusedBundle, not_or]
  refine ⟨by simp, by decide, ?_, ?_, ?_, ?_, ?_, ?_⟩
  · simp only [List.mem_singleton, exists_eq_left, leafPem_length, not_or]
    exact ⟨List.length_pos_iff.mp (by rw [leafPem_length]; decide), by decide⟩
  · rw [artifactSignature_length]
    decide
  · rw [firstCheckpoint_length]
    decide
  · decide
  · exact not_not.mpr firstCheckpoint_rootHash
  · rw [not_lt]
    exact encodedSize_le rfl rfl (leafPem_length.trans_le (by decide))
      (artifactSignature_length.trans_le (by decide)) (by decide)
      (firstCheckpoint_rootHash.trans_le (by decide))
      (firstCheckpoint_length.trans_le (by decide))

theorem decode_isSome (text : String) (chars : List Char) (same : text = String.ofList chars)
    (valid : (decodeBase64Chars (chars ++ List.replicate ((4 - chars.length % 4) % 4) '=') 0 0
      0).isSome = true) (ascii : chars.all (·.toNat < 128) = true) :
    ∃ signature, decode text = some signature := by
  have all : (chars ++ List.replicate ((4 - chars.length % 4) % 4) '=').all (·.toNat < 128) =
      true := by
    rw [List.all_append, ascii]
    simp
  rw [decode, urlsafeB64Decode, same, String.toList_append, String.toList_ofList,
    String.toList_ofList, String.length_ofList, if_pos all]
  exact Option.isSome_iff_exists.mp valid

theorem artifactSignature_decodes : ∃ signature, decode artifactSignature = some signature :=
  decode_isSome _ _ rfl (by decide +kernel) (by decide +kernel)

theorem firstCheckpoint_decodes :
    ∃ signature, decode firstCheckpoint.signature = some signature :=
  decode_isSome _ _ rfl (by decide +kernel) (by decide +kernel)

theorem secondCheckpoint_decodes :
    ∃ signature, decode secondCheckpoint.signature = some signature :=
  decode_isSome _ _ rfl (by decide +kernel) (by decide +kernel)

theorem reuse_verifies {key signature message : Bytes}
    (member : (key, some signature, message) ∈ reuseSignatures) :
    reuseCryptography.ed25519Verify key signature message = true :=
  decide_eq_true member

theorem verifyCheckpointSignature_of_mem {log : TrustedTransparencyLog}
    {checkpoint : SignedCheckpoint} (decoded : ∃ signature, decode checkpoint.signature =
      some signature)
    (verifies : ∀ signature, decode checkpoint.signature = some signature →
      crypto.ed25519Verify log.publicKey signature
        (checkpointDomain ++ checkpointPayload checkpoint) = true) :
    verifyCheckpointSignature crypto log checkpoint = .ok () := by
  obtain ⟨signature, decoded⟩ := decoded
  simp [verifyCheckpointSignature, decoded, verifies signature decoded]

theorem firstCheckpoint_signed :
    verifyCheckpointSignature reuseCryptography reuseLog firstCheckpoint = .ok () := by
  refine verifyCheckpointSignature_of_mem firstCheckpoint_decodes fun signature decoded => ?_
  exact reuse_verifies (decoded ▸ .tail _ (.tail _ (.head _)))

theorem secondCheckpoint_signed :
    verifyCheckpointSignature reuseCryptography reuseLog secondCheckpoint = .ok () := by
  refine verifyCheckpointSignature_of_mem secondCheckpoint_decodes fun signature decoded => ?_
  exact reuse_verifies (decoded ▸ .tail _ (.tail _ (.tail _ (.head _))))

theorem leafCertificate_key : ed25519Key leafCertificate = .ok leafKey := rfl

theorem reused_links : verifyLinks reuseCryptography 1800000000 0 [leafCertificate] = .ok () := by
  have profile : verifyLeafProfile leafCertificate = .ok () := by decide
  have verified : reuseCryptography.ed25519Verify leafKey leafCertificate.signature
      leafCertificate.tbsCertificateBytes = true := reuse_verifies (.head _)
  simp only [verifyLinks, bind_eq_ok, exists_unit, rejectIf_eq_ok, List.head?_nil,
    Option.getD_none, leafCertificate_key, if_true, profile]
  exact ⟨by decide, by decide, leafKey, rfl, by simp [verified], trivial, trivial⟩

theorem reused_identity :
    verifyIdentity reuseCryptography reusePolicy leafCertificate = .ok () := by
  simp only [verifyIdentity, leafCertificate, bind_eq_ok, exists_unit, rejectIf_eq_ok]
  exact ⟨by decide, by decide⟩

/-- A chain of one certificate that is itself a trusted root. -/
theorem verifyChain_single {policy : BundleTrustPolicy} {bundle : SigstoreBundle}
    {publisher registry : String} {pem : Bytes} {certificate : Certificate} {moment : Int}
    (chain : bundle.certificateChainPem = [pem])
    (loaded : crypto.loadPemX509Certificate pem = some certificate)
    (issued : fromTimestamp bundle.issuedAt = .ok moment)
    (links : verifyLinks crypto moment 0 [certificate] = .ok ())
    (trusted : policy.roots (certificateFingerprint sha256 certificate) =
      some ⟨pem, publisher, registry, false⟩)
    (identity : verifyIdentity crypto policy certificate = .ok ()) :
    verifyChain sha256 crypto policy bundle publisher registry = .ok certificate := by
  have certificates : [pem].mapM crypto.loadPemX509Certificate = some [certificate] := by
    simp [loaded]
  simp only [verifyChain, chain, certificates, bind_eq_ok, exists_unit, rejectIf_eq_ok, issued,
    Except.ok.injEq, exists_eq_left', links, List.head?_cons, List.getLast?_singleton, trusted,
    loaded, identity, pure_eq_ok]
  simp

theorem reused_chain :
    verifyChain reuseSha256 reuseCryptography reusePolicy reusedBundle "publisher" "registry" =
      .ok leafCertificate := by
  have loaded : reuseCryptography.loadPemX509Certificate leafPem = some leafCertificate := by
    simp only [reuseCryptography, if_true]
  have moment : fromTimestamp 1800000000 = .ok 1800000000 := by decide
  have trusted : reusePolicy.roots (certificateFingerprint reuseSha256 leafCertificate) =
      some ⟨leafPem, "publisher", "registry", false⟩ := by
    rw [certificateFingerprint, reuseSha256_leaf]
    simp only [reusePolicy, if_true]
  exact verifyChain_single rfl loaded moment reused_links trusted reused_identity

theorem reused_signature : verifyArtifactSignature reuseCryptography leafCertificate
    (canonical reusedPayload) artifactSignature = .ok () := by
  obtain ⟨signature, decoded⟩ := artifactSignature_decodes
  have verified : reuseCryptography.ed25519Verify leafKey signature
      (artifactDomain ++ canonical reusedPayload) = true :=
    reuse_verifies (decoded ▸ .tail _ (.head _))
  simp only [verifyArtifactSignature, bind_eq_ok, decoded, rejectIf_eq_ok]
  exact ⟨leafKey, rfl, by simp [verified]⟩

theorem reused_authentic :
    authenticate reuseSha256 reuseCryptography reusePolicy reusedArguments =
      .ok (reusedBundle.inclusionProof, firstEntry, reusedEvidence) := by
  have digest : compareDigest ("sha256:" ++ artifactDigest.hex) reusedIdentity.digest =
      .ok true := by
    refine compareDigest_self ?_
    rw [String.toList_append, List.all_append, Digest.hex_ascii]
    decide
  have payload : artifactPayload reusedIdentity ("sha256:" ++ artifactDigest.hex) "publisher"
      "registry" reusedBundle.issuedAt = reusedPayload := rfl
  have signed : reusedBundle.artifactSignature = artifactSignature := rfl
  have fingerprint : certificateFingerprint reuseSha256 leafCertificate = leafFingerprint.hex := by
    rw [certificateFingerprint, reuseSha256_leaf]
  simp only [authenticate, reusedArguments, bind_eq_ok, exists_unit, rejectIf_eq_ok,
    reused_bounds, reuseSha256_artifact, digest, Except.ok.injEq, exists_eq_left', reused_chain,
    pure_eq_ok, payload, signed, reused_signature, firstEntry_eq, fingerprint]
  exact ⟨by simp, trivial, by decide, by decide, by simp, trivial, rfl⟩

/-- The log of the two entries and its two checkpoints. -/
def reuseHistory : AppendOnlyLog reuseSha256 where
  entries := [firstEntry, [0x62]]
  issued := {firstCheckpoint.current, secondCheckpoint.current}
  issued_prefix := by
    rintro observation (rfl | rfl)
    · refine ⟨by decide, by decide, ?_⟩
      show firstLeaf.hex = ((rfc6962 reuseSha256).treeHash [firstEntry]).hex
      rw [HashScheme.treeHash_singleton]
      simp only [rfc6962, leafHash, reuseSha256_first]
    · refine ⟨by decide, by decide, ?_⟩
      show logRoot.hex = ((rfc6962 reuseSha256).treeHash [firstEntry, [0x62]]).hex
      rw [HashScheme.treeHash_pair]
      simp only [rfc6962, leafHash, nodeHash, reuseSha256_first, reuseSha256_second,
        reuseSha256_node]
  issued_ordered := by
    rintro first (rfl | rfl) second (rfl | rfl) <;> decide

abbrev reuseCall (online : OnlineCheckpoint) (now : Int) : Call :=
  ⟨reusePolicy, showing online now, reusedArguments⟩

theorem reuseCall_honest (online : OnlineCheckpoint) (now : Int)
    (issued : online.checkpoint.logId = "log" ∧ online.checkpoint.current ∈ reuseHistory.issued) :
    (reuseCall online now).Honest reuseCryptography fun _ => reuseHistory where
  bundled := by
    rintro bundle given log found signed
    obtain rfl := Option.some.inj given
    exact ⟨rfl, .inl rfl⟩
  shown := by
    rintro fetch logId shown asked answered log found signed
    obtain rfl := Option.some.inj asked
    by_cases same : logId = "log"
    · obtain rfl : online = shown := by simpa [same] using answered
      exact ⟨issued.1.trans same.symm, issued.2⟩
    · simp [same] at answered

theorem reused_admitted {now : Int} (later : 1800000000 ≤ now + 60) :
    admitCheckpoint reuseSha256 reuseCryptography reusePolicy reusedBundle.inclusionProof firstEntry
      now = .ok reuseLog := by
  refine admitCheckpoint_eq_ok_iff.mpr ⟨rfl, rfl, by decide, later, firstCheckpoint_signed,
    firstLeaf.hex, ?_, compareDigest_self (Digest.hex_ascii _)⟩
  have root : inclusionRoot reuseSha256 firstEntry 0 1 [] = .ok firstLeaf.hex := by
    rw [inclusionRoot, if_neg (by decide)]
    simp [inclusionLoop, leafHash, reuseSha256_first, bind, Except.bind]
  exact congrArg checked root

theorem grown_consistent : verifyConsistency reuseSha256 1 2 firstLeaf.hex logRoot.hex
    [secondLeaf.hex] = .ok () := by
  rw [verifyConsistency, if_neg (by decide)]
  simp [consistencyRoots, consistencyStart, shiftWhileOdd_of_even, consistencyLoop, nodeHash,
    reuseSha256_node, bind, Except.bind]

theorem firstCheckpoint_issued : firstCheckpoint.current ∈ reuseHistory.issued := .inl rfl

theorem secondCheckpoint_issued : secondCheckpoint.current ∈ reuseHistory.issued := .inr rfl

/-- What the log shows while it still has one entry. -/
theorem first_shown {now : Int} (soon : 1800000000 ≤ now) (fresh : now ≤ 1800003600) :
    ShowsOnline reuseSha256 reuseCryptography reusePolicy (showing (.signed firstCheckpoint) now)
      firstCheckpoint (.signed firstCheckpoint) where
  answered := ⟨_, rfl, rfl⟩
  signed := by
    intro log found
    obtain rfl : reuseLog = log := Option.some.inj found
    exact firstCheckpoint_signed
  not_early := by
    show (1800000000 : Int) ≤ now + 60
    omega
  fresh := by
    show now - 1800000000 ≤ 3600
    omega
  grown := le_rfl
  consistent grown := absurd grown (lt_irrefl _)

theorem grown_shown {now : Int} (soon : 1800000000 ≤ now) (fresh : now ≤ 1800003600) :
    ShowsOnline reuseSha256 reuseCryptography reusePolicy (showing grownOnline now) firstCheckpoint
      grownOnline where
  answered := ⟨_, rfl, rfl⟩
  signed := by
    intro log found
    obtain rfl : reuseLog = log := Option.some.inj found
    exact secondCheckpoint_signed
  not_early := by
    show (1800000060 : Int) ≤ now + 60
    omega
  fresh := by
    show now - 1800000060 ≤ 3600
    omega
  grown := by decide
  consistent _ := grown_consistent

/-- The first verification of the bundle, over no records. -/
theorem reused_accepted (online : OnlineCheckpoint) (now : Int) (soon : 1800000000 ≤ now)
    (fresh : now ≤ 1800003600) (sameLog : online.checkpoint.logId = "log")
    (issued : online.checkpoint.current ∈ reuseHistory.issued)
    (notOlder : 1800000000 ≤ online.checkpoint.timestamp)
    (shown : ShowsOnline reuseSha256 reuseCryptography reusePolicy (showing online now)
      firstCheckpoint online) :
    (reuseCall online now).verify reuseSha256 reuseCryptography .checkpointObserver
      (fun _ => none) = (.ok reusedEvidence, Function.update
        (Function.update (fun _ => none) "log" (some firstCheckpoint.current)) "log"
          (some online.checkpoint.current)) := by
  have first : CheckpointObservation.checkpointObserver.record firstCheckpoint (fun _ => none) =
      .ok (Function.update (fun _ => none) "log" (some firstCheckpoint.current)) :=
    CheckpointObservation.record_eq_ok_iff.mpr ⟨rfl, trivial, rfl⟩
  have last : CheckpointObservation.checkpointObserver.record online.checkpoint
      (Function.update (fun _ => none) "log" (some firstCheckpoint.current)) = .ok (Function.update
        (Function.update (fun _ => none) "log" (some firstCheckpoint.current)) "log"
          (some online.checkpoint.current)) := by
    refine CheckpointObservation.record_eq_ok_iff.mpr ⟨?_, trivial, by rw [sameLog]⟩
    rw [sameLog, Function.update_self]
    exact (AppendOnlyLog.compare_eq_ok_iff issued firstCheckpoint_issued).mpr
      ⟨shown.grown, notOlder⟩
  have admitted : admitOnline reuseSha256 reuseCryptography reusePolicy reuseLog firstCheckpoint
      (showing online now) = .ok online.checkpoint := by
    refine admitOnline_eq_ok_iff.mpr ⟨?_, _, online, rfl, rfl, rfl, shown.signed _ rfl,
      shown.not_early, shown.fresh, shown.checkAppendOnly firstCheckpoint_issued issued⟩
    show now - 1800000000 ≤ 3600
    omega
  exact (verify_eq_ok_iff rfl rfl).mpr ⟨reusedBundle.inclusionProof, firstEntry, reuseLog, _,
    online.checkpoint, reused_authentic, reused_admitted (by show _ ≤ now + 60; omega), first,
    admitted, last⟩

/-- While the log has not grown the bundle is accepted again. -/
theorem verify_again_accepted :
    ((reuseCall (.signed firstCheckpoint) 1800000120).verify reuseSha256 reuseCryptography
      .checkpointObserver (run reuseSha256 reuseCryptography .checkpointObserver
        ([] ++ [.verify (reuseCall (.signed firstCheckpoint) 1800000060)]) fun _ => none)).1 =
          .ok reusedEvidence := by
  have accepted := reused_accepted (.signed firstCheckpoint) 1800000060 (by decide) (by decide) rfl
    firstCheckpoint_issued (by decide) (first_shown (by decide) (by decide))
  have honest : ∀ event ∈ [] ++ Event.verify ⟨reusePolicy,
      showing (.signed firstCheckpoint) 1800000060, reusedArguments⟩ :: [],
      event.Honest reuseCryptography fun _ => reuseHistory := by
    intro event member
    obtain rfl := List.mem_singleton.mp member
    exact reuseCall_honest (.signed firstCheckpoint) 1800000060 ⟨rfl, firstCheckpoint_issued⟩
  have honestAgain := reuseCall_honest (.signed firstCheckpoint) 1800000120
    ⟨rfl, firstCheckpoint_issued⟩
  have presented : reusedArguments.bundle = some reusedBundle := rfl
  have first : (Call.verify reuseSha256 reuseCryptography .checkpointObserver ⟨reusePolicy,
      showing (.signed firstCheckpoint) 1800000060, reusedArguments⟩
        (run reuseSha256 reuseCryptography .checkpointObserver [] fun _ => none)).1 =
          .ok reusedEvidence := by
    rw [run_nil, accepted]
  have shown := first_shown (show 1800000000 ≤ 1800000120 by decide) (by decide)
  refine (verify_again_iff rfl presented honest honestAgain first (by decide) (by decide)
    shown).mpr ⟨?_, le_rfl, trivial⟩
  have seen : run reuseSha256 reuseCryptography .checkpointObserver
      ([] ++ [.verify (reuseCall (.signed firstCheckpoint) 1800000060)]) (fun _ => none) =
        Function.update (Function.update (fun _ => none) "log" (some firstCheckpoint.current)) "log"
          (some firstCheckpoint.current) := by
    rw [List.nil_append, run_cons, run_nil, Event.apply_verify, accepted]
    rfl
  intro previous known
  rw [seen, show reusedBundle.inclusionProof.checkpoint.logId = "log" from rfl,
    Function.update_self] at known
  obtain rfl := Option.some.inj known
  exact ⟨le_rfl, le_rfl⟩

/-- **A bundle that is not accepted again.** The log grew by one entry between the
checkpoint of the bundle and the one shown online: the first verification records the
larger one, and the next one finds the checkpoint of the bundle replayed. -/
theorem verify_again_rejected :
    (reuseCall grownOnline 1800000060).Honest reuseCryptography (fun _ => reuseHistory) ∧
    (reuseCall grownOnline 1800000120).Honest reuseCryptography (fun _ => reuseHistory) ∧
    ShowsOnline reuseSha256 reuseCryptography reusePolicy (showing grownOnline 1800000120)
      firstCheckpoint grownOnline ∧
    ((reuseCall grownOnline 1800000060).verify reuseSha256 reuseCryptography
      .checkpointObserver fun _ => none).1 = .ok reusedEvidence ∧
    ((reuseCall grownOnline 1800000120).verify reuseSha256 reuseCryptography .checkpointObserver
      ((reuseCall grownOnline 1800000060).verify reuseSha256 reuseCryptography
        .checkpointObserver fun _ => none).2).1 =
          .error (.supplyChain .transparencyCheckpointReplayed) := by
  refine ⟨reuseCall_honest _ _ ⟨rfl, secondCheckpoint_issued⟩,
    reuseCall_honest _ _ ⟨rfl, secondCheckpoint_issued⟩, grown_shown (by decide) (by decide), ?_⟩
  rw [reused_accepted grownOnline 1800000060 (by decide) (by decide) rfl secondCheckpoint_issued
    (by decide) (grown_shown (by decide) (by decide))]
  refine ⟨rfl, ?_⟩
  have refused : CheckpointObservation.checkpointObserver.record firstCheckpoint
      (Function.update (Function.update (fun _ => none) "log" (some firstCheckpoint.current)) "log"
        (some secondCheckpoint.current)) =
          .error (.supplyChain .transparencyCheckpointReplayed) := by
    rw [CheckpointObservation.record, show firstCheckpoint.logId = "log" from rfl,
      Function.update_self]
    rfl
  have admitted : admitCheckpoint reuseSha256 reuseCryptography reusePolicy
      reusedBundle.inclusionProof firstEntry (showing grownOnline 1800000120).timestamp =
        .ok reuseLog := reused_admitted (by decide)
  rw [Call.verify, show grownOnline.checkpoint = secondCheckpoint from rfl,
    verify_refused reused_authentic admitted refused]

end CapabilityHub.SupplyChain
