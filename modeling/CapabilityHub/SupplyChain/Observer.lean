import CapabilityHub.SupplyChain.Bundle
import Mathlib.Logic.Function.Basic

/-! # Observed checkpoints

The two checkpoint observers and `SigstoreBundleVerifier.verify` over the state they
keep: the last checkpoint recorded for each log. One verification records the
checkpoint of the bundle and then the one the log shows online; what was recorded
stays recorded when a later check fails.
-/

namespace CapabilityHub.SupplyChain

/-- What an observer keeps of a checkpoint. -/
structure Observation where
  treeSize : Int
  rootHash : String
  timestamp : Int
  deriving DecidableEq

def SignedCheckpoint.current (checkpoint : SignedCheckpoint) : Observation where
  treeSize := checkpoint.treeSize
  rootHash := checkpoint.rootHash
  timestamp := checkpoint.timestamp

/-- The last checkpoint recorded for each log. -/
abbrev Seen := String → Option Observation

/-- The observer that keeps its records in memory and the one that keeps them in a
SQLite table. -/
inductive CheckpointObservation where
  | checkpointObserver
  | sqliteCheckpointObserver
  deriving DecidableEq

namespace CheckpointObservation

/-- How the roots of two checkpoints of one size are compared. -/
def sameRoot : CheckpointObservation → String → String → Except VerifyError Bool
  | checkpointObserver, first, second => .ok (first = second)
  | sqliteCheckpointObserver, first, second => compareDigest first second

/-- The integers that fit a column of a SQLite table. -/
def FitsColumn (value : Int) : Prop :=
  -9223372036854775808 ≤ value ∧ value ≤ 9223372036854775807

/-- Whether a checkpoint can be recorded. -/
def Storable : CheckpointObservation → Observation → Prop
  | checkpointObserver, _ => True
  | sqliteCheckpointObserver, current => FitsColumn current.treeSize ∧ FitsColumn current.timestamp

instance (observer : CheckpointObservation) (current : Observation) :
    Decidable (observer.Storable current) :=
  match observer with
  | checkpointObserver => inferInstanceAs (Decidable True)
  | sqliteCheckpointObserver => inferInstanceAs (Decidable ((_ ≤ _ ∧ _ ≤ _) ∧ _ ≤ _ ∧ _ ≤ _))

/-- The comparison of a checkpoint with the one recorded before it. -/
def compare (observer : CheckpointObservation) (current : Observation) :
    Option Observation → Except VerifyError Unit
  | none => .ok ()
  | some previous => do
      rejectIf (current.treeSize < previous.treeSize ∨ current.timestamp < previous.timestamp)
        .transparencyCheckpointReplayed
      if current.treeSize = previous.treeSize then
        rejectIf (!(← observer.sameRoot current.rootHash previous.rootHash)) .transparencyLogFork

/-- The records after `observe`. -/
def record (observer : CheckpointObservation) (checkpoint : SignedCheckpoint) (seen : Seen) :
    Except VerifyError Seen := do
  observer.compare checkpoint.current (seen checkpoint.logId)
  raiseIf (¬observer.Storable checkpoint.current) .overflowError
  return Function.update seen checkpoint.logId (some checkpoint.current)

/-- `observe`: a call that raises leaves the records as they are. -/
def observe (observer : CheckpointObservation) (checkpoint : SignedCheckpoint) (seen : Seen) :
    Except VerifyError Unit × Seen :=
  match observer.record checkpoint seen with
  | .error error => (.error error, seen)
  | .ok recorded => (.ok (), recorded)

variable {observer : CheckpointObservation}

theorem compare_eq_ok_iff {current previous : Observation} :
    observer.compare current (some previous) = .ok () ↔
      previous.treeSize ≤ current.treeSize ∧ previous.timestamp ≤ current.timestamp ∧
        (current.treeSize = previous.treeSize →
          observer.sameRoot current.rootHash previous.rootHash = .ok true) := by
  simp only [CheckpointObservation.compare, bind_eq_ok, exists_unit, rejectIf_eq_ok, not_or,
    Int.not_lt, and_assoc]
  by_cases same : current.treeSize = previous.treeSize
  · simp [same, bind_eq_ok]
  · simp [same, pure_eq_ok]

theorem record_eq_ok_iff {checkpoint : SignedCheckpoint} {seen recorded : Seen} :
    observer.record checkpoint seen = .ok recorded ↔
      observer.compare checkpoint.current (seen checkpoint.logId) = .ok () ∧
        observer.Storable checkpoint.current ∧
          Function.update seen checkpoint.logId (some checkpoint.current) = recorded := by
  simp only [record, bind_eq_ok, exists_unit, raiseIf_eq_ok, not_not, pure_eq_ok]

theorem observe_eq_ok_iff {checkpoint : SignedCheckpoint} {seen recorded : Seen} :
    observer.observe checkpoint seen = (.ok (), recorded) ↔
      observer.record checkpoint seen = .ok recorded := by
  unfold observe
  cases observer.record checkpoint seen <;> simp

/-- An observation changes at most the record of its own log, to the checkpoint
observed. -/
theorem observe_records (checkpoint : SignedCheckpoint) (seen : Seen) :
    (observer.observe checkpoint seen).2 = seen ∨
      (observer.observe checkpoint seen).2 =
        Function.update seen checkpoint.logId (some checkpoint.current) := by
  cases kept : observer.record checkpoint seen with
  | error error => exact .inl (by simp only [observe, kept])
  | ok recorded =>
      refine .inr ?_
      simp only [observe, kept]
      exact (record_eq_ok_iff.mp kept).2.2.symm

end CheckpointObservation

/-- What `online_checkpoint` returns. -/
inductive OnlineCheckpoint where
  | signed (checkpoint : SignedCheckpoint)
  | consistent (proof : TransparencyConsistencyProof)

def OnlineCheckpoint.checkpoint : OnlineCheckpoint → SignedCheckpoint
  | signed checkpoint => checkpoint
  | consistent proof => proof.checkpoint

def OnlineCheckpoint.hashes : OnlineCheckpoint → List String
  | signed _ => []
  | consistent proof => proof.hashes

/-- The moment of a call: the clock, the moment given in its place, and the callback
that asks a log for its newest checkpoint, `none` where it raises. -/
structure Environment where
  clock : Int
  now : Option Int
  onlineCheckpoint : Option (String → Option OnlineCheckpoint)

def Environment.timestamp (environment : Environment) : Int :=
  environment.now.getD environment.clock

structure SigstoreBundleVerifier where
  policy : BundleTrustPolicy
  observer : Option CheckpointObservation
  observer_required : policy.requireCheckpointObserver = true → observer.isSome

variable (sha256 : Bytes → Digest) (crypto : Cryptography)

def verifyCheckpointSignature (log : TrustedTransparencyLog) (checkpoint : SignedCheckpoint) :
    Except VerifyError Unit :=
  match decode checkpoint.signature with
  | none => reject .invalidTransparencyCheckpoint
  | some signature =>
      rejectIf (!crypto.ed25519Verify log.publicKey signature
        (checkpointDomain ++ checkpointPayload checkpoint)) .invalidTransparencyCheckpoint

/-- `_verify_transparency` up to the first observation. -/
def admitCheckpoint (policy : BundleTrustPolicy) (proof : TransparencyInclusionProof)
    (entry : Bytes) (now : Int) : Except VerifyError TrustedTransparencyLog := do
  let checkpoint := proof.checkpoint
  match policy.logs checkpoint.logId with
  | none => reject .transparencyLogNotTrusted
  | some log =>
      rejectIf log.revoked .transparencyLogNotTrusted
      rejectIf (checkpoint.timestamp < log.notBefore ∨
        log.expiresAt.any (· ≤ checkpoint.timestamp)) .transparencyLogKeyExpired
      rejectIf (checkpoint.timestamp > now + 60) .transparencyCheckpointNotYetValid
      verifyCheckpointSignature crypto log checkpoint
      let calculated ←
        checked (inclusionRoot sha256 entry proof.leafIndex checkpoint.treeSize proof.hashes)
      rejectIf (!(← compareDigest calculated checkpoint.rootHash))
        .invalidTransparencyInclusionProof
      return log

/-- The comparison of the online checkpoint with the one of the bundle. -/
def checkAppendOnly (checkpoint current : SignedCheckpoint) (hashes : List String) :
    Except VerifyError Unit := do
  rejectIf (current.treeSize < checkpoint.treeSize) .transparencyCheckpointReplayed
  if current.treeSize = checkpoint.treeSize then
    rejectIf (!(← compareDigest current.rootHash checkpoint.rootHash)) .transparencyLogFork
  else
    checked (verifyConsistency sha256 checkpoint.treeSize current.treeSize checkpoint.rootHash
      current.rootHash hashes)

section Admission

variable {sha256 crypto} {policy : BundleTrustPolicy} {proof : TransparencyInclusionProof}
  {entry : Bytes} {log : TrustedTransparencyLog}

theorem admitCheckpoint_eq_ok_iff {now : Int} :
    admitCheckpoint sha256 crypto policy proof entry now = .ok log ↔
      policy.logs proof.checkpoint.logId = some log ∧ log.revoked = false ∧
        (log.notBefore ≤ proof.checkpoint.timestamp ∧
          log.expiresAt.any (· ≤ proof.checkpoint.timestamp) = false) ∧
        proof.checkpoint.timestamp ≤ now + 60 ∧
        verifyCheckpointSignature crypto log proof.checkpoint = .ok () ∧
        ∃ calculated, checked (inclusionRoot sha256 entry proof.leafIndex
            proof.checkpoint.treeSize proof.hashes) = .ok calculated ∧
          compareDigest calculated proof.checkpoint.rootHash = .ok true := by
  simp only [admitCheckpoint]
  cases policy.logs proof.checkpoint.logId with
  | none => simp [reject]
  | some found =>
      simp only [bind_eq_ok, exists_unit, pure_eq_ok, rejectIf_eq_ok, Option.some.injEq]
      constructor
      · rintro ⟨live, valid, early, signed, calculated, root, same, equal, matching, rfl⟩
        simp only [not_or, Int.not_lt, Bool.not_eq_true] at live valid early
        rw [Bool.not_eq_true, Bool.not_eq_false'] at matching
        exact ⟨rfl, live, valid, by omega, signed, calculated, root, matching ▸ equal⟩
      · rintro ⟨rfl, live, valid, early, signed, calculated, root, equal⟩
        refine ⟨by simp [live], by simp [valid], by omega, signed, calculated, root, true, equal, ?_⟩
        simp

/-- The checks before the first observation that hold at one moment hold later. -/
theorem admitCheckpoint_later {first second : Int} (later : first ≤ second)
    (admitted : admitCheckpoint sha256 crypto policy proof entry first = .ok log) :
    admitCheckpoint sha256 crypto policy proof entry second = .ok log := by
  rw [admitCheckpoint_eq_ok_iff] at admitted ⊢
  obtain ⟨found, live, valid, early, rest⟩ := admitted
  exact ⟨found, live, valid, by omega, rest⟩

end Admission

/-- `_verify_transparency` between the two observations: the checkpoint the log shows
online. -/
def admitOnline (policy : BundleTrustPolicy) (log : TrustedTransparencyLog)
    (checkpoint : SignedCheckpoint) (environment : Environment) :
    Except VerifyError SignedCheckpoint := do
  let now := environment.timestamp
  match environment.onlineCheckpoint with
  | none => reject .onlineTransparencyCheckRequired
  | some fetch =>
      rejectIf (now - checkpoint.timestamp > policy.maxCheckpointAgeSeconds)
        .transparencyCheckpointStale
      match fetch checkpoint.logId with
      | none => reject .onlineTransparencyCheckFailed
      | some online =>
          let current := online.checkpoint
          verifyCheckpointSignature crypto log current
          rejectIf (current.timestamp > now + 60) .transparencyCheckpointNotYetValid
          rejectIf (now - current.timestamp > policy.maxCheckpointAgeSeconds)
            .transparencyCheckpointStale
          checkAppendOnly sha256 checkpoint current online.hashes
          return current

def observeWith : Option CheckpointObservation → SignedCheckpoint → Seen →
    Except VerifyError Unit × Seen
  | none, _, seen => (.ok (), seen)
  | some observer, checkpoint, seen => observer.observe checkpoint seen

/-- `_verify_transparency`. -/
def verifyTransparency (verifier : SigstoreBundleVerifier) (environment : Environment)
    (proof : TransparencyInclusionProof) (entry : Bytes) (seen : Seen) :
    Except VerifyError Unit × Seen :=
  match admitCheckpoint sha256 crypto verifier.policy proof entry environment.timestamp with
  | .error error => (.error error, seen)
  | .ok log =>
      match observeWith verifier.observer proof.checkpoint seen with
      | (.error error, seen) => (.error error, seen)
      | (.ok (), seen) =>
          if verifier.policy.requireOnlineCheckpoint then
            match admitOnline sha256 crypto verifier.policy log proof.checkpoint environment with
            | .error error => (.error error, seen)
            | .ok current => observeWith verifier.observer current seen
          else (.ok (), seen)

/-- `SigstoreBundleVerifier.verify`. -/
def verify (verifier : SigstoreBundleVerifier) (environment : Environment)
    (arguments : VerifyArguments) (seen : Seen) : Except VerifyError TrustEvidence × Seen :=
  match authenticate sha256 crypto verifier.policy arguments with
  | .error error => (.error error, seen)
  | .ok (proof, entry, evidence) =>
      match verifyTransparency sha256 crypto verifier environment proof entry seen with
      | (.error error, seen) => (.error error, seen)
      | (.ok (), seen) => (.ok evidence, seen)

variable {sha256 crypto} {policy : BundleTrustPolicy} {environment : Environment}
  {observer : CheckpointObservation}

theorem admitOnline_eq_ok_iff {log : TrustedTransparencyLog}
    {checkpoint current : SignedCheckpoint} :
    admitOnline sha256 crypto policy log checkpoint environment = .ok current ↔
      environment.timestamp - checkpoint.timestamp ≤ policy.maxCheckpointAgeSeconds ∧
        ∃ fetch online, environment.onlineCheckpoint = some fetch ∧
          fetch checkpoint.logId = some online ∧ online.checkpoint = current ∧
          verifyCheckpointSignature crypto log current = .ok () ∧
          current.timestamp ≤ environment.timestamp + 60 ∧
          environment.timestamp - current.timestamp ≤ policy.maxCheckpointAgeSeconds ∧
          checkAppendOnly sha256 checkpoint current online.hashes = .ok () := by
  simp only [admitOnline]
  cases asked : environment.onlineCheckpoint with
  | none => simp [reject]
  | some fetch =>
      simp only [bind_eq_ok, exists_unit, rejectIf_eq_ok, Option.some.injEq, exists_and_left,
        exists_eq_left', Int.not_lt, gt_iff_lt, and_congr_right_iff]
      intro _
      cases answered : fetch checkpoint.logId with
      | none => simp [reject]
      | some online =>
          simp only [bind_eq_ok, exists_unit, pure_eq_ok, rejectIf_eq_ok, Option.some.injEq,
            exists_eq_left', Int.not_lt]
          constructor
          · rintro ⟨signed, early, fresh, appended, rfl⟩
            exact ⟨rfl, signed, early, fresh, appended⟩
          · rintro ⟨rfl, signed, early, fresh, appended⟩
            exact ⟨signed, early, fresh, appended, rfl⟩

/-- With an observer and the online check required, a verification is accepted when
the bundle is authentic, both checkpoints are admitted, and the observer records
first the one of the bundle and then the one shown online. -/
theorem verify_eq_ok_iff {verifier : SigstoreBundleVerifier} {arguments : VerifyArguments}
    {seen final : Seen} {evidence : TrustEvidence}
    (observed : verifier.observer = some observer)
    (required : verifier.policy.requireOnlineCheckpoint = true) :
    verify sha256 crypto verifier environment arguments seen = (.ok evidence, final) ↔
      ∃ proof entry log recorded current,
        authenticate sha256 crypto verifier.policy arguments = .ok (proof, entry, evidence) ∧
        admitCheckpoint sha256 crypto verifier.policy proof entry environment.timestamp =
          .ok log ∧
        observer.record proof.checkpoint seen = .ok recorded ∧
        admitOnline sha256 crypto verifier.policy log proof.checkpoint environment =
          .ok current ∧
        observer.record current recorded = .ok final := by
  constructor
  · intro accepted
    unfold verify at accepted
    cases authentic : authenticate sha256 crypto verifier.policy arguments with
    | error error => simp [authentic] at accepted
    | ok result =>
        obtain ⟨proof, entry, issued⟩ := result
        simp only [authentic] at accepted
        unfold verifyTransparency at accepted
        cases admitted : admitCheckpoint sha256 crypto verifier.policy proof entry
            environment.timestamp with
        | error error => simp [admitted] at accepted
        | ok log =>
            simp only [admitted, observed, observeWith, required, if_true] at accepted
            cases kept : observer.record proof.checkpoint seen with
            | error error => simp [CheckpointObservation.observe, kept] at accepted
            | ok recorded =>
                simp only [CheckpointObservation.observe_eq_ok_iff.mpr kept] at accepted
                cases shown : admitOnline sha256 crypto verifier.policy log proof.checkpoint
                    environment with
                | error error => simp [shown] at accepted
                | ok current =>
                    simp only [shown] at accepted
                    cases last : observer.record current recorded with
                    | error error => simp [CheckpointObservation.observe, last] at accepted
                    | ok finished =>
                        simp only [CheckpointObservation.observe_eq_ok_iff.mpr last,
                          Prod.mk.injEq, Except.ok.injEq] at accepted
                        obtain ⟨rfl, rfl⟩ := accepted
                        exact ⟨proof, entry, log, recorded, current, rfl, admitted, kept, shown,
                          last⟩
  · rintro ⟨proof, entry, log, recorded, current, authentic, admitted, kept, shown, last⟩
    simp only [verify, verifyTransparency, authentic, admitted, observed, observeWith, required,
      if_true, CheckpointObservation.observe_eq_ok_iff.mpr kept, shown,
      CheckpointObservation.observe_eq_ok_iff.mpr last]

/-- A refusal of the checkpoint of the bundle is what the verification raises. -/
theorem verify_refused {observed : policy.requireCheckpointObserver = true → (some observer).isSome}
    {arguments : VerifyArguments} {seen : Seen} {proof : TransparencyInclusionProof} {entry : Bytes}
    {evidence : TrustEvidence} {log : TrustedTransparencyLog} {error : VerifyError}
    (authentic : authenticate sha256 crypto policy arguments = .ok (proof, entry, evidence))
    (admitted : admitCheckpoint sha256 crypto policy proof entry environment.timestamp = .ok log)
    (refused : observer.record proof.checkpoint seen = .error error) :
    verify sha256 crypto ⟨policy, some observer, observed⟩ environment arguments seen =
      (.error error, seen) := by
  simp only [verify, verifyTransparency, authentic, admitted, observeWith,
    CheckpointObservation.observe, refused]

/-- A transparency check changes the records only by observing checkpoints that carry
a valid signature: the one of the bundle and the one shown online. -/
theorem verifyTransparency_records {verifier : SigstoreBundleVerifier}
    {proof : TransparencyInclusionProof} {entry : Bytes} {kept : Seen → Prop} {seen : Seen}
    (holds : kept seen)
    (bundled : ∀ log, verifier.policy.logs proof.checkpoint.logId = some log →
      verifyCheckpointSignature crypto log proof.checkpoint = .ok () →
        ∀ seen, kept seen → kept (observeWith verifier.observer proof.checkpoint seen).2)
    (shown : ∀ log fetch online, verifier.policy.logs proof.checkpoint.logId = some log →
      environment.onlineCheckpoint = some fetch → fetch proof.checkpoint.logId = some online →
      verifyCheckpointSignature crypto log online.checkpoint = .ok () →
        ∀ seen, kept seen → kept (observeWith verifier.observer online.checkpoint seen).2) :
    kept (verifyTransparency sha256 crypto verifier environment proof entry seen).2 := by
  unfold verifyTransparency
  cases admitted : admitCheckpoint sha256 crypto verifier.policy proof entry
      environment.timestamp with
  | error error => exact holds
  | ok log =>
      obtain ⟨found, _, _, _, signed, _⟩ := admitCheckpoint_eq_ok_iff.mp admitted
      have first := bundled log found signed seen holds
      cases observed : observeWith verifier.observer proof.checkpoint seen with
      | mk outcome recorded =>
          rw [observed] at first
          cases outcome with
          | error error => exact first
          | ok _ =>
              by_cases required : verifier.policy.requireOnlineCheckpoint = true
              · simp only [required, if_true]
                cases online : admitOnline sha256 crypto verifier.policy log proof.checkpoint
                    environment with
                | error error => exact first
                | ok current =>
                    obtain ⟨_, fetch, answer, asked, answered, rfl, signed, _⟩ :=
                      admitOnline_eq_ok_iff.mp online
                    exact shown log fetch answer found asked answered signed recorded first
              · simp only [required]
                exact first

theorem verify_records {verifier : SigstoreBundleVerifier} {arguments : VerifyArguments}
    {kept : Seen → Prop} {seen : Seen} (holds : kept seen)
    (checked : ∀ proof entry evidence,
      authenticate sha256 crypto verifier.policy arguments = .ok (proof, entry, evidence) →
        kept (verifyTransparency sha256 crypto verifier environment proof entry seen).2) :
    kept (verify sha256 crypto verifier environment arguments seen).2 := by
  unfold verify
  cases authentic : authenticate sha256 crypto verifier.policy arguments with
  | error error => exact holds
  | ok result =>
      obtain ⟨proof, entry, evidence⟩ := result
      have after := checked proof entry evidence authentic
      cases outcome : verifyTransparency sha256 crypto verifier environment proof entry seen with
      | mk returned recorded =>
          rw [outcome] at after
          cases returned <;> simpa only [outcome] using after

end CapabilityHub.SupplyChain
