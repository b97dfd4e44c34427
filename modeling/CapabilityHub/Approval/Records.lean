import CapabilityHub.Service.Intent
import CapabilityHub.Tenancy.ScopedState

/-! # Approval records

What the two approval stores have in common: the intent that an approval is for, the record of an
approval, and what its status makes of the moments that pass. The fingerprint of an intent and the
digests of a scope and of an identifier tell apart what they are made of where the hash and the
keyed hash are injective.
-/

namespace CapabilityHub.Approval

open Tenancy (TenantScope)

inductive ApprovalStatus where
  | pending
  | approved
  | denied
  | consumed
  | expired
  deriving DecidableEq

namespace ApprovalStatus

def value : ApprovalStatus → String
  | pending => "pending"
  | approved => "approved"
  | denied => "denied"
  | consumed => "consumed"
  | expired => "expired"

/-- `ApprovalStatus(text)`. -/
def parse (text : String) : Except Raised ApprovalStatus :=
  match [pending, approved, denied, consumed, expired].find? (·.value = text) with
  | some status => .ok status
  | none => .error .valueError

/-- Nothing moves on from these. -/
def Terminal (status : ApprovalStatus) : Prop :=
  status = denied ∨ status = consumed ∨ status = expired

end ApprovalStatus

structure ApprovalIntent where
  revision : String
  operation : String
  argumentsDigest : String
  tenantId : String
  principalId : String
  sessionId : String
  taskId : String
  sideEffect : String
  policyRevision : String
  named : ∀ field ∈ [revision, operation, tenantId, principalId, sessionId, taskId, sideEffect,
    policyRevision], field ≠ ""
  digest : argumentsDigest.length = 64 ∧
    ∀ char ∈ argumentsDigest.toList, char ∈ "0123456789abcdef".toList
  deriving DecidableEq

/-- The columns of a record that the two stores keep alike. -/
structure Progress where
  status : ApprovalStatus
  createdAt : ℚ
  expiresAt : ℚ
  decidedAt : Option ℚ := none
  decidedBy : Option String := none
  consumedAt : Option ℚ := none
  deriving DecidableEq

structure ApprovalRecord where
  approvalId : String
  intent : ApprovalIntent
  progress : Progress
  deriving DecidableEq

/-- `_error`. -/
def approvalError (code message approvalId : String) : Raised :=
  .hub {
    code := code
    category := .approval
    safeMessage := message
    details := [("approval_id", .text approvalId)] }

def notFound (approvalId : String) : Raised :=
  approvalError "approval_not_found" "The approval request was not found." approvalId

/-- `_now`. -/
def checkNow (now : ℚ) : Except Raised Unit := raiseIf (now < 0) .valueError

namespace Progress

variable (progress : Progress) (now : ℚ)

/-- `status IN ('pending', 'approved') AND expires_at <= now`. -/
def Due : Prop :=
  (progress.status = .pending ∨ progress.status = .approved) ∧ progress.expiresAt ≤ now

instance : Decidable (progress.Due now) :=
  inferInstanceAs (Decidable ((_ ∨ _) ∧ _))

def expired : Progress := { progress with status := .expired }

/-- What `_expire` leaves. -/
def expire : Progress := if progress.Due now then progress.expired else progress

def decided (status : ApprovalStatus) (decidedBy : String) : Progress :=
  { progress with status := status, decidedAt := some now, decidedBy := some decidedBy }

def consumed : Progress := { progress with status := .consumed, consumedAt := some now }

/-- A record as `request` writes it. -/
def requested (now ttlSeconds : ℚ) : Progress :=
  { status := .pending, createdAt := now, expiresAt := now + ttlSeconds }

variable {progress now}

theorem expire_of_not_due (current : ¬progress.Due now) : progress.expire now = progress := by
  rw [expire, if_neg current]

/-- A record that is still approved after `_expire` has time left. -/
theorem lt_of_approved (approved : (progress.expire now).status = .approved) :
    now < progress.expiresAt ∧ progress.status = .approved := by
  rw [expire] at approved
  by_cases due : progress.Due now
  · rw [if_pos due] at approved
    contradiction
  · rw [if_neg due] at approved
    exact ⟨lt_of_not_ge fun late => due ⟨.inr approved, late⟩, approved⟩

theorem lt_of_pending (pending : (progress.expire now).status = .pending) :
    now < progress.expiresAt ∧ progress.status = .pending := by
  rw [expire] at pending
  by_cases due : progress.Due now
  · rw [if_pos due] at pending
    contradiction
  · rw [if_neg due] at pending
    exact ⟨lt_of_not_ge fun late => due ⟨.inl pending, late⟩, pending⟩

theorem not_due_requested {ttlSeconds : ℚ} (lasting : 0 < ttlSeconds) :
    ¬(Progress.requested now ttlSeconds).Due now := by
  intro due
  exact absurd due.2 (not_le.mpr (lt_add_of_pos_right now lasting))

theorem not_due_terminal (terminal : progress.status.Terminal) :
    ¬progress.Due now := by
  intro ⟨live, _⟩
  rcases terminal with denied | consumed | expired <;> simp_all

end Progress

/-! ## Fingerprints and digests -/

/-- The object that `_intent_fingerprint` hashes. -/
def ApprovalIntent.payload (intent : ApprovalIntent) : Json := .obj [
  ("arguments_digest", .str intent.argumentsDigest), ("operation", .str intent.operation),
  ("policy_revision", .str intent.policyRevision), ("principal_id", .str intent.principalId),
  ("revision", .str intent.revision), ("session_id", .str intent.sessionId),
  ("side_effect", .str intent.sideEffect), ("task_id", .str intent.taskId),
  ("tenant_id", .str intent.tenantId)]

/-- `_same_intent`. -/
def sameIntent (sha256 : Bytes → Bytes) (left right : ApprovalIntent) : Bool :=
  sha256 (encodeUtf8 (canonicalJson left.payload)) =
    sha256 (encodeUtf8 (canonicalJson right.payload))

/-- `TenantScope.digest` under a key. -/
def scopeDigest (mac : Bytes → Bytes) (scope : TenantScope) : String :=
  hex (mac (encodeUtf8 "capabilityhub-tenant-scope-v1\x00" ++ encodeUtf8 (canonicalJson (.obj [
    ("principal", .str scope.principal), ("session", .str scope.session),
    ("task", .str scope.task), ("tenant", .str scope.tenant)]))))

/-- The digest of an identifier in `_digests`. -/
def approvalDigest (mac : Bytes → Bytes) (digest approvalId : String) : String :=
  hex (mac (encodeUtf8 "capabilityhub-approval-id-v1\x00" ++ encodeUtf8 digest ++
    encodeUtf8 approvalId))

variable {sha256 mac : Bytes → Bytes} {left right : ApprovalIntent}

/-- The hash of the intents tells all nine fields apart. -/
theorem sameIntent_iff (injective : Function.Injective sha256) :
    sameIntent sha256 left right ↔ left = right := by
  rw [sameIntent, decide_eq_true_iff]
  refine ⟨fun same => ?_, fun same => by rw [same]⟩
  have equal := sorted_of_canonicalJson
    (by simp [ApprovalIntent.payload, Json.Distinct, DistinctFields])
    (by simp [ApprovalIntent.payload, Json.Distinct, DistinctFields])
    (References.encodeUtf8_injective (injective same))
  simp [ApprovalIntent.payload, Json.sorted, sortedFields] at equal
  cases left
  cases right
  simp_all

theorem scopeDigest_injective (injective : Function.Injective mac) :
    Function.Injective (scopeDigest mac) := by
  intro first second same
  have equal := sorted_of_canonicalJson (by simp [Json.Distinct, DistinctFields])
    (by simp [Json.Distinct, DistinctFields])
    (References.encodeUtf8_injective (List.append_cancel_left (injective (hex_injective same))))
  simp [Json.sorted, sortedFields] at equal
  cases first
  cases second
  simp_all

theorem approvalDigest_injective (injective : Function.Injective mac) (digest : String) :
    Function.Injective (approvalDigest mac digest) := by
  intro first second same
  exact References.encodeUtf8_injective (List.append_cancel_left (injective (hex_injective same)))

end CapabilityHub.Approval
