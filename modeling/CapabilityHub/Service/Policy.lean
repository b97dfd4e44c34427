import CapabilityHub.Models
import Mathlib.Data.List.Dedup
import Mathlib.Data.List.Sort

/-! # The reference policy -/

namespace CapabilityHub.Service

inductive PolicyOutcome where
  | allow
  | deny
  | approvalRequired
  deriving DecidableEq

/-- The text of an outcome. -/
def PolicyOutcome.value : PolicyOutcome → String
  | .allow => "allow"
  | .deny => "deny"
  | .approvalRequired => "approval_required"

structure PolicyDecision where
  outcome : PolicyOutcome
  reasonCodes : List String
  deriving DecidableEq

structure PolicyContext where
  grantedPermissions : List String
  approved : Bool := false
  allowIrreversible : Bool := false

/-- `ReferencePolicy.decide`. -/
def decidePolicy (manifest : CapabilityManifest) (operation : OperationSpec)
    (context : PolicyContext) : PolicyDecision :=
  let missing := (manifest.permissions.filter fun permission =>
    permission ∉ context.grantedPermissions).dedup.insertionSort (· ≤ ·)
  if missing ≠ [] then ⟨.deny, "missing_permission" :: missing⟩
  else if operation.sideEffect = .irreversible ∧ ¬context.allowIrreversible then
    ⟨.deny, ["irreversible_disallowed"]⟩
  else if operation.requiresApproval ∧ ¬context.approved then
    ⟨.approvalRequired, ["operation_requires_approval"]⟩
  else if operation.sideEffect = .reversibleWrite ∧ ¬context.approved then
    ⟨.approvalRequired, ["write_requires_approval"]⟩
  else ⟨.allow, ["policy_allow"]⟩

/-- The operation requires approval or is a reversible write. -/
def NeedsApproval (operation : OperationSpec) : Prop :=
  operation.requiresApproval ∨ operation.sideEffect = .reversibleWrite

theorem approved_of_allow {manifest : CapabilityManifest} {operation : OperationSpec}
    {context : PolicyContext} (needs : NeedsApproval operation)
    (allowed : (decidePolicy manifest operation context).outcome = .allow) :
    context.approved = true := by
  by_contra refused
  unfold decidePolicy at allowed
  rcases needs with required | write
  · simp only [required, refused] at allowed
    split at allowed
    · cases allowed
    · split at allowed <;> cases allowed
  · simp only [write, refused] at allowed
    split at allowed
    · cases allowed
    · split at allowed
      · cases allowed
      · split at allowed <;> cases allowed

end CapabilityHub.Service
