import CapabilityHub.Approval.Store

/-! # The scoped approval store

`ScopedApprovalStore`. A row has the digests of its scope and of its identifier for a key, and its
record takes the identities of the intent from the scope of the caller.
-/

namespace CapabilityHub.Approval

open Tenancy (TenantScope)
open Transaction

/-- A scope as `TenantScope.__post_init__` leaves it. -/
structure CallerScope extends TenantScope where
  named : tenant ≠ "" ∧ principal ≠ "" ∧ session ≠ "" ∧ task ≠ ""
  deriving DecidableEq

/-- A row of `scoped_approval_records` without its digests; its texts are those of an intent. -/
structure ScopedApprovalRow where
  approvalId : String
  revision : String
  operation : String
  argumentsDigest : String
  sideEffect : String
  policyRevision : String
  progress : Progress
  named : ∀ field ∈ [revision, operation, sideEffect, policyRevision], field ≠ ""
  digest : argumentsDigest.length = 64 ∧
    ∀ char ∈ argumentsDigest.toList, char ∈ "0123456789abcdef".toList

/-- The rows of `scoped_approval_records`, by `scope_digest` and `approval_digest`. -/
abbrev ScopedApprovalRecords : Type := Dict (String × String) ScopedApprovalRow

namespace ScopedApprovalRow

/-- The intent of `_scoped_record`. -/
def intent (row : ScopedApprovalRow) (scope : CallerScope) : ApprovalIntent where
  revision := row.revision
  operation := row.operation
  argumentsDigest := row.argumentsDigest
  tenantId := scope.tenant
  principalId := scope.principal
  sessionId := scope.session
  taskId := scope.task
  sideEffect := row.sideEffect
  policyRevision := row.policyRevision
  named := by
    have texts := row.named
    simp only [List.mem_cons, List.not_mem_nil, or_false, forall_eq_or_imp, forall_eq] at texts ⊢
    exact ⟨texts.1, texts.2.1, scope.named.1, scope.named.2.1, scope.named.2.2.1,
      scope.named.2.2.2, texts.2.2.1, texts.2.2.2⟩
  digest := row.digest

/-- `_scoped_record`. -/
def record (row : ScopedApprovalRow) (scope : CallerScope) : ApprovalRecord :=
  ⟨row.approvalId, row.intent scope, row.progress⟩

def withProgress (row : ScopedApprovalRow) (progress : Progress) : ScopedApprovalRow :=
  { row with progress := progress }

/-- The row that `request` inserts. -/
def requested (approvalId : String) (intent : ApprovalIntent) (progress : Progress) :
    ScopedApprovalRow where
  approvalId := approvalId
  revision := intent.revision
  operation := intent.operation
  argumentsDigest := intent.argumentsDigest
  sideEffect := intent.sideEffect
  policyRevision := intent.policyRevision
  progress := progress
  named := by
    have texts := intent.named
    simp only [List.mem_cons, List.not_mem_nil, or_false, forall_eq_or_imp, forall_eq] at texts ⊢
    exact ⟨texts.1, texts.2.1, texts.2.2.2.2.2.2.1, texts.2.2.2.2.2.2.2⟩
  digest := intent.digest

end ScopedApprovalRow

/-- The scope is the one of the intent. -/
def CallerScope.Matches (scope : CallerScope) (intent : ApprovalIntent) : Prop :=
  (scope.tenant, scope.principal, scope.session, scope.task) =
    (intent.tenantId, intent.principalId, intent.sessionId, intent.taskId)

instance {scope : CallerScope} {intent : ApprovalIntent} : Decidable (scope.Matches intent) :=
  inferInstanceAs (Decidable (_ = _))

namespace ScopedApprovalStore

variable (sha256 mac : Bytes → Bytes)

/-- `_digests`. -/
def digests (scope : CallerScope) (approvalId : String) : Except Raised (String × String) := do
  raiseIf (approvalId = "") .valueError
  let digest := scopeDigest mac scope.toTenantScope
  .ok (digest, approvalDigest mac digest approvalId)

/-- `_require_matching_scope`. -/
def requireMatchingScope (scope : CallerScope) (intent : ApprovalIntent) : Except Raised Unit :=
  raiseIf (¬scope.Matches intent) (notFound "unavailable")

/-- `_expire`. -/
def expire (digest : String) (now : ℚ) (approval : Option String)
    (table : ScopedApprovalRecords) : ScopedApprovalRecords :=
  table.updateWhere
    (fun key row => row.progress.Due now ∧ key.1 = digest ∧ ∀ given ∈ approval, key.2 = given)
    fun row => row.withProgress row.progress.expired

/-- `get`. -/
def get (scope : CallerScope) (approvalId : String) (now : ℚ) :
    Transaction ScopedApprovalRecords Raised ApprovalRecord := do
  query fun _ => checkNow now
  let place ← query fun _ => digests mac scope approvalId
  let row ← atomically do
    write (expire place.1 now (some place.2))
    query fun table => .ok (table.get? place)
  query fun _ =>
    match row with
    | none => .error (notFound approvalId)
    | some row => .ok (row.record scope)

/-- The first transaction of `request`. -/
def insertRecord (scope : CallerScope) (intent : ApprovalIntent) (ttlSeconds : ℚ)
    (approvalId : Option String) (generated : String) (now : ℚ) :
    Transaction ScopedApprovalRecords Raised String := do
  query fun _ => requireMatchingScope scope intent
  query fun _ => raiseIf (ttlSeconds ≤ 0) .valueError
  let identifier := identifierOf approvalId generated
  query fun _ => raiseIf (identifier = "") .valueError
  query fun _ => checkNow now
  let place ← query fun _ => digests mac scope identifier
  atomically do
    query fun table => raiseIf (table.get? place ≠ none) .valueError
    write fun table => table.set place (.requested identifier intent (.requested now ttlSeconds))
  pure identifier

/-- `request`. -/
def request (scope : CallerScope) (intent : ApprovalIntent) (ttlSeconds : ℚ)
    (approvalId : Option String) (generated : String) (now : ℚ) :
    Transaction ScopedApprovalRecords Raised ApprovalRecord := do
  let identifier ← insertRecord mac scope intent ttlSeconds approvalId generated now
  get mac scope identifier now

/-- The rows that `list` selects, in their order. -/
def selected (scope : CallerScope) (digest : String) (status : Option ApprovalStatus) (limit : Int)
    (table : ScopedApprovalRecords) : List ApprovalRecord :=
  ((sortedBy (fun entry => newestFirst (fun _ => entry.1.2) (entry.2.record scope))
    (table.entries.filter fun entry => entry.1.1 = digest ∧
      ∀ wanted ∈ status, entry.2.progress.status = wanted)).take limit.toNat).map
    fun entry => entry.2.record scope

/-- `list`. -/
def list (scope : CallerScope) (status : Option String) (limit : Int) (now : ℚ) :
    Transaction ScopedApprovalRecords Raised (List ApprovalRecord) := do
  query fun _ => checkListLimit limit
  let digest := scopeDigest mac scope.toTenantScope
  let wanted ← query fun _ => selectedStatus status
  atomically do
    query fun _ => checkNow now
    write (expire digest now none)
    query fun table => .ok (selected scope digest wanted limit table)

/-- What `_decide` asks of the row. -/
def checkPending (approvalId : String) : Option ScopedApprovalRow → Except Raised Unit
  | none => .error (notFound approvalId)
  | some row =>
      raiseIf (row.progress.status ≠ .pending)
        (approvalError "approval_invalid_transition"
          "The approval request is no longer pending." approvalId)

/-- The first transaction of `_decide`. -/
def decideRecord (scope : CallerScope) (approvalId : String) (status : ApprovalStatus)
    (decidedBy : String) (now : ℚ) : Transaction ScopedApprovalRecords Raised Unit := do
  query fun _ => raiseIf (decidedBy = "") .valueError
  query fun _ => checkNow now
  let place ← query fun _ => digests mac scope approvalId
  atomically do
    write (expire place.1 now (some place.2))
    query fun table => checkPending approvalId (table.get? place)
    write fun table => table.updateWhere
      (fun key row => key = place ∧ row.progress.status = .pending)
      fun row => row.withProgress (row.progress.decided now status decidedBy)

/-- `_decide`. -/
def decide (scope : CallerScope) (approvalId : String) (status : ApprovalStatus)
    (decidedBy : String) (now : ℚ) : Transaction ScopedApprovalRecords Raised ApprovalRecord := do
  decideRecord mac scope approvalId status decidedBy now
  get mac scope approvalId now

/-- `approve`. -/
def approve (scope : CallerScope) (approvalId decidedBy : String) (now : ℚ) :
    Transaction ScopedApprovalRecords Raised ApprovalRecord :=
  decide mac scope approvalId .approved decidedBy now

/-- `deny`. -/
def deny (scope : CallerScope) (approvalId decidedBy : String) (now : ℚ) :
    Transaction ScopedApprovalRecords Raised ApprovalRecord :=
  decide mac scope approvalId .denied decidedBy now

/-- `_decide_as`. -/
def decideAs (requesterScope approverScope : CallerScope) (approvalId : String)
    (status : ApprovalStatus) (now : ℚ) :
    Transaction ScopedApprovalRecords Raised ApprovalRecord := do
  query fun _ => raiseIf (requesterScope.tenant ≠ approverScope.tenant) (notFound approvalId)
  decide mac requesterScope approvalId status approverScope.principal now

/-- `approve_as`. -/
def approveAs (requesterScope approverScope : CallerScope) (approvalId : String) (now : ℚ) :
    Transaction ScopedApprovalRecords Raised ApprovalRecord :=
  decideAs mac requesterScope approverScope approvalId .approved now

/-- `deny_as`. -/
def denyAs (requesterScope approverScope : CallerScope) (approvalId : String) (now : ℚ) :
    Transaction ScopedApprovalRecords Raised ApprovalRecord :=
  decideAs mac requesterScope approverScope approvalId .denied now

/-- What `consume` asks of the row. -/
def checkConsumable (scope : CallerScope) (approvalId : String) (intent : ApprovalIntent) :
    Option ScopedApprovalRow → Except Raised Unit
  | none => .error (notFound approvalId)
  | some row => do
      raiseIf (sameIntent sha256 (row.intent scope) intent = false)
        (approvalError "approval_intent_mismatch"
          "The approval does not match this exact execution intent." approvalId)
      raiseIf (row.progress.status ≠ .approved)
        (approvalError
          (match row.progress.status with
          | .expired => "approval_expired"
          | .consumed => "approval_already_consumed"
          | _ => "approval_not_approved")
          "The approval cannot be consumed." approvalId)

/-- The row is the approved one of its place. -/
def Consumable (place : String × String) (key : String × String) (row : ScopedApprovalRow) : Prop :=
  key = place ∧ row.progress.status = .approved

instance {place key : String × String} {row : ScopedApprovalRow} :
    Decidable (Consumable place key row) :=
  inferInstanceAs (Decidable (_ ∧ _))

/-- The first transaction of `consume`. -/
def consumeRecord (scope : CallerScope) (approvalId : String) (intent : ApprovalIntent) (now : ℚ) :
    Transaction ScopedApprovalRecords Raised Unit := do
  query fun _ => requireMatchingScope scope intent
  query fun _ => checkNow now
  let place ← query fun _ => digests mac scope approvalId
  atomically do
    write (expire place.1 now (some place.2))
    query fun table => checkConsumable sha256 scope approvalId intent (table.get? place)
    let rowcount ← query fun table => .ok (table.countWhere (Consumable place))
    write fun table => table.updateWhere (Consumable place)
      fun row => row.withProgress (row.progress.consumed now)
    query fun _ => raiseIf (rowcount ≠ 1)
      (approvalError "approval_already_consumed" "The approval cannot be consumed." approvalId)

/-- `consume`. -/
def consume (scope : CallerScope) (approvalId : String) (intent : ApprovalIntent) (now : ℚ) :
    Transaction ScopedApprovalRecords Raised ApprovalRecord := do
  consumeRecord sha256 mac scope approvalId intent now
  get mac scope approvalId now

end ScopedApprovalStore

def sampleScope : CallerScope := ⟨⟨"tenant", "alice", "session", "task"⟩, by decide⟩

def sampleIntent : ApprovalIntent where
  revision := "demo/revision"
  operation := "write"
  argumentsDigest := String.ofList (List.replicate 64 'a')
  tenantId := "tenant"
  principalId := "alice"
  sessionId := "session"
  taskId := "task"
  sideEffect := "reversible_write"
  policyRevision := "policy-v1"
  named := by decide
  digest := by
    rw [String.length_ofList, String.toList_ofList]
    refine ⟨List.length_replicate, fun char member => ?_⟩
    rw [List.eq_of_mem_replicate member]
    decide

end CapabilityHub.Approval
