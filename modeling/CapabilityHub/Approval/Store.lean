import CapabilityHub.Approval.Ledger
import CapabilityHub.Database.Transaction
import Mathlib.Data.Prod.Lex
import Mathlib.Data.String.Basic

/-! # The approval store

`SqliteApprovalStore`. A row is the entry of its identifier. What the first transaction of a call
does is a function of its own; the calls that read the record again in a second transaction do so
as `get` does.
-/

namespace CapabilityHub.Approval

open Transaction

/-- The rows of `approval_records`, by `approval_id`. -/
abbrev ApprovalRecords : Type := Dict String Entry

/-- `_record`. -/
def Entry.record (approvalId : String) (row : Entry) : ApprovalRecord :=
  ⟨approvalId, row.intent, row.progress⟩

def Entry.expired (row : Entry) : Entry := ⟨row.intent, row.progress.expired⟩

/-- `ORDER BY created_at DESC` and then by a text, `DESC` as well. -/
def newestFirst (text : ApprovalRecord → String) (record : ApprovalRecord) : ℚᵒᵈ ×ₗ Stringᵒᵈ :=
  toLex (OrderDual.toDual record.progress.createdAt, OrderDual.toDual (text record))

/-- `limit` of `list`. -/
def checkListLimit (limit : Int) : Except Raised Unit :=
  raiseIf (¬(1 ≤ limit ∧ limit ≤ 500)) .valueError

/-- `ApprovalStatus(status) if status is not None else None`. -/
def selectedStatus : Option String → Except Raised (Option ApprovalStatus)
  | none => .ok none
  | some text => (ApprovalStatus.parse text).map some

namespace SqliteApprovalStore

variable (sha256 : Bytes → Bytes)

/-- `_expire`. -/
def expire (now : ℚ) (approvalId : Option String) (table : ApprovalRecords) : ApprovalRecords :=
  table.updateWhere
    (fun key row => row.progress.Due now ∧ ∀ given ∈ approvalId, key = given) Entry.expired

/-- `get`. -/
def get (approvalId : String) (now : ℚ) : Transaction ApprovalRecords Raised ApprovalRecord := do
  query fun _ => checkNow now
  let row ← atomically do
    write (expire now (some approvalId))
    query fun table => .ok (table.get? approvalId)
  query fun _ =>
    match row with
    | none => .error (notFound approvalId)
    | some row => .ok (row.record approvalId)

/-- The first transaction of `request`. -/
def insertRecord (intent : ApprovalIntent) (ttlSeconds : ℚ) (approvalId : Option String)
    (generated : String) (now : ℚ) : Transaction ApprovalRecords Raised String := do
  query fun _ => raiseIf (ttlSeconds ≤ 0) .valueError
  let identifier := identifierOf approvalId generated
  query fun _ => raiseIf (identifier = "") .valueError
  query fun _ => checkNow now
  atomically do
    query fun table => raiseIf (table.get? identifier ≠ none) .valueError
    write fun table => table.set identifier ⟨intent, .requested now ttlSeconds⟩
  pure identifier

/-- `request`. -/
def request (intent : ApprovalIntent) (ttlSeconds : ℚ) (approvalId : Option String)
    (generated : String) (now : ℚ) : Transaction ApprovalRecords Raised ApprovalRecord := do
  let identifier ← insertRecord intent ttlSeconds approvalId generated now
  get identifier now

/-- The rows that `list` selects, in their order. -/
def selected (status : Option ApprovalStatus) (limit : Int) (table : ApprovalRecords) :
    List ApprovalRecord :=
  (sortedBy (newestFirst ApprovalRecord.approvalId)
    ((table.entries.map fun entry => entry.2.record entry.1).filter fun record =>
      ∀ wanted ∈ status, record.progress.status = wanted)).take limit.toNat

/-- `list`. -/
def list (status : Option String) (limit : Int) (now : ℚ) :
    Transaction ApprovalRecords Raised (List ApprovalRecord) := do
  query fun _ => checkListLimit limit
  let wanted ← query fun _ => selectedStatus status
  atomically do
    query fun _ => checkNow now
    write (expire now none)
    query fun table => .ok (selected wanted limit table)

/-- What `_decide` asks of the row. -/
def checkPending (approvalId : String) : Option Entry → Except Raised Unit
  | none => .error (notFound approvalId)
  | some row => do
      raiseIf (row.progress.status = .expired)
        (approvalError "approval_expired" "The approval has expired." approvalId)
      raiseIf (row.progress.status ≠ .pending)
        (approvalError "approval_invalid_transition"
          "The approval request is no longer pending." approvalId)

/-- `_decide`; `none` where the assertion on the row fails. -/
def decide (approvalId : String) (status : ApprovalStatus) (decidedBy : String) (now : ℚ) :
    Transaction ApprovalRecords Raised (Option ApprovalRecord) := do
  query fun _ => raiseIf (decidedBy = "") .valueError
  query fun _ => checkNow now
  atomically do
    write (expire now (some approvalId))
    query fun table => checkPending approvalId (table.get? approvalId)
    write fun table => table.updateWhere
      (fun key row => key = approvalId ∧ row.progress.status = .pending)
      fun row => ⟨row.intent, row.progress.decided now status decidedBy⟩
    query fun table => .ok ((table.get? approvalId).map (Entry.record approvalId))

/-- `approve`. -/
def approve (approvalId decidedBy : String) (now : ℚ) :
    Transaction ApprovalRecords Raised (Option ApprovalRecord) :=
  decide approvalId .approved decidedBy now

/-- `deny`. -/
def deny (approvalId decidedBy : String) (now : ℚ) :
    Transaction ApprovalRecords Raised (Option ApprovalRecord) :=
  decide approvalId .denied decidedBy now

/-- What `consume` asks of the row. -/
def checkConsumable (approvalId : String) (intent : ApprovalIntent) :
    Option Entry → Except Raised Unit
  | none => .error (notFound approvalId)
  | some row => do
      raiseIf (sameIntent sha256 row.intent intent = false)
        (approvalError "approval_intent_mismatch"
          "The approval does not match this exact execution intent." approvalId)
      raiseIf (row.progress.status = .expired)
        (approvalError "approval_expired" "The approval has expired." approvalId)
      raiseIf (row.progress.status = .consumed)
        (approvalError "approval_already_consumed" "The approval was already used." approvalId)
      raiseIf (row.progress.status ≠ .approved)
        (approvalError "approval_not_approved" "The approval is not approved." approvalId)

/-- `consume`; `none` where the assertion on the row fails. -/
def consume (approvalId : String) (intent : ApprovalIntent) (now : ℚ) :
    Transaction ApprovalRecords Raised (Option ApprovalRecord) := do
  query fun _ => checkNow now
  atomically do
    write (expire now (some approvalId))
    query fun table => checkConsumable sha256 approvalId intent (table.get? approvalId)
    write fun table => table.updateWhere
      (fun key row => key = approvalId ∧ row.progress.status = .approved)
      fun row => ⟨row.intent, row.progress.consumed now⟩
    query fun table => .ok ((table.get? approvalId).map (Entry.record approvalId))

end SqliteApprovalStore

end CapabilityHub.Approval
