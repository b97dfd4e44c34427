import CapabilityHub.Data.Hex
import CapabilityHub.Residency.Records
import CapabilityHub.Tenancy.ScopedState
import Mathlib.Data.List.DropRight

/-! # Context removal

`ContextRemovalCoordinator`, on the JSON value that the scoped state keeps under one key. The fresh
identifier of an instruction is an argument of a request.
-/

namespace CapabilityHub.Removal

open Residency Tenancy

inductive RemovalStatus where
  | pending
  | confirmed
  deriving DecidableEq

def RemovalStatus.value : RemovalStatus → String
  | .pending => "pending"
  | .confirmed => "confirmed"

structure RemovalInstruction where
  instructionId : String
  target : String
  generation : Int
  attempts : Int
  status : RemovalStatus
  acknowledged : Bool
  deriving DecidableEq

def RemovalInstruction.confirmed (instruction : RemovalInstruction) : Bool :=
  instruction.status = .confirmed && instruction.acknowledged

/-- A record of the list that is stored. -/
structure Record extends RemovalInstruction where
  ackDigest : Option String
  idempotencyDigest : String
  deriving DecidableEq

namespace Errors

def contextRemovalUnsupported : Raised :=
  .hub { code := "context_removal_unsupported", category := .input,
         safeMessage := "The client did not negotiate context removal acknowledgements." }

def contextRemovalStateInvalid : Raised :=
  .hub { code := "context_removal_state_invalid", category := .internal,
         safeMessage := "The context removal state is invalid." }

def contextRemovalNotFound : Raised :=
  .hub { code := "context_removal_not_found", category := .reference,
         safeMessage := "The context removal instruction does not exist." }

/-- `_conflict`. -/
def conflict (code : String) : Raised :=
  .hub { code := code, category := .policy,
         safeMessage := "The context removal state changed or conflicts with this request." }

end Errors

/-! ## The stored value -/

def encodeRecord (record : Record) : Json :=
  .obj [("ack_digest", (record.ackDigest.map Json.str).getD .null),
    ("acknowledged", .bool record.acknowledged), ("attempts", .int record.attempts),
    ("generation", .int record.generation), ("idempotency_digest", .str record.idempotencyDigest),
    ("instruction_id", .str record.instructionId), ("status", .str record.status.value),
    ("target", .str record.target)]

/-- `_encode`. -/
def encode (generation : Int) (records : List Record) : Json :=
  .obj [("generation", .int generation), ("records", .arr (records.map encodeRecord)),
    ("schema_version", .int 1)]

/-- `RemovalStatus(status)`. -/
def statusField (fields : List (String × Json)) : Except Raised RemovalStatus := do
  let text ← anyTextField .typeError fields "status"
  if text = "pending" then .ok .pending
  else if text = "confirmed" then .ok .confirmed
  else .error .valueError

/-- `ack_digest`, which may be null. -/
def ackField (fields : List (String × Json)) : Except Raised (Option String) :=
  match mappingGet fields "ack_digest" with
  | none | some .null => .ok none
  | some (.str digest) => .ok (some digest)
  | some _ => .error .typeError

/-- `_instruction`. -/
def instruction (fields : List (String × Json)) : Except Raised RemovalInstruction := do
  let generation ← naturalField .typeError fields "generation"
  let attempts ← positiveField .typeError fields "attempts"
  let instructionId ← anyTextField .typeError fields "instruction_id"
  let target ← anyTextField .typeError fields "target"
  let acknowledged ← truthField .typeError fields "acknowledged"
  let status ← statusField fields
  raiseIf (status = .confirmed ∧ acknowledged = false) .typeError
  .ok ⟨instructionId, target, generation, attempts, status, acknowledged⟩

/-- A record, of which no other members are kept than those that are written. -/
def decodeRecord (value : Json) : Except Raised Record := do
  let fields ← objectFields .typeError value
  let instruction ← instruction fields
  let idempotencyDigest ← anyTextField .typeError fields "idempotency_digest"
  let ackDigest ← ackField fields
  .ok { instruction with ackDigest := ackDigest, idempotencyDigest := idempotencyDigest }

/-- `_decode`, of a value that is there. -/
def decodeValue (raw : Json) : Except Raised (Int × List Record) := do
  let fields ← objectFields .typeError raw
  schemaField .typeError fields
  let generation ← naturalField .typeError fields "generation"
  let values ← listField .typeError fields "records"
  let records ← values.mapM decodeRecord
  .ok (generation, records)

/-- `_decode`. -/
def decode : Option Json → Except Raised (Int × List Record)
  | none => .ok (0, [])
  | some raw => (decodeValue raw).mapError fun _ => Errors.contextRemovalStateInvalid

/-! ## Operations -/

structure ContextRemovalCoordinator where
  supported : Bool
  recordLimit : Nat := 500
  bounded : 1 ≤ recordLimit ∧ recordLimit ≤ 10000

/-- A call of one of the three operations; `token` is what `token_hex` returns. -/
inductive Operation where
  | request (target idempotencyKey : String) (expectedGeneration : Int) (token : String)
  | retry (instructionId : String) (expectedGeneration : Int)
  | acknowledge (instructionId acknowledgementId : String) (removed : Bool) (expectedGeneration : Int)
  deriving DecidableEq

/-- `_text`. -/
def checkText (value : String) : Except Raised Unit :=
  raiseIf (value = "" ∨ 256 < value.length) .valueError

/-- The checks before the transaction. -/
def Operation.check : Operation → Except Raised Unit
  | .request target idempotencyKey _ _ => do
      checkText target
      checkText idempotencyKey
  | .retry instructionId _ => checkText instructionId
  | .acknowledge instructionId acknowledgementId _ _ => do
      checkText instructionId
      checkText acknowledgementId

variable (sha256 : Bytes → Bytes)

/-- `_digest`. -/
def digest (value : String) : String :=
  hex (sha256 (encodeUtf8 ("capabilityhub-context-removal-v1\x00" ++ value)))

/-- `_expect_generation`. -/
def expectGeneration (actual expected : Int) : Except Raised Unit := do
  raiseIf (expected < 0) .typeError
  raiseIf (actual ≠ expected) (Errors.conflict "context_removal_generation_conflict")

/-- `_find`. -/
def find (records : List Record) (instructionId : String) : Except Raised (Nat × Record) :=
  match records.findIdx? (·.instructionId = instructionId),
    records.find? (·.instructionId = instructionId) with
  | some index, some record => .ok (index, record)
  | _, _ => .error Errors.contextRemovalNotFound

/-- `raw_or_empty`. -/
def rawOrEmpty : Option Json → Json
  | none => encode 0 []
  | some raw => raw

/-- `update` of `request`. -/
def updateRequest (recordLimit : Nat) (target idempotencyKey : String) (expected : Int)
    (token : String) (raw : Option Json) : Except Raised (Option Json × RemovalInstruction) := do
  let (generation, records) ← decode raw
  match records.find? (·.idempotencyDigest = digest sha256 idempotencyKey) with
  | some existing => do
      raiseIf (existing.target ≠ target) (Errors.conflict "context_removal_idempotency_conflict")
      .ok (some (rawOrEmpty raw), existing.toRemovalInstruction)
  | none => do
      expectGeneration generation expected
      let record : Record := {
        instructionId := token
        target := target
        generation := generation + 1
        attempts := 1
        status := .pending
        acknowledged := false
        ackDigest := none
        idempotencyDigest := digest sha256 idempotencyKey }
      .ok (some (encode (generation + 1) ((records ++ [record]).rtake recordLimit)),
        record.toRemovalInstruction)

/-- `update` of `retry`. -/
def updateRetry (instructionId : String) (expected : Int) (raw : Option Json) :
    Except Raised (Option Json × RemovalInstruction) := do
  let (generation, records) ← decode raw
  let (index, record) ← find records instructionId
  if record.confirmed then .ok (some (rawOrEmpty raw), record.toRemovalInstruction)
  else do
    expectGeneration generation expected
    let replacement : Record :=
      { record with attempts := record.attempts + 1, generation := generation + 1 }
    .ok (some (encode (generation + 1) (records.set index replacement)),
      replacement.toRemovalInstruction)

/-- `update` of `acknowledge`. -/
def updateAcknowledge (instructionId acknowledgementId : String) (removed : Bool) (expected : Int)
    (raw : Option Json) : Except Raised (Option Json × RemovalInstruction) := do
  let (generation, records) ← decode raw
  let (index, record) ← find records instructionId
  if record.ackDigest = some (digest sha256 acknowledgementId) then
    .ok (some (rawOrEmpty raw), record.toRemovalInstruction)
  else do
    raiseIf (record.confirmed = true) (Errors.conflict "context_removal_ack_conflict")
    expectGeneration generation expected
    let replacement : Record :=
      { record with
        ackDigest := some (digest sha256 acknowledgementId)
        acknowledged := true
        generation := generation + 1
        status := if removed then .confirmed else record.status }
    .ok (some (encode (generation + 1) (records.set index replacement)),
      replacement.toRemovalInstruction)

/-- The update of an operation. -/
def update (recordLimit : Nat) : Operation → Option Json →
    Except Raised (Option Json × RemovalInstruction)
  | .request target idempotencyKey expected token =>
      updateRequest sha256 recordLimit target idempotencyKey expected token
  | .retry instructionId expected => updateRetry instructionId expected
  | .acknowledge instructionId acknowledgementId removed expected =>
      updateAcknowledge sha256 instructionId acknowledgementId removed expected

/-- A call of a coordinator at a time. -/
def perform (keying : Keying) (scope : TenantScope) (coordinator : ContextRemovalCoordinator)
    (state : ScopedState Json) (now : ℚ) (operation : Operation) :
    Except Raised (RemovalInstruction × ScopedState Json) := do
  raiseIf (coordinator.supported = false) Errors.contextRemovalUnsupported
  operation.check
  state.transactEntry keying scope "state" (update sha256 coordinator.recordLimit operation)
    "context-removal" now

end CapabilityHub.Removal
