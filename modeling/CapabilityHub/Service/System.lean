import CapabilityHub.Data.Runs
import CapabilityHub.Service.Execution

/-! # Services that share their state

Calls of `search`, `load`, `issue_approval` and `execute` of any number of services, in any order
of their steps. `issued`, `approvals`, `admissions` and what a call notes about its times are a
record of the run, which no step reads.
-/

namespace CapabilityHub.Service

/-- A call of `issue_approval` that has given a reference. -/
structure Approval where
  revision : String
  operation : String
  arguments : List (String × Json)
  taskId : String
  context : ServiceContext
  claims : References.ReferenceClaims

inductive Phase where
  | checked
  | waiting
  | admitted
  | invoked
  | settled (result : ExecutionResult)
  | raising
  | replayed (result : ExecutionResult)
  | returned (result : ExecutionResult)
  | failed

/-- A call of `execute` that has passed its checks. -/
structure Call where
  service : CapabilityHubService
  request : ExecutionRequest
  context : ServiceContext
  checked : Checked
  approvalAt : ℚ
  phase : Phase := .checked
  reservedAt : Option ℚ := none
  completion : Option (ℚ × ExecutionResult) := none
  invocations : Nat := 0

structure System where
  issued : List References.ReferenceClaims
  approvals : List Approval
  grants : Dict (Nat × String) ExecutionGrant
  idempotency : IdempotencyState
  calls : List Call
  admissions : List (Seat × Nat)

def System.initial : System := ⟨[], [], ∅, ⟨∅, ∅⟩, [], []⟩

inductive Action where
  | search (service : CapabilityHubService) (context : ServiceContext) (revision : String) (now : ℚ)
  | load (service : CapabilityHubService) (capabilityRef : String) (context : ServiceContext)
      (sectionNames operationNames : Option (List String)) (maxOutputTokens : Int)
      (verifiedAt executionAt : ℚ) (handleTimes : Nat → ℚ × ℚ) (delivered : Except Raised Unit)
  | approve (service : CapabilityHubService) (revision operation : String)
      (arguments : List (String × Json)) (taskId : String) (context : ServiceContext)
      (ttlSeconds : Int) (now : ℚ)
  | execute (service : CapabilityHubService) (request : ExecutionRequest) (context : ServiceContext)
      (maxOutputTokens : Option Int) (executionAt approvalAt : ℚ) (reserved : Except Raised Unit)
  | reserve (index : Nat) (checkedAt insertedAt : ℚ)
  | resume (index : Nat) (timedOut : Bool)
  | invoke (index : Nat)
  | refuse (index : Nat)
  | provide (index : Nat) (answer : Except Raised ExecutionResult) (reconciled : Except Raised Unit)
  | complete (index : Nat) (now : ℚ)
  | abandon (index : Nat) (now : ℚ)
  | recover (now : ℚ)

section

-- SHA-256, the hash of a slot, the MAC of the reference signer, and the schema validator
variable (sha256 slotHash mac : Bytes → Bytes) (validates : List (String × Json) → Json → Bool)
  (backend : IdempotencyBackend)

/-! ## Issuing -/

/-- A load reference as `search` and `rehydrate` issue one for an active revision. -/
def issueLoad (service : CapabilityHubService) (context : ServiceContext) (revision : String)
    (now : ℚ) : Except Raised References.ReferenceClaims := do
  let manifest ← service.activeManifest revision
  let _ ← References.issue mac manifest.identity.revision context.referenceScope service.loadRefTtl
    "load" now
  pure (References.issuedClaims manifest.identity.revision context.referenceScope "load"
    service.loadRefTtl now)

/-- `_rehydration_handles`: one reference, issued and verified at two times. -/
def issueHandle (service : CapabilityHubService) (context : ServiceContext) (revision : String)
    (target : OmissionKind × String) (times : ℚ × ℚ) : Except Raised References.ReferenceClaims := do
  let purpose := rehydrationPurpose target.1 (rehydrationSelector sha256 revision target.1 target.2)
  let reference ← References.issue mac revision context.referenceScope service.loadRefTtl purpose
    times.1
  let _ ← References.verify mac reference context.referenceScope (some revision) purpose times.2
  pure (References.issuedClaims revision context.referenceScope purpose service.loadRefTtl times.1)

/-- What `load` hands out: the claims of its references, and the grant of the execution one. -/
structure Loaded where
  handles : List References.ReferenceClaims
  execution : Option (String × ExecutionGrant × References.ReferenceClaims)

/-- `load`. Whether its response fits and the budget pays for it is `delivered`. -/
def loadCapability (service : CapabilityHubService) (capabilityRef : String)
    (context : ServiceContext) (sectionNames operationNames : Option (List String))
    (maxOutputTokens : Int) (verifiedAt executionAt : ℚ) (handleTimes : Nat → ℚ × ℚ)
    (delivered : Except Raised Unit) : Except Raised Loaded := do
  service.guardDependencies .load
  positiveBudget maxOutputTokens
  let claims ← References.verify mac capabilityRef context.referenceScope none "load" verifiedAt
  let manifest ← service.activeManifest claims.revision
  let sections ← selectSections manifest sectionNames
  raiseIf (sections.any SectionDescriptor.sensitive ∧
      "content.sensitive" ∉ context.grantedPermissions)
    (policyError "sensitive_section_denied"
      "Loading sensitive capability content requires explicit permission.")
  let operations ← selectOperations manifest operationNames
  let revision := manifest.identity.revision
  let handles ← (rehydrationTargets manifest sections operations).zipIdx.mapM fun target =>
    issueHandle sha256 mac service context revision target.1 (handleTimes target.2)
  if manifest.kind = .skill then do
    delivered
    pure ⟨handles, none⟩
  else do
    let executionRef ← References.issue mac revision context.referenceScope service.executionTtl
      "execution" executionAt
    delivered
    pure ⟨handles, some (executionRef, ⟨revision, operations.map OperationSpec.name⟩,
      References.issuedClaims revision context.referenceScope "execution" service.executionTtl
        executionAt)⟩

/-- `issue_approval`. -/
def issueApproval (service : CapabilityHubService) (revision operation : String)
    (arguments : List (String × Json)) (context : ServiceContext) (ttlSeconds : Int) (now : ℚ) :
    Except Raised String := do
  let manifest ← service.activeManifest revision
  raiseIf ((manifest.operation operation).isNone = true)
    (unknownOperation "The capability does not declare this operation.")
  References.issue mac revision (approvalScope sha256 context operation arguments) ttlSeconds
    "approval" now

/-! ## Calls -/

namespace Call

variable (call : Call)

/-- The seat of a call with a key. A database has one seat for a slot. -/
def seat : Option Seat :=
  call.request.idempotencyKey.map fun key =>
    (match backend with
      | .shared => call.service.shared
      | .sqlite _ => 0,
      slotOf call.request call.context call.checked.manifest.identity.revision key)

def digest : String := argumentsDigest sha256 call.request call.checked.operation.sideEffect

/-- The phase in which a record that is there leaves a call. -/
def answered (existing : IdempotencyRecord) : Phase :=
  match replayOf existing (call.digest sha256) with
  | .ok result => .replayed result
  | .error _ => .failed

/-- The phase after the lookup of `_admit_idempotency` has found a record. A store gives a copy of
it; in the shared state it is read again. -/
def found (existing : IdempotencyRecord) : Phase :=
  match backend with
  | .shared => .waiting
  | .sqlite _ => if existing.status = .inProgress then .waiting else call.answered sha256 existing

end Call

/-- `wait` goes on after reading the record. -/
def waits (existing : IdempotencyRecord) (timedOut : Bool) : Bool :=
  match backend with
  | .shared => false
  | .sqlite _ => decide (existing.status = .inProgress) && !timedOut

/-- The call of an index, if there is one, is changed. -/
def System.change (system : System) (index : Nat) (next : Call → System) : System :=
  match system.calls[index]? with
  | none => system
  | some call => next call

def System.put (system : System) (index : Nat) (call : Call) : System :=
  { system with calls := system.calls.set index call }

/-- `_admit_idempotency`, up to the record it finds. -/
def reserveStep (system : System) (index : Nat) (checkedAt insertedAt : ℚ) : System :=
  system.change index fun call =>
    match call.phase with
    | .checked =>
        match call.request.idempotencyKey, call.seat backend with
        | some key, some seat =>
            if key = "" ∨ 256 < key.length then system.put index { call with phase := .failed }
            else
              let reserved := reserveSeat slotHash seat (call.digest sha256) checkedAt insertedAt
                backend system.idempotency
              match reserved.1 with
              | none =>
                  { system.put index { call with phase := .admitted, reservedAt := some checkedAt } with
                    idempotency := reserved.2
                    admissions := system.admissions ++ [(seat, index)] }
              | some existing =>
                  system.put index { call with phase := call.found sha256 backend existing }
        | _, _ => system.put index { call with phase := .admitted }
    | _ => system

/-- The rest of `_admit_idempotency`, one reading of the record at a time. -/
def resumeStep (system : System) (index : Nat) (timedOut : Bool) : System :=
  system.change index fun call =>
    match call.phase, call.seat backend with
    | .waiting, some seat =>
        let existing := waitSeat slotHash seat (call.digest sha256) backend system.idempotency
        if waits backend existing timedOut then system
        else system.put index { call with phase := call.answered sha256 existing }
    | _, _ => system

/-- The provider is invoked, however often the executor retries it. -/
def invokeStep (system : System) (index : Nat) : System :=
  system.change index fun call =>
    match call.phase with
    | .admitted =>
        system.put index { call with phase := .invoked, invocations := call.invocations + 1 }
    | _ => system

/-- The executor raises before it invokes the provider. -/
def refuseStep (system : System) (index : Nat) : System :=
  system.change index fun call =>
    match call.phase with
    | .admitted => system.put index { call with phase := .raising }
    | _ => system

def provideStep (system : System) (index : Nat) (answer : Except Raised ExecutionResult)
    (reconciled : Except Raised Unit) : System :=
  system.change index fun call =>
    match call.phase with
    | .invoked =>
        match settleResult validates call.checked call.request answer reconciled with
        | .ok result => system.put index { call with phase := .settled result }
        | .error _ => system.put index { call with phase := .raising }
    | _ => system

/-- `_complete_idempotency`. -/
def completeStep (system : System) (index : Nat) (now : ℚ) : System :=
  system.change index fun call =>
    match call.phase with
    | .settled result =>
        { system.put index { call with phase := .returned result, completion := some (now, result) }
            with
          idempotency := match call.seat backend with
            | none => system.idempotency
            | some seat => completeSeat slotHash seat result now backend system.idempotency }
    | _ => system

/-- `_mark_idempotency_uncertain`, after an exception. A call that replays a result comes to it
when its audit event is refused. -/
def abandonStep (system : System) (index : Nat) (now : ℚ) : System :=
  system.change index fun call =>
    match call.phase with
    | .raising | .replayed _ =>
        { system.put index { call with phase := .failed } with
          idempotency := match call.seat backend with
            | none => system.idempotency
            | some seat => uncertainSeat slotHash seat now backend system.idempotency }
    | _ => system

/-- A store is opened with `recover_abandoned`. -/
def recoverStep (system : System) (now : ℚ) : System :=
  match backend with
  | .shared => system
  | .sqlite _ => { system with
      idempotency.rows := SqliteIdempotencyStore.recoverAbandoned now system.idempotency.rows }

def step (system : System) : Action → System
  | .search service context revision now =>
      match issueLoad mac service context revision now with
      | .ok claims => { system with issued := system.issued ++ [claims] }
      | .error _ => system
  | .load service capabilityRef context sectionNames operationNames maxOutputTokens verifiedAt
      executionAt handleTimes delivered =>
      match loadCapability sha256 mac service capabilityRef context sectionNames operationNames
        maxOutputTokens verifiedAt executionAt handleTimes delivered with
      | .error _ => system
      | .ok loaded =>
          match loaded.execution with
          | none => { system with issued := system.issued ++ loaded.handles }
          | some (executionRef, grant, claims) => { system with
              issued := system.issued ++ loaded.handles ++ [claims]
              grants := system.grants.set (service.shared, executionRef) grant }
  | .approve service revision operation arguments taskId context ttlSeconds now =>
      match issueApproval sha256 mac service revision operation arguments context ttlSeconds now with
      | .error _ => system
      | .ok _ =>
          let claims := References.issuedClaims revision
            (approvalScope sha256 context operation arguments) "approval" ttlSeconds now
          { system with
            issued := system.issued ++ [claims]
            approvals := system.approvals ++
              [⟨revision, operation, arguments, taskId, context, claims⟩] }
  | .execute service request context maxOutputTokens executionAt approvalAt reserved =>
      match checkExecution sha256 mac validates service system.grants request context maxOutputTokens
        executionAt approvalAt reserved with
      | .error _ => system
      | .ok checked => { system with
          calls := system.calls ++
            [{ service := service, request := request, context := context, checked := checked,
               approvalAt := approvalAt }] }
  | .reserve index checkedAt insertedAt =>
      reserveStep sha256 slotHash backend system index checkedAt insertedAt
  | .resume index timedOut => resumeStep sha256 slotHash backend system index timedOut
  | .invoke index => invokeStep system index
  | .refuse index => refuseStep system index
  | .provide index answer reconciled => provideStep validates system index answer reconciled
  | .complete index now => completeStep slotHash backend system index now
  | .abandon index now => abandonStep slotHash backend system index now
  | .recover now => recoverStep backend system now

end

end CapabilityHub.Service
