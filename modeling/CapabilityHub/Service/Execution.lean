import CapabilityHub.Registry.Registry
import CapabilityHub.Service.Idempotency
import CapabilityHub.Service.Policy

/-! # The service

`CapabilityHubService` as far as references, grants, approvals and idempotency go. A call of
`execute` stops wherever another call can come between: after its checks, while it waits for a
record, and around the provider. What a schema validator, a clock, a budget and a provider answer
is an argument of the step that asks it.
-/

namespace CapabilityHub.Service

/-! ## Errors -/

/-- `_reference`. -/
def referenceError (code message : String) : Raised :=
  .hub { code := code, category := .reference, safeMessage := message }

/-- `_policy_error`. -/
def policyError (code message : String) : Raised :=
  .hub { code := code, category := .policy, safeMessage := message }

/-- `_budget`. -/
def budgetError (code message : String) (details : List (String × ErrorDetail)) : Raised :=
  .hub { code := code, category := .budget, safeMessage := message, details := details }

def staleRevision : Raised :=
  referenceError "stale_revision" "The referenced capability revision is no longer active."

def unknownOperation (message : String) : Raised := referenceError "unknown_operation" message

/-- `_positive_budget`. -/
def positiveBudget (value : Int) : Except Raised Unit :=
  raiseIf (value < 1)
    (budgetError "invalid_output_budget" "Output budget must be a positive integer." [])

/-! ## Dependencies of the service -/

inductive DependencyOperation where
  | search
  | load
  | execute
  deriving DecidableEq

def DependencyOperation.value : DependencyOperation → String
  | .search => "search"
  | .load => "load"
  | .execute => "execute"

inductive DecisionOutcome where
  | allow
  | degraded
  | deny
  deriving DecidableEq

structure DegradedDecision where
  operation : DependencyOperation
  outcome : DecisionOutcome
  reasons : List String

/-- `enforce_dependency_decision`. -/
def enforceDependencyDecision (decision : DegradedDecision) : Except Raised Unit :=
  raiseIf (decision.outcome = .deny) (.hub {
    code := "dependency_" ++ decision.operation.value ++ "_denied"
    category := .dependency
    safeMessage := "Required local capability dependencies are not available."
    details := [("reason_codes", .texts decision.reasons)] })

/-- One service object. Services with the same shared state have its number in common. -/
structure CapabilityHubService where
  registry : Registry.CapabilityRegistry
  providers : List String
  loadRefTtl : Int := 300
  executionTtl : Int := 300
  dependencyDecider : Option (DependencyOperation → DegradedDecision) := none
  shared : Nat := 0

namespace CapabilityHubService

variable (service : CapabilityHubService)

/-- `_guard_dependencies`. -/
def guardDependencies (operation : DependencyOperation) : Except Raised Unit :=
  match service.dependencyDecider with
  | none => pure ()
  | some decider => enforceDependencyDecision (decider operation)

/-- `_active_manifest`. -/
def activeManifest (revision : String) : Except Raised CapabilityManifest :=
  match service.registry.revision revision with
  | .error (.hub error) =>
      .error (if error.code = "unknown_revision" then staleRevision else .hub error)
  | .error raised => .error raised
  | .ok manifest =>
      if service.registry.active.get? manifest.identity.coordinate = some revision then .ok manifest
      else .error staleRevision

/-- `CapabilityRegistry.active`. -/
def activeRevision (coordinate : String) : Except Raised CapabilityManifest :=
  match (service.registry.active.get? coordinate).bind service.registry.revisions.get? with
  | some manifest => .ok manifest
  | none => .error (Registry.referenceError "inactive_capability"
      "Capability has no active revision." [("coordinate", .text coordinate)])

/-- `_dependency_manifests`. -/
def dependencyManifests (manifest : CapabilityManifest) : Except Raised (List CapabilityManifest) :=
  (manifest.dependencies.filter fun dependency =>
    dependency.coordinate ∈ service.registry.active.keys).mapM fun dependency =>
      service.activeRevision dependency.coordinate

end CapabilityHubService

structure ExecutionGrant where
  revision : String
  operations : List String

/-! ## Selecting what to load -/

/-- `_select_sections`. -/
def selectSections (manifest : CapabilityManifest) :
    Option (List String) → Except Raised (List SectionDescriptor)
  | none => pure manifest.sections
  | some requested => do
      raiseIf (¬requested ⊆ manifest.sections.map SectionDescriptor.name)
        (referenceError "unknown_section" "A requested section is not declared by the capability.")
      pure (manifest.sections.filter fun entry => entry.name ∈ requested)

/-- `_select_operations`. -/
def selectOperations (manifest : CapabilityManifest) :
    Option (List String) → Except Raised (List OperationSpec)
  | none => pure manifest.operations
  | some requested => do
      raiseIf (¬requested ⊆ manifest.operations.map OperationSpec.name)
        (unknownOperation "A requested operation is not declared by the capability.")
      pure (manifest.operations.filter fun operation => operation.name ∈ requested)

inductive OmissionKind where
  | section
  | operation

def OmissionKind.value : OmissionKind → String
  | .section => "section"
  | .operation => "operation"

section

-- SHA-256, the MAC of the reference signer, and whether a value satisfies a schema
variable (sha256 mac : Bytes → Bytes) (validates : List (String × Json) → Json → Bool)

/-- `_rehydration_selector`. -/
def rehydrationSelector (revision : String) (kind : OmissionKind) (name : String) : String :=
  "sha256:" ++ jsonDigest sha256 (.obj [("kind", .str kind.value), ("name", .str name),
    ("revision", .str revision)])

/-- `_rehydration_purpose`. -/
def rehydrationPurpose (kind : OmissionKind) (selector : String) : String :=
  "rehydration:" ++ kind.value ++ ":" ++ selector

/-- The omitted sections and operations that `_rehydration_handles` gives handles for. -/
def rehydrationTargets (manifest : CapabilityManifest) (sections : List SectionDescriptor)
    (operations : List OperationSpec) : List (OmissionKind × String) :=
  ((((manifest.sections.map SectionDescriptor.name).filter fun name =>
      name ∉ sections.map SectionDescriptor.name).map fun name => (OmissionKind.section, name)) ++
    (((manifest.operations.map OperationSpec.name).filter fun name =>
      name ∉ operations.map OperationSpec.name).map fun name => (OmissionKind.operation, name))).take 4

/-! ## The checks of `execute` -/

/-- `_validate_arguments`. -/
def validateArguments (operation : OperationSpec) (arguments : List (String × Json)) :
    Except Raised Unit :=
  let keys := operation.inputSchema.map Prod.fst
  raiseIf (¬(keys = [] ∨ keys = ["$ref"]) ∧ ¬validates operation.inputSchema (.obj arguments)) (.hub {
    code := "invalid_operation_arguments"
    category := .input
    safeMessage := "Execution arguments do not satisfy the operation schema." })

/-- `_validate_provider_output`. -/
def validateProviderOutput (operation : OperationSpec) (output : Json) : Except Raised Unit :=
  let keys := operation.outputSchema.map Prod.fst
  raiseIf (¬(keys = [] ∨ keys = ["$ref"]) ∧ ¬validates operation.outputSchema output) (.hub {
    code := "invalid_provider_result"
    category := .provider
    safeMessage := "The provider output does not satisfy the operation schema." })

/-- The parameter authorizer of the context is asked, if it has one. -/
def authorizeArguments (service : CapabilityHubService) (context : ServiceContext)
    (manifest : CapabilityManifest) (arguments : List (String × Json)) : Except Raised Unit :=
  match context.parameterAuthorizer with
  | none => pure ()
  | some authorize => do
      let dependencies ← service.dependencyManifests manifest
      let authorization ← authorize manifest dependencies arguments
      raiseIf (¬authorization.allowed) (.hub {
        code := "argument_authorization_denied"
        category := .policy
        safeMessage := "Execution arguments were not allowed by policy."
        details := [("reason_codes", .texts authorization.reasonCodes)] })

/-- The approval reference of a request, if it has one, is verified for the exact intent. -/
def verifyApproval (request : ExecutionRequest) (context : ServiceContext)
    (manifest : CapabilityManifest) (now : ℚ) : Except Raised Bool :=
  match request.approvalRef with
  | none => pure false
  | some approvalRef => do
      let _ ← References.verify mac approvalRef
        (approvalScope sha256 context request.operation request.arguments)
        (some manifest.identity.revision) "approval" now
      pure true

/-- An outcome of the policy that is not to allow is raised. -/
def enforcePolicy (decision : PolicyDecision) : Except Raised Unit :=
  raiseIf (decision.outcome ≠ .allow) (.hub {
    code := decision.outcome.value
    category := if decision.outcome = .approvalRequired then .approval else .policy
    safeMessage := "Execution was not allowed by policy."
    details := [("reason_codes", .texts decision.reasonCodes)] })

/-- What the checks of `execute` have found. -/
structure Checked where
  manifest : CapabilityManifest
  operation : OperationSpec
  limit : Int

/-- The checks of `execute`, up to the reservation of the budget. `executionAt` and `approvalAt`
are what the clock says as the two references are verified. -/
def checkExecution (service : CapabilityHubService) (grants : Dict (Nat × String) ExecutionGrant)
    (request : ExecutionRequest) (context : ServiceContext) (maxOutputTokens : Option Int)
    (executionAt approvalAt : ℚ) (reserved : Except Raised Unit) : Except Raised Checked := do
  let limit := maxOutputTokens.getD context.maxOutputTokens
  positiveBudget limit
  let claims ← References.verify mac request.executionRef context.referenceScope none "execution"
    executionAt
  let manifest ← service.activeManifest claims.revision
  raiseIf (manifest.kind = .skill)
    (policyError "skill_execution_not_supported" "Skills are load-only and cannot be executed.")
  match grants.get? (service.shared, request.executionRef), manifest.operation request.operation with
  | none, _ => throw (referenceError "unknown_execution_grant"
      "The execution reference was not issued by this service instance.")
  | some grant, found => do
      raiseIf (grant.revision ≠ manifest.identity.revision ∨ request.operation ∉ grant.operations)
        (referenceError "operation_not_loaded"
          "The requested operation was not selected by the load call.")
      match found with
      | none => throw (unknownOperation "The capability does not declare this operation.")
      | some operation => do
          validateArguments validates operation request.arguments
          authorizeArguments service context manifest request.arguments
          service.guardDependencies .execute
          let approved ← verifyApproval sha256 mac request context manifest approvalAt
          enforcePolicy (decidePolicy manifest operation
            ⟨context.grantedPermissions, approved, context.allowIrreversible⟩)
          raiseIf ((operation.sideEffect = .reversibleWrite ∨ operation.sideEffect = .irreversible) ∧
              request.idempotencyKey = none)
            (policyError "idempotency_key_required" "Write operations require an idempotency key.")
          raiseIf (manifest.provider ∉ service.providers) (.hub {
            code := "provider_not_configured"
            category := .provider
            safeMessage := "The capability's named provider is not configured." })
          reserved
          pure ⟨manifest, operation, limit⟩

/-! ## Idempotency and results -/

/-- The slot of a request with a key. -/
def slotOf (request : ExecutionRequest) (context : ServiceContext) (revision key : String) :
    IdempotencySlot :=
  ⟨context.referenceScope, request.taskId, revision, request.operation, key⟩

/-- The digest of the arguments that a record is bound to. -/
def argumentsDigest (request : ExecutionRequest) (sideEffect : SideEffect) : String :=
  jsonDigest sha256 (.obj [("arguments", .obj request.arguments),
    ("side_effect", .str sideEffect.value)])

/-- What `_admit_idempotency` makes of a record that is there already. -/
def replayOf (existing : IdempotencyRecord) (argumentsDigest : String) :
    Except Raised ExecutionResult := do
  raiseIf (existing.argumentsDigest ≠ argumentsDigest) (.hub {
    code := "idempotency_conflict"
    category := .conflict
    safeMessage := "The idempotency key is already bound to different arguments." })
  let unavailable (code : String) : Except Raised ExecutionResult := .error (.hub {
    code := code
    category := .conflict
    safeMessage := "The idempotent execution cannot be replayed safely yet."
    retryable := existing.status = .inProgress })
  match existing.status, existing.result with
  | .complete, some result => pure result
  | .complete, none => unavailable "idempotency_result_unavailable"
  | .inProgress, _ => unavailable "idempotency_in_progress"
  | _, _ => unavailable "idempotency_outcome_unknown"

/-- `_normalize_result`. -/
def normalizeResult (result : ExecutionResult) (manifest : CapabilityManifest)
    (request : ExecutionRequest) : Except Raised ExecutionResult := do
  raiseIf (result.capabilityRevision ≠ manifest.identity.revision ∨
      result.operation ≠ request.operation ∨ result.provider ≠ manifest.provider ∨
      result.portableTokens < 0) (.hub {
    code := "invalid_provider_result"
    category := .provider
    safeMessage := "The provider returned an invalid result envelope." })
  pure { result with portableTokens := (measureText (canonicalJson result.output)).portableTokens }

/-- What `execute` makes of the answer of the provider, with what settling the budget gives. -/
def settleResult (checked : Checked) (request : ExecutionRequest)
    (answer : Except Raised ExecutionResult) (reconciled : Except Raised Unit) :
    Except Raised ExecutionResult := do
  let answered ← answer
  let result ← normalizeResult answered checked.manifest request
  validateProviderOutput validates checked.operation result.output
  raiseIf (checked.limit < result.portableTokens) (budgetError "provider_output_budget_exceeded"
    "Provider output exceeded the hard output budget." [("max_output_tokens", .number checked.limit)])
  reconciled
  pure result

end

end CapabilityHub.Service
