import CapabilityHub.Reasoning.Applied

/-! # The requests of a service adapter

`CapabilityHubServiceAdapter._dispatch`, as far as it is about reasoning. What the providers, the
executor, the ledger and the service come to in a request is given with it.
-/

namespace CapabilityHub.Reasoning

open Budget
open Transaction hiding bind_eq_ok

inductive AdapterKind where
  | cli
  | mcp
  | http
  | library
  deriving DecidableEq

structure RequestEnvelope where
  adapter : AdapterKind
  operation : String
  payload : Dict String Json
  stream : Bool := false
  cancelTarget : Option String := none

structure ModelInvocationUsage where
  endpoint : String
  model : String
  effort : String
  reasoningTokens : Nat
  costUnits : Option Nat
  latencyMs : Nat

/-- What a request meets. Where a callback has to return an object of one class, `none` is an
object of another. -/
structure Surroundings where
  workload : Except Raised (Option ReasoningWorkload)
  /-- `none`: no provider is configured. -/
  constraints : Option (Except Raised (Option ReasoningConstraints)) := none
  /-- The snapshot of the ledger that the router's provider returns. -/
  routingBudget : Except Raised BudgetSnapshot
  /-- `self._budget(task_id)` and the reservation of the tokens. -/
  reservation : Except Raised Unit := .ok ()
  /-- `executor.invoke`. -/
  usage : ModelRequestPolicy → Except Raised (Option ModelInvocationUsage)
  /-- `reservation.reconcile`. -/
  reconciliation : Except Raised Unit := .ok ()
  /-- The inventory, where one is asked for, and its check. -/
  inventory : Except Raised Unit := .ok ()
  /-- The call of the service with what the payload says, which may be invalid. -/
  service : Except Raised Json

/-- `str.islower` and `str.isdigit` of a character. -/
structure CodeLetters where
  isLower : Char → Bool
  isDigit : Char → Bool

/-- `_safe_error_code`. -/
def safeErrorCode (letters : CodeLetters) : Raised → String
  | .hub error =>
      let code := error.code
      if 1 ≤ code.length ∧ code.length ≤ 64 ∧ (code.toList.head?.any letters.isLower) ∧
          code.toList.all fun character => letters.isLower character || letters.isDigit character ||
            character ∈ ['_', '.', '-'] then code
      else "adapter_unhandled_error"
  | _ => "adapter_unhandled_error"

namespace Errors

/-- `_input`. -/
def input (code message : String) : Raised :=
  .hub { code := code, category := .input, safeMessage := message }

def invalidPayload : Raised := input "invalid_adapter_payload" "The operation payload is invalid."

def internalProvider : Raised :=
  .hub { code := "adapter_provider_failed", category := .internal,
         safeMessage := "An adapter dependency could not provide request state." }

/-- `_reasoning_execution_error`. -/
def reasoningExecution (code : String) : Raised :=
  .hub { code := code, category := .policy,
         safeMessage := "The model invocation violated the applied reasoning policy." }

end Errors

/-- `_provided`. -/
def provided {α : Type} (result : Except Raised α) : Except Raised α :=
  result.mapError fun raised =>
    match raised with
    | .hub error => .hub error
    | _ => Errors.internalProvider

/-- `_provided`, and the check of the class of what it returns. -/
def providedObject {α : Type} (error : Raised) (result : Except Raised (Option α)) :
    Except Raised α := do
  let value ← provided result
  match value with
  | some object => .ok object
  | none => .error error

/-- `_enforce_model_usage`. -/
def enforceModelUsage (policy : ModelRequestPolicy) (usage : ModelInvocationUsage) :
    Except Raised Unit := do
  raiseIf (usage.endpoint ≠ policy.endpoint ∨ usage.model ≠ policy.model ∨
    usage.effort ≠ policy.effort) (Errors.reasoningExecution "reasoning_endpoint_mismatch")
  raiseIf (¬Within policy.maximumCostUnits usage.costUnits)
    (Errors.reasoningExecution "reasoning_cost_exceeded")
  raiseIf (¬Within policy.maximumLatencyMs (some usage.latencyMs))
    (Errors.reasoningExecution "reasoning_latency_exceeded")

/-- `_payload`. -/
def checkPayload (required «optional» : List String) (payload : Dict String Json) :
    Except Raised Unit :=
  raiseIf (¬(required ⊆ payload.keys ∧ payload.keys ⊆ required ++ «optional»)) Errors.invalidPayload

/-- `_text`. -/
def checkText (maximum : Nat) : Option Json → Except Raised String
  | some (.str text) => do
      raiseIf (text = "" ∨ maximum < text.length) Errors.invalidPayload
      .ok text
  | _ => .error Errors.invalidPayload

/-- `_boolean` of an optional field that is false where it is missing. -/
def checkFlag : Option Json → Except Raised Bool
  | none => .ok false
  | some (.bool value) => .ok value
  | some _ => .error Errors.invalidPayload

/-- The router that an adapter makes when none is given. -/
def localRouter : AppliedReasoningRouter where
  router := { policyRevision := "adapter-reasoning-v1" }
  endpoints := [{ name := "local-low", tier := .low }, { name := "local-medium", tier := .medium },
    { name := "local-high", tier := .high }]
  present := List.cons_ne_nil _ _
  unique := by decide

/-- The part of an adapter that decides about reasoning. -/
structure ServiceAdapter where
  kind : AdapterKind
  reasoning : AppliedReasoningRouter
  /-- Whether a `reasoning_executor` is configured. -/
  executes : Bool := false

namespace ServiceAdapter

variable (adapter : ServiceAdapter) (sha256 : Bytes → Bytes) (letters : CodeLetters)
  (request : RequestEnvelope) (around : Surroundings)

/-- `except Exception as error: record_result(...); raise`. -/
def recording {α : Type} (taskId : String) (result : Except Raised α) :
    Transaction RoutingState Raised α :=
  match result with
  | .ok value => pure value
  | .error raised => do
      write (RoutingState.record taskId request.operation (some (safeErrorCode letters raised)))
      query fun _ => .error raised

/-- The workload and the constraints of a request. -/
def terms : Except Raised (ReasoningWorkload × ReasoningConstraints) := do
  let workload ← providedObject Errors.internalProvider around.workload
  let constraints ←
    match around.constraints with
    | none => .ok {}
    | some constraints => providedObject Errors.internalProvider constraints
  .ok (workload, constraints)

/-- The body of the `try` of `_apply_reasoning`. -/
def invoke (policy : ModelRequestPolicy) : Except Raised Unit := do
  let usage ← providedObject (Errors.reasoningExecution "reasoning_usage_invalid")
    (around.usage policy)
  around.reconciliation
  enforceModelUsage policy usage

/-- `_apply_reasoning`. -/
def applyReasoning (taskId : String) : Transaction RoutingState Raised Unit := do
  let (workload, constraints) ← query fun _ => terms around
  let decision ← adapter.reasoning.decide sha256 taskId request.operation workload constraints
    (provided around.routingBudget)
  if adapter.executes then
    let policy ← query fun _ => adapter.reasoning.requestPolicy decision constraints
    query fun _ => around.reservation
    recording letters request taskId (invoke around policy)

/-- The task that a payload with the right fields names. -/
def payloadTask (fields : List String × List String) : Except Raised String := do
  checkPayload fields.1 fields.2 request.payload
  checkText 256 (request.payload.get? "task_id")

/-- What `_search`, `_load` and `_execute` have in common. `prepare` comes between the reasoning
and the service. -/
def serve (fields : List String × List String) (prepare : Except Raised Unit) :
    Transaction RoutingState Raised Json := do
  let taskId ← query fun _ => payloadTask request fields
  adapter.applyReasoning sha256 letters request around taskId
  query fun _ => prepare
  let response ← recording letters request taskId around.service
  write (RoutingState.record taskId request.operation none)
  pure response

/-- The inventory of a search. -/
def searchInventory : Except Raised Unit := do
  let wanted ← checkFlag (request.payload.get? "include_inventory")
  if wanted then provided around.inventory else .ok ()

/-- The required and the optional fields of `_search`. -/
def searchFields : List String × List String :=
  (["query", "task_id"],
    ["kinds", "limit", "max_output_tokens", "include_inventory", "include_cards"])

/-- The fields of `_load`. -/
def loadFields : List String × List String :=
  (["capability_ref", "task_id"], ["section_names", "operation_names", "max_output_tokens"])

/-- The fields of `_execute`. -/
def executeFields : List String × List String :=
  (["execution_ref", "operation", "arguments", "task_id"],
    ["approval_ref", "idempotency_key", "max_output_tokens"])

/-- `_search`. -/
def search : Transaction RoutingState Raised Json :=
  adapter.serve sha256 letters request around searchFields (searchInventory request around)

/-- `_load`. -/
def load : Transaction RoutingState Raised Json :=
  adapter.serve sha256 letters request around loadFields (.ok ())

/-- `_execute`. -/
def execute : Transaction RoutingState Raised Json :=
  adapter.serve sha256 letters request around executeFields (.ok ())

/-- `_dispatch`. -/
def dispatch : Transaction RoutingState Raised Json := do
  query fun _ => raiseIf (request.adapter ≠ adapter.kind)
    (Errors.input "adapter_kind_mismatch" "The request uses a different adapter kind.")
  query fun _ => raiseIf (request.stream = true)
    (Errors.input "streaming_unsupported" "This adapter does not support streaming.")
  query fun _ => raiseIf (request.cancelTarget ≠ none)
    (Errors.input "invalid_cancel_dispatch"
      "Cancellation requests must use the adapter cancellation operation.")
  if request.operation = "capability.search" then adapter.search sha256 letters request around
  else if request.operation = "capability.load" then adapter.load sha256 letters request around
  else if request.operation = "capability.execute" then adapter.execute sha256 letters request around
  else query fun _ =>
    .error (Errors.input "unsupported_operation" "The requested operation is not supported.")

/-! ## What a request does to the router -/

/-- The request comes to the router, with this task. -/
def Reaches (taskId : String) : Prop :=
  request.adapter = adapter.kind ∧ request.stream = false ∧ request.cancelTarget = none ∧
    (request.operation = "capability.search" ∧ payloadTask request searchFields = .ok taskId ∨
      request.operation = "capability.load" ∧ payloadTask request loadFields = .ok taskId ∨
      request.operation = "capability.execute" ∧ payloadTask request executeFields = .ok taskId)

/-- A request that is let through ends in a recorded result. -/
def Concludes : Prop :=
  (adapter.executes = true → around.reservation = .ok ()) ∧
    (request.operation = "capability.search" → searchInventory request around = .ok ())

variable {adapter} {sha256} {letters} {request} {around} {taskId : String}
  {fields : List String × List String} {prepare : Except Raised Unit}
  {state middle final : RoutingState} {workload : ReasoningWorkload}
  {constraints : ReasoningConstraints} {decision : AppliedReasoningDecision}

/-- What comes after a decision: a request that is let through ends without a recorded result only
where `kept` does not hold. -/
inductive Concluded (kept : Prop) (taskId operation : String) (decision : AppliedReasoningDecision)
    (middle : RoutingState) : RoutingState → Prop where
  | stopped : decision.shouldStop = true → Concluded kept taskId operation decision middle middle
  | lost : decision.shouldStop = false → ¬kept →
      Concluded kept taskId operation decision middle middle
  | recorded : decision.shouldStop = false → (errorCode : Option String) →
      Concluded kept taskId operation decision middle (middle.record taskId operation errorCode)

theorem Concluded.mono {kept kept' : Prop} {operation : String} (stronger : kept' → kept)
    (concluded : Concluded kept taskId operation decision middle final) :
    Concluded kept' taskId operation decision middle final := by
  cases concluded with
  | stopped stop => exact .stopped stop
  | lost go broken => exact .lost go fun held => broken (stronger held)
  | recorded go errorCode => exact .recorded go errorCode

theorem recording_of_error {α : Type} {result : Except Raised α} {raised : Raised}
    (failed : result = .error raised) :
    recording letters request taskId result state =
      .error raised (state.record taskId request.operation (some (safeErrorCode letters raised))) := by
  subst failed
  rfl

theorem applyReasoning_of_decision (termed : terms around = .ok (workload, constraints))
    (decided : adapter.reasoning.decision sha256 taskId request.operation workload constraints
      (provided around.routingBudget) state = .ok decision middle) (prepare : Except Raised Unit) :
    (adapter.applyReasoning sha256 letters request around taskId state = .ok () middle ∧
        decision.shouldStop = false ∧ (adapter.executes = true → around.reservation = .ok ())) ∨
      ∃ raised final, adapter.applyReasoning sha256 letters request around taskId state =
          .error raised final ∧
        Concluded ((adapter.executes = true → around.reservation = .ok ()) ∧ prepare = .ok ()) taskId
          request.operation decision middle final := by
  rw [applyReasoning, query_bind, termed]
  dsimp only
  rw [AppliedReasoningRouter.decide, bind_assoc, bind_of_ok decided, bind_assoc, query_bind]
  cases stop : decision.shouldStop with
  | true => exact .inr ⟨Errors.noProgress, middle, rfl, .stopped stop⟩
  | false =>
      have passed : raiseIf ((false : Bool) = true) Errors.noProgress = .ok () :=
        raiseIf_eq_ok.mpr Bool.false_ne_true
      rw [passed]
      dsimp only
      rw [pure_bind]
      by_cases executes : adapter.executes = true
      · obtain ⟨policy, allowed⟩ := AppliedReasoningRouter.requestPolicy_decision decided
        rw [if_pos executes, query_bind, allowed]
        dsimp only
        rw [query_bind]
        cases reserved : around.reservation with
        | error raised => 
            refine .inr ⟨raised, middle, rfl, .lost stop fun held => ?_⟩
            cases held.1 executes
        | ok =>
            dsimp only
            cases invoked : invoke around policy with
            | ok => exact .inl ⟨rfl, rfl, fun _ => rfl⟩
            | error raised =>
                exact .inr ⟨raised, _, recording_of_error rfl, .recorded stop _⟩
      · rw [if_neg executes]
        exact .inl ⟨rfl, rfl, fun held => absurd held executes⟩

theorem serve_of_decision (task : payloadTask request fields = .ok taskId)
    (termed : terms around = .ok (workload, constraints))
    (decided : adapter.reasoning.decision sha256 taskId request.operation workload constraints
      (provided around.routingBudget) state = .ok decision middle) :
    Concluded ((adapter.executes = true → around.reservation = .ok ()) ∧ prepare = .ok ()) taskId
      request.operation decision middle
      (stateAfter (adapter.serve sha256 letters request around fields prepare) state) := by
  rw [serve, stateAfter, query_bind, task]
  dsimp only
  rcases applyReasoning_of_decision termed decided prepare with
    ⟨applied, go, reserved⟩ | ⟨raised, final, refused, concluded⟩
  · rw [bind_of_ok applied, query_bind]
    cases prepared : prepare with
    | error raised => 
        refine .lost go fun held => ?_
        cases held.2
    | ok =>
        dsimp only
        cases served : around.service with
        | ok response => exact .recorded go none
        | error raised =>
            rw [bind_of_error (recording_of_error rfl)]
            exact .recorded go _
  · rw [bind_of_error refused]
    exact concluded

theorem state_of_decision_error {operation : String} {budget : Except Raised BudgetSnapshot}
    {raised : Raised}
    (refused : adapter.reasoning.decision sha256 taskId operation workload constraints budget state =
      .error raised final) : final = state := by
  rw [AppliedReasoningRouter.decision] at refused
  dsimp only at refused
  split at refused
  next => exact (EStateM.Result.error.inj refused).2.symm
  next => cases refused

/-- A request leaves the router as it is, or there is a decision and what comes after it. -/
def Served (adapter : ServiceAdapter) (sha256 : Bytes → Bytes) (request : RequestEnvelope)
    (around : Surroundings) (kept : Prop) (taskId : String) (state final : RoutingState) : Prop :=
  final = state ∨ ∃ workload constraints decision middle,
    terms around = .ok (workload, constraints) ∧
    adapter.reasoning.decision sha256 taskId request.operation workload constraints
      (provided around.routingBudget) state = .ok decision middle ∧
    Concluded kept taskId request.operation decision middle final

theorem serve_cases (task : payloadTask request fields = .ok taskId) :
    Served adapter sha256 request around
      ((adapter.executes = true → around.reservation = .ok ()) ∧ prepare = .ok ()) taskId state
      (stateAfter (adapter.serve sha256 letters request around fields prepare) state) := by
  cases termed : terms around with
  | error raised =>
      refine .inl ?_
      rw [serve, stateAfter, query_bind, task]
      dsimp only
      rw [applyReasoning, bind_assoc, query_bind, termed]
  | ok found =>
      obtain ⟨workload, constraints⟩ := found
      cases decided : adapter.reasoning.decision sha256 taskId request.operation workload constraints
          (provided around.routingBudget) state with
      | ok decision middle =>
          exact .inr ⟨workload, constraints, decision, middle, termed, decided,
            serve_of_decision task termed decided⟩
      | error raised middle =>
          refine .inl ?_
          rw [serve, stateAfter, query_bind, task]
          dsimp only
          rw [applyReasoning, bind_assoc, query_bind, termed]
          dsimp only
          rw [AppliedReasoningRouter.decide, bind_assoc, bind_assoc, bind_of_error decided]
          exact state_of_decision_error decided

theorem serve_of_no_task {raised : Raised} (task : payloadTask request fields = .error raised) :
    stateAfter (adapter.serve sha256 letters request around fields prepare) state = state := by
  rw [serve, stateAfter, query_bind, task]

theorem serve_reaches {kept : Prop}
    (stronger : kept → (adapter.executes = true → around.reservation = .ok ()) ∧ prepare = .ok ())
    (reaches : ∀ taskId, payloadTask request fields = .ok taskId → adapter.Reaches request taskId) :
    stateAfter (adapter.serve sha256 letters request around fields prepare) state = state ∨
      ∃ taskId, adapter.Reaches request taskId ∧
        Served adapter sha256 request around kept taskId state
          (stateAfter (adapter.serve sha256 letters request around fields prepare) state) := by
  cases task : payloadTask request fields with
  | error raised => exact .inl (serve_of_no_task task)
  | ok taskId =>
      refine .inr ⟨taskId, reaches taskId task, ?_⟩
      rcases serve_cases task with same | ⟨workload, constraints, decision, middle, termed, decided,
        concluded⟩
      · exact .inl same
      · exact .inr ⟨workload, constraints, decision, middle, termed, decided,
          concluded.mono stronger⟩

/-- A request of the adapter's own kind that neither streams nor cancels goes by its operation. -/
theorem dispatch_of_kind (kind : request.adapter = adapter.kind) (still : request.stream = false)
    (target : request.cancelTarget = none) : adapter.dispatch sha256 letters request around state =
      (if request.operation = "capability.search" then
          adapter.search sha256 letters request around
        else if request.operation = "capability.load" then
          adapter.load sha256 letters request around
        else if request.operation = "capability.execute" then
          adapter.execute sha256 letters request around
        else query fun _ => .error (Errors.input "unsupported_operation"
          "The requested operation is not supported.")) state := by
  rw [dispatch, query_bind, raiseIf, if_neg (not_not.mpr kind)]
  dsimp only
  rw [query_bind, raiseIf, if_neg (Bool.eq_false_iff.mp still)]
  dsimp only
  rw [query_bind, raiseIf, if_neg (not_not.mpr target)]

/-- A request that does not come to the router leaves it as it is. -/
theorem dispatch_cases :
    stateAfter (adapter.dispatch sha256 letters request around) state = state ∨
      ∃ taskId, adapter.Reaches request taskId ∧
        Served adapter sha256 request around (adapter.Concludes request around) taskId state
          (stateAfter (adapter.dispatch sha256 letters request around) state) := by
  by_cases kind : request.adapter = adapter.kind
  · by_cases stream : request.stream = true
    · refine .inl ?_
      rw [dispatch, stateAfter, query_bind, raiseIf, if_neg (not_not.mpr kind)]
      dsimp only
      rw [query_bind, raiseIf, if_pos stream]
    · have still : request.stream = false := Bool.eq_false_iff.mpr stream
      by_cases target : request.cancelTarget = none
      · rw [stateAfter, dispatch_of_kind kind still target, ← stateAfter]
        by_cases searches : request.operation = "capability.search"
        · rw [if_pos searches]
          exact serve_reaches (fun held => ⟨held.1, held.2 searches⟩) fun taskId task =>
            ⟨kind, still, target, .inl ⟨searches, task⟩⟩
        · rw [if_neg searches]
          by_cases loads : request.operation = "capability.load"
          · rw [if_pos loads]
            exact serve_reaches (fun held => ⟨held.1, rfl⟩) fun taskId task =>
              ⟨kind, still, target, .inr (.inl ⟨loads, task⟩)⟩
          · rw [if_neg loads]
            by_cases executes : request.operation = "capability.execute"
            · rw [if_pos executes]
              exact serve_reaches (fun held => ⟨held.1, rfl⟩) fun taskId task =>
                ⟨kind, still, target, .inr (.inr ⟨executes, task⟩)⟩
            · rw [if_neg executes]
              exact .inl rfl
      · refine .inl ?_
        rw [dispatch, stateAfter, query_bind, raiseIf, if_neg (not_not.mpr kind)]
        dsimp only
        rw [query_bind, raiseIf, if_neg stream]
        dsimp only
        rw [query_bind, raiseIf, if_pos target]
  · refine .inl ?_
    rw [dispatch, stateAfter, query_bind, raiseIf, if_pos kind]

end ServiceAdapter

end CapabilityHub.Reasoning
