import CapabilityHub.Models
import CapabilityHub.Resilience.CircuitRuns
import CapabilityHub.Text.Unicode

/-! # Retries of provider calls

`ResilientProviderExecutor.execute` over a circuit breaker that other callers use between and
during its attempts. What the executor does is noted as a list of events.
-/

namespace CapabilityHub.Resilience

inductive FailureCertainty where
  | notApplied
  | uncertain
  deriving DecidableEq

structure RetryDecision where
  allowed : Bool
  reason : String
  deriving DecidableEq

structure RetryPolicy where
  maxAttempts : Nat := 3
  initialBackoffSeconds : ℚ := 1 / 10
  multiplier : ℚ := 2
  maxBackoffSeconds : ℚ := 2
  attempts : 1 ≤ maxAttempts
  initial : 0 ≤ initialBackoffSeconds
  maximum : 0 ≤ maxBackoffSeconds
  growth : 1 ≤ multiplier

namespace RetryPolicy

def decide (error : CapabilityHubError) (operation : OperationSpec) (request : ExecutionRequest)
    (certainty : FailureCertainty) : RetryDecision :=
  if certainty ≠ .notApplied then ⟨false, "failure_uncertain"⟩
  else if error.category ∉ [ErrorCategory.provider, .dependency, .timeout] then
    ⟨false, "error_category_denied"⟩
  else if ¬error.retryable then ⟨false, "error_not_retryable"⟩
  else if operation.sideEffect ∈ [SideEffect.none, .read] then ⟨true, "safe_operation"⟩
  else if operation.sideEffect = .reversibleWrite ∧
      request.idempotencyKey.any (fun key => strip key ≠ "") then
    ⟨true, "idempotency_key_present"⟩
  else ⟨false, "operation_not_safe_to_repeat"⟩

/-- The delay before a retry, which are counted from one. -/
def backoffSeconds (policy : RetryPolicy) (retryNumber : Nat) : Except Raised ℚ :=
  if retryNumber < 1 then .error .valueError
  else .ok (min (policy.initialBackoffSeconds * policy.multiplier ^ (retryNumber - 1))
    policy.maxBackoffSeconds)

/-- What `decide` demands before a call is repeated. -/
structure Repeatable (error : CapabilityHubError) (operation : OperationSpec)
    (request : ExecutionRequest) : Prop where
  retryable : error.retryable = true
  category : error.category = .provider ∨ error.category = .dependency ∨ error.category = .timeout
  operation : operation.sideEffect = .none ∨ operation.sideEffect = .read ∨
    operation.sideEffect = .reversibleWrite ∧
      ∃ key, request.idempotencyKey = some key ∧ strip key ≠ ""

theorem decide_allowed {error : CapabilityHubError} {operation : OperationSpec}
    {request : ExecutionRequest} {certainty : FailureCertainty} :
    (decide error operation request certainty).allowed = true ↔
      certainty = .notApplied ∧ Repeatable error operation request := by
  unfold decide
  constructor
  · intro allowed
    split at allowed
    · cases allowed
    next certain =>
      split at allowed
      · cases allowed
      next category =>
        split at allowed
        · cases allowed
        next retryable =>
          have category' : error.category = .provider ∨ error.category = .dependency ∨
              error.category = .timeout := by
            simpa using not_not.mp category
          refine ⟨not_not.mp certain, not_not.mp retryable, category', ?_⟩
          split at allowed
          next safe =>
            rcases List.mem_cons.mp safe with none | read
            · exact .inl none
            · exact .inr (.inl (List.mem_singleton.mp read))
          next =>
            split at allowed
            next keyed =>
              refine .inr (.inr ⟨keyed.1, ?_⟩)
              obtain ⟨key, given, present⟩ := (Option.any_eq_true _ _).mp keyed.2
              exact ⟨key, given, of_decide_eq_true present⟩
            next => cases allowed
  · rintro ⟨rfl, repeatable⟩
    have category : error.category ∈ [ErrorCategory.provider, .dependency, .timeout] := by
      simpa using repeatable.category
    rw [if_neg (not_not_intro rfl), if_neg (not_not_intro category),
      if_neg (not_not_intro repeatable.retryable)]
    split
    · rfl
    next unsafe' =>
      rw [if_pos]
      rcases repeatable.operation with none | read | ⟨write, key, given, present⟩
      · exact absurd (List.mem_cons.mpr (.inl none)) unsafe'
      · exact absurd (List.mem_cons_of_mem _ (List.mem_singleton.mpr read)) unsafe'
      · exact ⟨write, (Option.any_eq_true _ _).mpr ⟨key, given, decide_eq_true present⟩⟩

end RetryPolicy

/-- How a call of the provider ends. -/
inductive Outcome (α : Type) where
  | result (value : α)
  | failure (error : CapabilityHubError)
  | exception

/-- What the executor meets in one round of its loop: the readings of its clock and of the
breaker's, what other callers do with the breaker before and during the call, how the call ends,
and the classifier, which may raise. -/
structure Turn (α : Type) where
  startedAt : ℚ
  before : List Action
  acquiredAt : ℚ
  during : List Action
  outcome : Outcome α
  recordedAt : ℚ
  classifier : CapabilityHubError → Except Raised FailureCertainty
  checkedAt : ℚ

/-- What the executor does. A permit is named by the moment in which the breaker gave it. -/
inductive Event (α : Type) where
  | clock (now : ℚ)
  | acquired (permit : Nat)
  | called (outcome : Outcome α)
  | recorded (permit : Nat)
  | classified (certainty : FailureCertainty)
  | slept (delay : ℚ)

structure ResilientProviderExecutor where
  retryPolicy : RetryPolicy
  circuitBreaker : CircuitSettings

/-- The arguments of `execute`. -/
structure ProviderCall where
  providerKey : String
  operation : OperationSpec
  request : ExecutionRequest
  deadlineSeconds : ℚ

structure Execution (α : Type) where
  outcome : Except Raised α
  events : List (Event α)
  system : System

def deadlineError : Raised :=
  .hub { code := "provider_retry_deadline_exhausted", category := .timeout,
         safeMessage := "The provider retry deadline was exhausted." }

def exhaustedError (attempts : Nat) : Raised :=
  .hub { code := "provider_retry_exhausted", category := .provider,
         safeMessage := "The provider did not recover within the retry policy.",
         details := [("attempts", .number attempts)] }

def unhandledError : Raised :=
  .hub { code := "provider_resilience_unhandled", category := .provider,
         safeMessage := "The provider failed without a safe structured error." }

/-- Whether the failure counts against the circuit. -/
def countable (error : CapabilityHubError) : Bool :=
  error.category ∈ [ErrorCategory.provider, .dependency, .timeout, .internal]

/-- A classifier that raises leaves the failure uncertain. -/
def certaintyOf (classifier : CapabilityHubError → Except Raised FailureCertainty)
    (error : CapabilityHubError) : FailureCertainty :=
  match classifier error with
  | .ok certainty => certainty
  | .error _ => .uncertain

variable {α : Type}

def Execution.following (events : List (Event α)) (execution : Execution α) : Execution α :=
  { execution with events := events ++ execution.events }

namespace ResilientProviderExecutor

variable (executor : ResilientProviderExecutor) (call : ProviderCall) (turns : Nat → Turn α)

/-- The loop of `execute`, after so many attempts. -/
def attempt (deadline : ℚ) (attempts : Nat) (system : System) : Execution α :=
  let turn := turns attempts
  let step := step executor.circuitBreaker
  if deadline ≤ turn.startedAt then ⟨.error deadlineError, [.clock turn.startedAt], system⟩
  else
    let met := run step system turn.before
    let acquired := step met (.acquire call.providerKey turn.acquiredAt)
    match (met.circuits.acquire executor.circuitBreaker call.providerKey turn.acquiredAt).1 with
    | .error raised => ⟨.error raised, [.clock turn.startedAt], acquired⟩
    | .ok _ =>
        let permit := met.moment
        let called := run step acquired turn.during
        let events : List (Event α) :=
          [.clock turn.startedAt, .acquired permit, .called turn.outcome, .recorded permit]
        match turn.outcome with
        | .result value => ⟨.ok value, events, step called (.success permit)⟩
        | .exception =>
            ⟨.error unhandledError, events, step called (.failure permit true turn.recordedAt)⟩
        | .failure error =>
            let recorded := step called (.failure permit (countable error) turn.recordedAt)
            let certainty := certaintyOf turn.classifier error
            let events := events ++ [.classified certainty]
            let decision := RetryPolicy.decide error call.operation call.request certainty
            if ¬decision.allowed then ⟨.error (.hub error), events, recorded⟩
            else if executor.retryPolicy.maxAttempts ≤ attempts + 1 then
              ⟨.error (exhaustedError (attempts + 1)), events, recorded⟩
            else
              match executor.retryPolicy.backoffSeconds (attempts + 1) with
              | .error raised => ⟨.error raised, events, recorded⟩
              | .ok delay =>
                  let events := events ++ [.clock turn.checkedAt]
                  if deadline ≤ turn.checkedAt + delay then ⟨.error deadlineError, events, recorded⟩
                  else
                    (attempt deadline (attempts + 1) recorded).following
                      (events ++ [.slept delay])
  termination_by executor.retryPolicy.maxAttempts - attempts

/-- `execute`, from the first reading of its clock. -/
def execute (startedAt : ℚ) (system : System) : Execution α :=
  if call.deadlineSeconds < 0 then ⟨.error .valueError, [], system⟩
  else
    (executor.attempt call turns (startedAt + call.deadlineSeconds) 0 system).following
      [.clock startedAt]

end ResilientProviderExecutor

end CapabilityHub.Resilience
