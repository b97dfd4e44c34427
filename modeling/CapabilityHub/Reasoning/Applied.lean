import CapabilityHub.Database.Transaction
import CapabilityHub.Reasoning.Orchestrator
import Mathlib.Data.List.MinMax
import Mathlib.Data.Prod.Lex
import Mathlib.Data.String.Basic

/-! # Tier advice as an admission decision

`AppliedReasoningRouter`. A call that raises keeps what it wrote before, so the methods are
transactions over what the router remembers.
-/

namespace CapabilityHub.Reasoning

open Budget
open Transaction hiding bind_eq_ok

/-- An endpoint; its texts are bounded. -/
structure ReasoningEndpoint where
  name : String
  tier : ReasoningTier
  costUnits : Option Nat := none
  latencyMs : Option Nat := none
  model : Option String := none
  effort : Option String := none
  named : name ≠ "" ∧ name.length ≤ 128 := by decide
  labelled : ∀ label ∈ model.toList ++ effort.toList, label ≠ "" ∧ label.length ≤ 128 := by decide

structure ReasoningConstraints where
  maximumTier : ReasoningTier := .high
  eligibleEndpoints : Option (List String) := none
  maximumCostUnits : Option Nat := none
  maximumLatencyMs : Option Nat := none

structure ReasoningWorkload where
  risk : SideEffect := .none
  dependencyCount : Nat := 0

structure AppliedReasoningDecision where
  taskId : String
  operation : String
  tier : ReasoningTier
  endpoint : String
  reasonCodes : List String
  estimatedTokens : Nat
  budgetRemaining : Option Nat
  shouldStop : Bool

structure ModelRequestPolicy where
  endpoint : String
  model : String
  tier : ReasoningTier
  effort : String
  maximumCostUnits : Option Nat
  maximumLatencyMs : Option Nat
  estimatedTokens : Nat

namespace Errors

def noEligibleEndpoint : Raised :=
  .hub { code := "no_eligible_reasoning_endpoint", category := .budget,
         safeMessage := "No reasoning endpoint satisfies the caller constraints." }

def noProgress : Raised :=
  .hub { code := "reasoning_no_progress", category := .budget,
         safeMessage := "Equivalent failed attempts reached the reasoning stop condition." }

def policyMismatch : Raised :=
  .hub { code := "reasoning_policy_mismatch", category := .policy,
         safeMessage := "The reasoning decision violates the model request policy." }

end Errors

/-- A call of `record_result`. -/
structure ReasoningResult where
  taskId : String
  operation : String
  errorCode : Option String
  deriving DecidableEq

/-- What an `AppliedReasoningRouter` remembers. -/
structure RoutingState where
  tasks : Dict String TaskState := ∅
  /-- `_failures`: the operation and the error code. -/
  failures : Dict String (String × String) := ∅
  /-- All calls of `record_result`, the last one first; no method reads them. -/
  results : List ReasoningResult := []

/-- `AppliedReasoningRouter`: its configuration. -/
structure AppliedReasoningRouter where
  router : ReasoningRouter
  endpoints : List ReasoningEndpoint
  present : endpoints ≠ []
  unique : (endpoints.map (·.name)).Nodup

/-- A quantity within a maximum, if there is one. -/
def Within (maximum quantity : Option Nat) : Prop :=
  ∀ most ∈ maximum, ∃ value ∈ quantity, value ≤ most

instance (maximum quantity : Option Nat) : Decidable (Within maximum quantity) :=
  match maximum, quantity with
  | none, _ => .isTrue fun _ absent => absurd absent (Option.not_mem_none _)
  | some most, none => .isFalse fun within => by
      obtain ⟨value, absent, _⟩ := within most rfl
      exact absurd absent (Option.not_mem_none _)
  | some most, some value =>
      decidable_of_iff (value ≤ most) ⟨fun le other same => ⟨value, rfl, Option.some.inj same ▸ le⟩,
        fun within => by
          obtain ⟨other, same, le⟩ := within most rfl
          cases same
          exact le⟩

/-- What the constraints ask of an endpoint. -/
def ReasoningConstraints.Admit (constraints : ReasoningConstraints) (endpoint : ReasoningEndpoint) :
    Prop :=
  endpoint.tier.order ≤ constraints.maximumTier.order ∧
    (∀ names ∈ constraints.eligibleEndpoints, endpoint.name ∈ names) ∧
    Within constraints.maximumCostUnits endpoint.costUnits ∧
    Within constraints.maximumLatencyMs endpoint.latencyMs

instance (constraints : ReasoningConstraints) (endpoint : ReasoningEndpoint) :
    Decidable (constraints.Admit endpoint) :=
  inferInstanceAs (Decidable (_ ∧ _))

/-- The key by which `decide` picks an endpoint of the recommended tier. -/
def endpointOrder (endpoint : ReasoningEndpoint) : Bool ×ₗ Nat ×ₗ Bool ×ₗ Nat ×ₗ String :=
  toLex (endpoint.costUnits.isNone, toLex (endpoint.costUnits.getD 0,
    toLex (endpoint.latencyMs.isNone, toLex (endpoint.latencyMs.getD 0, endpoint.name))))

namespace AppliedReasoningRouter

variable (applied : AppliedReasoningRouter) (sha256 : Bytes → Bytes)

/-- `_eligible_endpoints`. -/
def eligibleEndpoints (constraints : ReasoningConstraints) :
    Except Raised (List ReasoningEndpoint) := do
  let selected := applied.endpoints.filter fun endpoint => constraints.Admit endpoint
  raiseIf (selected = []) Errors.noEligibleEndpoint
  .ok selected

/-- The policy floor of a workload. -/
def policyFloor (workload : ReasoningWorkload) : ReasoningTier :=
  if 3 ≤ workload.dependencyCount ∧ (workload.risk = .none ∨ workload.risk = .read) then .medium
  else .low

/-- The request that `decide` makes to an orchestrator of its own. -/
def recommendRequest (taskId : String) (workload : ReasoningWorkload)
    (endpoints : List ReasoningEndpoint) (failure : Option (String × String)) : RecommendRequest where
  taskId := taskId
  eligibleTiers := some ((endpoints.map ReasoningEndpoint.tier).dedup.map (·.value))
  risk := workload.risk.value
  policyMinimum := (policyFloor workload).value
  escalationReason := failure.map fun _ => "previous_typed_failure"
  attemptSignature := (failure.map fun pair => Json.str pair.1).getD .null
  evidenceSignature := (failure.map fun pair => Json.str pair.2).getD .null

/-- The decision of `decide`, which it remembers before it looks whether to stop.
`_budget_provider(task_id).snapshot()` is given. -/
def decision (taskId operation : String) (workload : ReasoningWorkload)
    (constraints : ReasoningConstraints) (budget : Except Raised BudgetSnapshot) :
    Transaction RoutingState Raised AppliedReasoningDecision := fun state =>
  let decided : Except Raised (AppliedReasoningDecision × Dict String TaskState) := do
    let endpoints ← applied.eligibleEndpoints constraints
    let budget ← budget
    let (recommendation, memory) ← ReasoningOrchestrator.recommend { router := applied.router }
      sha256 { tasks := state.tasks } budget
      (recommendRequest taskId workload endpoints (state.failures.get? taskId))
    match (endpoints.filter (·.tier = recommendation.tier)).argmin endpointOrder with
    | none => .error .valueError
    | some endpoint =>
        let reasons := recommendation.reasonCodes ++
          (if 3 ≤ workload.dependencyCount then ["dependency_floor:medium"] else []) ++
          ["endpoint_eligible"]
        .ok (⟨taskId, operation, recommendation.tier, endpoint.name, reasons.reverse.dedup.reverse,
          recommendation.estimatedTokens, recommendation.budgetRemaining, recommendation.shouldStop⟩,
          memory.tasks)
  match decided with
  | .error raised => .error raised state
  | .ok (decision, tasks) => .ok decision { state with tasks := tasks }

/-- `decide`. -/
def decide (taskId operation : String) (workload : ReasoningWorkload)
    (constraints : ReasoningConstraints) (budget : Except Raised BudgetSnapshot) :
    Transaction RoutingState Raised AppliedReasoningDecision := do
  let decision ← applied.decision sha256 taskId operation workload constraints budget
  query fun _ => raiseIf (decision.shouldStop = true) Errors.noProgress
  pure decision

/-- `request_policy`. -/
def requestPolicy (decision : AppliedReasoningDecision) (constraints : ReasoningConstraints) :
    Except Raised ModelRequestPolicy :=
  match applied.endpoints.find? (·.name = decision.endpoint) with
  | none => .error Errors.policyMismatch
  | some endpoint =>
      if endpoint.tier = decision.tier ∧ constraints.Admit endpoint then
        .ok ⟨endpoint.name, endpoint.model.getD endpoint.name, endpoint.tier,
          endpoint.effort.getD endpoint.tier.value, constraints.maximumCostUnits,
          constraints.maximumLatencyMs, decision.estimatedTokens⟩
      else .error Errors.policyMismatch

/-- The tiers that a request can be routed to, the cheapest first. -/
def candidates (workload : ReasoningWorkload) (endpoints : List ReasoningEndpoint)
    (budget : BudgetSnapshot) : List ReasoningTier :=
  ReasoningTier.all.filter fun tier =>
    tier ∈ endpoints.map ReasoningEndpoint.tier ∧
      (∀ left ∈ budget.remaining.get? "reasoning_tokens", defaultEstimates.tokens tier ≤ left) ∧
      (minimumTier (riskFloor workload.risk) (policyFloor workload)).order ≤ tier.order

variable {applied} {sha256} {taskId operation : String} {workload : ReasoningWorkload}
  {constraints : ReasoningConstraints} {budget : Except Raised BudgetSnapshot}
  {state final : RoutingState} {decision : AppliedReasoningDecision}
  {endpoints : List ReasoningEndpoint} {snapshot : BudgetSnapshot}
  {failure : Option (String × String)}

theorem eligibleEndpoints_eq_ok : applied.eligibleEndpoints constraints = .ok endpoints ↔
    applied.endpoints.filter (constraints.Admit ·) = endpoints ∧ endpoints ≠ [] := by
  rw [eligibleEndpoints, bind_eq_ok, exists_unit, raiseIf_eq_ok, Except.ok.injEq, and_comm]
  exact and_congr_right fun same => by rw [same]

/-- The pair that the router counts for a failure. -/
def failureAttempt (sha256 : Bytes → Bytes) (failure : String × String) : String × String :=
  (fingerprint sha256 (.str failure.1), fingerprint sha256 (.str failure.2))

theorem attemptPair_failure (endpoints : List ReasoningEndpoint) :
    attemptPair sha256 (recommendRequest taskId workload endpoints failure).attemptSignature
        (recommendRequest taskId workload endpoints failure).evidenceSignature =
      failure.map (failureAttempt sha256) := by
  cases failure <;> rfl

theorem recommend_eq_ok {recommendation : ReasoningRecommendation} {memory : ProcessMemory}
    {tasks : Dict String TaskState}
    (done : ReasoningOrchestrator.recommend { router := applied.router } sha256 { tasks := tasks }
      snapshot (recommendRequest taskId workload endpoints failure) = .ok (recommendation, memory)) :
    ∃ cheapest dearer decision next,
      candidates workload endpoints snapshot = cheapest :: dearer ∧
      applied.router.advance (cheapest :: dearer) cheapest
        (floorReasons (riskFloor workload.risk) (policyFloor workload))
        (failure.map fun _ => "previous_typed_failure") (failure.map (failureAttempt sha256))
        (tasks.getD taskId {}) = (decision, next) ∧
      memory.tasks = tasks.set taskId next ∧ recommendation.tier = decision.tier ∧
      (recommendation.shouldStop = true ↔ "stop" ∈ decision.reasonCodes) := by
  obtain ⟨requested, normalized, done⟩ := bind_eq_ok.mp done
  obtain rfl := Except.ok.inj (normalized.symm.trans
    (ReasoningOrchestrator.normalizeEligible_values (endpoints.map ReasoningEndpoint.tier).dedup))
  obtain ⟨⟨decision, left⟩, routed, done⟩ := bind_eq_ok.mp done
  cases done
  obtain ⟨_, cheapest, dearer, same, next, advanced, rfl⟩ :=
    (ReasoningRouter.route_eq_ok (Reasoning.normalizeEligible_values _)).mp routed
  rw [attemptPair_failure] at advanced
  refine ⟨cheapest, dearer, decision, next, ?_, advanced, rfl, rfl, decide_eq_true_iff⟩
  rw [← same, ReasoningOrchestrator.filter_affordable, ReasoningOrchestrator.affordable, candidates,
    List.filter_filter, List.filter_filter]
  apply List.filter_congr
  intro tier _
  simp only [List.mem_dedup, Bool.decide_and, Bool.and_comm]

/-- What a decision is made from, and what it leaves. -/
structure Decided (applied : AppliedReasoningRouter) (sha256 : Bytes → Bytes) (taskId : String)
    (workload : ReasoningWorkload) (endpoints : List ReasoningEndpoint) (snapshot : BudgetSnapshot)
    (state : RoutingState) (decision : AppliedReasoningDecision) (final : RoutingState) : Prop where
  stops : ∃ cheapest dearer, candidates workload endpoints snapshot = cheapest :: dearer ∧
    (decision.shouldStop = true ↔
      applied.router.noProgress ((state.failures.get? taskId).map (failureAttempt sha256))
          (state.tasks.getD taskId {}).attemptCounts = true ∨
        (state.failures.get? taskId).isSome ∧
          ¬applied.router.Escalates (cheapest :: dearer) cheapest (state.tasks.getD taskId {}))
  counts : ∃ next, final = { state with tasks := state.tasks.set taskId next } ∧
    next.attemptCounts = ReasoningRouter.countAttempt
      ((state.failures.get? taskId).map (failureAttempt sha256))
      (state.tasks.getD taskId {}).attemptCounts
  endpoint : ∃ endpoint ∈ endpoints, endpoint.name = decision.endpoint ∧ endpoint.tier = decision.tier

theorem decision_eq_ok
    (decided : applied.decision sha256 taskId operation workload constraints budget state =
      .ok decision final) :
    ∃ endpoints snapshot, applied.eligibleEndpoints constraints = .ok endpoints ∧
      budget = .ok snapshot ∧
      Decided applied sha256 taskId workload endpoints snapshot state decision final := by
  rw [AppliedReasoningRouter.decision] at decided
  dsimp only at decided
  split at decided
  next => cases decided
  next made tasks done =>
    cases decided
    obtain ⟨endpoints, eligible, done⟩ := bind_eq_ok.mp done
    obtain ⟨snapshot, given, done⟩ := bind_eq_ok.mp done
    obtain ⟨⟨recommendation, memory⟩, recommended, done⟩ := bind_eq_ok.mp done
    refine ⟨endpoints, snapshot, eligible, given, ?_⟩
    obtain ⟨cheapest, dearer, decision, next, same, advanced, left, tier, stop⟩ :=
      recommend_eq_ok recommended
    dsimp only at done
    split at done
    next => cases done
    next endpoint least =>
      cases done
      have chosen := List.mem_filter.mp (List.argmin_mem least)
      refine ⟨⟨cheapest, dearer, same, ?_⟩, ⟨next, by rw [left], ?_⟩,
        ⟨endpoint, chosen.1, rfl, of_decide_eq_true chosen.2⟩⟩
      · have stops : "stop" ∈ (applied.router.advance (cheapest :: dearer) cheapest
            (floorReasons (riskFloor workload.risk) (policyFloor workload))
            ((state.failures.get? taskId).map fun _ => "previous_typed_failure")
            ((state.failures.get? taskId).map (failureAttempt sha256))
            (state.tasks.getD taskId {})).1.reasonCodes ↔ _ :=
          ReasoningRouter.advance_stops (stop_notMem_floorReasons _ _)
        rw [advanced, Option.isSome_map] at stops
        exact stop.trans stops
      · rw [← ReasoningRouter.attemptCounts_advance, advanced]

/-- A decision passes its own check again. -/
theorem requestPolicy_decision
    (decided : applied.decision sha256 taskId operation workload constraints budget state =
      .ok decision final) : ∃ policy, applied.requestPolicy decision constraints = .ok policy := by
  obtain ⟨endpoints, snapshot, eligible, _, made⟩ := decision_eq_ok decided
  obtain ⟨endpoint, member, named, tier⟩ := made.endpoint
  obtain ⟨rfl, _⟩ := eligibleEndpoints_eq_ok.mp eligible
  obtain ⟨among, admitted⟩ := List.mem_filter.mp member
  have found : applied.endpoints.find? (·.name = decision.endpoint) = some endpoint := by
    cases found : applied.endpoints.find? (·.name = decision.endpoint) with
    | none => exact absurd (decide_eq_true named) (List.find?_eq_none.mp found endpoint among)
    | some other =>
        have same : other.name = decision.endpoint := of_decide_eq_true (List.find?_some found :)
        rw [List.inj_on_of_nodup_map applied.unique (List.mem_of_find?_eq_some found) among
          (same.trans named.symm)]
  rw [requestPolicy, found]
  exact ⟨_, if_pos ⟨tier, of_decide_eq_true admitted⟩⟩

end AppliedReasoningRouter

/-- `record_result`. -/
def RoutingState.record (taskId operation : String) (errorCode : Option String)
    (state : RoutingState) : RoutingState :=
  { state with
    failures :=
      match errorCode with
      | none => state.failures.erase taskId
      | some code => state.failures.set taskId (operation, code)
    results := ⟨taskId, operation, errorCode⟩ :: state.results }

end CapabilityHub.Reasoning
