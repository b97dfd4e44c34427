import CapabilityHub.Budget.Amounts
import CapabilityHub.Reasoning.Router

/-! # Recommendations within a budget

`ReasoningOrchestrator` without a store. `BudgetLedger.snapshot` is read once in a call, so a call
takes the snapshot.
-/

namespace CapabilityHub.Reasoning

open Budget

structure ReasoningRecommendation where
  taskId : String
  tier : ReasoningTier
  reasonCodes : List String
  estimatedTokens : Nat
  budgetRemaining : Option Nat
  budgetHeadroom : Option Int
  escalationsUsed : Nat
  policyRevision : String
  shouldStop : Bool

/-- The tokens that are estimated for each tier. -/
structure TierEstimates where
  low : Nat
  medium : Nat
  high : Nat
  positive : 0 < low
  ordered : low ≤ medium ∧ medium ≤ high

def TierEstimates.tokens (estimates : TierEstimates) : ReasoningTier → Nat
  | .low => estimates.low
  | .medium => estimates.medium
  | .high => estimates.high

/-- `DEFAULT_TIER_TOKEN_ESTIMATES`. -/
def defaultEstimates : TierEstimates where
  low := 256
  medium := 1024
  high := 4096
  positive := by decide
  ordered := by decide

theorem counter_given : "reasoning_tokens" ≠ "" := by decide

/-- The configuration of a `ReasoningOrchestrator`. -/
structure ReasoningOrchestrator where
  router : ReasoningRouter
  budgetCounter : String := "reasoning_tokens"
  estimates : TierEstimates := defaultEstimates
  counterGiven : budgetCounter ≠ "" := by first | exact counter_given | decide

/-- The arguments of `recommend`. -/
structure RecommendRequest where
  taskId : String
  eligibleTiers : Option (List String) := none
  risk : String := "none"
  policyMinimum : String := "low"
  escalationReason : Option String := none
  attemptSignature : Json := .null
  evidenceSignature : Json := .null

/-- `_recommendation_payload`. -/
def ReasoningRecommendation.payload (recommendation : ReasoningRecommendation) : Json :=
  .obj [("budget_headroom", (recommendation.budgetHeadroom.map .int).getD .null),
    ("budget_remaining", (recommendation.budgetRemaining.map fun left => .int left).getD .null),
    ("estimated_tokens", .int recommendation.estimatedTokens),
    ("reason_codes", .arr (recommendation.reasonCodes.map .str)),
    ("should_stop", .bool recommendation.shouldStop), ("tier", .str recommendation.tier.value)]

/-- What `state` reports. -/
structure OrchestrationState where
  counter : String
  limit : Option Nat
  remaining : Option Nat
  reserved : Nat
  scope : String
  used : Nat
  currentTier : Option String
  distinctAttempts : Nat
  escalationsUsed : Nat
  lastRecommendation : Option Json
  policyRevision : String
  recommendationCount : Nat
  taskId : String

/-- What the objects of a process remember. -/
structure ProcessMemory where
  tasks : Dict String TaskState := ∅
  last : Dict String ReasoningRecommendation := ∅
  recommendationCounts : Dict String Nat := ∅

/-- `reset` without a store. -/
def ProcessMemory.reset (memory : ProcessMemory) (taskId : String) : ProcessMemory where
  tasks := memory.tasks.erase taskId
  last := memory.last.erase taskId
  recommendationCounts := memory.recommendationCounts.erase taskId

namespace ReasoningOrchestrator

variable (orchestrator : ReasoningOrchestrator) (sha256 : Bytes → Bytes)

/-- `ReasoningOrchestrator._normalize_eligible`. -/
def normalizeEligible : Option (List String) → Except Raised (List ReasoningTier)
  | none => .ok ReasoningTier.all
  | some values => do
      let requested ← values.mapM asTier
      .ok (ReasoningTier.all.filter (· ∈ requested))

/-- The requested tiers whose estimate fits what remains. -/
def affordable (remaining : Option Nat) (requested : List ReasoningTier) : List ReasoningTier :=
  requested.filter fun tier => ∀ left ∈ remaining, orchestrator.estimates.tokens tier ≤ left

/-- The recommendation that a decision comes to. -/
def recommendation (taskId : String) (remaining : Option Nat) (decision : ReasoningDecision) :
    ReasoningRecommendation :=
  let estimate := orchestrator.estimates.tokens decision.tier
  { taskId := taskId
    tier := decision.tier
    reasonCodes := decision.reasonCodes
    estimatedTokens := estimate
    budgetRemaining := remaining
    budgetHeadroom := remaining.map fun left => (left : Int) - estimate
    escalationsUsed := decision.escalationsUsed
    policyRevision := decision.policyRevision
    shouldStop := "stop" ∈ decision.reasonCodes }

/-- `recommend` without a store. -/
def recommend (memory : ProcessMemory) (budget : BudgetSnapshot) (request : RecommendRequest) :
    Except Raised (ReasoningRecommendation × ProcessMemory) := do
  let remaining := budget.remaining.get? orchestrator.budgetCounter
  let requested ← normalizeEligible request.eligibleTiers
  let affordable := orchestrator.affordable remaining requested
  let (decision, tasks) ← orchestrator.router.route sha256 memory.tasks request.taskId
    (some (affordable.map (·.value))) request.risk request.policyMinimum request.escalationReason
    request.attemptSignature request.evidenceSignature
  let recommendation := orchestrator.recommendation request.taskId remaining decision
  .ok (recommendation,
    { tasks := tasks
      last := memory.last.set request.taskId recommendation
      recommendationCounts := memory.recommendationCounts.set request.taskId
        (memory.recommendationCounts.getD request.taskId 0 + 1) })

/-- `state`, of what is known of the task. -/
def report (budget : BudgetSnapshot) (taskId : String) (tier : Option ReasoningTier)
    (distinctAttempts escalationsUsed recommendationCount : Nat) (last : Option Json) :
    OrchestrationState where
  counter := orchestrator.budgetCounter
  limit := budget.limits.get? orchestrator.budgetCounter
  remaining := budget.remaining.get? orchestrator.budgetCounter
  reserved := budget.reserved.getD orchestrator.budgetCounter 0
  scope := budget.scope
  used := budget.used.getD orchestrator.budgetCounter 0
  currentTier := tier.map (·.value)
  distinctAttempts := distinctAttempts
  escalationsUsed := escalationsUsed
  lastRecommendation := last
  policyRevision := orchestrator.router.policyRevision
  recommendationCount := recommendationCount
  taskId := taskId

/-- `state` without a store. -/
def state (memory : ProcessMemory) (budget : BudgetSnapshot) (taskId : String) :
    Except Raised OrchestrationState := do
  raiseIf (taskId = "") .valueError
  let routing := TaskState.snapshot memory.tasks taskId
  .ok (orchestrator.report budget taskId routing.currentTier routing.distinctAttempts
    routing.escalationsUsed (memory.recommendationCounts.getD taskId 0)
    ((memory.last.get? taskId).map (·.payload)))

theorem normalizeEligible_values (tiers : List ReasoningTier) :
    normalizeEligible (some (tiers.map (·.value))) =
      .ok (ReasoningTier.all.filter (· ∈ tiers)) := by
  rw [normalizeEligible, mapM_asTier]
  rfl

variable {orchestrator} {remaining : Option Nat} {tiers : List ReasoningTier}

theorem mem_affordable {tier : ReasoningTier} : tier ∈ orchestrator.affordable remaining tiers ↔
    tier ∈ tiers ∧ ∀ left ∈ remaining, orchestrator.estimates.tokens tier ≤ left := by
  rw [affordable, List.mem_filter, decide_eq_true_iff]

/-- The tiers that are asked for and fit, in the order of the members. -/
theorem filter_affordable (orchestrator : ReasoningOrchestrator) (remaining : Option Nat)
    (tiers : List ReasoningTier) :
    ReasoningTier.all.filter
        (· ∈ orchestrator.affordable remaining (ReasoningTier.all.filter (· ∈ tiers))) =
      orchestrator.affordable remaining (ReasoningTier.all.filter (· ∈ tiers)) := by
  rw [affordable, List.filter_filter]
  apply List.filter_congr
  intro tier member
  simp [member, Bool.and_comm]

end ReasoningOrchestrator

end CapabilityHub.Reasoning
