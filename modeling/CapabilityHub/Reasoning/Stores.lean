import CapabilityHub.Database.Integer
import CapabilityHub.Reasoning.Orchestrator
import CapabilityHub.Residency.Records
import CapabilityHub.Tenancy.ScopedState

/-! # Recommendations from a store

`ReasoningOrchestrator` with a store, which keeps nothing of a task in the process, and the two
stores.
-/

namespace CapabilityHub.Reasoning

open Budget Residency Tenancy

structure StoredReasoningState where
  taskId : String
  tier : Option ReasoningTier := none
  escalationsUsed : Nat := 0
  recommendationCount : Nat := 0
  attemptCounts : Dict (String × String) Nat := ∅
  lastRecommendation : Option Json := none

/-- An exception of a store: `OverflowError`, or another. -/
inductive StoreError where
  | overflow
  | raised (error : Raised)
  deriving DecidableEq

/-- `ReasoningStateStore`, over what it keeps. -/
structure ReasoningStateStore (σ : Type) where
  read : σ → String → Except StoreError StoredReasoningState
  /-- `transact`, of an update that does not raise. -/
  transact : σ → String →
    (StoredReasoningState → StoredReasoningState × ReasoningRecommendation) →
    Except StoreError (ReasoningRecommendation × σ)
  reset : σ → String → Except StoreError σ

namespace ReasoningOrchestrator

variable (orchestrator : ReasoningOrchestrator) (sha256 : Bytes → Bytes)

/-- The `update` of `_recommend_persisted`. -/
def update (taskId : String) (remaining : Option Nat) (baseline : ReasoningDecision)
    (safeTiers : List ReasoningTier) (escalationReason : Option String)
    (attempt : Option (String × String)) (state : StoredReasoningState) :
    StoredReasoningState × ReasoningRecommendation :=
  let counts := ReasoningRouter.countAttempt attempt state.attemptCounts
  let noProgress := orchestrator.router.noProgress attempt state.attemptCounts
  let current := ReasoningRouter.tierAmong safeTiers baseline.tier state.tier
  let floors := baseline.reasonCodes.filter (· ≠ "cheapest_eligible")
  let conclude (tier : ReasoningTier) (escalations : Nat) (reasons : List String) :
      StoredReasoningState × ReasoningRecommendation :=
    let recommendation := orchestrator.recommendation taskId remaining
      ⟨tier, floors ++ reasons, escalations, orchestrator.router.policyRevision⟩
    ({ taskId := taskId
       tier := some tier
       escalationsUsed := escalations
       recommendationCount := state.recommendationCount + 1
       attemptCounts := counts
       lastRecommendation := some recommendation.payload }, recommendation)
  if noProgress then
    conclude current state.escalationsUsed ["equivalent_attempt", "no_progress", "stop"]
  else
    match escalationReason with
    | some reason =>
        if orchestrator.router.maxEscalations ≤ state.escalationsUsed then
          conclude current state.escalationsUsed ["escalation_cap_reached", "stop"]
        else
          match safeTiers.find? (current.order < ·.order) with
          | none => conclude current state.escalationsUsed ["highest_eligible_tier", "stop"]
          | some higher =>
              conclude higher (state.escalationsUsed + 1) ["escalated:" ++ reasonCode reason]
    | none =>
        conclude current state.escalationsUsed
          [if current = baseline.tier then "cheapest_eligible" else "retained_escalated_tier"]

/-- The router of the baseline. -/
def baselineRouter : ReasoningRouter :=
  { orchestrator.router with maxEscalations := 0 }

variable {σ : Type} (store : ReasoningStateStore σ) (kept : σ)

/-- `recommend` with a store. -/
def recommendPersisted (budget : BudgetSnapshot) (request : RecommendRequest) :
    Except StoreError (ReasoningRecommendation × σ) := do
  let remaining := budget.remaining.get? orchestrator.budgetCounter
  let requested ← (normalizeEligible request.eligibleTiers).mapError .raised
  let affordable := orchestrator.affordable remaining requested
  let (baseline, _) ← (orchestrator.baselineRouter.route sha256 ∅ request.taskId
    (some (affordable.map (·.value))) request.risk request.policyMinimum none .null .null).mapError
    .raised
  let safeTiers := affordable.filter (baseline.tier.order ≤ ·.order)
  store.transact kept request.taskId (orchestrator.update request.taskId remaining baseline safeTiers
    request.escalationReason (attemptPair sha256 request.attemptSignature request.evidenceSignature))

/-- `state` with a store. -/
def statePersisted (budget : BudgetSnapshot) (taskId : String) :
    Except StoreError OrchestrationState := do
  raiseIf (taskId = "") (.raised .valueError)
  let persisted ← store.read kept taskId
  .ok (orchestrator.report budget taskId persisted.tier persisted.attemptCounts.size
    persisted.escalationsUsed persisted.recommendationCount persisted.lastRecommendation)

end ReasoningOrchestrator

/-- `_validate_task_id`. -/
def validateTaskId (taskId : String) : Except StoreError Unit :=
  raiseIf (taskId = "") (.raised .valueError)

/-! ## The store of its own database -/

/-- A row of `reasoning_tasks`. -/
structure TaskRow where
  tier : Option String
  escalationsUsed : Nat
  recommendationCount : Nat
  lastRecommendation : Option String

/-- The two tables; an attempt is under its task and the two digests. -/
structure ReasoningTables where
  tasks : Dict String TaskRow := ∅
  attempts : Dict (String × String × String) Nat := ∅

namespace SQLiteReasoningStore

variable (integer : SqlInteger) (tables : ReasoningTables)

/-- `ReasoningTier(row[0])` of a value that is there. -/
def decodeTier : Option String → Except StoreError (Option ReasoningTier)
  | none => .ok none
  | some text => (asTier text).mapError StoreError.raised |>.map some

/-- `json.loads(row[3])` of a value that is there. -/
def decodeLast : Option String → Except StoreError (Option Json)
  | none => .ok none
  | some text =>
      match loads text.toList with
      | some value => .ok (some value)
      | none => .error (.raised .valueError)

/-- `_read`. -/
def readRow (taskId : String) : Except StoreError StoredReasoningState :=
  match tables.tasks.get? taskId with
  | none => .ok { taskId := taskId }
  | some row => do
      let last ← decodeLast row.lastRecommendation
      let tier ← decodeTier row.tier
      .ok { taskId := taskId
            tier := tier
            escalationsUsed := row.escalationsUsed
            recommendationCount := row.recommendationCount
            attemptCounts := tables.attempts.row taskId
            lastRecommendation := last }

/-- `json.dumps` of a value that is there. -/
def dumpLast : Option Json → Except StoreError (Option String)
  | none => .ok none
  | some value => do
      raiseIf (value.printable = false) (.raised .valueError)
      .ok (some (canonicalJson value))

/-- `_write`. -/
def writeRow (state : StoredReasoningState) : Except StoreError ReasoningTables := do
  let serialized ← dumpLast state.lastRecommendation
  integer.bind .overflow state.escalationsUsed
  integer.bind .overflow state.recommendationCount
  forM state.attemptCounts.entries fun entry => integer.bind .overflow entry.2
  .ok
    { tasks := tables.tasks.set state.taskId
        { tier := state.tier.map (·.value)
          escalationsUsed := state.escalationsUsed
          recommendationCount := state.recommendationCount
          lastRecommendation := serialized }
      attempts := (state.attemptCounts.entries.map fun entry =>
          ((state.taskId, entry.1), entry.2)).foldl (fun written entry => written.set entry.1 entry.2)
        (tables.attempts.filterKeys (·.1 ≠ state.taskId)) }

/-- `read`. -/
def read (taskId : String) : Except StoreError StoredReasoningState := do
  validateTaskId taskId
  readRow tables taskId

/-- `transact`, which keeps what was there when it raises. -/
def transact (taskId : String)
    (update : StoredReasoningState → StoredReasoningState × ReasoningRecommendation) :
    Except StoreError (ReasoningRecommendation × ReasoningTables) := do
  validateTaskId taskId
  let current ← readRow tables taskId
  let (replacement, result) := update current
  raiseIf (replacement.taskId ≠ taskId) (.raised .valueError)
  let written ← writeRow integer tables replacement
  .ok (result, written)

/-- `reset`; the attempts go with their task. -/
def reset (taskId : String) : Except StoreError ReasoningTables := do
  validateTaskId taskId
  .ok { tasks := tables.tasks.erase taskId, attempts := tables.attempts.filterKeys (·.1 ≠ taskId) }

def store : ReasoningStateStore ReasoningTables where
  read := read
  transact := transact integer
  reset := reset

end SQLiteReasoningStore

/-! ## The store of the shared state -/

namespace ScopedReasoningStore

/-- `sorted(state.attempt_counts.items())`. -/
def sortedAttempts (counts : Dict (String × String) Nat) : List ((String × String) × Nat) :=
  sortedBy (fun entry => toLex entry.1) counts.entries

/-- `_encode_scoped_state`. -/
def encode (state : StoredReasoningState) : Json :=
  .obj [("attempts", .arr ((sortedAttempts state.attemptCounts).map fun entry =>
      .arr [.str entry.1.1, .str entry.1.2, .int entry.2])),
    ("escalations_used", .int state.escalationsUsed),
    ("last_recommendation", state.lastRecommendation.getD .null),
    ("recommendation_count", .int state.recommendationCount),
    ("tier", (state.tier.map fun tier => .str tier.value).getD .null)]

/-- An item of `attempts`. -/
def decodeAttempt : Json → Except Raised ((String × String) × Nat)
  | .arr [.str attempt, .str evidence, .int count] => do
      raiseIf (count < 0) .typeError
      .ok ((attempt, evidence), count.toNat)
  | _ => .error .typeError

def decodeTier : Option Json → Except Raised (Option ReasoningTier)
  | some .null => .ok none
  | some (.str text) => (asTier text).map some
  | _ => .error .typeError

def decodeLast : Option Json → Except Raised (Option Json)
  | some .null => .ok none
  | some (.obj fields) => .ok (some (.obj fields))
  | _ => .error .typeError

/-- The body of `_decode_scoped_state`. -/
def decodeFields (taskId : String) (fields : List (String × Json)) :
    Except Raised StoredReasoningState := do
  let rawAttempts ← listField .typeError fields "attempts"
  let attempts ← rawAttempts.mapM decodeAttempt
  let last ← decodeLast (mappingGet fields "last_recommendation")
  let escalations ← naturalField .typeError fields "escalations_used"
  let count ← naturalField .typeError fields "recommendation_count"
  let tier ← decodeTier (mappingGet fields "tier")
  .ok { taskId := taskId
        tier := tier
        escalationsUsed := escalations.toNat
        recommendationCount := count.toNat
        attemptCounts := Dict.ofEntries attempts
        lastRecommendation := last }

/-- `_decode_scoped_state`. -/
def decode (taskId : String) : Option Json → Except Raised StoredReasoningState
  | none => .ok { taskId := taskId }
  | some (.obj fields) => (decodeFields taskId fields).mapError fun _ => .valueError
  | some _ => .error .valueError

variable (keying : Keying) (scope : String → TenantScope) (now : ℚ) (state : ScopedState Json)

/-- `read`. -/
def read (taskId : String) : Except StoreError StoredReasoningState := do
  validateTaskId taskId
  let value ← (state.getEntry keying (scope taskId) "state" "reasoning" now).mapError .raised
  (decode taskId value).mapError .raised

/-- `transact`. -/
def transact (taskId : String)
    (update : StoredReasoningState → StoredReasoningState × ReasoningRecommendation) :
    Except StoreError (ReasoningRecommendation × ScopedState Json) := do
  validateTaskId taskId
  let transform (value : Option Json) : Except Raised (Option Json × ReasoningRecommendation) := do
    let current ← decode taskId value
    let (replacement, result) := update current
    raiseIf (replacement.taskId ≠ taskId) .valueError
    -- the text of the entry, which the shared state asks for next
    raiseIf ((encode replacement).printable = false) .valueError
    .ok (some (encode replacement), result)
  (state.transactEntry keying (scope taskId) "state" transform "reasoning" now).mapError .raised

/-- `reset`. -/
def reset (taskId : String) : Except StoreError (ScopedState Json) := do
  validateTaskId taskId
  let (_, left) ← (state.deleteEntry keying (scope taskId) "state" "reasoning").mapError .raised
  .ok left

def store : ReasoningStateStore (ScopedState Json) where
  read := read keying scope now
  transact := transact keying scope now
  reset := reset keying scope

end ScopedReasoningStore

end CapabilityHub.Reasoning
