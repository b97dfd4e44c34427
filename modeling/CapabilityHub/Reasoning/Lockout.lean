import CapabilityHub.Data.Runs
import CapabilityHub.Reasoning.Requests

/-! # When a task is locked out

A request is stopped for equivalent failed attempts. The router counts, for each failure, the
decisions that it made while that failure was the last result of the task; `Counted` says how this
is related to the failures since the last success of the task.
-/

namespace CapabilityHub.Reasoning

open Budget
open Transaction hiding bind_eq_ok

/-- The failures of an operation with an error code since the last success of the task, in a list
of results with the last one first. -/
def failuresSince (taskId operation errorCode : String) : List ReasoningResult → Nat
  | [] => 0
  | result :: earlier =>
      if result.taskId ≠ taskId then failuresSince taskId operation errorCode earlier
      else if result.errorCode = none then 0
      else failuresSince taskId operation errorCode earlier +
        if result = ⟨taskId, operation, some errorCode⟩ then 1 else 0

/-- The operation failed with the error code before the last success of the task. -/
def FailedBefore (taskId operation errorCode : String) : List ReasoningResult → Prop
  | [] => False
  | result :: earlier =>
      if result.taskId = taskId ∧ result.errorCode = none then
        (⟨taskId, operation, some errorCode⟩ : ReasoningResult) ∈ earlier
      else FailedBefore taskId operation errorCode earlier

namespace ServiceAdapter

variable (adapter : ServiceAdapter) (sha256 : Bytes → Bytes) (letters : CodeLetters)

def step (state : RoutingState) (action : RequestEnvelope × Surroundings) : RoutingState :=
  stateAfter (adapter.dispatch sha256 letters action.1 action.2) state

/-- The request is rejected for equivalent failed attempts. -/
def Rejected (state : RoutingState) (action : RequestEnvelope × Surroundings) (taskId : String) :
    Prop :=
  adapter.Reaches action.1 taskId ∧ ∃ workload constraints decision middle,
    terms action.2 = .ok (workload, constraints) ∧
    adapter.reasoning.decision sha256 taskId action.1.operation workload constraints
      (provided action.2.routingBudget) state = .ok decision middle ∧ decision.shouldStop = true

/-- A request is rejected only after more than the allowed number of failures. -/
def Justified (state : RoutingState) (action : RequestEnvelope × Surroundings) : Prop :=
  ∀ taskId, adapter.Rejected sha256 state action taskId → ∃ errorCode,
    adapter.reasoning.router.maxEquivalentAttempts <
      failuresSince taskId action.1.operation errorCode state.results

/-- How often the router counted a failure. -/
def count (state : RoutingState) (taskId operation errorCode : String) : Nat :=
  (state.tasks.getD taskId {}).attemptCounts.getD
    (AppliedReasoningRouter.failureAttempt sha256 (operation, errorCode)) 0

/-- A failure whose equivalents are used up is of the requested operation and is not one from before
the last success; with any other failure the router can escalate, and the request will end in a
recorded result. -/
def Unblocked (state : RoutingState) (action : RequestEnvelope × Surroundings) : Prop :=
  ∀ taskId workload constraints endpoints snapshot cheapest dearer operation errorCode,
    adapter.Reaches action.1 taskId → terms action.2 = .ok (workload, constraints) →
    adapter.reasoning.eligibleEndpoints constraints = .ok endpoints →
    provided action.2.routingBudget = .ok snapshot →
    AppliedReasoningRouter.candidates workload endpoints snapshot = cheapest :: dearer →
    state.failures.get? taskId = some (operation, errorCode) →
    if adapter.reasoning.router.maxEquivalentAttempts ≤ count sha256 state taskId operation errorCode
    then operation = action.1.operation ∧ ¬FailedBefore taskId operation errorCode state.results
    else adapter.reasoning.router.Escalates (cheapest :: dearer) cheapest
        (state.tasks.getD taskId {}) ∧ adapter.Concludes action.1 action.2

/-- The counts are those of the failures, as long as these are not from before the last success. -/
structure Counted (state : RoutingState) : Prop where
  failed : ∀ taskId operation errorCode, (count sha256 state taskId operation errorCode ≠ 0 ∨
    state.failures.get? taskId = some (operation, errorCode)) →
      (⟨taskId, operation, some errorCode⟩ : ReasoningResult) ∈ state.results
  matched : ∀ taskId operation errorCode,
    ¬FailedBefore taskId operation errorCode state.results →
      count sha256 state taskId operation errorCode +
          (if state.failures.get? taskId = some (operation, errorCode) then 1 else 0) ≤
        failuresSince taskId operation errorCode state.results ∨
      adapter.reasoning.router.maxEquivalentAttempts <
        failuresSince taskId operation errorCode state.results

variable {adapter} {sha256} {letters} {state middle final : RoutingState}
  {action : RequestEnvelope × Surroundings} {taskId other operation errorCode : String}
  {workload : ReasoningWorkload} {endpoints : List ReasoningEndpoint} {snapshot : BudgetSnapshot}
  {constraints : ReasoningConstraints}
  {decision : AppliedReasoningDecision} {result : ReasoningResult} {results : List ReasoningResult}

theorem failuresSince_cons_of_ne (different : result.taskId ≠ taskId) :
    failuresSince taskId operation errorCode (result :: results) =
      failuresSince taskId operation errorCode results := by
  rw [failuresSince, if_pos different]

theorem failuresSince_failure {code : String} :
    failuresSince taskId operation errorCode (⟨taskId, other, some code⟩ :: results) =
      failuresSince taskId operation errorCode results +
        if (other, code) = (operation, errorCode) then 1 else 0 := by
  rw [failuresSince, if_neg (not_not.mpr rfl), if_neg (Option.some_ne_none code)]
  congr 1
  simp

theorem failureAttempt_injective (injective : Function.Injective sha256) :
    Function.Injective (AppliedReasoningRouter.failureAttempt sha256) := by
  intro first second same
  obtain ⟨operations, codes⟩ := Prod.mk.inj same
  exact Prod.ext (fingerprint_str_injective injective operations)
    (fingerprint_str_injective injective codes)

/-- A decision counts the failure that is the last result of its task. -/
theorem count_decided (injective : Function.Injective sha256)
    (made : AppliedReasoningRouter.Decided adapter.reasoning sha256 taskId workload endpoints snapshot
      state decision middle) :
    count sha256 middle other operation errorCode = count sha256 state other operation errorCode +
      if other = taskId ∧ state.failures.get? taskId = some (operation, errorCode) then 1 else 0 := by
  obtain ⟨next, rfl, counts⟩ := made.counts
  rw [count, count, Dict.getD_set]
  by_cases same : other = taskId
  · subst same
    rw [if_pos rfl, counts]
    simp only [true_and]
    cases failure : state.failures.get? other with
    | none => rfl
    | some pair =>
        rw [Option.map_some, ReasoningRouter.countAttempt, Dict.getD_set]
        have apart : AppliedReasoningRouter.failureAttempt sha256 (operation, errorCode) =
            AppliedReasoningRouter.failureAttempt sha256 pair ↔ pair = (operation, errorCode) :=
          ⟨fun equal => (failureAttempt_injective injective equal).symm, fun equal => by rw [equal]⟩
        simp only [apart, Option.some.injEq]
        split
        next equal => rw [equal]
        next => rfl
  · rw [if_neg same, if_neg fun both => same both.1]
    rfl

theorem results_decided
    (made : AppliedReasoningRouter.Decided adapter.reasoning sha256 taskId workload endpoints snapshot
      state decision middle) :
    middle.results = state.results ∧ middle.failures = state.failures := by
  obtain ⟨next, rfl, _⟩ := made.counts
  exact ⟨rfl, rfl⟩

/-- What holds between a decision and its result: the last failure of the task is counted. -/
structure Between (adapter : ServiceAdapter) (sha256 : Bytes → Bytes) (taskId : String)
    (state : RoutingState) : Prop where
  failed : ∀ other operation errorCode, (count sha256 state other operation errorCode ≠ 0 ∨
    state.failures.get? other = some (operation, errorCode)) →
      (⟨other, operation, some errorCode⟩ : ReasoningResult) ∈ state.results
  matched : ∀ other operation errorCode,
    ¬FailedBefore other operation errorCode state.results →
      count sha256 state other operation errorCode +
          (if other ≠ taskId ∧ state.failures.get? other = some (operation, errorCode) then 1 else 0) ≤
        failuresSince other operation errorCode state.results ∨
      adapter.reasoning.router.maxEquivalentAttempts <
        failuresSince other operation errorCode state.results

theorem Counted.decided (injective : Function.Injective sha256) (counted : Counted adapter sha256 state)
    (made : AppliedReasoningRouter.Decided adapter.reasoning sha256 taskId workload endpoints snapshot
      state decision middle) : Between adapter sha256 taskId middle := by
  obtain ⟨results, failures⟩ := results_decided made
  refine ⟨fun other operation errorCode known => ?_, fun other operation errorCode fresh => ?_⟩
  · rw [count_decided injective made, failures] at known
    rw [results]
    apply counted.failed
    by_cases outstanding : state.failures.get? other = some (operation, errorCode)
    · exact .inr outstanding
    · rcases known with known | known
      · left
        intro zero
        rw [zero, if_neg] at known
        · exact known rfl
        · intro both
          exact outstanding (both.1 ▸ both.2)
      · exact .inr known
  · rw [results] at fresh ⊢
    rw [count_decided injective made, failures]
    rcases counted.matched other operation errorCode fresh with le | exceeded
    · left
      by_cases same : other = taskId
      · subst same
        simpa using le
      · simpa [same] using le
    · exact .inr exceeded

theorem get?_record (code : Option String) : (state.record taskId operation code).failures.get? other =
    if other = taskId then code.map (operation, ·) else state.failures.get? other := by
  cases code with
  | none => exact Dict.get?_erase
  | some code => exact Dict.get?_set

theorem Between.record (between : Between adapter sha256 taskId middle) (requested : String)
    (code : Option String) : Counted adapter sha256 (middle.record taskId requested code) := by
  refine ⟨fun other operation errorCode known => ?_, fun other operation errorCode fresh => ?_⟩
  · rw [get?_record] at known
    rcases known with known | known
    · exact List.mem_cons_of_mem _ (between.failed other operation errorCode (.inl known))
    · split at known
      next same =>
        obtain ⟨found, rfl, equal⟩ := Option.map_eq_some_iff.mp known
        cases equal
        exact same ▸ List.mem_cons_self
      next => exact List.mem_cons_of_mem _ (between.failed other operation errorCode (.inr known))
  · rw [get?_record]
    change count sha256 middle other operation errorCode + _ ≤
        failuresSince other operation errorCode (⟨taskId, requested, code⟩ :: middle.results) ∨
      _ < failuresSince other operation errorCode (⟨taskId, requested, code⟩ :: middle.results)
    change ¬if taskId = other ∧ code = none then _ else _ at fresh
    by_cases same : other = taskId
    · subst same
      cases code with
      | none =>
          rw [if_pos ⟨rfl, rfl⟩] at fresh
          have uncounted : count sha256 middle other operation errorCode = 0 := by
            by_contra known
            exact fresh (between.failed other operation errorCode (.inl known))
          simp [uncounted]
      | some code =>
          rw [if_neg fun both => Option.some_ne_none code both.2] at fresh
          rw [failuresSince_failure, if_pos rfl, Option.map_some]
          simp only [Option.some.injEq]
          have le := between.matched other operation errorCode fresh
          simp only [ne_eq, not_true_eq_false, false_and, if_false, Nat.add_zero] at le
          omega
    · rw [if_neg fun both => same both.1.symm] at fresh
      rw [failuresSince_cons_of_ne (Ne.symm same), if_neg same]
      simpa [same] using between.matched other operation errorCode fresh

theorem Between.counted (between : Between adapter sha256 taskId middle)
    (last : ∀ operation errorCode, middle.failures.get? taskId = some (operation, errorCode) →
      adapter.reasoning.router.maxEquivalentAttempts <
        failuresSince taskId operation errorCode middle.results) : Counted adapter sha256 middle := by
  refine ⟨between.failed, fun other operation errorCode fresh => ?_⟩
  by_cases same : other = taskId
  · subst same
    by_cases outstanding : middle.failures.get? other = some (operation, errorCode)
    · exact .inr (last operation errorCode outstanding)
    · rw [if_neg outstanding]
      simpa using between.matched other operation errorCode fresh
  · simpa [same] using between.matched other operation errorCode fresh

/-- A decision is to stop exactly where the equivalents of the last failure are used up or there is
no way to escalate. -/
theorem shouldStop_iff
    (made : AppliedReasoningRouter.Decided adapter.reasoning sha256 taskId workload endpoints snapshot
      state decision middle) :
    ∃ cheapest dearer,
      AppliedReasoningRouter.candidates workload endpoints snapshot = cheapest :: dearer ∧
      (decision.shouldStop = true ↔ ∃ operation errorCode,
        state.failures.get? taskId = some (operation, errorCode) ∧
          (adapter.reasoning.router.maxEquivalentAttempts ≤
              count sha256 state taskId operation errorCode ∨
            ¬adapter.reasoning.router.Escalates (cheapest :: dearer) cheapest
              (state.tasks.getD taskId {}))) := by
  obtain ⟨cheapest, dearer, candidates, stops⟩ := made.stops
  refine ⟨cheapest, dearer, candidates, stops.trans ?_⟩
  cases state.failures.get? taskId with
  | none => simp [ReasoningRouter.noProgress]
  | some pair =>
      obtain ⟨operation, errorCode⟩ := pair
      simp [ReasoningRouter.noProgress, count]

/-- A request that is rejected met a failure that was counted often enough. -/
theorem Unblocked.stopped (unblocked : Unblocked adapter sha256 state action)
    (reaches : adapter.Reaches action.1 taskId) (termed : terms action.2 = .ok (workload, constraints))
    (eligible : adapter.reasoning.eligibleEndpoints constraints = .ok endpoints)
    (given : provided action.2.routingBudget = .ok snapshot)
    (made : AppliedReasoningRouter.Decided adapter.reasoning sha256 taskId workload endpoints snapshot
      state decision middle) (stop : decision.shouldStop = true) :
    ∃ errorCode, state.failures.get? taskId = some (action.1.operation, errorCode) ∧
      adapter.reasoning.router.maxEquivalentAttempts ≤
        count sha256 state taskId action.1.operation errorCode ∧
      ¬FailedBefore taskId action.1.operation errorCode state.results := by
  obtain ⟨cheapest, dearer, candidates, stops⟩ := shouldStop_iff made
  obtain ⟨operation, errorCode, outstanding, cause⟩ := stops.mp stop
  have condition := unblocked taskId workload constraints endpoints snapshot cheapest dearer operation
    errorCode reaches termed eligible given candidates outstanding
  split at condition
  next spent =>
    obtain ⟨rfl, fresh⟩ := condition
    exact ⟨errorCode, outstanding, spent, fresh⟩
  next left =>
    rcases cause with spent | stuck
    · exact absurd spent left
    · exact absurd condition.1 stuck

/-- A request that is let through with a failure outstanding ends in a recorded result. -/
theorem Unblocked.concludes (unblocked : Unblocked adapter sha256 state action)
    (reaches : adapter.Reaches action.1 taskId) (termed : terms action.2 = .ok (workload, constraints))
    (eligible : adapter.reasoning.eligibleEndpoints constraints = .ok endpoints)
    (given : provided action.2.routingBudget = .ok snapshot)
    (made : AppliedReasoningRouter.Decided adapter.reasoning sha256 taskId workload endpoints snapshot
      state decision middle) (go : decision.shouldStop = false)
    (outstanding : state.failures.get? taskId = some (operation, errorCode)) :
    adapter.Concludes action.1 action.2 := by
  obtain ⟨cheapest, dearer, candidates, stops⟩ := shouldStop_iff made
  have condition := unblocked taskId workload constraints endpoints snapshot cheapest dearer operation
    errorCode reaches termed eligible given candidates outstanding
  split at condition
  next spent =>
    have stop := stops.mpr ⟨operation, errorCode, outstanding, .inl spent⟩
    exact absurd (go.symm.trans stop) Bool.false_ne_true
  next => exact condition.2

/-- What was counted often enough has failed more often. -/
theorem Counted.exceeds (counted : Counted adapter sha256 state)
    (outstanding : state.failures.get? taskId = some (operation, errorCode))
    (spent : adapter.reasoning.router.maxEquivalentAttempts ≤
      count sha256 state taskId operation errorCode)
    (fresh : ¬FailedBefore taskId operation errorCode state.results) :
    adapter.reasoning.router.maxEquivalentAttempts <
      failuresSince taskId operation errorCode state.results := by
  rcases counted.matched taskId operation errorCode fresh with le | exceeded
  · rw [if_pos outstanding] at le
    exact Nat.lt_of_lt_of_le (Nat.lt_succ_of_le spent) le
  · exact exceeded

theorem Counted.step (injective : Function.Injective sha256) (counted : Counted adapter sha256 state)
    (unblocked : Unblocked adapter sha256 state action) :
    Counted adapter sha256 (adapter.step sha256 letters state action) := by
  rcases @dispatch_cases adapter sha256 letters action.1 action.2 state with same | served
  · rwa [ServiceAdapter.step, same]
  · obtain ⟨taskId, reaches, same | ⟨workload, constraints, decision, middle, termed, decided,
      concluded⟩⟩ := served
    · rwa [ServiceAdapter.step, same]
    · rw [ServiceAdapter.step]
      obtain ⟨endpoints, snapshot, eligible, given, made⟩ :=
        AppliedReasoningRouter.decision_eq_ok decided
      have between := counted.decided injective made
      obtain ⟨results, failures⟩ := results_decided made
      generalize stateAfter _ state = final at concluded ⊢
      cases concluded with
      | recorded => exact between.record _ _
      | stopped stop =>
          apply between.counted
          intro operation errorCode outstanding
          obtain ⟨code, outstanding', spent, fresh⟩ :=
            unblocked.stopped reaches termed eligible given made stop
          rw [failures, outstanding'] at outstanding
          cases outstanding
          rw [results]
          exact counted.exceeds outstanding' spent fresh
      | lost go broken =>
          apply between.counted
          intro operation errorCode outstanding
          rw [failures] at outstanding
          exact absurd (unblocked.concludes reaches termed eligible given made go outstanding) broken

theorem Counted.justified (counted : Counted adapter sha256 state)
    (unblocked : Unblocked adapter sha256 state action) : Justified adapter sha256 state action := by
  intro taskId rejected
  obtain ⟨reaches, workload, constraints, decision, middle, termed, decided, stop⟩ := rejected
  obtain ⟨endpoints, snapshot, eligible, given, made⟩ :=
    AppliedReasoningRouter.decision_eq_ok decided
  obtain ⟨errorCode, outstanding, spent, fresh⟩ :=
    unblocked.stopped reaches termed eligible given made stop
  exact ⟨errorCode, counted.exceeds outstanding spent fresh⟩

theorem counted_empty : Counted adapter sha256 {} := by
  refine ⟨fun _ _ _ known => ?_, fun _ _ _ _ => .inl (Nat.le_refl 0)⟩
  rcases known with known | known
  · exact absurd rfl known
  · cases known

/-- In a run whose requests are all unblocked, a request is rejected only after more than the allowed
number of failures of its operation with one error code since the last success of its task. -/
theorem rejections_justified (adapter : ServiceAdapter) (sha256 : Bytes → Bytes)
    (injective : Function.Injective sha256) (letters : CodeLetters)
    (requests : List (RequestEnvelope × Surroundings))
    (unblocked : Along (adapter.step sha256 letters) (Unblocked adapter sha256) {} requests) :
    Along (adapter.step sha256 letters) (Justified adapter sha256) {} requests :=
  unblocked.imp counted_empty (fun _ _ allowed counted => counted.step injective allowed)
    fun _ _ counted allowed => counted.justified allowed

/-- A load that fails, with the constraints of its caller. -/
def failingLoad (constraints : ReasoningConstraints) : RequestEnvelope × Surroundings :=
  ({ adapter := .cli
     operation := "capability.load"
     payload := Dict.ofEntries [("capability_ref", .str "missing"), ("task_id", .str "task")] },
   { workload := .ok (some {})
     constraints := some (.ok (some constraints))
     routingBudget := .ok { scope := "task", limits := ∅, used := ∅, reserved := ∅, remaining := ∅ }
     usage := fun _ => .ok none
     service := .error (.hub { code := "reference_invalid", category := .reference,
                               safeMessage := "The reference is invalid." }) })

/-- The letters of ASCII. -/
def asciiLetters : CodeLetters where
  isLower := Char.isLower
  isDigit := Char.isDigit

def localAdapter : ServiceAdapter where
  kind := .cli
  reasoning := localRouter

/-- One failure under constraints that admit a single tier locks the task out. -/
theorem not_rejections_justified :
    ¬Along (ServiceAdapter.step localAdapter id asciiLetters)
      (Justified localAdapter id) {}
      [failingLoad { maximumTier := .low }, failingLoad { maximumTier := .low }] := by
  intro along
  obtain ⟨_, second, _⟩ := along
  obtain ⟨errorCode, exceeded⟩ :=
    second "task" ⟨⟨rfl, rfl, rfl, .inr (.inl ⟨rfl, rfl⟩)⟩, _, _, _, _, rfl, rfl, rfl⟩
  have once : failuresSince "task" "capability.load" errorCode
      [⟨"task", "capability.load", some "reference_invalid"⟩] ≤ 1 := by
    rw [failuresSince_failure]
    exact (Nat.zero_add _).le.trans (by split <;> decide)
  exact absurd exceeded (Nat.not_lt.mpr once)

theorem rejections_justified_retried :
    Along (ServiceAdapter.step localAdapter id asciiLetters)
      (Justified localAdapter id) {}
      [failingLoad {}, failingLoad {}] := by
  apply rejections_justified _ _ Function.injective_id
  refine ⟨?_, ?_, trivial⟩
  · intro taskId workload constraints endpoints snapshot cheapest dearer operation errorCode _ _ _ _ _
      outstanding
    cases outstanding
  · intro taskId workload constraints endpoints snapshot cheapest dearer operation errorCode reaches
      termed eligible given candidates outstanding
    cases termed
    cases given
    cases eligible
    cases candidates
    have failures : (localAdapter.step id asciiLetters {} (failingLoad {})).failures =
        (∅ : Dict String (String × String)).set "task" ("capability.load", "reference_invalid") := rfl
    rw [failures, Dict.get?_set] at outstanding
    split at outstanding
    next same =>
      cases outstanding
      cases same
      have uncounted : count id (localAdapter.step id asciiLetters {} (failingLoad {})) "task"
          "capability.load" "reference_invalid" = 0 := rfl
      have unspent : ¬localAdapter.reasoning.router.maxEquivalentAttempts ≤ 0 :=
        Nat.not_le.mpr Nat.zero_lt_one
      rw [uncounted, if_neg unspent]
      exact ⟨⟨Nat.zero_lt_two, .medium, by decide, by decide⟩,
        (fun absent => by cases absent), fun searches => absurd searches (by decide)⟩
    next => cases outstanding

end ServiceAdapter

end CapabilityHub.Reasoning
