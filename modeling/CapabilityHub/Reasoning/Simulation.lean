import CapabilityHub.Reasoning.Stores
import Mathlib.Data.NNRat.Defs

/-! # Recommendations with and without a store

What a call does with a store is what it does in one process: `Simulates` says that a store holds
what the process remembers, and a call keeps it for every store that is `Lawful`.
-/

namespace CapabilityHub.Reasoning

open Budget Residency Tenancy

/-- Two states of a task that differ only in the order of the attempts. -/
structure TaskState.Alike (first second : TaskState) : Prop where
  tier : first.currentTier = second.currentTier
  escalations : first.escalationsUsed = second.escalationsUsed
  attempts : ∀ pair, first.attemptCounts.get? pair = second.attemptCounts.get? pair

/-- The router does not look at the order of the attempts. -/
theorem TaskState.Alike.advance {first second : TaskState} (alike : first.Alike second)
    {router : ReasoningRouter} {candidates : List ReasoningTier} {cheapest : ReasoningTier}
    {floors : List String} {escalationReason : Option String} {attempt : Option (String × String)} :
    (router.advance candidates cheapest floors escalationReason attempt first).1 =
        (router.advance candidates cheapest floors escalationReason attempt second).1 ∧
      (router.advance candidates cheapest floors escalationReason attempt first).2.Alike
        (router.advance candidates cheapest floors escalationReason attempt second).2 := by
  obtain ⟨tier, escalations, counts⟩ := first
  obtain ⟨tier', escalations', counts'⟩ := second
  obtain ⟨rfl, rfl, attempts⟩ := alike
  have progress : router.noProgress attempt counts = router.noProgress attempt counts' := by
    cases attempt with
    | none => rfl
    | some pair => rw [ReasoningRouter.noProgress, ReasoningRouter.noProgress, Dict.getD, attempts]; rfl
  have counted (pair : String × String) : (ReasoningRouter.countAttempt attempt counts).get? pair =
      (ReasoningRouter.countAttempt attempt counts').get? pair := by
    cases attempt with
    | none => exact attempts pair
    | some other =>
        rw [ReasoningRouter.countAttempt, ReasoningRouter.countAttempt, Dict.get?_set, Dict.get?_set,
          Dict.getD, attempts, attempts]
        rfl
  rw [ReasoningRouter.advance.eq_def, ReasoningRouter.advance.eq_def]
  dsimp only
  rw [progress]
  have retained : ReasoningRouter.retained candidates cheapest ⟨tier, escalations, counts⟩ =
      ReasoningRouter.retained candidates cheapest ⟨tier, escalations, counts'⟩ := rfl
  rw [retained]
  generalize ReasoningRouter.retained candidates cheapest ⟨tier, escalations, counts'⟩ = current
  by_cases equivalent : router.noProgress attempt counts' = true
  · rw [if_pos equivalent, if_pos equivalent]
    exact ⟨rfl, rfl, rfl, counted⟩
  · rw [if_neg equivalent, if_neg equivalent]
    cases escalationReason with
    | none => exact ⟨rfl, rfl, rfl, counted⟩
    | some reason =>
        dsimp only
        by_cases spent : router.maxEscalations ≤ escalations
        · rw [if_pos spent, if_pos spent]
          exact ⟨rfl, rfl, rfl, counted⟩
        · rw [if_neg spent, if_neg spent]
          cases candidates.find? (current.order < ·.order) with
          | none => exact ⟨rfl, rfl, rfl, counted⟩
          | some higher => exact ⟨rfl, rfl, rfl, counted⟩

/-! ## The two algorithms -/

namespace ReasoningOrchestrator

variable (orchestrator : ReasoningOrchestrator) (sha256 : Bytes → Bytes)

/-- What both algorithms find out before they look at the task: the tiers that fit, the cheapest
first, and the reasons that come from the floors. -/
def plan (budget : BudgetSnapshot) (request : RecommendRequest) :
    Except Raised (ReasoningTier × List ReasoningTier × List String) := do
  let requested ← normalizeEligible request.eligibleTiers
  raiseIf (request.taskId = "") .valueError
  let riskValue ← asRisk request.risk
  let policyFloor ← asTier request.policyMinimum
  let minimum := minimumTier (riskFloor riskValue) policyFloor
  let affordable :=
    orchestrator.affordable (budget.remaining.get? orchestrator.budgetCounter) requested
  match affordable.filter (minimum.order ≤ ·.order) with
  | [] => .error (Errors.noEligibleTier minimum)
  | cheapest :: dearer => .ok (cheapest, dearer, floorReasons (riskFloor riskValue) policyFloor)

variable {orchestrator} {sha256} {budget : BudgetSnapshot} {request : RecommendRequest}
  {memory : ProcessMemory} {requested : List ReasoningTier} {cheapest tier : ReasoningTier}
  {dearer : List ReasoningTier} {floors : List String}

theorem normalizeEligible_eq_ok {values : Option (List String)} {tiers : List ReasoningTier}
    (normalized : normalizeEligible values = .ok tiers) :
    ∃ chosen : List ReasoningTier, tiers = ReasoningTier.all.filter (· ∈ chosen) := by
  cases values with
  | none =>
      obtain rfl := Except.ok.inj normalized
      exact ⟨ReasoningTier.all, by decide⟩
  | some values =>
      obtain ⟨chosen, _, normalized⟩ := bind_eq_ok.mp normalized
      exact ⟨chosen, (Except.ok.inj normalized).symm⟩

/-- The tiers that fit are asked for as they are. -/
theorem eligible_affordable {remaining : Option Nat} {values : Option (List String)}
    (normalized : normalizeEligible values = .ok requested) :
    Reasoning.normalizeEligible (some ((orchestrator.affordable remaining requested).map (·.value))) =
      .ok (orchestrator.affordable remaining requested) := by
  obtain ⟨chosen, rfl⟩ := normalizeEligible_eq_ok normalized
  rw [Reasoning.normalizeEligible_values, filter_affordable]

/-- The route of one process. -/
theorem route_eq {router : ReasoningRouter} {tasks : Dict String TaskState}
    {escalationReason : Option String} {attemptSignature evidenceSignature : Json}
    (normalized : normalizeEligible request.eligibleTiers = .ok requested) :
    router.route sha256 tasks request.taskId
        (some ((orchestrator.affordable (budget.remaining.get? orchestrator.budgetCounter)
          requested).map (·.value)))
        request.risk request.policyMinimum escalationReason attemptSignature evidenceSignature =
      (orchestrator.plan budget request).map fun plan =>
        let advanced := router.advance (plan.1 :: plan.2.1) plan.1 plan.2.2 escalationReason
          (attemptPair sha256 attemptSignature evidenceSignature) (tasks.getD request.taskId {})
        (advanced.1, tasks.set request.taskId advanced.2) := by
  rw [ReasoningRouter.route, plan, normalized, eligible_affordable normalized]
  dsimp only [bind, Except.bind]
  cases raiseIf (request.taskId = "") Raised.valueError with
  | error => rfl
  | ok =>
      dsimp only
      cases asRisk request.risk with
      | error => rfl
      | ok risk =>
          dsimp only
          cases asTier request.policyMinimum with
          | error => rfl
          | ok floor =>
              dsimp only
              cases (orchestrator.affordable (budget.remaining.get? orchestrator.budgetCounter)
                requested).filter ((minimumTier (riskFloor risk) floor).order ≤ ·.order) <;> rfl

/-- `recommend` without a store, from its plan. -/
theorem recommend_eq : orchestrator.recommend sha256 memory budget request =
    (orchestrator.plan budget request).map fun plan =>
      let advanced := orchestrator.router.advance (plan.1 :: plan.2.1) plan.1 plan.2.2
        request.escalationReason (attemptPair sha256 request.attemptSignature request.evidenceSignature)
        (memory.tasks.getD request.taskId {})
      let recommendation := orchestrator.recommendation request.taskId
        (budget.remaining.get? orchestrator.budgetCounter) advanced.1
      (recommendation,
        { tasks := memory.tasks.set request.taskId advanced.2
          last := memory.last.set request.taskId recommendation
          recommendationCounts := memory.recommendationCounts.set request.taskId
            (memory.recommendationCounts.getD request.taskId 0 + 1) }) := by
  cases normalized : normalizeEligible request.eligibleTiers with
  | error raised => rw [recommend, plan, normalized]; rfl
  | ok requested =>
      rw [recommend, normalized]
      dsimp only [bind, Except.bind]
      rw [route_eq normalized]
      cases orchestrator.plan budget request <;> rfl

theorem cheapestEligible_notMem (riskFloor policyFloor : ReasoningTier) :
    "cheapest_eligible" ∉ floorReasons riskFloor policyFloor := by
  cases riskFloor <;> cases policyFloor <;> decide

/-- What a plan says of its tiers and reasons. -/
theorem plan_eq_ok (planned : orchestrator.plan budget request = .ok (cheapest, dearer, floors)) :
    "cheapest_eligible" ∉ floors ∧ (∀ tier ∈ dearer, cheapest.order < tier.order) ∧
      ∃ requested, normalizeEligible request.eligibleTiers = .ok requested ∧
        (orchestrator.affordable (budget.remaining.get? orchestrator.budgetCounter) requested).filter
          (cheapest.order ≤ ·.order) = cheapest :: dearer := by
  obtain ⟨requested, normalized, planned⟩ := bind_eq_ok.mp planned
  obtain ⟨_, _, planned⟩ := bind_eq_ok.mp planned
  obtain ⟨risk, _, planned⟩ := bind_eq_ok.mp planned
  obtain ⟨floor, _, planned⟩ := bind_eq_ok.mp planned
  dsimp only at planned
  split at planned
  next => cases planned
  next first rest candidates =>
    cases planned
    obtain ⟨chosen, rfl⟩ := normalizeEligible_eq_ok normalized
    have ordered : ReasoningTier.all.Pairwise fun first second => first.order < second.order := by
      decide
    have sorted := ((ordered.filter (· ∈ chosen)).filter fun tier => decide (∀ left ∈
      budget.remaining.get? orchestrator.budgetCounter, orchestrator.estimates.tokens tier ≤ left)
        ).filter fun tier => decide ((minimumTier (riskFloor risk) floor).order ≤ tier.order)
    rw [← affordable, candidates, List.pairwise_cons] at sorted
    have member : cheapest ∈ cheapest :: dearer := List.mem_cons_self
    rw [← candidates, List.mem_filter] at member
    refine ⟨cheapestEligible_notMem _ _, sorted.1, _, normalized, ?_⟩
    rw [← candidates]
    apply List.filter_congr
    intro tier inside
    apply decide_eq_decide.mpr
    constructor
    · exact (of_decide_eq_true member.2).trans
    · intro above
      have found : tier ∈ cheapest :: dearer :=
        candidates ▸ List.mem_filter.mpr ⟨inside, decide_eq_true above⟩
      rcases List.mem_cons.mp found with rfl | found
      · exact Nat.le_refl _
      · exact (sorted.1 tier found).le

/-- `recommend` with a store, from the same plan. -/
theorem recommendPersisted_eq {σ : Type} {store : ReasoningStateStore σ} {kept : σ} :
    orchestrator.recommendPersisted sha256 store kept budget request =
      ((orchestrator.plan budget request).mapError StoreError.raised).bind fun plan =>
        store.transact kept request.taskId (orchestrator.update request.taskId
          (budget.remaining.get? orchestrator.budgetCounter)
          ⟨plan.1, plan.2.2 ++ ["cheapest_eligible"], 0, orchestrator.router.policyRevision⟩
          (plan.1 :: plan.2.1) request.escalationReason
          (attemptPair sha256 request.attemptSignature request.evidenceSignature)) := by
  cases normalized : normalizeEligible request.eligibleTiers with
  | error raised => rw [recommendPersisted, plan, normalized]; rfl
  | ok requested =>
      rw [recommendPersisted, normalized]
      change ((orchestrator.baselineRouter.route sha256 ∅ request.taskId _ request.risk
        request.policyMinimum none .null .null).mapError StoreError.raised).bind _ = _
      rw [route_eq normalized]
      cases planned : orchestrator.plan budget request with
      | error raised => rfl
      | ok plan =>
          obtain ⟨cheapest, dearer, floors⟩ := plan
          obtain ⟨_, _, _, normalized', safe⟩ := plan_eq_ok planned
          cases normalized.symm.trans normalized'
          have baseline : orchestrator.baselineRouter.advance (cheapest :: dearer) cheapest floors none
              (attemptPair sha256 .null .null) {} =
                (⟨cheapest, floors ++ ["cheapest_eligible"], 0, orchestrator.router.policyRevision⟩,
                  ⟨some cheapest, 0, ∅⟩) := by
            rw [ReasoningRouter.advance.eq_def]
            simp [ReasoningRouter.retained, ReasoningRouter.tierAmong, attemptPair, ReasoningRouter.noProgress, ReasoningRouter.countAttempt,
              baselineRouter]
          have fresh : (∅ : Dict String TaskState).getD request.taskId {} = {} := rfl
          dsimp only [Except.map, Except.mapError, Except.bind]
          rw [fresh, baseline, safe]

/-- The state of a task as a store has it. -/
def taskState (stored : StoredReasoningState) : TaskState where
  currentTier := stored.tier
  escalationsUsed := stored.escalationsUsed
  attemptCounts := stored.attemptCounts

theorem le_tierAmong {current : Option ReasoningTier}
    (ordered : ∀ tier ∈ dearer, cheapest.order < tier.order) :
    cheapest.order ≤ (ReasoningRouter.tierAmong (cheapest :: dearer) cheapest current).order := by
  cases current with
  | none => exact Nat.le_refl _
  | some tier =>
      rw [ReasoningRouter.tierAmong]
      split
      next member =>
        rcases List.mem_cons.mp member with rfl | member
        · exact Nat.le_refl _
        · exact (ordered tier member).le
      next => exact Nat.le_refl _

/-- The update of a store does what the router does. -/
theorem update_eq {taskId : String} {remaining : Option Nat} {escalationReason : Option String}
    {attempt : Option (String × String)} {stored : StoredReasoningState}
    (clean : "cheapest_eligible" ∉ floors) (ordered : ∀ tier ∈ dearer, cheapest.order < tier.order) :
    orchestrator.update taskId remaining
        ⟨cheapest, floors ++ ["cheapest_eligible"], 0, orchestrator.router.policyRevision⟩
        (cheapest :: dearer) escalationReason attempt stored =
      let advanced := orchestrator.router.advance (cheapest :: dearer) cheapest floors escalationReason
        attempt (taskState stored)
      let recommendation := orchestrator.recommendation taskId remaining advanced.1
      ({ taskId := taskId
         tier := advanced.2.currentTier
         escalationsUsed := advanced.2.escalationsUsed
         recommendationCount := stored.recommendationCount + 1
         attemptCounts := advanced.2.attemptCounts
         lastRecommendation := some recommendation.payload }, recommendation) := by
  have kept : floors.filter (· ≠ "cheapest_eligible") = floors := by
    apply List.filter_eq_self.mpr
    intro reason member
    exact decide_eq_true fun same => clean (same ▸ member)
  have current : ReasoningRouter.retained (cheapest :: dearer) cheapest (taskState stored) =
      ReasoningRouter.tierAmong (cheapest :: dearer) cheapest stored.tier := by
    unfold ReasoningRouter.retained
    exact if_neg (Nat.not_lt.mpr (le_tierAmong ordered))
  have reasons : (floors ++ ["cheapest_eligible"]).filter (· ≠ "cheapest_eligible") = floors := by
    rw [List.filter_append, kept]
    exact List.append_nil _
  rw [update.eq_def, ReasoningRouter.advance.eq_def]
  dsimp only
  rw [current, reasons]
  generalize ReasoningRouter.tierAmong (cheapest :: dearer) cheapest stored.tier = chosen
  change (if orchestrator.router.noProgress attempt stored.attemptCounts = true then _ else _) = _
  by_cases equivalent : orchestrator.router.noProgress attempt stored.attemptCounts = true
  · have equivalent' : orchestrator.router.noProgress attempt (taskState stored).attemptCounts = true :=
      equivalent
    rw [if_pos equivalent, if_pos equivalent']
    rfl
  · have equivalent' : ¬orchestrator.router.noProgress attempt (taskState stored).attemptCounts = true :=
      equivalent
    rw [if_neg equivalent, if_neg equivalent']
    cases escalationReason with
    | none => rfl
    | some reason =>
        dsimp only
        by_cases spent : orchestrator.router.maxEscalations ≤ stored.escalationsUsed
        · have spent' : orchestrator.router.maxEscalations ≤ (taskState stored).escalationsUsed := spent
          rw [if_pos spent, if_pos spent']
          rfl
        · have spent' : ¬orchestrator.router.maxEscalations ≤ (taskState stored).escalationsUsed := spent
          rw [if_neg spent, if_neg spent']
          cases (cheapest :: dearer).find? (chosen.order < ·.order) <;> rfl

end ReasoningOrchestrator

/-! ## What a store promises -/

/-- A state that a call leaves: the last recommendation is there, and the counters fit. -/
structure Storable (fits : Nat → Prop) (stored : StoredReasoningState) : Prop where
  last : ∃ recommendation : ReasoningRecommendation,
    stored.lastRecommendation = some recommendation.payload ∧ recommendation.payload.printable = true
  escalations : fits stored.escalationsUsed
  recommendations : fits stored.recommendationCount
  attempts : ∀ pair count, stored.attemptCounts.get? pair = some count → fits count

/-- The same state, whatever the order of the attempts. -/
structure StoredReasoningState.Alike (first second : StoredReasoningState) : Prop where
  taskId : first.taskId = second.taskId
  recommendations : first.recommendationCount = second.recommendationCount
  last : first.lastRecommendation = second.lastRecommendation
  task : (ReasoningOrchestrator.taskState first).Alike (ReasoningOrchestrator.taskState second)

/-- A store, as it is at each time, that reads what was written to it for the named tasks. -/
structure Lawful {σ : Type} (fits : Nat → Prop) (named : String → Prop)
    (store : ℚ≥0 → ReasoningStateStore σ) (sound : σ → Prop) : Prop where
  reads : ∀ kept taskId, sound kept → named taskId → ∃ stored,
    stored.taskId = taskId ∧ ∀ now, (store now).read kept taskId = .ok stored
  writes : ∀ kept taskId now stored update, sound kept → named taskId →
    (store now).read kept taskId = .ok stored → (update stored).1.taskId = taskId →
    Storable fits (update stored).1 → ∃ next,
      (store now).transact kept taskId update = .ok ((update stored).2, next) ∧ sound next ∧
      (∃ replaced, (∀ now, (store now).read next taskId = .ok replaced) ∧
        replaced.Alike (update stored).1) ∧
      ∀ other held, other ≠ taskId → named other → (∀ now, (store now).read kept other = .ok held) →
        ∃ left, (∀ now, (store now).read next other = .ok left) ∧ left.Alike held
  resets : ∀ kept taskId now, sound kept → named taskId → ∃ next,
    (store now).reset kept taskId = .ok next ∧ sound next ∧
      (∀ now, (store now).read next taskId = .ok { taskId := taskId }) ∧
      ∀ other held, other ≠ taskId → named other → (∀ now, (store now).read kept other = .ok held) →
        ∃ left, (∀ now, (store now).read next other = .ok left) ∧ left.Alike held

/-- What the process remembers of a task. -/
def ProcessMemory.stored (memory : ProcessMemory) (taskId : String) : StoredReasoningState where
  taskId := taskId
  tier := (memory.tasks.getD taskId {}).currentTier
  escalationsUsed := (memory.tasks.getD taskId {}).escalationsUsed
  recommendationCount := memory.recommendationCounts.getD taskId 0
  attemptCounts := (memory.tasks.getD taskId {}).attemptCounts
  lastRecommendation := (memory.last.get? taskId).map (·.payload)

/-- The store holds what the process remembers. -/
structure Simulates {σ : Type} (named : String → Prop) (store : ℚ≥0 → ReasoningStateStore σ)
    (sound : σ → Prop) (memory : ProcessMemory) (kept : σ) : Prop where
  sound : sound kept
  holds : ∀ taskId, named taskId → ∃ stored, (∀ now, (store now).read kept taskId = .ok stored) ∧
    stored.Alike (memory.stored taskId)

/-- The counters of a process after a number of calls. -/
structure Bounded (calls : Nat) (memory : ProcessMemory) : Prop where
  escalations : ∀ taskId, (memory.tasks.getD taskId {}).escalationsUsed ≤ calls
  recommendations : ∀ taskId, memory.recommendationCounts.getD taskId 0 ≤ calls
  attempts : ∀ taskId pair count,
    (memory.tasks.getD taskId {}).attemptCounts.get? pair = some count → count ≤ calls

section

variable {orchestrator : ReasoningOrchestrator} {sha256 : Bytes → Bytes} {σ : Type} {fits : Nat → Prop}
  {named : String → Prop}  {store : ℚ≥0 → ReasoningStateStore σ} {sound : σ → Prop} {memory after : ProcessMemory} {kept : σ}
  {budget : BudgetSnapshot} {request : RecommendRequest} {now : ℚ≥0} {calls : Nat} {taskId : String}
  {recommendation : ReasoningRecommendation}

theorem escalationsUsed_advance {router : ReasoningRouter} {candidates : List ReasoningTier}
    {cheapest : ReasoningTier} {floors : List String} {escalationReason : Option String}
    {attempt : Option (String × String)} {state : TaskState} :
    (router.advance candidates cheapest floors escalationReason attempt state).2.escalationsUsed ≤
      state.escalationsUsed + 1 := by
  rw [ReasoningRouter.advance.eq_def]
  dsimp only
  split
  · exact Nat.le_succ _
  · split
    · split
      · exact Nat.le_succ _
      · split
        · exact Nat.le_succ _
        · exact Nat.le_refl _
    · exact Nat.le_succ _

theorem get?_countAttempt {attempt : Option (String × String)} {counts : Dict (String × String) Nat}
    (bounded : ∀ pair count, counts.get? pair = some count → count ≤ calls) (pair : String × String)
    (count : Nat) (found : (ReasoningRouter.countAttempt attempt counts).get? pair = some count) :
    count ≤ calls + 1 := by
  cases attempt with
  | none => exact Nat.le_succ_of_le (bounded pair count found)
  | some other =>
      rw [ReasoningRouter.countAttempt, Dict.get?_set] at found
      split at found
      · cases found
        apply Nat.succ_le_succ
        rw [Dict.getD]
        cases known : counts.get? other with
        | none => exact Nat.zero_le _
        | some old => exact bounded other old known
      · exact Nat.le_succ_of_le (bounded pair count found)

theorem Bounded.recommend (bounded : Bounded calls memory)
    (done : orchestrator.recommend sha256 memory budget request = .ok (recommendation, after)) :
    Bounded (calls + 1) after := by
  rw [ReasoningOrchestrator.recommend_eq] at done
  obtain ⟨plan, _, same⟩ := map_eq_ok.mp done
  cases same
  refine ⟨fun taskId => ?_, fun taskId => ?_, fun taskId pair count found => ?_⟩
  · rw [Dict.getD_set]
    split
    · exact escalationsUsed_advance.trans (Nat.succ_le_succ (bounded.escalations request.taskId))
    · exact Nat.le_succ_of_le (bounded.escalations taskId)
  · rw [Dict.getD_set]
    split
    · exact Nat.succ_le_succ (bounded.recommendations request.taskId)
    · exact Nat.le_succ_of_le (bounded.recommendations taskId)
  · rw [Dict.getD_set] at found
    split at found
    · rw [ReasoningRouter.attemptCounts_advance] at found
      exact get?_countAttempt (bounded.attempts request.taskId) pair count found
    · exact Nat.le_succ_of_le (bounded.attempts taskId pair count found)

theorem Bounded.reset (bounded : Bounded calls memory) (taskId : String) :
    Bounded (calls + 1) (memory.reset taskId) := by
  refine ⟨fun other => ?_, fun other => ?_, fun other pair count found => ?_⟩
  · rw [ProcessMemory.reset, Dict.getD_erase]
    split
    · exact Nat.zero_le _
    · exact Nat.le_succ_of_le (bounded.escalations other)
  · rw [ProcessMemory.reset, Dict.getD_erase]
    split
    · exact Nat.zero_le _
    · exact Nat.le_succ_of_le (bounded.recommendations other)
  · rw [ProcessMemory.reset, Dict.getD_erase] at found
    split at found
    · cases found
    · exact Nat.le_succ_of_le (bounded.attempts other pair count found)

theorem TaskState.Alike.trans {first second third : TaskState} (alike : first.Alike second)
    (alike' : second.Alike third) : first.Alike third :=
  ⟨alike.tier.trans alike'.tier, alike.escalations.trans alike'.escalations,
    fun pair => (alike.attempts pair).trans (alike'.attempts pair)⟩

theorem StoredReasoningState.Alike.trans {first second third : StoredReasoningState}
    (alike : first.Alike second) (alike' : second.Alike third) : first.Alike third :=
  ⟨alike.taskId.trans alike'.taskId, alike.recommendations.trans alike'.recommendations,
    alike.last.trans alike'.last, alike.task.trans alike'.task⟩

theorem TaskState.Alike.refl (state : TaskState) : state.Alike state := ⟨rfl, rfl, fun _ => rfl⟩

variable (orchestrator sha256) in
/-- A recommendation is the same with a store, and the store then holds what the process
remembers. -/
theorem Simulates.recommend (lawful : Lawful fits named store sound)
    (simulates : Simulates named store sound memory kept) (known : named request.taskId)
    (bounded : Bounded calls memory) (room : ∀ count ≤ calls + 1, fits count)
    (printable : ∀ decision, (orchestrator.recommendation request.taskId
      (budget.remaining.get? orchestrator.budgetCounter) decision).payload.printable = true)
    (now : ℚ≥0) :
    (∃ raised, orchestrator.recommend sha256 memory budget request = .error raised ∧
        orchestrator.recommendPersisted sha256 (store now) kept budget request =
          .error (.raised raised)) ∨
      ∃ recommendation after next,
        orchestrator.recommend sha256 memory budget request = .ok (recommendation, after) ∧
        orchestrator.recommendPersisted sha256 (store now) kept budget request =
          .ok (recommendation, next) ∧ Simulates named store sound after next := by
  cases done : orchestrator.recommend sha256 memory budget request with
  | error raised =>
      rw [ReasoningOrchestrator.recommend_eq] at done
      rw [ReasoningOrchestrator.recommendPersisted_eq]
      cases planned : orchestrator.plan budget request with
      | ok plan => rw [planned] at done; cases done
      | error other => rw [planned] at done; cases done; exact .inl ⟨raised, rfl, rfl⟩
  | ok result =>
      obtain ⟨recommendation, after⟩ := result
      have limits := bounded.recommend done
      rw [ReasoningOrchestrator.recommend_eq] at done
      obtain ⟨⟨cheapest, dearer, floors⟩, planned, same⟩ := map_eq_ok.mp done
      obtain ⟨clean, ordered, _⟩ := ReasoningOrchestrator.plan_eq_ok planned
      obtain ⟨stored, read, alike⟩ := simulates.holds request.taskId known
      cases same
      obtain ⟨decisions, left⟩ := @TaskState.Alike.advance _ _ alike.task orchestrator.router
        (cheapest :: dearer) cheapest floors request.escalationReason
        (attemptPair sha256 request.attemptSignature request.evidenceSignature)
      have updated := @ReasoningOrchestrator.update_eq orchestrator cheapest dearer floors request.taskId
        (budget.remaining.get? orchestrator.budgetCounter) request.escalationReason
        (attemptPair sha256 request.attemptSignature request.evidenceSignature) stored clean ordered
      have storable : Storable fits (orchestrator.update request.taskId
          (budget.remaining.get? orchestrator.budgetCounter)
          ⟨cheapest, floors ++ ["cheapest_eligible"], 0, orchestrator.router.policyRevision⟩
          (cheapest :: dearer) request.escalationReason
          (attemptPair sha256 request.attemptSignature request.evidenceSignature) stored).1 := by
        rw [updated]
        refine ⟨⟨_, rfl, printable _⟩, room _ ?_, room _ ?_, fun pair count found => room _ ?_⟩
        · have escalations := limits.escalations request.taskId
          rw [Dict.getD_set, if_pos rfl] at escalations
          exact left.escalations.le.trans escalations
        · rw [alike.recommendations]
          exact Nat.succ_le_succ (bounded.recommendations request.taskId)
        · apply limits.attempts request.taskId pair count
          rw [Dict.getD_set, if_pos rfl]
          exact (left.attempts pair).symm.trans found
      obtain ⟨next, transacted, sound', ⟨replaced, reads, alike'⟩, others⟩ :=
        lawful.writes kept request.taskId now stored _ simulates.sound known (read now)
          (by rw [updated]) storable
      refine .inr ⟨_, _, next, rfl, ?_, sound', fun other given => ?_⟩
      · rw [ReasoningOrchestrator.recommendPersisted_eq, planned]
        refine transacted.trans ?_
        rw [updated]
        exact congrArg (fun decision => Except.ok (orchestrator.recommendation request.taskId
          (budget.remaining.get? orchestrator.budgetCounter) decision, next)) decisions
      · by_cases same : other = request.taskId
        · subst same
          refine ⟨replaced, reads, alike'.trans ?_⟩
          rw [updated]
          rw [ProcessMemory.stored, Dict.getD_set, Dict.getD_set, Dict.get?_set, if_pos rfl, if_pos rfl,
            if_pos rfl]
          refine ⟨rfl, congrArg (· + 1) alike.recommendations, ?_, left⟩
          exact congrArg (fun decision => some (orchestrator.recommendation request.taskId
            (budget.remaining.get? orchestrator.budgetCounter) decision).payload) decisions
        · obtain ⟨held, read', kept'⟩ := simulates.holds other given
          obtain ⟨left, read'', unchanged⟩ := others other held same given read'
          refine ⟨left, read'', unchanged.trans ?_⟩
          rw [ProcessMemory.stored, Dict.getD_set, Dict.getD_set, Dict.get?_set, if_neg same,
            if_neg same, if_neg same]
          exact kept'

/-- A reset does the same with a store. -/
theorem Simulates.reset (lawful : Lawful fits named store sound)
    (simulates : Simulates named store sound memory kept) (known : named taskId) (now : ℚ≥0) :
    ∃ next, (store now).reset kept taskId = .ok next ∧
      Simulates named store sound (memory.reset taskId) next := by
  obtain ⟨next, done, sound', fresh, others⟩ := lawful.resets kept taskId now simulates.sound known
  refine ⟨next, done, sound', fun other given => ?_⟩
  by_cases same : other = taskId
  · subst same
    refine ⟨_, fresh, ?_⟩
    rw [ProcessMemory.stored, ProcessMemory.reset, Dict.getD_erase, Dict.getD_erase, Dict.get?_erase,
      if_pos rfl, if_pos rfl, if_pos rfl]
    exact ⟨rfl, rfl, rfl, TaskState.Alike.refl _⟩
  · obtain ⟨held, read, kept'⟩ := simulates.holds other given
    obtain ⟨left, read', unchanged⟩ := others other held same given read
    refine ⟨left, read', unchanged.trans ?_⟩
    rw [ProcessMemory.stored, ProcessMemory.reset, Dict.getD_erase, Dict.getD_erase, Dict.get?_erase,
      if_neg same, if_neg same, if_neg same]
    exact kept'

/-- The reports are the same. -/
theorem Simulates.state (simulates : Simulates named store sound memory kept) (now : ℚ≥0)
    (budget : BudgetSnapshot) (taskId : String) (known : taskId = "" ∨ named taskId) :
    orchestrator.statePersisted (store now) kept budget taskId =
      (orchestrator.state memory budget taskId).mapError .raised := by
  by_cases empty : taskId = ""
  · rw [ReasoningOrchestrator.statePersisted, ReasoningOrchestrator.state, raiseIf, raiseIf,
      if_pos empty, if_pos empty]
    rfl
  · obtain ⟨stored, read, alike⟩ := simulates.holds taskId (known.resolve_left empty)
    rw [ReasoningOrchestrator.statePersisted, ReasoningOrchestrator.state, raiseIf, raiseIf,
      if_neg empty, if_neg empty]
    dsimp only [bind, Except.bind]
    rw [read now]
    have size : stored.attemptCounts.size = (memory.stored taskId).attemptCounts.size :=
      (Dict.entries_perm alike.task.attempts).length_eq
    have tier : stored.tier = (memory.stored taskId).tier := alike.task.tier
    have escalations : stored.escalationsUsed = (memory.stored taskId).escalationsUsed :=
      alike.task.escalations
    dsimp only
    rw [size, tier, escalations, alike.recommendations, alike.last]
    rfl

end

end CapabilityHub.Reasoning
