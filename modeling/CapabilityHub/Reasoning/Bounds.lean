import CapabilityHub.Data.Runs
import CapabilityHub.Reasoning.Stores

/-! # The bounds of the router

Runs of calls of `route` on one task. Escalations stay within their number, tiers within what is eligible and
above the floors, and repeated attempts are told apart; that a tier is the cheapest unless an escalation led to
it holds as long as no call keeps a tier that a former floor or a former eligibility led to
(`CapabilityHub.Reasoning.route_bounded_iff`).
-/

namespace CapabilityHub.Reasoning

/-- The arguments of `route` besides the task. -/
structure RouteCall where
  eligibleTiers : Option (List String) := none
  risk : String := "none"
  policyMinimum : String := "low"
  escalationReason : Option String := none
  attemptSignature : Json := .null
  evidenceSignature : Json := .null

namespace RouteCall

variable (call : RouteCall)

/-- Whether `_fingerprint` takes the signatures of the call. -/
def printable : Bool :=
  match call.attemptSignature with
  | .null => true
  | attempt => attempt.printable && call.evidenceSignature.printable

/-- The attempt and its evidence as texts, where there is an attempt. -/
def signature : Option (String × String) :=
  match call.attemptSignature with
  | .null => none
  | attempt => some (canonicalJson attempt, canonicalJson call.evidenceSignature)

theorem signature_eq_none (null : call.attemptSignature = .null) : call.signature = none := by
  rw [signature, null]

theorem signature_eq_some (given : call.attemptSignature ≠ .null) :
    call.signature = some (canonicalJson call.attemptSignature, canonicalJson call.evidenceSignature) := by
  rw [signature.eq_def]
  split
  next null => exact absurd null given
  next => rfl

/-- The tier is eligible and not below a floor. -/
structure Admits (tier : ReasoningTier) : Prop where
  eligible : ∀ values ∈ call.eligibleTiers, tier.value ∈ values
  risk : ∀ risk, asRisk call.risk = .ok risk → (riskFloor risk).order ≤ tier.order
  policy : ∀ floor, asTier call.policyMinimum = .ok floor → floor.order ≤ tier.order

/-- The cheapest tier that is eligible and not below a floor. -/
structure Cheapest (tier : ReasoningTier) : Prop where
  admits : call.Admits tier
  least : ∀ other, call.Admits other → tier.order ≤ other.order

/-- The tier that a call starts from: that of the task where it is admitted, otherwise the cheapest. -/
def StartsFrom (state : TaskState) (tier : ReasoningTier) : Prop :=
  call.Admits tier ∧ (state.currentTier = some tier ∨
    (∀ current, state.currentTier = some current → ¬call.Admits current) ∧ call.Cheapest tier)

/-- The arguments are of their types. -/
structure WellFormed (taskId : String) : Prop where
  named : taskId ≠ ""
  risk : ∃ risk, asRisk call.risk = .ok risk
  policy : ∃ floor, asTier call.policyMinimum = .ok floor
  tiers : ∃ eligible, normalizeEligible call.eligibleTiers = .ok eligible
  printable : call.printable = true

end RouteCall

/-- A call that has returned, and whether it has escalated. -/
structure Routed where
  call : RouteCall
  decision : ReasoningDecision
  escalated : Bool

/-- A router after some calls on a task; the last of those that have returned is first. -/
structure RouterRun where
  tasks : Dict String TaskState := ∅
  history : List Routed := []

section

variable (router : ReasoningRouter) (sha256 : Bytes → Bytes) (taskId : String)

/-- `route`, with what it leaves where it raises. -/
def routeCall (tasks : Dict String TaskState) (call : RouteCall) :
    Except Raised ReasoningDecision × Dict String TaskState :=
  match router.route sha256 tasks taskId call.eligibleTiers call.risk call.policyMinimum call.escalationReason
      call.attemptSignature call.evidenceSignature with
  | .error raised => (.error raised, tasks)
  | .ok (decision, final) =>
      -- a signature that cannot be written raises after `self._tasks.setdefault(task_id, _TaskState())`
      if call.printable then (.ok decision, final)
      else (.error .valueError, tasks.set taskId (tasks.getD taskId {}))

namespace RouterRun

/-- The task before the next call. -/
def task (state : RouterRun) : TaskState := state.tasks.getD taskId {}

def step (state : RouterRun) (call : RouteCall) : RouterRun :=
  match routeCall router sha256 taskId state.tasks call with
  | (.error _, tasks) => { state with tasks := tasks }
  | (.ok decision, tasks) => {
      tasks := tasks
      history := ⟨call, decision, (state.task taskId).escalationsUsed < decision.escalationsUsed⟩ ::
        state.history }

/-- How often the attempt of a call has been made with the same evidence. -/
def occurrences (state : RouterRun) (call : RouteCall) : Nat :=
  state.history.countP fun routed => routed.call.signature = call.signature

/-- An escalation has led to the tier. -/
def Raised (state : RouterRun) (tier : ReasoningTier) : Prop :=
  ∃ routed ∈ state.history, routed.escalated = true ∧ routed.decision.tier = tier

/-- The call escalates from a tier. -/
structure Escalates (state : RouterRun) (call : RouteCall) (tier : ReasoningTier) : Prop where
  asked : call.escalationReason.isSome
  left : (state.task taskId).escalationsUsed < router.maxEscalations
  progress : call.signature ≠ none → state.occurrences call < router.maxEquivalentAttempts
  higher : ∃ higher, call.Admits higher ∧ tier.order < higher.order

/-- What is said of a call and of what it leaves. -/
structure Bounded (state : RouterRun) (call : RouteCall) : Prop where
  cap : ((state.step router sha256 taskId call).task taskId).escalationsUsed ≤ router.maxEscalations
  grows : ((state.step router sha256 taskId call).task taskId).escalationsUsed ≠
      (state.task taskId).escalationsUsed →
    ∃ decision start, (routeCall router sha256 taskId state.tasks call).1 = .ok decision ∧
      call.StartsFrom (state.task taskId) start ∧ start.order < decision.tier.order ∧
      ((state.step router sha256 taskId call).task taskId).escalationsUsed =
        (state.task taskId).escalationsUsed + 1
  admitted : ∀ decision, (routeCall router sha256 taskId state.tasks call).1 = .ok decision →
    call.Admits decision.tier
  cheapest : ∀ decision, (routeCall router sha256 taskId state.tasks call).1 = .ok decision →
    call.Cheapest decision.tier ∨ (state.step router sha256 taskId call).Raised decision.tier
  progress : ∀ decision, (routeCall router sha256 taskId state.tasks call).1 = .ok decision →
    ("no_progress" ∈ decision.reasonCodes ↔
      call.signature ≠ none ∧ router.maxEquivalentAttempts ≤ state.occurrences call)
  unchanged : ∀ raised, (routeCall router sha256 taskId state.tasks call).1 = .error raised →
    ∀ other, (routeCall router sha256 taskId state.tasks call).2.getD other {} = state.tasks.getD other {}

/-- The tier of the task, where the call admits it and a cheaper one, is one that an escalation led to, or
the call escalates. -/
def Sound (state : RouterRun) (call : RouteCall) : Prop :=
  call.WellFormed taskId → ∀ tier, (state.task taskId).currentTier = some tier → call.Admits tier →
    call.Cheapest tier ∨ state.Raised tier ∨ state.Escalates router taskId call tier

end RouterRun

end

/-! ## The candidates of a call -/

section

variable {router : ReasoningRouter} {sha256 : Bytes → Bytes} {taskId text : String} {call : RouteCall}
  {tier cheapest : ReasoningTier} {candidates eligible : List ReasoningTier} {tasks final : Dict String TaskState}
  {decision : ReasoningDecision} {floors : List String} {escalationReason : Option String}
  {attempt : Option (String × String)} {task next : TaskState} {state : RouterRun}

theorem asTier_eq_ok : asTier text = .ok tier ↔ tier.value = text := by
  constructor
  · intro read
    rw [asTier] at read
    split at read
    next found =>
      obtain rfl := Except.ok.inj read
      exact of_decide_eq_true (List.find?_some found :)
    · cases read
  · rintro rfl
    exact asTier_value tier

theorem asRisk_eq_ok {risk : SideEffect} (read : asRisk text = .ok risk) : risk.value = text := by
  rw [asRisk] at read
  split at read
  next found =>
    obtain rfl := Except.ok.inj read
    exact of_decide_eq_true (List.find?_some found :)
  · cases read

theorem mem_normalizeEligible {tiers : Option (List String)} (read : normalizeEligible tiers = .ok eligible) :
    tier ∈ eligible ↔ ∀ values ∈ tiers, tier.value ∈ values := by
  cases tiers with
  | none =>
      obtain rfl := Except.ok.inj read
      exact iff_of_true tier.mem_all fun values member => absurd member (Option.not_mem_none values)
  | some values =>
      rw [normalizeEligible, bind_eq_ok] at read
      obtain ⟨tiers, found, sorted⟩ := read
      obtain rfl := Except.ok.inj sorted
      rw [mem_sortedBy, List.mem_dedup, mem_of_mapM found]
      simp only [asTier_eq_ok, Option.mem_some_iff, forall_eq']
      exact exists_eq_right'

/-- The candidates are in the order of the tiers. -/
theorem pairwise_normalizeEligible {tiers : Option (List String)}
    (read : normalizeEligible tiers = .ok eligible) :
    eligible.Pairwise fun first second => first.order ≤ second.order := by
  cases tiers with
  | none =>
      obtain rfl := Except.ok.inj read
      decide
  | some values =>
      rw [normalizeEligible, bind_eq_ok] at read
      obtain ⟨tiers, _, sorted⟩ := read
      obtain rfl := Except.ok.inj sorted
      exact List.pairwise_insertionSort (fun first second : ReasoningTier => first.order ≤ second.order) _

theorem minimumTier_le {riskFloor policyFloor : ReasoningTier} :
    (minimumTier riskFloor policyFloor).order ≤ tier.order ↔
      riskFloor.order ≤ tier.order ∧ policyFloor.order ≤ tier.order := by
  cases riskFloor <;> cases policyFloor <;> cases tier <;> decide

theorem noProgress_notMem_floorReasons (riskFloor policyFloor : ReasoningTier) :
    "no_progress" ∉ floorReasons riskFloor policyFloor := by
  cases riskFloor <;> cases policyFloor <;> decide

theorem noProgress_ne_escalated (reason : String) : "no_progress" ≠ "escalated:" ++ reason := by
  intro same
  have first := congrArg (fun text => text.toList.head?) same
  rw [String.toList_append] at first
  cases first

/-- The tiers that the arguments leave. -/
theorem mem_candidates {risk : SideEffect} {floor : ReasoningTier} (risked : asRisk call.risk = .ok risk)
    (meant : asTier call.policyMinimum = .ok floor) (read : normalizeEligible call.eligibleTiers = .ok eligible) :
    tier ∈ eligible.filter ((minimumTier (riskFloor risk) floor).order ≤ ·.order) ↔ call.Admits tier := by
  rw [List.mem_filter, decide_eq_true_iff, minimumTier_le, mem_normalizeEligible read]
  constructor
  · rintro ⟨listed, risky, policy⟩
    refine ⟨listed, fun other same => ?_, fun other same => ?_⟩
    · obtain rfl := Except.ok.inj (risked.symm.trans same)
      exact risky
    · obtain rfl := Except.ok.inj (meant.symm.trans same)
      exact policy
  · intro admits
    exact ⟨admits.eligible, admits.risk risk risked, admits.policy floor meant⟩

/-- What a call that returns has gone through. -/
theorem route_returned
    (done : router.route sha256 tasks taskId call.eligibleTiers call.risk call.policyMinimum
      call.escalationReason call.attemptSignature call.evidenceSignature = .ok (decision, final)) :
    ∃ cheapest dearer floors next, (∀ tier, tier ∈ cheapest :: dearer ↔ call.Admits tier) ∧
      call.Cheapest cheapest ∧ "no_progress" ∉ floors ∧
      router.advance (cheapest :: dearer) cheapest floors call.escalationReason
        (attemptPair sha256 call.attemptSignature call.evidenceSignature) (tasks.getD taskId {}) =
          (decision, next) ∧ final = tasks.set taskId next := by
  have parsed := done
  rw [ReasoningRouter.route] at parsed
  simp only [bind_eq_ok, exists_unit] at parsed
  obtain ⟨_, risk, risked, floor, meant, eligible, read, _⟩ := parsed
  have risk_eq := asRisk_eq_ok risked
  have floor_eq := asTier_eq_ok.mp meant
  rw [← risk_eq, ← floor_eq, ReasoningRouter.route_eq_ok read] at done
  obtain ⟨_, cheapest, dearer, candidates, next, advanced, rfl⟩ := done
  have members (tier : ReasoningTier) : tier ∈ cheapest :: dearer ↔ call.Admits tier := by
    rw [← candidates]
    exact mem_candidates risked meant read
  have ordered := (pairwise_normalizeEligible read).filter
    fun tier => (minimumTier (riskFloor risk) floor).order ≤ tier.order
  rw [candidates, List.pairwise_cons] at ordered
  refine ⟨cheapest, dearer, _, next, members, ⟨(members _).mp List.mem_cons_self, fun other admits => ?_⟩,
    noProgress_notMem_floorReasons _ _, advanced, rfl⟩
  rcases List.mem_cons.mp ((members other).mpr admits) with rfl | later
  · exact le_rfl
  · exact ordered.1 other later

/-- A well-formed call that admits a tier returns. -/
theorem exists_route (formed : call.WellFormed taskId) (admits : call.Admits tier) :
    ∃ decision final, router.route sha256 tasks taskId call.eligibleTiers call.risk call.policyMinimum
      call.escalationReason call.attemptSignature call.evidenceSignature = .ok (decision, final) := by
  obtain ⟨risk, risked⟩ := formed.risk
  obtain ⟨floor, meant⟩ := formed.policy
  obtain ⟨eligible, read⟩ := formed.tiers
  have member := (mem_candidates risked meant read).mpr admits
  cases candidates : eligible.filter ((minimumTier (riskFloor risk) floor).order ≤ ·.order) with
  | nil =>
      rw [candidates] at member
      cases member
  | cons cheapest dearer =>
      have risk_eq := asRisk_eq_ok risked
      have floor_eq := asTier_eq_ok.mp meant
      rw [← risk_eq, ← floor_eq]
      exact ⟨_, _, (ReasoningRouter.route_eq_ok read).mpr
        ⟨formed.named, cheapest, dearer, candidates, _, rfl, rfl⟩⟩

/-! ## What a call does -/

/-- The call goes to a higher tier. -/
structure Climbs (router : ReasoningRouter) (candidates : List ReasoningTier) (cheapest : ReasoningTier)
    (escalationReason : Option String) (attempt : Option (String × String)) (task : TaskState) : Prop where
  progress : router.noProgress attempt task.attemptCounts = false
  asked : escalationReason.isSome
  escalates : router.Escalates candidates cheapest task

/-- A call goes to a higher tier, or stays where it starts. -/
theorem advance_cases
    (advanced : router.advance candidates cheapest floors escalationReason attempt task = (decision, next)) :
    next.currentTier = some decision.tier ∧ next.escalationsUsed = decision.escalationsUsed ∧
      ((Climbs router candidates cheapest escalationReason attempt task ∧ decision.tier ∈ candidates ∧
          (ReasoningRouter.retained candidates cheapest task).order < decision.tier.order ∧
          decision.escalationsUsed = task.escalationsUsed + 1) ∨
        ¬Climbs router candidates cheapest escalationReason attempt task ∧
          decision.tier = ReasoningRouter.retained candidates cheapest task ∧
          decision.escalationsUsed = task.escalationsUsed) := by
  rw [ReasoningRouter.advance.eq_def] at advanced
  by_cases equivalent : router.noProgress attempt task.attemptCounts = true
  · have stays : ¬Climbs router candidates cheapest escalationReason attempt task := fun climbs => by
      rw [climbs.progress] at equivalent
      cases equivalent
    rw [if_pos equivalent] at advanced
    cases advanced
    exact ⟨rfl, rfl, .inr ⟨stays, rfl, rfl⟩⟩
  · rw [if_neg equivalent] at advanced
    cases escalationReason with
    | none =>
        have stays : ¬Climbs router candidates cheapest none attempt task := fun climbs => by
          cases climbs.asked
        cases advanced
        exact ⟨rfl, rfl, .inr ⟨stays, rfl, rfl⟩⟩
    | some reason =>
        dsimp only at advanced
        by_cases spent : router.maxEscalations ≤ task.escalationsUsed
        · have stays : ¬Climbs router candidates cheapest (some reason) attempt task := fun climbs =>
            absurd climbs.escalates.1 (Nat.not_lt.mpr spent)
          rw [if_pos spent] at advanced
          cases advanced
          exact ⟨rfl, rfl, .inr ⟨stays, rfl, rfl⟩⟩
        · rw [if_neg spent] at advanced
          cases found : candidates.find?
              ((ReasoningRouter.retained candidates cheapest task).order < ·.order) with
          | none =>
              have stays : ¬Climbs router candidates cheapest (some reason) attempt task := fun climbs =>
                ReasoningRouter.find?_higher.mp found climbs.escalates.2
              rw [found] at advanced
              cases advanced
              exact ⟨rfl, rfl, .inr ⟨stays, rfl, rfl⟩⟩
          | some higher =>
              have member := List.mem_of_find?_eq_some found
              have above : (ReasoningRouter.retained candidates cheapest task).order < higher.order :=
                of_decide_eq_true (List.find?_some found :)
              rw [found] at advanced
              cases advanced
              have climbs : Climbs router candidates cheapest (some reason) attempt task :=
                ⟨Bool.eq_false_iff.mpr equivalent, rfl, Nat.lt_of_not_le spent, higher, member, above⟩
              exact ⟨rfl, rfl, .inl ⟨climbs, member, above, rfl⟩⟩

/-- No progress is noted of an attempt that has been made often enough. -/
theorem noProgress_mem_advance (clean : "no_progress" ∉ floors)
    (advanced : router.advance candidates cheapest floors escalationReason attempt task = (decision, next)) :
    "no_progress" ∈ decision.reasonCodes ↔ router.noProgress attempt task.attemptCounts = true := by
  have decided := congrArg (fun pair => pair.1.reasonCodes) advanced
  dsimp only at decided
  rw [← decided, ReasoningRouter.advance.eq_def]
  by_cases equivalent : router.noProgress attempt task.attemptCounts = true
  · simp [equivalent]
  · cases escalationReason with
    | none =>
        by_cases same : ReasoningRouter.retained candidates cheapest task = cheapest <;>
          simp [equivalent, clean, same]
    | some reason =>
        by_cases spent : router.maxEscalations ≤ task.escalationsUsed
        · simp [equivalent, spent, clean]
        · cases found : candidates.find?
              ((ReasoningRouter.retained candidates cheapest task).order < ·.order) with
          | none => simp [equivalent, spent, found, clean]
          | some higher => simp [equivalent, spent, found, clean, noProgress_ne_escalated]

/-- The tier of the task where it is admitted. -/
theorem retained_of_admits (members : ∀ tier, tier ∈ candidates ↔ call.Admits tier)
    (least : call.Cheapest cheapest) (current : task.currentTier = some tier) (admits : call.Admits tier) :
    ReasoningRouter.retained candidates cheapest task = tier := by
  rw [ReasoningRouter.retained, current, ReasoningRouter.tierAmong, if_pos ((members tier).mpr admits)]
  exact if_neg (Nat.not_lt.mpr (least.least tier admits))

theorem startsFrom_retained (members : ∀ tier, tier ∈ candidates ↔ call.Admits tier)
    (least : call.Cheapest cheapest) :
    call.StartsFrom task (ReasoningRouter.retained candidates cheapest task) := by
  cases current : task.currentTier with
  | none =>
      have start : ReasoningRouter.retained candidates cheapest task = cheapest := by
        rw [ReasoningRouter.retained, current]
        exact if_neg (Nat.lt_irrefl _)
      rw [start]
      refine ⟨least.admits, .inr ⟨fun tier same => ?_, least⟩⟩
      cases current.symm.trans same
  | some tier =>
      by_cases admits : call.Admits tier
      · rw [retained_of_admits members least current admits]
        exact ⟨admits, .inl current⟩
      · have start : ReasoningRouter.retained candidates cheapest task = cheapest := by
          rw [ReasoningRouter.retained, current, ReasoningRouter.tierAmong,
            if_neg fun member => admits ((members tier).mp member)]
          exact if_neg (Nat.lt_irrefl _)
        rw [start]
        refine ⟨least.admits, .inr ⟨fun other same => ?_, least⟩⟩
        obtain rfl := Option.some.inj (current.symm.trans same)
        exact admits

/-! ## What a run keeps -/

namespace RouterRun

/-- The fingerprints of an attempt and its evidence. -/
def digests (sha256 : Bytes → Bytes) (texts : String × String) : String × String :=
  (hex (sha256 (encodeUtf8 texts.1)), hex (sha256 (encodeUtf8 texts.2)))

theorem digests_injective (injective : Function.Injective sha256) : Function.Injective (digests sha256) := by
  have digest : Function.Injective fun text => hex (sha256 (encodeUtf8 text)) :=
    hex_injective.comp (injective.comp References.encodeUtf8_injective)
  intro first second same
  exact Prod.ext (digest (congrArg Prod.fst same)) (digest (congrArg Prod.snd same))

theorem attemptPair_eq : attemptPair sha256 call.attemptSignature call.evidenceSignature =
    call.signature.map (digests sha256) := by
  by_cases null : call.attemptSignature = .null
  · rw [call.signature_eq_none null, null]
    rfl
  · rw [call.signature_eq_some null, attemptPair.eq_def]
    split
    next absent => exact absurd absent null
    next => rfl

/-- What holds of the task after any calls on it. -/
structure Kept (router : ReasoningRouter) (sha256 : Bytes → Bytes) (taskId : String) (state : RouterRun) :
    Prop where
  cap : (state.task taskId).escalationsUsed ≤ router.maxEscalations
  counts : ∀ texts, (state.task taskId).attemptCounts.getD (digests sha256 texts) 0 =
    state.history.countP fun routed => routed.call.signature = some texts

theorem kept_empty : Kept router sha256 taskId {} := ⟨Nat.zero_le _, fun _ => rfl⟩

/-- A call raises and leaves all tasks as they were, or returns what `route` returns. -/
theorem routeCall_cases :
    (∃ raised, (routeCall router sha256 taskId tasks call).1 = .error raised ∧
      ∀ other, (routeCall router sha256 taskId tasks call).2.getD other {} = tasks.getD other {}) ∨
    ∃ decision final, routeCall router sha256 taskId tasks call = (.ok decision, final) ∧
      router.route sha256 tasks taskId call.eligibleTiers call.risk call.policyMinimum
        call.escalationReason call.attemptSignature call.evidenceSignature = .ok (decision, final) := by
  rw [routeCall]
  cases routed : router.route sha256 tasks taskId call.eligibleTiers call.risk call.policyMinimum
      call.escalationReason call.attemptSignature call.evidenceSignature with
  | error raised => exact .inl ⟨raised, rfl, fun _ => rfl⟩
  | ok pair =>
      obtain ⟨decision, final⟩ := pair
      by_cases printable : call.printable = true
      · exact .inr ⟨decision, final, if_pos printable, rfl⟩
      · dsimp only
        rw [if_neg printable]
        refine .inl ⟨.valueError, rfl, fun other => ?_⟩
        rw [Dict.getD_set]
        by_cases same : other = taskId
        · rw [if_pos same, same]
        · rw [if_neg same]

theorem noProgress_iff (kept : Kept router sha256 taskId state) :
    router.noProgress (attemptPair sha256 call.attemptSignature call.evidenceSignature)
        (state.task taskId).attemptCounts = true ↔
      call.signature ≠ none ∧ router.maxEquivalentAttempts ≤ state.occurrences call := by
  rw [attemptPair_eq, occurrences]
  cases call.signature with
  | none =>
      refine iff_of_false (fun noted => ?_) fun both => both.1 rfl
      cases noted
  | some texts =>
      rw [Option.map_some, ReasoningRouter.noProgress, kept.counts, decide_eq_true_iff]
      refine (and_iff_right fun none => ?_).symm
      cases none

/-- What a call that returns has done, from the tier it started from. -/
structure Returned (router : ReasoningRouter) (sha256 : Bytes → Bytes) (taskId : String) (state : RouterRun)
    (call : RouteCall) (decision : ReasoningDecision) (start : ReasoningTier) : Prop where
  history : (state.step router sha256 taskId call).history =
    ⟨call, decision, (state.task taskId).escalationsUsed < decision.escalationsUsed⟩ :: state.history
  used : ((state.step router sha256 taskId call).task taskId).escalationsUsed = decision.escalationsUsed
  attempts : ((state.step router sha256 taskId call).task taskId).attemptCounts =
    ReasoningRouter.countAttempt (call.signature.map (digests sha256)) (state.task taskId).attemptCounts
  progress : "no_progress" ∈ decision.reasonCodes ↔
    call.signature ≠ none ∧ router.maxEquivalentAttempts ≤ state.occurrences call
  starts : call.StartsFrom (state.task taskId) start
  kept : ∀ tier, (state.task taskId).currentTier = some tier → call.Admits tier → tier = start
  admitted : call.Admits decision.tier
  moves : (state.Escalates router taskId call start ∧ start.order < decision.tier.order ∧
      decision.escalationsUsed = (state.task taskId).escalationsUsed + 1) ∨
    ¬state.Escalates router taskId call start ∧ decision.tier = start ∧
      decision.escalationsUsed = (state.task taskId).escalationsUsed

theorem returned_of_routeCall (kept : Kept router sha256 taskId state)
    (done : routeCall router sha256 taskId state.tasks call = (.ok decision, final))
    (routed : router.route sha256 state.tasks taskId call.eligibleTiers call.risk call.policyMinimum
      call.escalationReason call.attemptSignature call.evidenceSignature = .ok (decision, final)) :
    ∃ start, Returned router sha256 taskId state call decision start := by
  obtain ⟨cheapest, dearer, floors, next, members, least, clean, advanced, rfl⟩ := route_returned routed
  have stepped : state.step router sha256 taskId call = {
      tasks := state.tasks.set taskId next
      history := ⟨call, decision, (state.task taskId).escalationsUsed < decision.escalationsUsed⟩ ::
        state.history } := by
    rw [step, done]
  have after : (state.step router sha256 taskId call).task taskId = next := by
    rw [stepped, task, Dict.getD_set, if_pos rfl]
  obtain ⟨_, used, moves⟩ := advance_cases advanced
  have start := @startsFrom_retained call cheapest _ (state.task taskId) members least
  have climbs : Climbs router (cheapest :: dearer) cheapest call.escalationReason
      (attemptPair sha256 call.attemptSignature call.evidenceSignature) (state.task taskId) ↔
      state.Escalates router taskId call
        (ReasoningRouter.retained (cheapest :: dearer) cheapest (state.task taskId)) := by
    have progress := @noProgress_iff _ _ _ call _ kept
    constructor
    · intro climbs
      obtain ⟨left, higher, member, above⟩ := climbs.escalates
      refine ⟨climbs.asked, left, fun given => ?_, higher, (members higher).mp member, above⟩
      by_contra often
      rw [climbs.progress] at progress
      exact Bool.false_ne_true (progress.mpr ⟨given, Nat.not_lt.mp often⟩)
    · intro escalates
      obtain ⟨higher, admits, above⟩ := escalates.higher
      refine ⟨Bool.eq_false_iff.mpr fun noted => ?_, escalates.asked, escalates.left, higher,
        (members higher).mpr admits, above⟩
      have often := progress.mp noted
      exact Nat.not_le.mpr (escalates.progress often.1) often.2
  refine ⟨ReasoningRouter.retained (cheapest :: dearer) cheapest (state.task taskId), ?_⟩
  constructor
  · rw [stepped]
  · rw [after]
    exact used
  · have counts := congrArg (fun pair => pair.2.attemptCounts) advanced
    dsimp only at counts
    rw [after, ← counts, ReasoningRouter.attemptCounts_advance, attemptPair_eq]
    rfl
  · rw [noProgress_mem_advance clean advanced]
    exact noProgress_iff kept
  · exact start
  · intro tier current admits
    exact (retained_of_admits members least current admits).symm
  · rcases moves with ⟨_, member, _⟩ | ⟨_, same, _⟩
    · exact (members _).mp member
    · rw [same]
      exact start.1
  · rcases moves with ⟨climbing, _, above, more⟩ | ⟨staying, same, equal⟩
    · exact .inl ⟨climbs.mp climbing, above, more⟩
    · exact .inr ⟨fun escalates => staying (climbs.mpr escalates), same, equal⟩

/-- **One call.** -/
theorem kept_step (injective : Function.Injective sha256) (kept : Kept router sha256 taskId state) :
    Kept router sha256 taskId (state.step router sha256 taskId call) := by
  rcases @routeCall_cases router sha256 taskId call state.tasks with
    ⟨raised, failed, same⟩ | ⟨decision, final, done, routed⟩
  · have stepped : state.step router sha256 taskId call =
        { state with tasks := (routeCall router sha256 taskId state.tasks call).2 } := by
      rw [step]
      generalize routeCall router sha256 taskId state.tasks call = outcome at failed
      obtain ⟨result, tasks⟩ := outcome
      obtain rfl := failed
      rfl
    have task : (state.step router sha256 taskId call).task taskId = state.task taskId := by
      rw [stepped]
      exact same taskId
    refine ⟨task ▸ kept.cap, fun texts => ?_⟩
    rw [task, kept.counts, stepped]
  · obtain ⟨start, returned⟩ := returned_of_routeCall kept done routed
    constructor
    · rw [returned.used]
      rcases returned.moves with ⟨escalates, _, more⟩ | ⟨_, _, equal⟩
      · rw [more]
        exact escalates.left
      · rw [equal]
        exact kept.cap
    · intro texts
      rw [returned.attempts, returned.history, List.countP_cons]
      cases given : call.signature with
      | none =>
          rw [Option.map_none, ReasoningRouter.countAttempt, kept.counts]
          simp
      | some other =>
          rw [Option.map_some, ReasoningRouter.countAttempt, Dict.getD_set]
          by_cases same : texts = other
          · subst same
            rw [if_pos rfl, kept.counts]
            simp
          · rw [if_neg fun equal => same (digests_injective injective equal), kept.counts]
            simp [Ne.symm same]

theorem wellFormed_of_routeCall (done : routeCall router sha256 taskId tasks call = (.ok decision, final)) :
    call.WellFormed taskId := by
  rw [routeCall] at done
  split at done
  · cases done
  next routed =>
    split at done
    next printable =>
      rw [ReasoningRouter.route] at routed
      simp only [bind_eq_ok, exists_unit, raiseIf_eq_ok] at routed
      obtain ⟨named, risk, risked, floor, meant, eligible, read, _⟩ := routed
      exact ⟨named, ⟨risk, risked⟩, ⟨floor, meant⟩, ⟨eligible, read⟩, printable⟩
    · cases done

/-- The bounds hold of a call exactly if it keeps no tier without an escalation. -/
theorem bounded_iff (injective : Function.Injective sha256) (kept : Kept router sha256 taskId state) :
    Bounded router sha256 taskId state call ↔ Sound router taskId state call := by
  have after := @kept_step _ _ _ call state injective kept
  constructor
  · intro bounded formed tier current admits
    obtain ⟨decision, final, routed⟩ := @exists_route router sha256 _ _ _ state.tasks formed admits
    have done : routeCall router sha256 taskId state.tasks call = (.ok decision, final) := by
      rw [routeCall, routed]
      exact if_pos formed.printable
    obtain ⟨start, returned⟩ := returned_of_routeCall kept done routed
    obtain rfl := returned.kept tier current admits
    rcases returned.moves with ⟨escalates, _, _⟩ | ⟨_, same, equal⟩
    · exact .inr (.inr escalates)
    · rcases bounded.cheapest decision (congrArg Prod.fst done) with least | ⟨earlier, member, escalated, led⟩
      · exact .inl (same ▸ least)
      · rw [returned.history, List.mem_cons] at member
        rcases member with rfl | member
        · rw [equal, decide_eq_true_iff] at escalated
          exact absurd escalated (Nat.lt_irrefl _)
        · exact .inr (.inl ⟨earlier, member, escalated, led.trans same⟩)
  · intro sound
    rcases @routeCall_cases router sha256 taskId call state.tasks with
      ⟨raised, failed, same⟩ | ⟨decision, final, done, routed⟩
    · have none (decision : ReasoningDecision)
          (done : (routeCall router sha256 taskId state.tasks call).1 = .ok decision) : False := by
        cases failed.symm.trans done
      have stays : (state.step router sha256 taskId call).task taskId = state.task taskId := by
        rw [step]
        generalize routeCall router sha256 taskId state.tasks call = outcome at failed same
        obtain ⟨result, tasks⟩ := outcome
        obtain rfl := failed
        exact same taskId
      exact {
        cap := after.cap
        grows := fun changed => absurd (congrArg TaskState.escalationsUsed stays) changed
        admitted := fun decision done => (none decision done).elim
        cheapest := fun decision done => (none decision done).elim
        progress := fun decision done => (none decision done).elim
        unchanged := fun _ _ => same }
    · obtain ⟨start, returned⟩ := returned_of_routeCall kept done routed
      have only {other : ReasoningDecision}
          (same : (routeCall router sha256 taskId state.tasks call).1 = .ok other) : decision = other :=
        Except.ok.inj ((congrArg Prod.fst done).symm.trans same)
      refine ⟨after.cap, fun changed => ?_, fun other same => ?_, fun other same => ?_, fun other same => ?_,
        fun raised failed => ?_⟩
      · rcases returned.moves with ⟨_, above, more⟩ | ⟨_, _, equal⟩
        · exact ⟨decision, start, congrArg Prod.fst done, returned.starts, above, returned.used.trans more⟩
        · exact absurd (returned.used.trans equal) changed
      · obtain rfl := only same
        exact returned.admitted
      · obtain rfl := only same
        rcases returned.moves with ⟨_, _, more⟩ | ⟨stays, tier, _⟩
        · refine .inr ⟨_, returned.history ▸ List.mem_cons_self, ?_, rfl⟩
          rw [more, decide_eq_true_iff]
          exact Nat.lt_succ_self _
        · rw [tier]
          rcases returned.starts.2 with current | ⟨_, least⟩
          · rcases sound (wellFormed_of_routeCall done) start current returned.starts.1 with
              least | ⟨earlier, member, escalated, led⟩ | escalates
            · exact .inl least
            · exact .inr ⟨earlier, returned.history ▸ List.mem_cons_of_mem _ member, escalated, led⟩
            · exact absurd escalates stays
          · exact .inl least
      · obtain rfl := only same
        exact returned.progress
      · cases (congrArg Prod.fst done).symm.trans failed

end RouterRun

/-! ## Recommendations -/

theorem admits_of_route
    (done : router.route sha256 tasks taskId call.eligibleTiers call.risk call.policyMinimum
      call.escalationReason call.attemptSignature call.evidenceSignature = .ok (decision, final)) :
    call.Admits decision.tier := by
  obtain ⟨cheapest, dearer, floors, next, members, least, _, advanced, _⟩ := route_returned done
  obtain ⟨_, _, ⟨_, member, _⟩ | ⟨_, same, _⟩⟩ := advance_cases advanced
  · exact (members _).mp member
  · rw [same]
    exact (startsFrom_retained members least).1

/-- The estimate of a recommendation fits what remains of the budget. -/
def Fits (orchestrator : ReasoningOrchestrator) (budget : Budget.BudgetSnapshot)
    (recommendation : ReasoningRecommendation) : Prop :=
  recommendation.estimatedTokens = orchestrator.estimates.tokens recommendation.tier ∧
    ∀ left, budget.remaining.get? orchestrator.budgetCounter = some left →
      recommendation.estimatedTokens ≤ left

/-- What a store gives back is what the update gives for some state. -/
def Serves {σ : Type} (store : ReasoningStateStore σ) : Prop :=
  ∀ kept taskId update result final, store.transact kept taskId update = .ok (result, final) →
    ∃ state, (update state).2 = result

theorem serves_sqlite (integer : SqlInteger) : Serves (SQLiteReasoningStore.store integer) := by
  intro kept taskId update result final done
  simp only [SQLiteReasoningStore.store, SQLiteReasoningStore.transact, bind_eq_ok] at done
  obtain ⟨_, _, current, _, _, _, written, _, done⟩ := done
  exact ⟨current, congrArg Prod.fst (Except.ok.inj done)⟩

open Residency Tenancy in
theorem serves_scoped (keying : Keying) (scope : String → TenantScope) (now : ℚ) :
    Serves (ScopedReasoningStore.store keying scope now) := by
  intro kept taskId update result final done
  simp only [ScopedReasoningStore.store, ScopedReasoningStore.transact, bind_eq_ok, mapError_eq_ok] at done
  obtain ⟨_, _, done⟩ := done
  simp only [ScopedState.transactEntry, bind_eq_ok, mapError_eq_ok] at done
  obtain ⟨_, _, _, _, _, _, answer, ⟨current, _, _, _, _, _, written⟩, done⟩ := done
  obtain ⟨replacement, told⟩ := answer
  obtain ⟨rfl, same⟩ := Prod.mk.inj (Except.ok.inj written)
  have given : told = result := congrArg Prod.fst (Except.ok.inj done)
  exact ⟨current, same.trans given⟩

variable {orchestrator : ReasoningOrchestrator} {memory : ProcessMemory} {budget : Budget.BudgetSnapshot}
  {request : RecommendRequest} {recommendation : ReasoningRecommendation} {requested : List ReasoningTier}
  {remaining : Option Nat}

theorem mem_affordable_of_admits (eligible : call.eligibleTiers =
      some ((orchestrator.affordable remaining requested).map (·.value))) (admits : call.Admits tier) :
    tier ∈ orchestrator.affordable remaining requested := by
  obtain ⟨other, member, same⟩ := List.mem_map.mp (admits.eligible _ eligible)
  have tiers : other = tier := by
    have read := asTier_value other
    rw [same, asTier_value] at read
    exact (Except.ok.inj read).symm
  exact tiers ▸ member

theorem fits_of_affordable {reasonCodes : List String} {escalationsUsed : Nat} {policyRevision : String}
    (member : tier ∈ orchestrator.affordable (budget.remaining.get? orchestrator.budgetCounter) requested) :
    Fits orchestrator budget (orchestrator.recommendation taskId
      (budget.remaining.get? orchestrator.budgetCounter) ⟨tier, reasonCodes, escalationsUsed, policyRevision⟩) :=
  ⟨rfl, (ReasoningOrchestrator.mem_affordable.mp member).2⟩

theorem fits_recommend {last : ProcessMemory}
    (done : orchestrator.recommend sha256 memory budget request = .ok (recommendation, last)) :
    Fits orchestrator budget recommendation := by
  simp only [ReasoningOrchestrator.recommend, bind_eq_ok] at done
  obtain ⟨requested, _, ⟨decision, tasks⟩, routed, done⟩ := done
  obtain rfl := congrArg Prod.fst (Except.ok.inj done)
  have admits := @admits_of_route _ _ _ ⟨_, request.risk, request.policyMinimum, request.escalationReason,
    request.attemptSignature, request.evidenceSignature⟩ _ _ _ routed
  exact fits_of_affordable (mem_affordable_of_admits rfl admits)

/-- The tier of an update is a safe one or that of the baseline. -/
theorem update_tier {baseline : ReasoningDecision} {safeTiers : List ReasoningTier}
    {stored : StoredReasoningState} :
    ∃ tier, (tier ∈ safeTiers ∨ tier = baseline.tier) ∧ ∃ reasonCodes escalationsUsed,
      (orchestrator.update taskId remaining baseline safeTiers escalationReason attempt stored).2 =
        orchestrator.recommendation taskId remaining
          ⟨tier, reasonCodes, escalationsUsed, orchestrator.router.policyRevision⟩ := by
  have current : ReasoningRouter.tierAmong safeTiers baseline.tier stored.tier ∈ safeTiers ∨
      ReasoningRouter.tierAmong safeTiers baseline.tier stored.tier = baseline.tier := by
    cases stored.tier with
    | none => exact .inr rfl
    | some tier =>
        rw [ReasoningRouter.tierAmong]
        split
        next member => exact .inl member
        next => exact .inr rfl
  rw [ReasoningOrchestrator.update.eq_def]
  dsimp only
  split
  · exact ⟨_, current, _, _, rfl⟩
  · split
    · split
      · exact ⟨_, current, _, _, rfl⟩
      · split
        · exact ⟨_, current, _, _, rfl⟩
        next higher found => exact ⟨higher, .inl (List.mem_of_find?_eq_some found), _, _, rfl⟩
    · exact ⟨_, current, _, _, rfl⟩

theorem fits_recommendPersisted {σ : Type} {store : ReasoningStateStore σ} (serves : Serves store)
    {kept last : σ}
    (done : orchestrator.recommendPersisted sha256 store kept budget request = .ok (recommendation, last)) :
    Fits orchestrator budget recommendation := by
  simp only [ReasoningOrchestrator.recommendPersisted, bind_eq_ok, mapError_eq_ok] at done
  obtain ⟨requested, _, ⟨baseline, tasks⟩, routed, done⟩ := done
  obtain ⟨stored, rfl⟩ := serves _ _ _ _ _ done
  have admits := @admits_of_route _ _ _ ⟨_, request.risk, request.policyMinimum, none, .null, .null⟩ _ _ _ routed
  have base := @mem_affordable_of_admits ⟨_, request.risk, request.policyMinimum, none, .null, .null⟩ _
    orchestrator requested _ rfl admits
  obtain ⟨tier, safe, reasonCodes, escalationsUsed, same⟩ := @update_tier request.taskId request.escalationReason
    (attemptPair sha256 request.attemptSignature request.evidenceSignature) orchestrator
    (budget.remaining.get? orchestrator.budgetCounter) baseline
    ((orchestrator.affordable (budget.remaining.get? orchestrator.budgetCounter) requested).filter
      (baseline.tier.order ≤ ·.order)) stored
  rw [same]
  rcases safe with member | rfl
  · exact fits_of_affordable (List.mem_of_mem_filter member)
  · exact fits_of_affordable base

/-! ## Runs -/

/-- A task that is asked for the medium tier first, and for any tier then. -/
def widenedCalls : List RouteCall := [{ eligibleTiers := some ["medium", "high"] }, {}]

/-- **The bounds of the router.** They hold of every call of a run exactly if no call keeps a tier that it could
avoid and that no escalation led to; recommendations fit the budget in any case. -/
theorem route_bounded_iff (router : ReasoningRouter) (sha256 : Bytes → Bytes)
    (injective : Function.Injective sha256) (taskId : String) (calls : List RouteCall) :
    (Along (RouterRun.step router sha256 taskId) (RouterRun.Bounded router sha256 taskId) {} calls ↔
      Along (RouterRun.step router sha256 taskId) (RouterRun.Sound router taskId) {} calls) ∧
    (∀ (orchestrator : ReasoningOrchestrator) (budget : Budget.BudgetSnapshot) (request : RecommendRequest)
      (recommendation : ReasoningRecommendation),
      (∀ memory last, orchestrator.recommend sha256 memory budget request = .ok (recommendation, last) →
        Fits orchestrator budget recommendation) ∧
      (∀ integer kept last, orchestrator.recommendPersisted sha256 (SQLiteReasoningStore.store integer) kept
        budget request = .ok (recommendation, last) → Fits orchestrator budget recommendation) ∧
      ∀ keying scope now kept last, orchestrator.recommendPersisted sha256
        (ScopedReasoningStore.store keying scope now) kept budget request = .ok (recommendation, last) →
        Fits orchestrator budget recommendation) := by
  have preserved (state : RouterRun) (call : RouteCall) (kept : RouterRun.Kept router sha256 taskId state) :
      RouterRun.Kept router sha256 taskId (state.step router sha256 taskId call) :=
    RouterRun.kept_step injective kept
  refine ⟨⟨fun along => ?_, fun along => ?_⟩, fun orchestrator budget request recommendation =>
    ⟨fun memory last => fits_recommend, fun integer kept last => ?_, fun keying scope now kept last => ?_⟩⟩
  · exact along.imp RouterRun.kept_empty (fun state call _ => preserved state call) fun state call kept =>
      (RouterRun.bounded_iff injective kept).mp
  · exact along.imp RouterRun.kept_empty (fun state call _ => preserved state call) fun state call kept =>
      (RouterRun.bounded_iff injective kept).mpr
  · exact fits_recommendPersisted (serves_sqlite integer)
  · exact fits_recommendPersisted (serves_scoped keying scope now)

theorem route_bounded_widened :
    Along (RouterRun.step {} id "task") (RouterRun.Bounded {} id "task") {} widenedCalls ↔
      Along (RouterRun.step {} id "task") (RouterRun.Sound {} "task") {} widenedCalls :=
  (route_bounded_iff {} id Function.injective_id "task" widenedCalls).1

/-- The second call keeps the medium tier, though nothing has escalated. -/
theorem not_bounded_widened :
    ¬Along (RouterRun.step {} id "task") (RouterRun.Bounded {} id "task") {} widenedCalls := by
  intro along
  have bounded := along.2.1
  have kept : (routeCall {} id "task" ((RouterRun.step {} id "task" {}
      { eligibleTiers := some ["medium", "high"] }).tasks) {}).1 =
      .ok ⟨.medium, ["retained_escalated_tier"], 0, "default"⟩ := rfl
  rcases bounded.cheapest _ kept with least | ⟨earlier, member, escalated, _⟩
  · have low : (({} : RouteCall)).Admits .low := by
      refine ⟨fun values none => ?_, fun risk read => ?_, fun floor read => ?_⟩
      · cases none
      · obtain rfl : SideEffect.none = risk := Except.ok.inj read
        exact le_rfl
      · obtain rfl : ReasoningTier.low = floor := Except.ok.inj read
        exact le_rfl
    exact absurd (least.least .low low) (by decide)
  · have history : (RouterRun.step {} id "task" (RouterRun.step {} id "task" {}
        { eligibleTiers := some ["medium", "high"] }) {}).history.map Routed.escalated = [false, false] := rfl
    have listed := List.mem_map_of_mem (f := Routed.escalated) member
    rw [history, escalated] at listed
    simp at listed

end

end CapabilityHub.Reasoning
