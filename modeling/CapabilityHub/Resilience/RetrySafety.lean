import CapabilityHub.Resilience.Retry

/-! # Safe retries

`Rounds` is the shape of what `execute` does, whatever the world answers; the safety of its
retries is read off it by induction on the rounds.
-/

namespace CapabilityHub.Resilience

variable {α : Type} {executor : ResilientProviderExecutor} {call : ProviderCall}
  {turns : Nat → Turn α} {deadline now : ℚ} {attempts since moment : Nat} {system : System}
  {events : List (Event α)}

namespace Event

def isCall : Event α → Bool
  | .called _ => true
  | _ => false

def acquired? : Event α → Option Nat
  | .acquired permit => some permit
  | _ => none

def recorded? : Event α → Option Nat
  | .recorded permit => some permit
  | _ => none

end Event

/-- What follows a call that is not repeated. -/
inductive Closing : List (Event α) → Prop
  | returned : Closing []
  | refused (certainty : FailureCertainty) : Closing [.classified certainty]
  | late (certainty : FailureCertainty) (now : ℚ) : Closing [.classified certainty, .clock now]

/-- The breaker when a call acquires its permit. -/
def met (executor : ResilientProviderExecutor) (turn : Turn α) (system : System) : System :=
  run (step executor.circuitBreaker) system turn.before

/-- The breaker when a call has recorded its outcome. -/
def settled (executor : ResilientProviderExecutor) (call : ProviderCall) (turn : Turn α)
    (recording : Action) (system : System) : System :=
  step executor.circuitBreaker
    (run (step executor.circuitBreaker)
      (step executor.circuitBreaker (met executor turn system)
        (.acquire call.providerKey turn.acquiredAt)) turn.during) recording

/-- What a round of the loop may come to. -/
inductive Attempted (executor : ResilientProviderExecutor) (call : ProviderCall)
    (turns : Nat → Turn α) (deadline : ℚ) (attempts : Nat) (system : System) : Execution α → Prop
  | late : Attempted executor call turns deadline attempts system
      ⟨.error deadlineError, [.clock (turns attempts).startedAt], system⟩
  | rejected {raised : Raised} : Attempted executor call turns deadline attempts system
      ⟨.error raised, [.clock (turns attempts).startedAt],
        step executor.circuitBreaker (met executor (turns attempts) system)
          (.acquire call.providerKey (turns attempts).acquiredAt)⟩
  | ended {permit : CircuitPermit} (recording : Action) {outcome : Except Raised α}
      {rest : List (Event α)} (early : (turns attempts).startedAt < deadline)
      (granted : ((met executor (turns attempts) system).circuits.acquire executor.circuitBreaker
        call.providerKey (turns attempts).acquiredAt).1 = .ok permit)
      (records : recording.recorded = some (met executor (turns attempts) system).moment)
      (closing : Closing rest) : Attempted executor call turns deadline attempts system
      ⟨outcome, .clock (turns attempts).startedAt ::
          .acquired (met executor (turns attempts) system).moment ::
          .called (turns attempts).outcome ::
          .recorded (met executor (turns attempts) system).moment :: rest,
        settled executor call (turns attempts) recording system⟩
  | repeated {permit : CircuitPermit} (recording : Action) {error : CapabilityHubError} {delay : ℚ}
      (early : (turns attempts).startedAt < deadline)
      (granted : ((met executor (turns attempts) system).circuits.acquire executor.circuitBreaker
        call.providerKey (turns attempts).acquiredAt).1 = .ok permit)
      (records : recording.recorded = some (met executor (turns attempts) system).moment)
      (repeatable : RetryPolicy.Repeatable error call.operation call.request)
      (more : attempts + 1 < executor.retryPolicy.maxAttempts) :
      Attempted executor call turns deadline attempts system
        ((executor.attempt call turns deadline (attempts + 1)
            (settled executor call (turns attempts) recording system)).following
          [.clock (turns attempts).startedAt,
            .acquired (met executor (turns attempts) system).moment, .called (.failure error),
            .recorded (met executor (turns attempts) system).moment, .classified .notApplied,
            .clock (turns attempts).checkedAt, .slept delay])

variable (executor call turns deadline attempts system) in
theorem attempted : Attempted executor call turns deadline attempts system
    (executor.attempt call turns deadline attempts system) := by
  unfold ResilientProviderExecutor.attempt
  dsimp only
  split
  · exact .late
  next early =>
    have early := not_le.mp early
    split
    · exact .rejected
    next granted =>
      split
      · exact .ended (.success _) early granted rfl .returned
      · exact .ended (.failure _ _ _) early granted rfl .returned
      next error failed =>
        split
        · exact .ended (.failure _ _ _) early granted rfl (.refused _)
        next allowed =>
          have allowed := RetryPolicy.decide_allowed.mp (not_not.mp allowed)
          split
          · exact .ended (.failure _ _ _) early granted rfl (.refused _)
          next more =>
            split
            · exact .ended (.failure _ _ _) early granted rfl (.refused _)
            · split
              · exact .ended (.failure _ _ _) early granted rfl (.late _ _)
              · rw [allowed.1, failed]
                exact .repeated (.failure _ _ _) early granted rfl allowed.2
                  (Nat.lt_of_not_le more)

/-- The rounds of the loop, after so many attempts and from a moment on. -/
inductive Rounds (executor : ResilientProviderExecutor) (call : ProviderCall) (deadline : ℚ) :
    Nat → Nat → List (Event α) → Prop
  | stopped {attempts since : Nat} (now : ℚ) :
      Rounds executor call deadline attempts since [.clock now]
  | ended {attempts since permit : Nat} {now : ℚ} {outcome : Outcome α} {rest : List (Event α)}
      (early : now < deadline) (fresh : since ≤ permit)
      (within : attempts < executor.retryPolicy.maxAttempts) (closing : Closing rest) :
      Rounds executor call deadline attempts since
        (.clock now :: .acquired permit :: .called outcome :: .recorded permit :: rest)
  | repeated {attempts since permit : Nat} {now checkedAt delay : ℚ} {error : CapabilityHubError}
      {rest : List (Event α)} (early : now < deadline) (fresh : since ≤ permit)
      (within : attempts < executor.retryPolicy.maxAttempts)
      (repeatable : RetryPolicy.Repeatable error call.operation call.request)
      (next : Rounds executor call deadline (attempts + 1) (permit + 1) rest) :
      Rounds executor call deadline attempts since
        (.clock now :: .acquired permit :: .called (.failure error) :: .recorded permit ::
          .classified .notApplied :: .clock checkedAt :: .slept delay :: rest)

theorem moment_run {settings : CircuitSettings} (actions : List Action) (system : System) :
    system.moment ≤ (run (step settings) system actions).moment := by
  induction actions generalizing system with
  | nil => exact Nat.le_refl _
  | cons action rest ih => exact (Nat.le_succ _).trans (ih (step settings system action))

theorem moment_settled (turn : Turn α) (recording : Action) :
    (met executor turn system).moment + 1 ≤
      (settled executor call turn recording system).moment := by
  let acquired := step executor.circuitBreaker (met executor turn system)
    (.acquire call.providerKey turn.acquiredAt)
  have during : acquired.moment ≤ (run (step executor.circuitBreaker) acquired turn.during).moment :=
    moment_run _ _
  exact Nat.le_succ_of_le during

/-- The loop goes through rounds. -/
theorem rounds_attempt (within : attempts < executor.retryPolicy.maxAttempts)
    (later : since ≤ system.moment) :
    Rounds executor call deadline attempts since
      (executor.attempt call turns deadline attempts system).events := by
  induction left : executor.retryPolicy.maxAttempts - attempts using Nat.strong_induction_on
    generalizing attempts since system with
  | _ fuel ih =>
  have fresh : since ≤ (met executor (turns attempts) system).moment :=
    later.trans (moment_run _ _)
  have rounds := attempted executor call turns deadline attempts system
  generalize result : executor.attempt call turns deadline attempts system = execution at rounds
  cases rounds with
  | late => exact .stopped _
  | rejected => exact .stopped _
  | ended recording early granted records closing => exact .ended early fresh within closing
  | repeated recording early granted records repeatable more =>
      have shorter : executor.retryPolicy.maxAttempts - (attempts + 1) < fuel := by omega
      exact .repeated early fresh within repeatable (ih _ shorter more (moment_settled _ _) rfl)

/-- An event that is no call comes before the calls of the rest. -/
theorem skip {event : Event α} {rest before after : List (Event α)} {outcome : Outcome α}
    (silent : event.isCall = false) (split : event :: rest = before ++ .called outcome :: after) :
    ∃ tail, before = event :: tail ∧ rest = tail ++ .called outcome :: after := by
  rcases List.cons_eq_append_iff.mp split with ⟨rfl, same⟩ | ⟨tail, named, later⟩
  · cases same
    cases silent
  · exact ⟨tail, named, later⟩

/-- The first call of a round, or one that comes after it. -/
theorem call_cases {permit : Nat} {first outcome : Outcome α} {rest before after : List (Event α)}
    (split : .clock now :: .acquired permit :: .called first :: rest =
      before ++ .called outcome :: after) :
    before = [.clock now, .acquired permit] ∧ first = outcome ∧ rest = after ∨
      ∃ tail, before = .clock now :: .acquired permit :: .called first :: tail ∧
        rest = tail ++ .called outcome :: after := by
  obtain ⟨_, rfl, second⟩ := skip rfl split
  obtain ⟨_, rfl, third⟩ := skip rfl second
  rcases List.cons_eq_append_iff.mp third with ⟨rfl, same⟩ | ⟨tail, rfl, below⟩
  · rw [List.cons.injEq, Event.called.injEq] at same
    exact .inl ⟨rfl, same.1.symm, same.2.symm⟩
  · exact .inr ⟨tail, rfl, below⟩

/-- What lies between the call of a round and the call of a later one. -/
theorem between_rounds {permit : Nat} {certainty : FailureCertainty} {checkedAt delay : ℚ}
    {outcome : Outcome α} {rest before after : List (Event α)}
    (split : .recorded permit :: .classified certainty :: .clock checkedAt :: .slept delay :: rest =
      before ++ .called outcome :: after) :
    ∃ tail, before = .recorded permit :: .classified certainty :: .clock checkedAt ::
      .slept delay :: tail ∧ rest = tail ++ .called outcome :: after := by
  obtain ⟨_, rfl, second⟩ := skip rfl split
  obtain ⟨_, rfl, third⟩ := skip rfl second
  obtain ⟨_, rfl, fourth⟩ := skip rfl third
  obtain ⟨tail, rfl, below⟩ := skip rfl fourth
  exact ⟨tail, rfl, below⟩

theorem Closing.silent {rest before after : List (Event α)} {outcome : Outcome α}
    (closing : Closing rest) : rest ≠ before ++ .called outcome :: after := by
  intro split
  have none : ∀ event ∈ rest, event.isCall = false := by
    cases closing <;> simp [Event.isCall]
  have member : .called outcome ∈ rest := split ▸ List.mem_append_right _ List.mem_cons_self
  exact Bool.noConfusion (none _ member)

namespace Rounds

theorem calls_le (rounds : Rounds executor call deadline attempts since events)
    (within : attempts ≤ executor.retryPolicy.maxAttempts) :
    events.countP Event.isCall + attempts ≤ executor.retryPolicy.maxAttempts := by
  induction rounds with
  | stopped now => simpa [Event.isCall] using within
  | ended early fresh less closing =>
      cases closing <;>
        simpa only [List.countP_cons, List.countP_nil, Event.isCall, Bool.false_eq_true,
          ↓reduceIte, Nat.zero_add, Nat.add_zero, Nat.add_comm 1] using Nat.succ_le_of_lt less
  | repeated early fresh less repeatable next ih =>
      have after := ih less
      simp only [List.countP_cons, Event.isCall, Bool.false_eq_true, ↓reduceIte]
      omega

theorem recorded_eq (rounds : Rounds executor call deadline attempts since events) :
    events.filterMap Event.recorded? = events.filterMap Event.acquired? := by
  induction rounds with
  | stopped now => rfl
  | ended early fresh less closing => cases closing <;> rfl
  | repeated early fresh less repeatable next ih =>
      simp only [List.filterMap_cons, Event.recorded?, Event.acquired?, ih]

theorem acquired_fresh (rounds : Rounds executor call deadline attempts since events) :
    (∀ permit ∈ events.filterMap Event.acquired?, since ≤ permit) ∧
      (events.filterMap Event.acquired?).Nodup := by
  induction rounds with
  | stopped now => exact ⟨fun _ none => absurd none List.not_mem_nil, .nil⟩
  | ended early fresh less closing =>
      have only : ∀ rest : List (Event α), Closing rest → rest.filterMap Event.acquired? = [] := by
        intro rest closing
        cases closing <;> rfl
      simp only [List.filterMap_cons, Event.acquired?, only _ closing]
      exact ⟨fun permit member => List.mem_singleton.mp member ▸ fresh, List.nodup_singleton _⟩
  | @repeated _ _ first _ _ _ _ _ early fresh less repeatable next ih =>
      simp only [List.filterMap_cons, Event.acquired?]
      constructor
      · intro permit member
        rcases List.mem_cons.mp member with rfl | later
        · exact fresh
        · exact fresh.trans (Nat.le_of_succ_le (ih.1 permit later))
      · refine List.nodup_cons.mpr ⟨fun again => ?_, ih.2⟩
        exact Nat.not_succ_le_self _ (ih.1 first again)

/-- The clock is read, and is below the deadline, and a permit is acquired, just before a call. -/
theorem punctual (rounds : Rounds executor call deadline attempts since events)
    {before after : List (Event α)} {outcome : Outcome α}
    (split : events = before ++ .called outcome :: after) :
    ∃ earlier now permit, before = earlier ++ [.clock now, .acquired permit] ∧ now < deadline := by
  induction rounds generalizing before with
  | stopped now =>
      obtain ⟨tail, _, later⟩ := skip rfl split
      exact absurd later (by simp)
  | @ended _ _ permit now _ _ early fresh less closing =>
      rcases call_cases split with ⟨rfl, _, _⟩ | ⟨tail, rfl, rest⟩
      · exact ⟨[], now, permit, rfl, early⟩
      · obtain ⟨_, _, closed⟩ := skip rfl rest
        exact (closing.silent closed).elim
  | @repeated _ _ permit now _ _ _ _ early fresh less repeatable next ih =>
      rcases call_cases split with ⟨rfl, _, _⟩ | ⟨tail, rfl, rest⟩
      · exact ⟨[], now, permit, rfl, early⟩
      · obtain ⟨later, rfl, below⟩ := between_rounds rest
        obtain ⟨earlier, now', permit', rfl, early'⟩ := ih below
        exact ⟨_ :: _ :: _ :: _ :: _ :: _ :: _ :: earlier, now', permit', rfl, early'⟩

/-- A call is followed by another one only where it failed in a way that may be repeated. -/
theorem repeats (rounds : Rounds executor call deadline attempts since events)
    {before between after : List (Event α)} {outcome outcome' : Outcome α}
    (split : events = before ++ .called outcome :: (between ++ .called outcome' :: after)) :
    ∃ error, outcome = .failure error ∧ .classified .notApplied ∈ between ∧
      RetryPolicy.Repeatable error call.operation call.request := by
  induction rounds generalizing before with
  | stopped now =>
      obtain ⟨tail, _, later⟩ := skip rfl split
      exact absurd later (by simp)
  | ended early fresh less closing =>
      rcases call_cases split with ⟨rfl, _, rest⟩ | ⟨tail, rfl, rest⟩
      · obtain ⟨_, _, closed⟩ := skip rfl rest
        exact (closing.silent closed).elim
      · obtain ⟨_, _, closed⟩ := skip rfl rest
        exact (closing.silent closed).elim
  | @repeated _ _ _ _ _ _ error _ early fresh less repeatable next ih =>
      rcases call_cases split with ⟨rfl, failed, rest⟩ | ⟨tail, rfl, rest⟩
      · obtain ⟨later, rfl, _⟩ := between_rounds rest
        exact ⟨error, failed.symm, by simp, repeatable⟩
      · obtain ⟨later, rfl, below⟩ := between_rounds rest
        exact ih below

end Rounds

/-! ## The permits of a call in the breaker -/

/-- The breaker has a record of the outcome of the permit, which was given for the key. -/
def Recorded (system : System) (key : String) (moment : Nat) : Prop :=
  ∃ issue, system.issue? moment = some issue ∧ issue.permit.providerKey = key ∧
    issue.recorded = true

namespace System

variable {settings : CircuitSettings} {action : Action} {issue : Issue} {key : String}

theorem issue?_marked (recorded : Nat)
    (issued : system.issuedAfter settings action = system.issued.map (Issue.marked recorded)) :
    (step settings system action).issue? moment = (system.issue? moment).map (Issue.marked recorded) := by
  rw [issue?, issued_step, issued, List.find?_map]
  simp only [Function.comp_def, moment_marked]
  rfl

/-- A permit stays given, and its outcome stays recorded. -/
theorem issue?_step (found : system.issue? moment = some issue) :
    ∃ later, (step settings system action).issue? moment = some later ∧
      later.permit = issue.permit ∧ (issue.recorded = true → later.recorded = true) := by
  have marked (recorded : Nat)
      (issued : system.issuedAfter settings action = system.issued.map (Issue.marked recorded)) :
      ∃ later, (step settings system action).issue? moment = some later ∧
        later.permit = issue.permit ∧ (issue.recorded = true → later.recorded = true) := by
    refine ⟨issue.marked recorded, ?_, permit_marked _ _, fun already => ?_⟩
    · rw [issue?_marked recorded issued, found]
      rfl
    · unfold Issue.marked
      split
      · rfl
      · exact already
  cases action with
  | success recorded => exact marked recorded rfl
  | failure recorded _ _ => exact marked recorded rfl
  | acquire other now =>
      refine ⟨issue, ?_, rfl, id⟩
      rw [issue?, issued_step, issuedAfter, List.find?_append]
      exact (congrArg (Option.or · _) found).trans Option.some_or

theorem recorded_step (recorded : Recorded system key moment) :
    Recorded (step settings system action) key moment := by
  obtain ⟨issue, found, named, already⟩ := recorded
  obtain ⟨later, found', same, still⟩ := issue?_step found
  exact ⟨later, found', same ▸ named, still already⟩

theorem recorded_run (actions : List Action) (recorded : Recorded system key moment) :
    Recorded (run (step settings) system actions) key moment := by
  induction actions generalizing system with
  | nil => exact recorded
  | cons action rest ih => exact ih (recorded_step recorded)

theorem issue?_run (actions : List Action) (found : system.issue? moment = some issue) :
    ∃ later, (run (step settings) system actions).issue? moment = some later ∧
      later.permit = issue.permit := by
  induction actions generalizing system issue with
  | nil => exact ⟨issue, found, rfl⟩
  | cons action rest ih =>
      obtain ⟨later, found', same, _⟩ := issue?_step found
      obtain ⟨last, found'', same'⟩ := ih found'
      exact ⟨last, found'', same'.trans same⟩

theorem Epochs.run (epochs : system.Epochs) (actions : List Action) :
    (CapabilityHub.run (Resilience.step settings) system actions).Epochs :=
  run_invariant epochs fun _ action epochs => epochs.step settings action

/-- A permit that was just given is found under the moment of the step. -/
theorem issue?_acquire {permit : CircuitPermit} (epochs : system.Epochs)
    (granted : (system.circuits.acquire settings key now).1 = .ok permit) :
    (step settings system (.acquire key now)).issue? system.moment =
      some ⟨permit, system.moment, false⟩ := by
  have absent : system.issued.find? (fun issue => issue.moment = system.moment) = none := by
    refine List.find?_eq_none.mpr fun issue member same => ?_
    exact Nat.ne_of_lt (epochs.given issue member) (of_decide_eq_true same)
  rw [issue?, issued_step, issuedAfter, granted, List.find?_append, absent, given]
  simp

theorem providerKey_acquire {circuits : Circuits} {permit : CircuitPermit}
    (granted : (circuits.acquire settings key now).1 = .ok permit) : permit.providerKey = key := by
  rcases acquired : circuits.acquire settings key now with ⟨outcome, after⟩
  rw [acquired] at granted
  cases granted
  cases Circuits.acquire_cases acquired with
  | granted _ given _ => exact (CircuitEntry.acquire_eq_ok.mp given).permit_eq.1
  | created _ _ _ => rfl

end System

/-- The outcome of a permit is recorded when its round is over. -/
theorem recorded_settled {permit : CircuitPermit} {recording : Action} {turn : Turn α}
    (epochs : system.Epochs)
    (granted : ((met executor turn system).circuits.acquire executor.circuitBreaker
      call.providerKey turn.acquiredAt).1 = .ok permit)
    (records : recording.recorded = some (met executor turn system).moment) :
    Recorded (settled executor call turn recording system) call.providerKey
      (met executor turn system).moment := by
  have given := System.issue?_acquire (epochs.run turn.before) granted
  obtain ⟨later, found, same⟩ := System.issue?_run turn.during given
  have named : later.permit.providerKey = call.providerKey := by
    rw [same]
    exact System.providerKey_acquire granted
  refine ⟨later.marked (met executor turn system).moment, ?_, (permit_marked _ _).symm ▸ named,
    recorded_marked (System.issue?_eq_some found).2⟩
  unfold settled
  cases recording with
  | acquire _ _ => cases records
  | success moment =>
      cases records
      rw [System.issue?_marked _ rfl]
      exact congrArg (Option.map _) found
  | failure moment _ _ =>
      cases records
      rw [System.issue?_marked _ rfl]
      exact congrArg (Option.map _) found

variable (executor call) in
theorem epochs_settled (epochs : system.Epochs) (turn : Turn α) (recording : Action) :
    (settled executor call turn recording system).Epochs :=
  (((epochs.run turn.before).step _ _).run turn.during).step _ recording

/-- Every permit that a call has acquired is recorded in the breaker when the call is over, and
what was recorded before stays so. -/
theorem recorded_attempt (epochs : system.Epochs) :
    (∀ key moment, Recorded system key moment →
      Recorded (executor.attempt call turns deadline attempts system).system key moment) ∧
    ∀ permit ∈ (executor.attempt call turns deadline attempts system).events.filterMap
        Event.acquired?,
      Recorded (executor.attempt call turns deadline attempts system).system call.providerKey
        permit := by
  induction left : executor.retryPolicy.maxAttempts - attempts using Nat.strong_induction_on
    generalizing attempts system with
  | _ fuel ih =>
  have through {recording : Action} {key : String} {moment : Nat}
      (recorded : Recorded system key moment) :
      Recorded (settled executor call (turns attempts) recording system) key moment :=
    System.recorded_step (System.recorded_run _
      (System.recorded_step (System.recorded_run _ recorded)))
  have rounds := attempted executor call turns deadline attempts system
  generalize result : executor.attempt call turns deadline attempts system = execution at rounds
  cases rounds with
  | late => exact ⟨fun _ _ => id, fun _ none => absurd none List.not_mem_nil⟩
  | rejected =>
      exact ⟨fun _ _ recorded => System.recorded_step (System.recorded_run _ recorded),
        fun _ none => absurd none List.not_mem_nil⟩
  | ended recording early granted records closing =>
      refine ⟨fun _ _ => through, fun permit member => ?_⟩
      have only : permit = (met executor (turns attempts) system).moment := by
        cases closing <;> exact List.mem_singleton.mp member
      exact only ▸ recorded_settled epochs granted records
  | repeated recording early granted records repeatable more =>
      have shorter : executor.retryPolicy.maxAttempts - (attempts + 1) < fuel := by omega
      have rest := ih _ shorter (epochs_settled executor call epochs (turns attempts) recording) rfl
      refine ⟨fun key moment recorded => rest.1 key moment (through recorded),
        fun permit member => ?_⟩
      rcases List.mem_cons.mp member with rfl | later
      · exact rest.1 _ _ (recorded_settled epochs granted records)
      · exact rest.2 permit later

/-- What `execute` keeps to, whatever the provider, the clocks, the classifier and the other
callers of the breaker do. -/
structure RetrySafe (executor : ResilientProviderExecutor) (call : ProviderCall) (startedAt : ℚ)
    (execution : Execution α) : Prop where
  attempts : execution.events.countP Event.isCall ≤ executor.retryPolicy.maxAttempts
  /-- A call that is followed by another one has failed in a way that may be repeated. -/
  repeated : ∀ before outcome between outcome' after,
    execution.events = before ++ .called outcome :: (between ++ .called outcome' :: after) →
    ∃ error, outcome = .failure error ∧ .classified .notApplied ∈ between ∧
      RetryPolicy.Repeatable error call.operation call.request
  irreversible : call.operation.sideEffect = .irreversible →
    execution.events.countP Event.isCall ≤ 1
  punctual : ∀ before outcome after, execution.events = before ++ .called outcome :: after →
    ∃ earlier now permit, before = earlier ++ [.clock now, .acquired permit] ∧
      now < startedAt + call.deadlineSeconds
  /-- The permits are recorded as they were acquired, each of them once. -/
  recorded : execution.events.filterMap Event.recorded? =
      execution.events.filterMap Event.acquired? ∧
    (execution.events.filterMap Event.acquired?).Nodup
  /-- The breaker has no permit of the call left. -/
  returned : ∀ permit ∈ execution.events.filterMap Event.acquired?,
    Recorded execution.system call.providerKey permit

theorem exists_calls {events : List (Event α)} (calls : 1 < events.countP Event.isCall) :
    ∃ before outcome between outcome' after,
      events = before ++ .called outcome :: (between ++ .called outcome' :: after) := by
  have first {events : List (Event α)} (some' : 0 < events.countP Event.isCall) :
      ∃ before outcome after, events = before ++ .called outcome :: after ∧
        events.countP Event.isCall = after.countP Event.isCall + 1 := by
    induction events with
    | nil => exact absurd some' (Nat.lt_irrefl 0)
    | cons event rest ih =>
        cases event with
        | called outcome => exact ⟨[], outcome, rest, rfl, List.countP_cons_of_pos rfl⟩
        | _ =>
            rw [List.countP_cons_of_neg Bool.false_ne_true] at some'
            obtain ⟨before, outcome, after, rfl, count⟩ := ih some'
            exact ⟨_ :: before, outcome, after, rfl,
              (List.countP_cons_of_neg Bool.false_ne_true).trans count⟩
  obtain ⟨before, outcome, rest, same, count⟩ := first (Nat.lt_of_succ_lt calls)
  obtain ⟨between, outcome', after, same', _⟩ := first (show 0 < rest.countP Event.isCall by omega)
  exact ⟨before, outcome, between, outcome', after, same' ▸ same⟩

/-- Retries are safe. -/
theorem retrySafe_execute (executor : ResilientProviderExecutor) (call : ProviderCall)
    (turns : Nat → Turn α) (startedAt : ℚ) (history : List Action) :
    RetrySafe executor call startedAt
      (executor.execute call turns startedAt (run (step executor.circuitBreaker) {} history)) := by
  have epochs : (run (step executor.circuitBreaker) {} history).Epochs :=
    System.epochs_initial.run history
  generalize run (step executor.circuitBreaker) {} history = system at epochs
  unfold ResilientProviderExecutor.execute
  split
  · exact ⟨Nat.zero_le _, fun _ _ _ _ _ split => by simp at split, fun _ => Nat.zero_le _,
      fun _ _ _ split => by simp at split, ⟨rfl, .nil⟩, fun _ none => absurd none List.not_mem_nil⟩
  · have rounds : Rounds executor call (startedAt + call.deadlineSeconds) 0 0
        (executor.attempt call turns (startedAt + call.deadlineSeconds) 0 system).events :=
      rounds_attempt executor.retryPolicy.attempts (Nat.zero_le _)
    have repeated {before between after : List (Event α)} {outcome outcome' : Outcome α}
        (split : .clock startedAt :: (executor.attempt call turns
            (startedAt + call.deadlineSeconds) 0 system).events =
          before ++ .called outcome :: (between ++ .called outcome' :: after)) :
        ∃ error, outcome = .failure error ∧ .classified .notApplied ∈ between ∧
          RetryPolicy.Repeatable error call.operation call.request := by
      obtain ⟨_, rfl, rest⟩ := skip rfl split
      exact rounds.repeats rest
    refine ⟨rounds.calls_le (Nat.zero_le _), fun _ _ _ _ _ => repeated, fun irreversible => ?_,
      fun before outcome after split => ?_, ⟨rounds.recorded_eq, rounds.acquired_fresh.2⟩,
      (recorded_attempt epochs).2⟩
    · by_contra more
      obtain ⟨_, _, _, _, _, split⟩ := exists_calls (Nat.lt_of_not_le more)
      obtain ⟨error, _, _, repeatable⟩ := repeated split
      rcases repeatable.operation with none | read | ⟨write, _⟩
      · exact nomatch irreversible.symm.trans none
      · exact nomatch irreversible.symm.trans read
      · exact nomatch irreversible.symm.trans write
    · obtain ⟨_, rfl, rest⟩ := skip rfl split
      obtain ⟨earlier, now, permit, rfl, early⟩ := rounds.punctual rest
      exact ⟨_ :: earlier, now, permit, rfl, early⟩

end CapabilityHub.Resilience
