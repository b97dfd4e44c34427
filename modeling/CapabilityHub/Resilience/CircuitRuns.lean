import CapabilityHub.Data.Runs
import CapabilityHub.Resilience.CircuitBreaker
import Mathlib.Data.List.Pairwise

/-! # Runs of a circuit breaker

Any interleaving of the operations of one breaker. A permit is named by the moment of the step
that gave it. What a system notes beside the circuits and the permits is a record of the run,
taken from the circuits before and after each step, which no step reads.
-/

namespace CapabilityHub.Resilience

/-- A permit as `acquire` has given it. -/
structure Issue where
  permit : CircuitPermit
  moment : Nat
  recorded : Bool := false
  deriving DecidableEq

structure System where
  circuits : Circuits := ∅
  issued : List Issue := []
  moment : Nat := 0
  /-- When the circuit of a key was made. -/
  born : String → Nat := fun _ => 0
  /-- When the circuit of a key last opened, half-opened, closed, was made or was evicted. -/
  turned : String → Nat := fun _ => 0
  /-- The countable failures recorded since the circuit of a key last turned, with no success
  among them. -/
  streak : String → Nat := fun _ => 0
  /-- The clock when the circuit of a key last opened. -/
  openedAt : String → ℚ := fun _ => 0
  clock : Option ℚ := none

inductive Action where
  | acquire (key : String) (now : ℚ)
  | success (moment : Nat)
  | failure (moment : Nat) (countable : Bool) (now : ℚ)
  deriving DecidableEq

/-- What the clock says in the step. -/
def Action.reading : Action → Option ℚ
  | .acquire _ now => some now
  | .success _ => none
  | .failure _ _ now => some now

/-- The permit whose outcome is recorded. -/
def Action.recorded : Action → Option Nat
  | .acquire _ _ => none
  | .success moment => some moment
  | .failure moment _ _ => some moment

def Issue.marked (moment : Nat) (issue : Issue) : Issue :=
  if issue.moment = moment then { issue with recorded := true } else issue

/-- The permit that `acquire` gives at a moment. -/
def given (moment : Nat) : Except Raised CircuitPermit → List Issue
  | .error _ => []
  | .ok permit => [{ permit, moment }]

namespace System

variable (settings : CircuitSettings) (system : System)

def state (key : String) : Option CircuitState := (system.circuits.get? key).map (·.state)

/-- The permit given at a moment. -/
def issue? (moment : Nat) : Option Issue := system.issued.find? (·.moment = moment)

/-- The permits given for a key. -/
def issuedTo (key : String) : List Issue := system.issued.filter (·.permit.providerKey = key)

/-- The circuit of the permit has not turned since it gave the permit. -/
def Current (issue : Issue) : Prop := system.turned issue.permit.providerKey ≤ issue.moment

instance (issue : Issue) : Decidable (system.Current issue) := inferInstanceAs (Decidable (_ ≤ _))

/-- The permits of a key since its circuit last turned. -/
def current (key : String) : List Issue :=
  (system.issuedTo key).filter fun issue => system.turned key ≤ issue.moment

/-- The circuits after an action. -/
def circuitsAfter : Action → Circuits
  | .acquire key now => (system.circuits.acquire settings key now).2
  | .success moment =>
      match system.issue? moment with
      | none => system.circuits
      | some issue => system.circuits.recordSuccess issue.permit
  | .failure moment countable now =>
      match system.issue? moment with
      | none => system.circuits
      | some issue => system.circuits.recordFailure settings issue.permit countable now

/-- The permits after an action. -/
def issuedAfter : Action → List Issue
  | .acquire key now =>
      system.issued ++ given system.moment (system.circuits.acquire settings key now).1
  | .success moment => system.issued.map (Issue.marked moment)
  | .failure moment _ _ => system.issued.map (Issue.marked moment)

/-- The failures in a row after an action that has not turned the circuit. -/
def streakAfter (key : String) (action : Action) : Nat :=
  match action.recorded.bind system.issue? with
  | none => system.streak key
  | some issue =>
      if issue.permit.providerKey = key ∧ system.Current issue then
        match action with
        | .failure _ true _ => system.streak key + 1
        | .failure _ false _ => system.streak key
        | _ => 0
      else system.streak key

end System

/-- One operation. -/
def step (settings : CircuitSettings) (system : System) (action : Action) : System :=
  let circuits := system.circuitsAfter settings action
  let state (key : String) := (circuits.get? key).map (·.state)
  { circuits
    issued := system.issuedAfter settings action
    moment := system.moment + 1
    born := fun key =>
      if (system.circuits.get? key).isNone ∧ (circuits.get? key).isSome then system.moment
      else system.born key
    turned := fun key => if state key = system.state key then system.turned key else system.moment
    streak := fun key => if state key = system.state key then system.streakAfter key action else 0
    openedAt := fun key =>
      if state key ≠ system.state key ∧ state key = some .opened then
        action.reading.getD (system.openedAt key)
      else system.openedAt key
    clock := action.reading.or system.clock }

namespace System

variable {settings : CircuitSettings} {system : System} {action : Action} {key : String}
  {moment : Nat} {issue : Issue}

@[simp] theorem circuits_step : (step settings system action).circuits =
    system.circuitsAfter settings action := rfl

@[simp] theorem issued_step : (step settings system action).issued =
    system.issuedAfter settings action := rfl

@[simp] theorem moment_step : (step settings system action).moment = system.moment + 1 := rfl

theorem turned_step : (step settings system action).turned key =
    if (step settings system action).state key = system.state key then system.turned key
    else system.moment := rfl

theorem streak_step : (step settings system action).streak key =
    if (step settings system action).state key = system.state key then
      system.streakAfter key action
    else 0 := rfl

theorem born_step : (step settings system action).born key =
    if (system.circuits.get? key).isNone ∧
        ((step settings system action).circuits.get? key).isSome then system.moment
    else system.born key := rfl

theorem openedAt_step : (step settings system action).openedAt key =
    if (step settings system action).state key ≠ system.state key ∧
        (step settings system action).state key = some .opened then
      action.reading.getD (system.openedAt key)
    else system.openedAt key := rfl

theorem issue?_eq_some (found : system.issue? moment = some issue) :
    issue ∈ system.issued ∧ issue.moment = moment := by
  have same := List.find?_some (p := fun issue : Issue => decide (issue.moment = moment)) found
  exact ⟨List.mem_of_find?_eq_some found, of_decide_eq_true same⟩

end System

@[simp] theorem permit_marked (moment : Nat) (issue : Issue) :
    (issue.marked moment).permit = issue.permit := by
  unfold Issue.marked
  split <;> rfl

@[simp] theorem moment_marked (moment : Nat) (issue : Issue) :
    (issue.marked moment).moment = issue.moment := by
  unfold Issue.marked
  split <;> rfl

theorem marked_of_ne {moment : Nat} {issue : Issue} (other : issue.moment ≠ moment) : issue.marked moment = issue :=
  if_neg other

theorem recorded_marked {moment : Nat} {issue : Issue} (same : issue.moment = moment) : (issue.marked moment).recorded = true := by
  unfold Issue.marked
  rw [if_pos same]

/-- A permit that is outstanding after its neighbour was recorded was so before. -/
theorem of_marked_outstanding {moment : Nat} {issue : Issue}
    (outstanding : (issue.marked moment).recorded = false) :
    issue.moment ≠ moment ∧ issue.marked moment = issue := by
  by_cases same : issue.moment = moment
  · exact absurd ((recorded_marked same).symm.trans outstanding) Bool.noConfusion
  · exact ⟨same, marked_of_ne same⟩

namespace System

variable {settings : CircuitSettings} {system : System} {action : Action} {key : String}
  {moment : Nat} {issue : Issue} {now : ℚ}

/-- What an action may do to the circuit of a key. -/
inductive Moves : Option CircuitEntry → Option CircuitEntry → Prop
  | same {entry : Option CircuitEntry} : Moves entry entry
  | changed {entry changed : CircuitEntry} (grows : entry.Grows changed) :
      Moves (some entry) (some changed)
  | created {entry : CircuitEntry} : Moves none (some entry)
  | evicted {entry : CircuitEntry} : Moves (some entry) none

theorem moves_record {circuits : Circuits} {permit : CircuitPermit}
    {change : CircuitEntry → CircuitEntry} (grows : ∀ entry : CircuitEntry, entry.Grows (change entry)) :
    Moves (circuits.get? key) ((circuits.record permit change).get? key) := by
  rw [Circuits.get?_record]
  split
  · cases circuits.get? key with
    | none => exact .same
    | some entry =>
        rw [Option.map_some]
        split
        · exact .changed (grows entry)
        · exact .same
  · exact .same

theorem moves_step (settings : CircuitSettings) (system : System) (action : Action)
    (key : String) :
    Moves (system.circuits.get? key) ((step settings system action).circuits.get? key) := by
  rw [circuits_step]
  cases action with
  | acquire other now =>
      rw [circuitsAfter]
      rcases acquired : system.circuits.acquire settings other now with ⟨outcome, after⟩
      cases Circuits.acquire_cases acquired with
      | refused same =>
          rw [same]
          exact .same
      | granted present given next =>
          rw [next]
          split
          next this =>
            rw [this, present]
            exact .changed (CircuitEntry.acquire_eq_ok.mp given).grows
          next => exact .same
      | created absent evictable next =>
          rw [next]
          split
          next this =>
            rw [this, absent]
            exact .created
          next =>
            split
            next victim =>
              rcases evictable key victim with ⟨item, present, idle⟩
              rw [present]
              exact .evicted
            next => exact .same
  | success moment =>
      rw [circuitsAfter]
      split
      · exact .same
      · exact moves_record fun _ => CircuitEntry.grows_recordSuccess
  | failure moment countable now =>
      rw [circuitsAfter]
      split
      · exact .same
      · exact moves_record fun _ => CircuitEntry.grows_recordFailure

/-- The permits after an action are those before it, and what `acquire` has given. -/
theorem mem_issuedAfter (member : issue ∈ system.issuedAfter settings action) :
    (∃ earlier ∈ system.issued, issue.permit = earlier.permit ∧ issue.moment = earlier.moment) ∨
    (issue.moment = system.moment ∧ ∃ entry,
      (step settings system action).circuits.get? issue.permit.providerKey = some entry ∧
        entry.generation = issue.permit.generation) := by
  cases action with
  | acquire other now =>
      rw [issuedAfter] at member
      rw [circuits_step, circuitsAfter]
      rcases acquired : system.circuits.acquire settings other now with ⟨outcome, after⟩
      rw [acquired] at member
      cases Circuits.acquire_cases acquired with
      | refused same => exact .inl ⟨issue, List.append_nil system.issued ▸ member, rfl, rfl⟩
      | granted present given next =>
          rcases List.mem_append.mp member with old | new
          · exact .inl ⟨issue, old, rfl, rfl⟩
          · rw [List.mem_singleton.mp new]
            rcases (CircuitEntry.acquire_eq_ok.mp given).permit_eq with ⟨named, numbered⟩
            exact .inr ⟨rfl, _, (next _).trans (if_pos named), numbered.symm⟩
      | created absent evictable next =>
          rcases List.mem_append.mp member with old | new
          · exact .inl ⟨issue, old, rfl, rfl⟩
          · rw [List.mem_singleton.mp new]
            exact .inr ⟨rfl, _, (next _).trans (if_pos rfl), rfl⟩
  | success moment =>
      obtain ⟨earlier, old, rfl⟩ := List.mem_map.mp member
      exact .inl ⟨earlier, old, permit_marked _ _, moment_marked _ _⟩
  | failure moment countable now =>
      obtain ⟨earlier, old, rfl⟩ := List.mem_map.mp member
      exact .inl ⟨earlier, old, permit_marked _ _, moment_marked _ _⟩

/-- A generation of a circuit is not older than its last turn. -/
structure Epochs (system : System) : Prop where
  given : ∀ issue ∈ system.issued, issue.moment < system.moment
  turned : ∀ key, system.turned key ≤ system.moment
  generation : ∀ issue ∈ system.issued, ∀ entry,
    system.circuits.get? issue.permit.providerKey = some entry →
    system.born issue.permit.providerKey ≤ issue.moment →
    issue.permit.generation ≤ entry.generation ∧
      (entry.generation = issue.permit.generation → system.Current issue)

theorem epochs_initial : Epochs {} where
  given := fun _ member => absurd member List.not_mem_nil
  turned := fun _ => Nat.le_refl _
  generation := fun _ member => absurd member List.not_mem_nil

theorem turned_step_le (le : system.turned key ≤ system.moment) :
    (step settings system action).turned key ≤ system.moment := by
  rw [turned_step]
  split
  · exact le
  · exact Nat.le_refl _

theorem Epochs.step (epochs : system.Epochs) (settings : CircuitSettings) (action : Action) :
    (step settings system action).Epochs := by
  refine ⟨?_, fun key => Nat.le_succ_of_le (turned_step_le (epochs.turned key)), ?_⟩
  · intro issue member
    rcases mem_issuedAfter member with ⟨earlier, old, _, same⟩ | ⟨now, _⟩
    · rw [same]
      exact Nat.lt_succ_of_lt (epochs.given earlier old)
    · rw [now]
      exact Nat.lt_succ_self _
  · intro issue member entry present born
    rcases mem_issuedAfter member with ⟨earlier, old, permit, same⟩ | ⟨now, given, found, numbered⟩
    · have earlier_lt := epochs.given earlier old
      unfold Current
      rw [permit] at present
      rw [permit, same] at born ⊢
      have moves := moves_step settings system action earlier.permit.providerKey
      have generation := epochs.generation earlier old
      rw [born_step] at born
      rw [turned_step]
      unfold System.state
      rw [present] at moves born ⊢
      generalize system.circuits.get? earlier.permit.providerKey = before at moves born generation
      cases moves with
      | same =>
          rw [if_neg (fun made => absurd made.1 Bool.false_ne_true)] at born
          rw [if_pos rfl]
          exact generation entry rfl born
      | changed grows =>
          rw [if_neg (fun made => absurd made.1 Bool.false_ne_true)] at born
          rcases generation _ rfl born with ⟨older, current⟩
          refine ⟨older.trans grows.1, fun equal => ?_⟩
          split
          next => exact current (Nat.le_antisymm (equal ▸ grows.1) older)
          next turns =>
            have younger := grows.2 fun state => turns (congrArg some state)
            omega
      | created =>
          rw [if_pos ⟨rfl, rfl⟩] at born
          omega
    · rw [found] at present
      cases present
      refine ⟨Nat.le_of_eq numbered.symm, fun _ => ?_⟩
      unfold Current
      rw [now]
      exact turned_step_le (epochs.turned _)

end System

/-! ## Epochs -/

/-- The permit is not from an earlier circuit of its key that was evicted while the circuit that
the key has now is in the generation of the permit. -/
def Own (system : System) (action : Action) : Prop :=
  ∀ issue ∈ action.recorded.bind system.issue?,
    ∀ entry ∈ system.circuits.get? issue.permit.providerKey,
      entry.generation = issue.permit.generation →
      system.born issue.permit.providerKey ≤ issue.moment

instance : DecidableRel Own := fun _ _ => inferInstanceAs (Decidable (∀ _ ∈ _, ∀ _ ∈ _, _ → _))

/-- An outcome changes a circuit only through a permit that this circuit gave in the generation
in which it still is, and the circuit has not turned since. -/
def OwnEpoch (settings : CircuitSettings) (system : System) (action : Action) : Prop :=
  ∀ issue ∈ action.recorded.bind system.issue?, ∀ key,
    (step settings system action).circuits.get? key ≠ system.circuits.get? key →
    issue.permit.providerKey = key ∧ system.Current issue ∧ system.born key ≤ issue.moment ∧
      ∃ entry, system.circuits.get? key = some entry ∧
        entry.generation = issue.permit.generation

theorem ownEpoch_of_own {settings : CircuitSettings} {system : System} {action : Action}
    (epochs : system.Epochs) (own : Own system action) : OwnEpoch settings system action := by
  have through {issue : Issue} {moment : Nat} {change : CircuitEntry → CircuitEntry} {key : String}
      (found : system.issue? moment = some issue)
      (own : ∀ entry, system.circuits.get? issue.permit.providerKey = some entry →
        entry.generation = issue.permit.generation →
        system.born issue.permit.providerKey ≤ issue.moment)
      (changes : (system.circuits.record issue.permit change).get? key ≠
        system.circuits.get? key) :
      issue.permit.providerKey = key ∧ system.Current issue ∧ system.born key ≤ issue.moment ∧
        ∃ entry, system.circuits.get? key = some entry ∧
          entry.generation = issue.permit.generation := by
    rw [Circuits.get?_record] at changes
    by_cases named : key = issue.permit.providerKey
    · subst named
      rw [if_pos rfl] at changes
      cases present : system.circuits.get? issue.permit.providerKey with
      | none => exact (changes (by rw [present]; rfl)).elim
      | some entry =>
          rw [present, Option.map_some] at changes
          by_cases numbered : entry.generation = issue.permit.generation
          · have born := own entry present numbered
            have member := (System.issue?_eq_some found).1
            exact ⟨rfl, (epochs.generation issue member entry present born).2 numbered, born, entry,
              rfl, numbered⟩
          · rw [if_neg numbered] at changes
            exact (changes rfl).elim
    · rw [if_neg named] at changes
      exact (changes rfl).elim
  intro issue found key changes
  cases action with
  | acquire _ _ => cases found
  | success moment =>
      have given : system.issue? moment = some issue := found
      rw [System.circuits_step, System.circuitsAfter, given] at changes
      exact through given (own issue found) changes
  | failure moment countable now =>
      have given : system.issue? moment = some issue := found
      rw [System.circuits_step, System.circuitsAfter, given] at changes
      exact through given (own issue found) changes

/-- A permit acts only on the circuit that gave it, and only until that circuit turns, in every
run in which no permit of an evicted circuit meets its own number in a later one. -/
theorem ownEpoch_along {settings : CircuitSettings} {actions : List Action}
    (own : Along (step settings) Own {} actions) :
    Along (step settings) (OwnEpoch settings) {} actions := by
  exact own.imp System.epochs_initial (fun _ action _ epochs => epochs.step settings action)
    fun _ _ epochs own => ownEpoch_of_own epochs own

/-- A breaker of one circuit, which one failure opens and which recovers at once. -/
def oneCircuit : CircuitSettings where
  failureThreshold := 1
  recoveryTimeoutSeconds := 0
  maxEntries := 1
  threshold := Nat.le_refl _
  timeout := le_refl _
  capacity := Nat.le_refl _

/-- The circuit of `a` opens, recovers and is evicted while its second permit is out. -/
def evictedRun : List Action :=
  [.acquire "a" 0, .acquire "a" 0, .failure 0 true 0, .acquire "a" 1, .success 3,
    .acquire "b" 1, .success 5, .acquire "a" 1]

theorem ownEpoch_along_evictedRun :
    Along (step oneCircuit) (OwnEpoch oneCircuit) {} evictedRun :=
  ownEpoch_along (by decide +kernel)

/-- The permit of the evicted circuit opens the new one. -/
theorem evicted_permit_opens : ¬∀ actions : List Action,
    Along (step oneCircuit) (OwnEpoch oneCircuit) {} actions := by
  intro always
  have last := (always (evictedRun ++ [.failure 1 true 1])).last
  have stale := last ⟨⟨"a", 0, false⟩, 1, false⟩ (by decide +kernel) "a" (by decide +kernel)
  exact absurd stale.2.1 (by decide +kernel)

end CapabilityHub.Resilience
