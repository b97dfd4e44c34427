import CapabilityHub.Database.Transaction
import CapabilityHub.Data.Dict
import CapabilityHub.Errors

/-! # The update store

`SQLiteUpdateStore`. Each call is one transaction over the rows of `capability_updates`, and what
it does where it returns is the lemma that ends in `_eq_ok`.
-/

namespace CapabilityHub.Updates

open Transaction

/-- The texts of `health_status`. -/
inductive HealthStatus where
  | pending
  | passed
  | failed
  deriving DecidableEq

/-- `UpdateState`, without the coordinate. -/
structure UpdateState where
  activeRevision : Option String := none
  previousRevision : Option String := none
  stagedRevision : Option String := none
  healthStatus : Option HealthStatus := none
  deriving DecidableEq

/-- The rows of `capability_updates`, by `coordinate`. -/
abbrev CapabilityUpdates : Type := Dict String UpdateState

/-- `validate`, which sees the active pointers as they would be. -/
abbrev Validate : Type := Dict String String → Except Raised Unit

/-- `_conflict`. -/
def conflict (code message : String) (details : List (String × ErrorDetail)) : Raised :=
  .hub {
    code := code
    category := .conflict
    safeMessage := message
    details := details }

/-- A text or `None` among the details of an error. -/
def detail : Option String → ErrorDetail
  | some value => .text value
  | none => .null

/-- `_require`. -/
def checkNonEmpty (value : String) : Except Raised Unit := raiseIf (value = "") .valueError

/-- `_expect_active`. -/
def expectActive (coordinate : String) (state : UpdateState) (expected : Option String) :
    Except Raised Unit :=
  raiseIf (state.activeRevision ≠ expected)
    (conflict "active_revision_changed" "Active revision changed; retry from fresh state."
      [("coordinate", .text coordinate), ("expected", detail expected),
        ("actual", detail state.activeRevision)])

namespace CapabilityUpdates

variable (updates : CapabilityUpdates)

/-- `_read_state`. -/
def readState (coordinate : String) : UpdateState := updates.getD coordinate {}

/-- `_active_pointers`. -/
def activePointers : Dict String String := updates.filterMapValues UpdateState.activeRevision

end CapabilityUpdates

/-- Calls of the store. -/
abbrev Method (α : Type) : Type := Transaction CapabilityUpdates Raised α

namespace SQLiteUpdateStore

/-- `_write_state`. -/
def writeState (coordinate : String) (state : UpdateState) : Method Unit :=
  write fun updates => updates.set coordinate state

/-- `bootstrap_active`. -/
def bootstrapActive (coordinate revision : String) : Method UpdateState := do
  query fun _ => checkNonEmpty coordinate
  query fun _ => checkNonEmpty revision
  atomically do
    let current ← query fun updates => .ok (updates.readState coordinate)
    if current.activeRevision = none ∧ current.stagedRevision = none then
      let replacement : UpdateState := { activeRevision := some revision }
      writeState coordinate replacement
      pure replacement
    else
      query fun _ => raiseIf (current.activeRevision ≠ some revision)
        (conflict "active_revision_changed"
          "Managed active revision differs from the catalog bootstrap revision."
          [("coordinate", .text coordinate), ("expected", .text revision),
            ("actual", detail current.activeRevision)])
      pure current

/-- `stage`. -/
def stage (coordinate revision : String) (expectedActiveRevision : Option String) :
    Method UpdateState := do
  query fun _ => checkNonEmpty coordinate
  query fun _ => checkNonEmpty revision
  atomically do
    let current ← query fun updates => .ok (updates.readState coordinate)
    query fun _ => expectActive coordinate current expectedActiveRevision
    query fun _ => raiseIf (current.stagedRevision ∉ [none, some revision])
      (conflict "stage_in_progress" "Another revision is already staged for this capability."
        [("coordinate", .text coordinate), ("staged_revision", detail current.stagedRevision)])
    let replacement : UpdateState := {
      activeRevision := current.activeRevision
      previousRevision := current.previousRevision
      stagedRevision := some revision
      healthStatus :=
        if current.stagedRevision = some revision then current.healthStatus else some .pending }
    writeState coordinate replacement
    pure replacement

/-- `record_health`. -/
def recordHealth (coordinate revision : String) (passed : Bool) : Method UpdateState := do
  query fun _ => checkNonEmpty coordinate
  query fun _ => checkNonEmpty revision
  atomically do
    let current ← query fun updates => .ok (updates.readState coordinate)
    query fun _ => raiseIf (current.stagedRevision ≠ some revision)
      (conflict "staged_revision_changed"
        "The staged revision changed before its health result was recorded."
        [("coordinate", .text coordinate)])
    let replacement : UpdateState := {
      activeRevision := current.activeRevision
      previousRevision := current.previousRevision
      stagedRevision := some revision
      healthStatus := some (if passed then .passed else .failed) }
    writeState coordinate replacement
    pure replacement

/-- `activate`. -/
def activate (coordinate revision : String) (expectedActiveRevision : Option String)
    (validate : Validate) : Method UpdateState :=
  atomically do
    let current ← query fun updates => .ok (updates.readState coordinate)
    query fun _ => expectActive coordinate current expectedActiveRevision
    query fun _ => raiseIf (current.stagedRevision ≠ some revision ∨
        current.healthStatus ≠ some .passed)
      (conflict "staged_revision_not_healthy"
        "Only the current health-passed staged revision can be activated."
        [("coordinate", .text coordinate)])
    query fun updates => validate (updates.activePointers.set coordinate revision)
    let replacement : UpdateState := {
      activeRevision := some revision
      previousRevision := current.activeRevision }
    writeState coordinate replacement
    pure replacement

/-- The revision that `rollback` goes back to. -/
def checkPrevious (coordinate : String) : Option String → Except Raised String
  | none => .error (conflict "no_rollback_revision"
      "No previous revision is available for rollback." [("coordinate", .text coordinate)])
  | some previous => .ok previous

/-- `rollback`. -/
def rollback (coordinate expectedActiveRevision : String) (validate : Validate) :
    Method UpdateState :=
  atomically do
    let current ← query fun updates => .ok (updates.readState coordinate)
    query fun _ => expectActive coordinate current (some expectedActiveRevision)
    let previous ← query fun _ => checkPrevious coordinate current.previousRevision
    query fun updates => validate (updates.activePointers.set coordinate previous)
    let replacement : UpdateState := {
      activeRevision := some previous
      previousRevision := current.activeRevision }
    writeState coordinate replacement
    pure replacement

end SQLiteUpdateStore

/-! ## What the calls do -/

inductive Call where
  | bootstrapActive (coordinate revision : String)
  | stage (coordinate revision : String) (expectedActiveRevision : Option String)
  | recordHealth (coordinate revision : String) (passed : Bool)
  | activate (coordinate revision : String) (expectedActiveRevision : Option String)
      (validate : Validate)
  | rollback (coordinate expectedActiveRevision : String) (validate : Validate)

namespace Call

def coordinate : Call → String
  | bootstrapActive coordinate _ | stage coordinate _ _ | recordHealth coordinate _ _
  | activate coordinate _ _ _ | rollback coordinate _ _ => coordinate

/-- `expected_active_revision`, where the call has one. -/
def expected : Call → Option (Option String)
  | stage _ _ expected | activate _ _ expected _ => some expected
  | rollback _ expected _ => some (some expected)
  | _ => none

def perform : Call → Method UpdateState
  | bootstrapActive coordinate revision => SQLiteUpdateStore.bootstrapActive coordinate revision
  | stage coordinate revision expected => SQLiteUpdateStore.stage coordinate revision expected
  | recordHealth coordinate revision passed =>
      SQLiteUpdateStore.recordHealth coordinate revision passed
  | activate coordinate revision expected validate =>
      SQLiteUpdateStore.activate coordinate revision expected validate
  | rollback coordinate expected validate => SQLiteUpdateStore.rollback coordinate expected validate

end Call

/-- What a call that returns makes of the row of its coordinate. -/
inductive Moved : Call → UpdateState → UpdateState → Prop
  | bootstrapped {coordinate revision : String} {state : UpdateState}
      (empty : state.activeRevision = none) (unstaged : state.stagedRevision = none) :
      Moved (.bootstrapActive coordinate revision) state { activeRevision := some revision }
  | confirmed {coordinate revision : String} {state : UpdateState}
      (found : state.activeRevision = some revision) :
      Moved (.bootstrapActive coordinate revision) state state
  | staged {coordinate revision : String} {state : UpdateState}
      (unstaged : state.stagedRevision = none) :
      Moved (.stage coordinate revision state.activeRevision) state
        { state with stagedRevision := some revision, healthStatus := some .pending }
  | restaged {coordinate revision : String} {state : UpdateState}
      (staged : state.stagedRevision = some revision) :
      Moved (.stage coordinate revision state.activeRevision) state state
  | checked {coordinate revision : String} {passed : Bool} {state : UpdateState}
      (staged : state.stagedRevision = some revision) :
      Moved (.recordHealth coordinate revision passed) state
        { state with healthStatus := some (if passed then .passed else .failed) }
  | activated {coordinate revision : String} {validate : Validate} {state : UpdateState}
      (staged : state.stagedRevision = some revision) (healthy : state.healthStatus = some .passed) :
      Moved (.activate coordinate revision state.activeRevision validate) state
        { activeRevision := some revision, previousRevision := state.activeRevision }
  | rolledBack {coordinate expected revision : String} {validate : Validate} {state : UpdateState}
      (expects : state.activeRevision = some expected)
      (found : state.previousRevision = some revision) :
      Moved (.rollback coordinate expected validate) state
        { activeRevision := some revision, previousRevision := some expected }

variable {updates final : CapabilityUpdates} {state state' : UpdateState}
  {coordinate other revision : String} {expected : Option String} {validate : Validate} {call : Call}
  {passed : Bool}

theorem readState_set : CapabilityUpdates.readState (updates.set coordinate state) other =
    if other = coordinate then state else updates.readState other := by
  rw [CapabilityUpdates.readState, Dict.getD, Dict.get?_set]
  split <;> rfl

@[simp] theorem checkNonEmpty_eq_ok : checkNonEmpty revision = .ok () ↔ revision ≠ "" := raiseIf_eq_ok

@[simp] theorem expectActive_eq_ok :
    expectActive coordinate state expected = .ok () ↔ state.activeRevision = expected := by
  rw [expectActive, raiseIf_eq_ok, not_not]

@[simp] theorem checkPrevious_eq_ok {previous : Option String} :
    SQLiteUpdateStore.checkPrevious coordinate previous = .ok revision ↔
      previous = some revision := by
  cases previous <;> simp [SQLiteUpdateStore.checkPrevious]

theorem stage_eq_ok : SQLiteUpdateStore.stage coordinate revision expected updates =
    .ok state' final ↔ (coordinate ≠ "" ∧ revision ≠ "") ∧
      (updates.readState coordinate).activeRevision = expected ∧
      (updates.readState coordinate).stagedRevision ∈ [none, some revision] ∧
      { updates.readState coordinate with
        stagedRevision := some revision
        healthStatus :=
          if (updates.readState coordinate).stagedRevision = some revision then
            (updates.readState coordinate).healthStatus
          else some .pending } = state' ∧
      updates.set coordinate state' = final := by
  simp only [SQLiteUpdateStore.stage, SQLiteUpdateStore.writeState, Transaction.bind_eq_ok, query_eq_ok,
    atomically_eq_ok, write_eq_ok, Transaction.pure_eq_ok, exists_unit, checkNonEmpty_eq_ok, expectActive_eq_ok,
    raiseIf_eq_ok, not_not, Except.ok.injEq]
  constructor
  · rintro ⟨_, ⟨named, rfl⟩, _, ⟨named', rfl⟩, current, _, ⟨rfl, rfl⟩, _, ⟨expected, rfl⟩, _,
      ⟨free, rfl⟩, _, rfl, rfl, rfl⟩
    exact ⟨⟨named, named'⟩, expected, free, rfl, rfl⟩
  · rintro ⟨⟨named, named'⟩, expected, free, rfl, rfl⟩
    exact ⟨_, ⟨named, rfl⟩, _, ⟨named', rfl⟩, _, _, ⟨rfl, rfl⟩, _, ⟨expected, rfl⟩, _, ⟨free, rfl⟩, _,
      rfl, rfl, rfl⟩

theorem recordHealth_eq_ok : SQLiteUpdateStore.recordHealth coordinate revision passed updates =
    .ok state' final ↔ (coordinate ≠ "" ∧ revision ≠ "") ∧
      (updates.readState coordinate).stagedRevision = some revision ∧
      { updates.readState coordinate with
        healthStatus := some (if passed then .passed else .failed) } = state' ∧
      updates.set coordinate state' = final := by
  simp only [SQLiteUpdateStore.recordHealth, SQLiteUpdateStore.writeState, Transaction.bind_eq_ok, query_eq_ok,
    atomically_eq_ok, write_eq_ok, Transaction.pure_eq_ok, exists_unit, checkNonEmpty_eq_ok, raiseIf_eq_ok,
    ne_eq, not_not, Except.ok.injEq]
  constructor
  · rintro ⟨_, ⟨named, rfl⟩, _, ⟨named', rfl⟩, current, _, ⟨rfl, rfl⟩, _, ⟨staged, rfl⟩, _, rfl, rfl,
      rfl⟩
    exact ⟨⟨named, named'⟩, staged, by rw [← staged], by rw [← staged]⟩
  · rintro ⟨⟨named, named'⟩, staged, rfl, rfl⟩
    exact ⟨_, ⟨named, rfl⟩, _, ⟨named', rfl⟩, _, _, ⟨rfl, rfl⟩, _, ⟨staged, rfl⟩, _, by rw [← staged],
      by rw [← staged], rfl⟩

theorem activate_eq_ok : SQLiteUpdateStore.activate coordinate revision expected validate updates =
    .ok state' final ↔
      ((updates.readState coordinate).activeRevision = expected ∧
        (updates.readState coordinate).stagedRevision = some revision ∧
        (updates.readState coordinate).healthStatus = some .passed) ∧
      validate (updates.activePointers.set coordinate revision) = .ok () ∧
      { activeRevision := some revision
        previousRevision := (updates.readState coordinate).activeRevision } = state' ∧
      updates.set coordinate state' = final := by
  simp only [SQLiteUpdateStore.activate, SQLiteUpdateStore.writeState, Transaction.bind_eq_ok, query_eq_ok,
    atomically_eq_ok, write_eq_ok, Transaction.pure_eq_ok, exists_unit, expectActive_eq_ok, raiseIf_eq_ok,
    not_or, ne_eq, not_not, Except.ok.injEq]
  constructor
  · rintro ⟨current, _, ⟨rfl, rfl⟩, _, ⟨expected, rfl⟩, _, ⟨⟨staged, healthy⟩, rfl⟩, _,
      ⟨valid, rfl⟩, _, rfl, rfl, rfl⟩
    exact ⟨⟨expected, staged, healthy⟩, valid, rfl, rfl⟩
  · rintro ⟨⟨expected, staged, healthy⟩, valid, rfl, rfl⟩
    exact ⟨_, _, ⟨rfl, rfl⟩, _, ⟨expected, rfl⟩, _, ⟨⟨staged, healthy⟩, rfl⟩, _, ⟨valid, rfl⟩, _,
      rfl, rfl, rfl⟩

theorem rollback_eq_ok {expected : String} :
    SQLiteUpdateStore.rollback coordinate expected validate updates = .ok state' final ↔
      (updates.readState coordinate).activeRevision = some expected ∧
      ∃ previous, (updates.readState coordinate).previousRevision = some previous ∧
        validate (updates.activePointers.set coordinate previous) = .ok () ∧
        { activeRevision := some previous, previousRevision := some expected } = state' ∧
        updates.set coordinate state' = final := by
  simp only [SQLiteUpdateStore.rollback, SQLiteUpdateStore.writeState, Transaction.bind_eq_ok, query_eq_ok,
    atomically_eq_ok, write_eq_ok, Transaction.pure_eq_ok, exists_unit, expectActive_eq_ok, checkPrevious_eq_ok,
    Except.ok.injEq]
  constructor
  · rintro ⟨current, _, ⟨rfl, rfl⟩, _, ⟨expected, rfl⟩, previous, _, ⟨found, rfl⟩, _, ⟨valid, rfl⟩, _,
      rfl, rfl, rfl⟩
    exact ⟨expected, previous, found, valid, by rw [expected], by rw [expected]⟩
  · rintro ⟨expected, previous, found, valid, rfl, rfl⟩
    exact ⟨_, _, ⟨rfl, rfl⟩, _, ⟨expected, rfl⟩, previous, _, ⟨found, rfl⟩, _, ⟨valid, rfl⟩, _,
      by rw [expected], by rw [expected], rfl⟩

/-- A bootstrap that returns has written the revision in an empty row, or found it. -/
theorem bootstrapActive_eq_ok
    (done : SQLiteUpdateStore.bootstrapActive coordinate revision updates = .ok state' final) :
    ((updates.readState coordinate).activeRevision = none ∧
      (updates.readState coordinate).stagedRevision = none ∧
      { activeRevision := some revision } = state' ∧ updates.set coordinate state' = final) ∨
    ((updates.readState coordinate).activeRevision = some revision ∧
      updates.readState coordinate = state' ∧ updates = final) := by
  simp only [SQLiteUpdateStore.bootstrapActive, SQLiteUpdateStore.writeState, Transaction.bind_eq_ok,
    query_eq_ok, atomically_eq_ok, exists_unit, Except.ok.injEq] at done
  obtain ⟨_, ⟨_, rfl⟩, _, ⟨_, rfl⟩, current, _, ⟨rfl, rfl⟩, done⟩ := done
  split at done
  next empty =>
    simp only [Transaction.bind_eq_ok, write_eq_ok, Transaction.pure_eq_ok, exists_unit] at done
    obtain ⟨_, rfl, rfl, rfl⟩ := done
    exact .inl ⟨empty.1, empty.2, rfl, rfl⟩
  next =>
    simp only [Transaction.bind_eq_ok, query_eq_ok, raiseIf_eq_ok, Transaction.pure_eq_ok, exists_unit, ne_eq, not_not] at done
    obtain ⟨_, ⟨found, rfl⟩, rfl, rfl⟩ := done
    exact .inr ⟨found, rfl, rfl⟩

/-- What a call that returns does. -/
theorem perform_eq_ok (done : call.perform updates = .ok state' final) :
    Moved call (updates.readState call.coordinate) state' ∧
      ∀ other, final.readState other =
        if other = call.coordinate then state' else updates.readState other := by
  cases call with
  | bootstrapActive coordinate revision =>
      rcases bootstrapActive_eq_ok done with ⟨empty, unstaged, rfl, rfl⟩ | ⟨found, rfl, rfl⟩
      · exact ⟨.bootstrapped empty unstaged, fun _ => readState_set⟩
      · refine ⟨.confirmed found, fun other => ?_⟩
        split
        next same => rw [same]; rfl
        next => rfl
  | stage coordinate revision expected =>
      obtain ⟨_, rfl, free, rfl, rfl⟩ := stage_eq_ok.mp done
      refine ⟨?_, fun _ => readState_set⟩
      rw [Call.coordinate]
      generalize updates.readState coordinate = state at free ⊢
      rcases List.mem_cons.mp free with unstaged | rest
      · rw [if_neg (by rw [unstaged]; exact nofun)]
        exact .staged unstaged
      · have staged := List.mem_singleton.mp rest
        rw [if_pos staged, ← staged]
        exact .restaged staged
  | recordHealth coordinate revision passed =>
      obtain ⟨_, staged, rfl, rfl⟩ := recordHealth_eq_ok.mp done
      exact ⟨.checked staged, fun _ => readState_set⟩
  | activate coordinate revision expected validate =>
      obtain ⟨⟨rfl, staged, healthy⟩, _, rfl, rfl⟩ := activate_eq_ok.mp done
      exact ⟨.activated staged healthy, fun _ => readState_set⟩
  | rollback coordinate expected validate =>
      obtain ⟨expected, previous, found, _, rfl, rfl⟩ := rollback_eq_ok.mp done
      exact ⟨.rolledBack expected found, fun _ => readState_set⟩

/-- A call that raises changes no row. -/
theorem atomic_perform (call : Call) : Atomic call.perform := by
  have transaction (body : Method UpdateState) : Atomic (atomically body) :=
    fun _ _ _ => state_of_atomically_error
  cases call with
  | bootstrapActive | stage | recordHealth =>
      exact .query_bind fun _ => .query_bind fun _ => transaction _
  | activate | rollback => exact transaction _

end CapabilityHub.Updates
