import CapabilityHub.Data.Dict
import CapabilityHub.Errors
import CapabilityHub.Text.Unicode
import Mathlib.Algebra.Order.Ring.Rat
import Mathlib.Data.List.DropRight

/-! # Lifecycle draining

`DrainController`. An operation that fails leaves the controller as it is, so an operation gives
its result and the next controller, or raises. The clock is an argument of `advance`; an event
names its target, of which the source keeps a digest.
-/

namespace CapabilityHub.Lifecycle

inductive LifecycleState where
  | accepting
  | draining
  | retired
  deriving DecidableEq

/-- How far a state has got. -/
def LifecycleState.rank : LifecycleState → Nat
  | .accepting => 0
  | .draining => 1
  | .retired => 2

inductive DrainOutcome where
  | waiting
  | cancelRequested
  | blocked
  | retired
  deriving DecidableEq

inductive ForceRetirePolicy where
  | deny
  | allowInFlight
  deriving DecidableEq

structure AdmissionPin where
  pinId : String
  coordinate : String
  revision : String
  cancellable : Bool
  cancelRequested : Bool := false
  deriving DecidableEq

structure LifecycleSnapshot where
  coordinate : String
  revision : Option String
  state : LifecycleState
  inFlight : Nat
  cancellable : Nat
  cancellationRequested : Nat
  deriving DecidableEq

structure DrainProgress where
  outcome : DrainOutcome
  snapshot : LifecycleSnapshot
  cancellationRequests : List String := []
  deriving DecidableEq

inductive LifecycleAction where
  | registered
  | coordinateDraining
  | revisionDraining
  | cancellationRequested
  | coordinateRetired
  | coordinateForceRetired
  | revisionRetired
  | revisionForceRetired
  deriving DecidableEq

/-- A coordinate, or one of its revisions. -/
abbrev Target := String × Option String

structure LifecycleEvent where
  sequence : Nat
  action : LifecycleAction
  target : Target
  inFlight : Nat
  reason : Option String := none
  count : Nat := 0
  deriving DecidableEq

/-- The bounds of a `DrainController`. -/
structure DrainSettings where
  maxCoordinates : Nat := 1000
  maxRevisions : Nat := 10000
  maxInFlight : Nat := 100000
  eventLimit : Nat := 1000
  positive : 1 ≤ maxCoordinates ∧ 1 ≤ maxRevisions ∧ 1 ≤ maxInFlight ∧ 1 ≤ eventLimit

structure DrainController where
  coordinates : Dict String LifecycleState := ∅
  revisions : Dict (String × String) LifecycleState := ∅
  pins : Dict String AdmissionPin := ∅
  /-- Every event that was recorded. -/
  recorded : List LifecycleEvent := []

/-- What the Unicode character database says. -/
structure CharacterData where
  /-- `unicodedata.normalize("NFC", text)` -/
  nfc : String → String
  /-- Whether the category of a character starts with a `C`. -/
  control : Char → Bool

/-- `_identifier`. -/
def identifier (data : CharacterData) (value : String) : Except Raised String :=
  let selected := strip (data.nfc value)
  if selected = "" ∨ 512 < selected.length ∨ selected.toList.any data.control then
    .error .valueError
  else .ok selected

/-- `_identifier`, of a revision that may be missing. -/
def optionalIdentifier (data : CharacterData) : Option String → Except Raised (Option String)
  | none => .ok none
  | some revision => (identifier data revision).map some

def isReasonStart (character : Char) : Bool :=
  ('a' ≤ character && character ≤ 'z') || ('0' ≤ character && character ≤ '9')

/-- `_reason`, which demands a full match of `[a-z0-9][a-z0-9_.-]{0,63}`. -/
def reasonCode (value : String) : Except Raised String :=
  match value.toList with
  | first :: rest =>
      if isReasonStart first ∧ rest.length ≤ 63 ∧
          rest.all fun character => isReasonStart character || character ∈ ['_', '.', '-'] then
        .ok value
      else .error .valueError
  | [] => .error .valueError

/-- `_time`. -/
def checkTime (value : ℚ) : Except Raised Unit := raiseIf (value < 0) .valueError

def lifecycleError (code message : String) : Raised :=
  .hub { code := code, category := .conflict, safeMessage := message }

namespace Errors

def coordinateNotAccepting : Raised :=
  lifecycleError "lifecycle_coordinate_not_accepting"
    "The capability is no longer accepting revisions."

def coordinateNotFound : Raised :=
  lifecycleError "lifecycle_coordinate_not_found" "The capability lifecycle was not found."

def forceRetireDenied : Raised :=
  lifecycleError "lifecycle_force_retire_denied" "Forced retirement requires an explicit policy."

def notAccepting : Raised :=
  lifecycleError "lifecycle_not_accepting"
    "The capability revision is not accepting new executions."

def notDraining : Raised :=
  lifecycleError "lifecycle_not_draining" "The capability target is not draining."

def pinCapacity : Raised :=
  lifecycleError "lifecycle_pin_capacity" "The in-flight execution limit was reached."

def pinConflict : Raised :=
  lifecycleError "lifecycle_pin_conflict" "The execution pin identifier is already in use."

def revisionNotFound : Raised :=
  lifecycleError "lifecycle_revision_not_found" "The capability revision lifecycle was not found."

def stateCapacity : Raised :=
  lifecycleError "lifecycle_state_capacity" "The lifecycle state limit was reached."

end Errors

namespace DrainController

variable (settings : DrainSettings) (data : CharacterData) (controller : DrainController)

/-- The events that the bounded queue still holds. -/
def events : List LifecycleEvent := controller.recorded.rtake settings.eventLimit

/-- `_target_pins`. -/
def targetPins (target : Target) : List AdmissionPin :=
  (controller.pins.entries.map Prod.snd).filter fun pin =>
    pin.coordinate = target.1 ∧ ∀ revision ∈ target.2, pin.revision = revision

/-- `_pin_count`. -/
def pinCount (target : Target) : Nat := (controller.targetPins target).length

/-- `_coordinate_revisions`. -/
def coordinateRevisions (coordinate : String) : List (String × String) :=
  controller.revisions.keys.filter (·.1 = coordinate)

/-- The state of a target. -/
def state (target : Target) : Option LifecycleState :=
  match target.2 with
  | none => controller.coordinates.get? target.1
  | some revision => controller.revisions.get? (target.1, revision)

/-- `_record`. -/
def record (action : LifecycleAction) (target : Target) (inFlight : Nat)
    (reason : Option String := none) (count : Nat := 0) : DrainController :=
  { controller with
    recorded := controller.recorded ++
      [⟨controller.recorded.length + 1, action, target, inFlight, reason, count⟩] }

/-- `_make_snapshot`, of a target in a state. -/
def makeSnapshot (target : Target) (state : LifecycleState) : LifecycleSnapshot :=
  let pins := controller.targetPins target
  ⟨target.1, target.2, state, pins.length, pins.countP (·.cancellable),
    pins.countP (·.cancelRequested)⟩

/-- `_snapshot`. -/
def snapshot (target : Target) : Except Raised LifecycleSnapshot :=
  match controller.coordinates.get? target.1 with
  | none => .error Errors.coordinateNotFound
  | some _ =>
      match controller.state target with
      | none => .error Errors.revisionNotFound
      | some state => .ok (controller.makeSnapshot target state)

/-- `_retire_revision`. -/
def retireRevision (key : String × String) (reason : String) (forced : Bool) : DrainController :=
  if controller.revisions.get? key = some .retired then controller
  else
    let retired := { controller with revisions := controller.revisions.set key .retired }
    retired.record (if forced then .revisionForceRetired else .revisionRetired) (key.1, some key.2)
      (retired.pinCount (key.1, some key.2)) reason

/-- `_maybe_retire_coordinate`. -/
def maybeRetireCoordinate (coordinate : String) : DrainController :=
  if controller.coordinates.get? coordinate = some .draining ∧
      ∀ key ∈ controller.coordinateRevisions coordinate,
        controller.revisions.get? key = some .retired then
    let retired := { controller with coordinates := controller.coordinates.set coordinate .retired }
    retired.record .coordinateRetired (coordinate, none) (retired.pinCount (coordinate, none))
      "drained"
  else controller

/-- `_begin_revision_drain`. -/
def beginRevisionDrain (key : String × String) (reason : String) : DrainController :=
  if controller.revisions.get? key = some .accepting then
    let draining := { controller with revisions := controller.revisions.set key .draining }
    let count := draining.pinCount (key.1, some key.2)
    let recorded := draining.record .revisionDraining (key.1, some key.2) count reason
    if count = 0 then recorded.retireRevision key "drained" false else recorded
  else controller

/-- `_retire_target`. -/
def retireTarget (target : Target) (reason : String) (forced : Bool) : DrainController :=
  match target.2 with
  | none =>
      let emptied := (controller.coordinateRevisions target.1).foldl (fun controller key =>
        if controller.revisions.get? key = some .draining then
          controller.retireRevision key reason forced
        else controller) controller
      let retired := { emptied with coordinates := emptied.coordinates.set target.1 .retired }
      retired.record (if forced then .coordinateForceRetired else .coordinateRetired) target
        (retired.pinCount target) reason
  | some revision =>
      (controller.retireRevision (target.1, revision) reason forced).maybeRetireCoordinate target.1

def register (coordinate revision : String) :
    Except Raised (LifecycleSnapshot × DrainController) := do
  let coordinate ← identifier data coordinate
  let revision ← identifier data revision
  match controller.revisions.get? (coordinate, revision) with
  | some state => .ok (controller.makeSnapshot (coordinate, some revision) state, controller)
  | none =>
      let known := controller.coordinates.get? coordinate
      raiseIf (∃ state ∈ known, state ≠ .accepting) Errors.coordinateNotAccepting
      raiseIf (settings.maxRevisions ≤ controller.revisions.size) Errors.stateCapacity
      raiseIf (known = none ∧ settings.maxCoordinates ≤ controller.coordinates.size)
        Errors.stateCapacity
      let registered := { controller with
        coordinates :=
          if known = none then controller.coordinates.set coordinate .accepting
          else controller.coordinates
        revisions := controller.revisions.set (coordinate, revision) .accepting }
      let recorded := registered.record .registered (coordinate, some revision) 0
      .ok (recorded.makeSnapshot (coordinate, some revision) .accepting, recorded)

/-- `admit`. -/
def admission (coordinate revision pinId : String) (cancellable : Bool) :
    Except Raised (AdmissionPin × DrainController) := do
  let coordinate ← identifier data coordinate
  let revision ← identifier data revision
  let selected ← identifier data pinId
  match controller.revisions.get? (coordinate, revision), controller.coordinates.get? coordinate with
  | some revisionState, some coordinateState =>
      raiseIf (coordinateState ≠ .accepting ∨ revisionState ≠ .accepting) Errors.notAccepting
      match controller.pins.get? selected with
      | some existing =>
          if existing.coordinate = coordinate ∧ existing.revision = revision ∧
              existing.cancellable = cancellable then .ok (existing, controller)
          else .error Errors.pinConflict
      | none =>
          raiseIf (settings.maxInFlight ≤ controller.pins.size) Errors.pinCapacity
          let pin : AdmissionPin := ⟨selected, coordinate, revision, cancellable, false⟩
          .ok (pin, { controller with pins := controller.pins.set selected pin })
  | _, _ => .error Errors.revisionNotFound

def release (pinId : String) : Except Raised (Bool × DrainController) := do
  let selected ← identifier data pinId
  match controller.pins.get? selected with
  | none => .ok (false, controller)
  | some pin =>
      let freed := { controller with pins := controller.pins.erase selected }
      let key := (pin.coordinate, pin.revision)
      let drained :=
        if freed.revisions.get? key = some .draining ∧ freed.pinCount (key.1, some key.2) = 0 then
          freed.retireRevision key "drained" false
        else freed
      .ok (true, drained.maybeRetireCoordinate pin.coordinate)

def beginDrain (coordinate : String) (revision : Option String) (reason : String) :
    Except Raised (LifecycleSnapshot × DrainController) := do
  let coordinate ← identifier data coordinate
  let revision ← optionalIdentifier data revision
  let reason ← reasonCode reason
  match controller.coordinates.get? coordinate with
  | none => .error Errors.coordinateNotFound
  | some coordinateState =>
      match revision with
      | none =>
          let begun :=
            if coordinateState = .accepting then
              { controller with
                coordinates := controller.coordinates.set coordinate .draining }.record
                  .coordinateDraining (coordinate, none) 0 reason
            else controller
          let drained := (begun.coordinateRevisions coordinate).foldl
            (fun controller key => controller.beginRevisionDrain key reason) begun
          let next := drained.maybeRetireCoordinate coordinate
          let snapshot ← next.snapshot (coordinate, none)
          .ok (snapshot, next)
      | some revision =>
          match controller.revisions.get? (coordinate, revision) with
          | none => .error Errors.revisionNotFound
          | some _ =>
              let next := controller.beginRevisionDrain (coordinate, revision) reason
              let snapshot ← next.snapshot (coordinate, some revision)
              .ok (snapshot, next)

/-- The pins of a target that `advance` asks to cancel. -/
def requests (target : Target) : List AdmissionPin :=
  (controller.targetPins target).filter fun pin => pin.cancellable ∧ ¬pin.cancelRequested

/-- Note that the pins of a target were asked to cancel. -/
def requestCancellation (target : Target) : DrainController :=
  { controller with
    pins := (controller.requests target).foldl
      (fun pins pin => pins.set pin.pinId { pin with cancelRequested := true }) controller.pins }

def advance (coordinate : String) (revision : Option String) (deadline now : ℚ) :
    Except Raised (DrainProgress × DrainController) := do
  let coordinate ← identifier data coordinate
  let revision ← optionalIdentifier data revision
  checkTime deadline
  checkTime now
  let target := (coordinate, revision)
  let snapshot ← controller.snapshot target
  if snapshot.state = .retired then .ok (⟨.retired, snapshot, []⟩, controller)
  else if snapshot.state ≠ .draining then .error Errors.notDraining
  else if snapshot.inFlight = 0 then do
    let next := controller.retireTarget target "drained" false
    let snapshot ← next.snapshot target
    .ok (⟨.retired, snapshot, []⟩, next)
  else if now < deadline then .ok (⟨.waiting, snapshot, []⟩, controller)
  else
    let requests := (controller.requests target).map AdmissionPin.pinId
    if requests ≠ [] then do
      let next := (controller.requestCancellation target).record .cancellationRequested target
        snapshot.inFlight none requests.length
      let snapshot ← next.snapshot target
      .ok (⟨.cancelRequested, snapshot, requests⟩, next)
    else .ok (⟨.blocked, snapshot, []⟩, controller)

def forceRetire (coordinate : String) (revision : Option String) (policy : ForceRetirePolicy)
    (reason : String) : Except Raised (LifecycleSnapshot × DrainController) := do
  let coordinate ← identifier data coordinate
  let revision ← optionalIdentifier data revision
  let reason ← reasonCode reason
  raiseIf (policy ≠ .allowInFlight) Errors.forceRetireDenied
  let target := (coordinate, revision)
  let snapshot ← controller.snapshot target
  raiseIf (snapshot.state ≠ .draining) Errors.notDraining
  let next := controller.retireTarget target reason true
  let snapshot ← next.snapshot target
  .ok (snapshot, next)

end DrainController

end CapabilityHub.Lifecycle
