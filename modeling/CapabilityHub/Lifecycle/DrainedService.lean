import CapabilityHub.Lifecycle.DrainProtocol
import CapabilityHub.Models
import CapabilityHub.Updates.Store

/-! # Executions under drain

`DrainedCapabilityHubService.execute`, with the revision pins of the update store. Many executions run
at once: each goes through its points one atomic step after the other, and between two of its steps
others take theirs, revisions are drained and the pointers of the update store move.
-/

namespace CapabilityHub.Lifecycle

/-! ## Revision pins -/

section RevisionPins

variable (updates : Updates.CapabilityUpdates) (pins : Dict String (String × String))

/-- `SQLiteUpdateStore.pin_active`: the revision that is pinned, and the rows of `revision_pins`. -/
def pinActive (coordinate pinId : String) : Except Raised (String × Dict String (String × String)) := do
  Updates.checkNonEmpty coordinate
  Updates.checkNonEmpty pinId
  match (updates.readState coordinate).activeRevision with
  | none => .error (Updates.conflict "inactive_capability" "Capability has no active revision to pin."
      [("coordinate", .text coordinate)])
  | some revision =>
      match pins.get? pinId with
      | none => .ok (revision, pins.set pinId (coordinate, revision))
      | some existing => do
          raiseIf (existing ≠ (coordinate, revision))
            (Updates.conflict "pin_id_conflict" "Pin identifier is already in use." [])
          pure (revision, pins)

/-- `SQLiteUpdateStore.release_pin`. -/
def releasePin (pinId : String) : Except Raised (Bool × Dict String (String × String)) := do
  Updates.checkNonEmpty pinId
  pure (pinId ∈ pins.keys, pins.erase pinId)

end RevisionPins

/-! ## Executions -/

structure ExecutionBinding where
  coordinate : String
  revision : String
  operation : OperationSpec
  cancellable : Bool
  named : coordinate ≠ "" ∧ revision ≠ ""

/-- `_wrapper_error`. -/
def wrapperError (code message : String) : Raised :=
  .hub { code := code, category := .internal, safeMessage := message }

def bindingMismatch : Raised :=
  wrapperError "execution_binding_mismatch" "The execution binding does not match the request."

def pinCreationFailed : Raised :=
  wrapperError "execution_pin_creation_failed" "The execution admission pin could not be created."

def executionPinConflict : Raised :=
  wrapperError "execution_pin_conflict" "The execution admission pin is already active."

def revisionPinFailed : Raised :=
  wrapperError "execution_revision_pin_failed" "The active revision could not be pinned safely."

def revisionReleaseFailed : Raised :=
  wrapperError "execution_revision_release_failed" "The active revision pin could not be released."

variable {ρ : Type}

/-- Where an execution is: what it does next. -/
inductive Point (ρ : Type) where
  /-- Its identifier is noted; the revision is pinned next. -/
  | noted
  /-- The revision is pinned; it is admitted next. -/
  | pinned
  /-- The service executes the request. -/
  | serving (pin : AdmissionPin)
  /-- The service has answered; the admission is released next. -/
  | served (pin : AdmissionPin) (answer : Except Raised ρ)
  /-- The revision that is pinned, if one is, is released next. -/
  | leaving (pinned : Option String) (outcome : Except Raised ρ)
  /-- The identifier is forgotten next. -/
  | forgetting (outcome : Except Raised ρ)

structure Execution (ρ : Type) where
  binding : ExecutionBinding
  point : Point ρ := .noted
  /-- What the service answered. -/
  answered : Option (Except Raised ρ) := none

/-- The wrapper with the stores that it works on. -/
structure Host (ρ : Type) where
  controller : DrainController := {}
  updates : Updates.CapabilityUpdates := ∅
  revisionPins : Dict String (String × String) := ∅
  activePinIds : List String := []
  /-- The executions that have not ended, by their pin. -/
  executions : Dict String (Execution ρ) := ∅
  /-- How the executions ended. -/
  finished : List (Execution ρ × Except Raised ρ) := []

namespace Host

variable (settings : DrainSettings) (data : CharacterData) (host : Host ρ)

/-- `execute` up to the note of the pin: the binding was resolved and a pin was created, or not. -/
def arrive (operation : String) (binding : ExecutionBinding) (pinId : Option String) :
    Except Raised (Host ρ) := do
  raiseIf (binding.operation.name ≠ operation) bindingMismatch
  match pinId with
  | none => .error pinCreationFailed
  | some pinId => do
      raiseIf (pinId = "") pinCreationFailed
      raiseIf (pinId ∈ host.activePinIds) executionPinConflict
      pure { host with
        activePinIds := host.activePinIds ++ [pinId]
        executions := host.executions.set pinId { binding := binding } }

/-- The execution goes on from another point. -/
def goOn (pinId : String) (execution : Execution ρ) (point : Point ρ) : Host ρ :=
  { host with executions := host.executions.set pinId { execution with point := point } }

/-- The next step of an execution; `answer` is how the service ends where it is executing. -/
def proceed (pinId : String) (execution : Execution ρ) (answer : Except Raised ρ) : Host ρ :=
  match execution.point with
  | .noted =>
      match pinActive host.updates host.revisionPins execution.binding.coordinate pinId with
      | .error (.hub raised) => host.goOn pinId execution (.leaving none (.error (.hub raised)))
      | .error _ => host.goOn pinId execution (.leaving none (.error revisionPinFailed))
      | .ok (revision, pins) =>
          { host with revisionPins := pins }.goOn pinId execution
            (if revision = execution.binding.revision then .pinned
            else .leaving (some revision) (.error Errors.notAccepting))
  | .pinned =>
      match host.controller.admission settings data execution.binding.coordinate
          execution.binding.revision pinId execution.binding.cancellable with
      | .error raised =>
          host.goOn pinId execution (.leaving (some execution.binding.revision) (.error raised))
      | .ok (pin, next) => { host with controller := next }.goOn pinId execution (.serving pin)
  | .serving pin =>
      host.goOn pinId { execution with answered := some answer } (.served pin answer)
  | .served pin answer =>
      match host.controller.release data pin.pinId with
      | .error raised =>
          host.goOn pinId execution (.leaving (some execution.binding.revision) (.error raised))
      | .ok (_, next) =>
          { host with controller := next }.goOn pinId execution
            (.leaving (some execution.binding.revision) answer)
  | .leaving none outcome => host.goOn pinId execution (.forgetting outcome)
  | .leaving (some _) outcome =>
      match releasePin host.revisionPins pinId with
      | .error _ => host.goOn pinId execution (.forgetting (.error revisionReleaseFailed))
      | .ok (released, pins) =>
          { host with revisionPins := pins }.goOn pinId execution
            (.forgetting (if released then outcome else .error revisionReleaseFailed))
  | .forgetting outcome =>
      { host with
        activePinIds := host.activePinIds.erase pinId
        executions := host.executions.erase pinId
        finished := host.finished ++ [(execution, outcome)] }

end Host

/-- What can happen next. -/
inductive HostAction (ρ : Type) where
  | arrive (operation : String) (binding : ExecutionBinding) (pinId : Option String)
  | proceed (pinId : String) (answer : Except Raised ρ)
  | register (coordinate revision : String)
  | beginDrain (coordinate revision reason : String)
  | advance (coordinate : String) (revision : Option String) (deadline now : ℚ)
  | update (call : Updates.Call)

namespace Host

variable (settings : DrainSettings) (data : CharacterData) (host : Host ρ)

/-- A call of the drain controller that is no part of an execution. -/
def manage (call : Action) : Host ρ :=
  match host.controller.perform settings data call with
  | .error _ => host
  | .ok (_, next) => { host with controller := next }

def step (host : Host ρ) : HostAction ρ → Host ρ
  | .arrive operation binding pinId =>
      match host.arrive operation binding pinId with
      | .error _ => host
      | .ok next => next
  | .proceed pinId answer =>
      match host.executions.get? pinId with
      | none => host
      | some execution => host.proceed settings data pinId execution answer
  | .register coordinate revision => host.manage settings data (.register coordinate revision)
  | .beginDrain coordinate revision reason =>
      host.manage settings data (.beginDrain coordinate (some revision) reason)
  | .advance coordinate revision deadline now =>
      host.manage settings data (.advance coordinate revision deadline now)
  | .update call => { host with updates := Transaction.stateAfter call.perform host.updates }

end Host

/-! ## What guards an execution -/

/-- The admission that an execution has. -/
def Point.pin? : Point ρ → Option AdmissionPin
  | .serving pin | .served pin _ => some pin
  | _ => none

/-- The revision that an execution has pinned. -/
def Execution.held (execution : Execution ρ) : Option (String × String) :=
  match execution.point with
  | .pinned | .serving _ | .served _ _ => some (execution.binding.coordinate, execution.binding.revision)
  | .leaving (some revision) _ => some (execution.binding.coordinate, revision)
  | .noted | .leaving none _ | .forgetting _ => none

/-- What the service answered is what the execution will return or raise. -/
def Execution.Answers (execution : Execution ρ) : Prop :=
  ∀ answer, execution.answered = some answer →
    match execution.point with
    | .served _ other | .leaving (some _) other | .forgetting other => other = answer
    | .noted | .pinned | .serving _ | .leaving none _ => False

def AdmissionPin.place (pin : AdmissionPin) : String × String := (pin.coordinate, pin.revision)

/-- An identifier that the drain controller does not rewrite. -/
def Plain (data : CharacterData) (pinId : String) : Prop :=
  ∀ selected, identifier data pinId = .ok selected → selected = pinId

/-- The pin was given for the binding. -/
structure PinOf (data : CharacterData) (pinId : String) (binding : ExecutionBinding) (pin : AdmissionPin) :
    Prop where
  named : pin.pinId = pinId
  plain : identifier data pinId = .ok pinId
  coordinate : identifier data binding.coordinate = .ok pin.coordinate
  revision : identifier data binding.revision = .ok pin.revision

namespace DrainController

variable {settings : DrainSettings} {data : CharacterData} {controller next : DrainController}
  {pinId : String} {pin : AdmissionPin}

/-- No coordinate is drained as a whole. -/
def Open (controller : DrainController) : Prop :=
  ∀ coordinate state, controller.coordinates.get? coordinate = some state → state = .accepting

theorem Open.maybeRetireCoordinate (isOpen : controller.Open) (coordinate : String) :
    controller.maybeRetireCoordinate coordinate = controller := by
  rw [DrainController.maybeRetireCoordinate, if_neg]
  rintro ⟨draining, _⟩
  cases isOpen coordinate _ draining

theorem admission_of_fresh {coordinate revision : String} {cancellable : Bool}
    (fresh : controller.pins.get? pinId = none) (plain : Plain data pinId)
    (done : controller.admission settings data coordinate revision pinId cancellable = .ok (pin, next)) :
    (pin.pinId = pinId ∧ identifier data pinId = .ok pinId ∧
      identifier data coordinate = .ok pin.coordinate ∧ identifier data revision = .ok pin.revision) ∧
      next.pins = controller.pins.set pinId pin ∧ next.coordinates = controller.coordinates := by
  obtain ⟨named, namedIs, done⟩ := bind_eq_ok.mp done
  obtain ⟨which, whichIs, done⟩ := bind_eq_ok.mp done
  obtain ⟨selected, selects, done⟩ := bind_eq_ok.mp done
  have same := plain selected selects
  cases revisions : controller.revisions.get? (named, which) with
  | none =>
      rw [revisions] at done
      cases done
  | some revisionState =>
  cases coordinates : controller.coordinates.get? named with
  | none =>
      rw [revisions, coordinates] at done
      cases done
  | some coordinateState =>
      simp only [revisions, coordinates, same, fresh, bind_eq_ok, exists_unit, raiseIf_eq_ok] at done
      obtain ⟨_, _, done⟩ := done
      cases done
      exact ⟨⟨rfl, same ▸ selects, namedIs, whichIs⟩, rfl, rfl⟩

theorem release_of_known (isOpen : controller.Open) (plain : identifier data pinId = .ok pinId)
    (found : controller.pins.get? pinId = some pin) :
    ∃ next, controller.release data pinId = .ok (true, next) ∧
      next.pins = controller.pins.erase pinId ∧ next.coordinates = controller.coordinates := by
  have opened : (controller.drainedBy pin pinId).Open := by
    rw [Open, coordinates_drainedBy]
    exact isOpen
  refine ⟨controller.drainedBy pin pinId, ?_, pins_drainedBy, coordinates_drainedBy⟩
  rw [release, plain, ok_bind]
  dsimp only
  rw [found]
  exact congrArg (fun next => Except.ok (true, next)) (opened.maybeRetireCoordinate pin.coordinate)

/-- What the calls that are no part of an execution leave alone. -/
structure Steady (controller next : DrainController) : Prop where
  places : ∀ id, (next.pins.get? id).map AdmissionPin.place = (controller.pins.get? id).map AdmissionPin.place
  isOpen : controller.Open → next.Open

theorem steady_of_same (pins : next.pins = controller.pins) (coordinates : next.coordinates = controller.coordinates) :
    Steady controller next :=
  ⟨fun _ => by rw [pins], fun isOpen => by rw [Open, coordinates]; exact isOpen⟩

theorem coordinates_retireRevision {key : String × String} {reason : String} {forced : Bool} :
    (controller.retireRevision key reason forced).coordinates = controller.coordinates := by
  unfold retireRevision
  split <;> rfl

theorem steady_register {coordinate revision : String} {snapshot : LifecycleSnapshot}
    (done : controller.register settings data coordinate revision = .ok (snapshot, next)) :
    Steady controller next := by
  obtain ⟨named, _, done⟩ := bind_eq_ok.mp done
  obtain ⟨which, _, done⟩ := bind_eq_ok.mp done
  split at done
  · cases done
    exact steady_of_same rfl rfl
  · simp only [bind_eq_ok, exists_unit, raiseIf_eq_ok] at done
    obtain ⟨_, _, _, done⟩ := done
    cases done
    refine ⟨fun _ => rfl, fun isOpen => ?_⟩
    intro other state found
    change Dict.get? (if _ then _ else _) other = some state at found
    split at found
    · rw [Dict.get?_set] at found
      split at found
      · exact (Option.some.inj found).symm
      · exact isOpen other state found
    · exact isOpen other state found

theorem steady_beginDrain {coordinate revision reason : String} {snapshot : LifecycleSnapshot}
    (done : controller.beginDrain data coordinate (some revision) reason = .ok (snapshot, next)) :
    Steady controller next := by
  obtain ⟨named, _, done⟩ := bind_eq_ok.mp done
  obtain ⟨which, whichIs, done⟩ := bind_eq_ok.mp done
  obtain ⟨code, _, done⟩ := bind_eq_ok.mp done
  obtain ⟨selected, _, rfl⟩ := map_eq_ok.mp whichIs
  split at done
  · cases done
  · dsimp only at done
    split at done
    · cases done
    · obtain ⟨_, _, done⟩ := bind_eq_ok.mp done
      cases done
      refine steady_of_same quiet_beginRevisionDrain.pins ?_
      unfold beginRevisionDrain
      split
      · dsimp only
        split
        · exact coordinates_retireRevision
        · rfl
      · rfl

theorem steady_retireTarget (isOpen : controller.Open) {target : Target} {reason : String}
    (draining : controller.state target = some .draining) :
    Steady controller (controller.retireTarget target reason false) := by
  obtain ⟨coordinate, revision⟩ := target
  cases revision with
  | none => cases isOpen coordinate _ draining
  | some revision =>
      have opened : (controller.retireRevision (coordinate, revision) reason false).Open := by
        rw [Open, coordinates_retireRevision]
        exact isOpen
      refine steady_of_same ?_ ?_
      · exact (congrArg DrainController.pins (opened.maybeRetireCoordinate coordinate)).trans
          pins_retireRevision
      · exact (congrArg DrainController.coordinates (opened.maybeRetireCoordinate coordinate)).trans
          coordinates_retireRevision

theorem steady_requestCancellation (sound : Sound settings controller) (target : Target) :
    Steady controller (controller.requestCancellation target) := by
  refine ⟨fun id => ?_, fun isOpen => isOpen⟩
  have after : (controller.requestCancellation target).pins.get? id = _ :=
    get?_requested sound.requests_nodup id
  rw [after]
  cases asked : (controller.requests target).find? (·.pinId = id) with
  | none => rfl
  | some old =>
      have named : old.pinId = id := by simpa using List.find?_some asked
      obtain ⟨⟨id', found⟩, _⟩ := mem_targetPins.mp (mem_requests.mp (List.mem_of_find?_eq_some asked)).1
      have same : id' = id := (sound.known id' old found).1.symm.trans named
      rw [← same, found]
      rfl

theorem steady_advance {coordinate : String} {revision : Option String} {deadline now : ℚ}
    {progress : DrainProgress} (sound : Sound settings controller) (isOpen : controller.Open)
    (done : controller.advance data coordinate revision deadline now = .ok (progress, next)) :
    Steady controller next := by
  obtain ⟨named, _, done⟩ := bind_eq_ok.mp done
  obtain ⟨which, _, done⟩ := bind_eq_ok.mp done
  obtain ⟨_, _, done⟩ := bind_eq_ok.mp done
  obtain ⟨_, _, done⟩ := bind_eq_ok.mp done
  obtain ⟨snapshot, taken, done⟩ := bind_eq_ok.mp done
  obtain ⟨is, _⟩ := snapshot_eq_ok taken
  split at done
  · cases done
    exact steady_of_same rfl rfl
  split at done
  · cases done
  next draining =>
  rw [not_not.mp draining] at is
  split at done
  · obtain ⟨_, _, done⟩ := bind_eq_ok.mp done
    cases done
    exact steady_retireTarget isOpen is
  split at done
  · cases done
    exact steady_of_same rfl rfl
  dsimp only at done
  split at done
  · obtain ⟨_, _, done⟩ := bind_eq_ok.mp done
    cases done
    have asked := steady_requestCancellation sound (named, which)
    exact ⟨asked.places, asked.isOpen⟩
  · cases done
    exact steady_of_same rfl rfl

end DrainController

/-! ## The invariant -/

/-- **What holds between any two steps.** The pins of the drain controller and of the update store are
those of the executions in flight, each held from the step that takes it to the step that releases it. -/
structure Host.Guarded (settings : DrainSettings) (data : CharacterData) (host : Host ρ) : Prop where
  sound : host.controller.Sound settings
  isOpen : host.controller.Open
  nodup : host.activePinIds.Nodup
  noted : ∀ pinId, pinId ∈ host.activePinIds ↔ ∃ execution, host.executions.get? pinId = some execution
  plain : ∀ pinId ∈ host.activePinIds, pinId ≠ "" ∧ Plain data pinId
  places : ∀ pinId, (host.controller.pins.get? pinId).map AdmissionPin.place =
    ((host.executions.get? pinId).bind fun execution => execution.point.pin?).map AdmissionPin.place
  held : ∀ pinId, host.revisionPins.get? pinId = (host.executions.get? pinId).bind Execution.held
  own : ∀ pinId execution, host.executions.get? pinId = some execution →
    execution.Answers ∧ ∀ pin, execution.point.pin? = some pin → PinOf data pinId execution.binding pin
  finished : ∀ execution outcome, (execution, outcome) ∈ host.finished →
    ∀ answer, execution.answered = some answer → outcome = answer

namespace Host

variable {settings : DrainSettings} {data : CharacterData} {host : Host ρ} {pinId : String}
  {execution moved : Execution ρ} {controller : DrainController} {pins : Dict String (String × String)}

/-- An execution takes a step that touches nothing of the others. -/
theorem Guarded.moves (guarded : host.Guarded settings data)
    (found : host.executions.get? pinId = some execution)
    (sound : controller.Sound settings) (isOpen : controller.Open)
    (places : ∀ id, (controller.pins.get? id).map AdmissionPin.place =
      if id = pinId then moved.point.pin?.map AdmissionPin.place
      else (host.controller.pins.get? id).map AdmissionPin.place)
    (held : ∀ id, pins.get? id = if id = pinId then moved.held else host.revisionPins.get? id)
    (answers : moved.Answers) (own : ∀ pin, moved.point.pin? = some pin → PinOf data pinId moved.binding pin) :
    Guarded settings data { host with
      controller := controller, revisionPins := pins, executions := host.executions.set pinId moved } where
  sound := sound
  isOpen := isOpen
  nodup := guarded.nodup
  noted id := by
    rw [guarded.noted, Dict.get?_isSome_iff, Dict.get?_isSome_iff, Dict.mem_keys_set]
    exact ⟨.inr, fun known => known.elim (fun same => same ▸ Dict.mem_keys_of_get? found) fun old => old⟩
  plain := guarded.plain
  places id := by
    rw [places, Dict.get?_set]
    split
    · rfl
    · exact guarded.places id
  held id := by
    rw [held, Dict.get?_set]
    split
    · rfl
    · exact guarded.held id
  own id other := by
    intro here
    rw [Dict.get?_set] at here
    split at here
    next same =>
      cases here
      exact same ▸ ⟨answers, own⟩
    · exact guarded.own id other here
  finished := guarded.finished

/-- A step that leaves the pins of the controller as they are. -/
theorem Guarded.goOn (guarded : host.Guarded settings data)
    (found : host.executions.get? pinId = some execution)
    (same : moved.point.pin? = execution.point.pin?)
    (held : ∀ id, pins.get? id = if id = pinId then moved.held else host.revisionPins.get? id)
    (answers : moved.Answers) (own : ∀ pin, moved.point.pin? = some pin → PinOf data pinId moved.binding pin) :
    Guarded settings data { host with
      revisionPins := pins, executions := host.executions.set pinId moved } := by
  refine guarded.moves found guarded.sound guarded.isOpen (fun id => ?_) held answers own
  split
  next here => rw [guarded.places, here, found, same, Option.bind_some]
  · rfl

/-- A step that leaves the revision pins as they are, too. -/
theorem Guarded.held_same (guarded : host.Guarded settings data)
    (found : host.executions.get? pinId = some execution) (same : moved.held = execution.held) (id : String) :
    host.revisionPins.get? id = if id = pinId then moved.held else host.revisionPins.get? id := by
  split
  next here => rw [here, guarded.held, found, same, Option.bind_some]
  · rfl

theorem pinActive_of_fresh {updates : Updates.CapabilityUpdates} {coordinate revision : String}
    {final : Dict String (String × String)} (fresh : pins.get? pinId = none)
    (done : pinActive updates pins coordinate pinId = .ok (revision, final)) :
    final = pins.set pinId (coordinate, revision) := by
  obtain ⟨_, _, done⟩ := bind_eq_ok.mp done
  obtain ⟨_, _, done⟩ := bind_eq_ok.mp done
  split at done
  · cases done
  · rw [fresh] at done
    cases done
    rfl

theorem releasePin_of_held (named : pinId ≠ "") (held : pinId ∈ pins.keys) :
    releasePin pins pinId = .ok (true, pins.erase pinId) := by
  rw [releasePin, Updates.checkNonEmpty, raiseIf, if_neg named, ok_bind, decide_eq_true held]
  rfl

theorem answers_of_none (unanswered : execution.answered = none) : execution.Answers := by
  intro answer answered
  rw [unanswered] at answered
  cases answered

/-- A step of an execution that is not admitted, to a point at which it is not admitted and holds what
it held. -/
theorem Guarded.idle (guarded : host.Guarded settings data)
    (found : host.executions.get? pinId = some execution) (unanswered : moved.answered = none)
    (before : execution.point.pin? = none) (after : moved.point.pin? = none)
    (same : moved.held = execution.held) :
    Guarded settings data { host with executions := host.executions.set pinId moved } := by
  refine guarded.goOn found (after.trans before.symm) (guarded.held_same found same)
    (answers_of_none unanswered) fun pin admitted => ?_
  rw [after] at admitted
  cases admitted

/-- A step of one execution keeps what guards all of them. -/
theorem Guarded.proceed (guarded : host.Guarded settings data)
    (found : host.executions.get? pinId = some execution) (answer : Except Raised ρ) :
    Guarded settings data (host.proceed settings data pinId execution answer) := by
  obtain ⟨answers, own⟩ := guarded.own pinId execution found
  obtain ⟨binding, point, answered⟩ := execution
  have holds := guarded.held pinId
  have admits := guarded.places pinId
  rw [found, Option.bind_some] at holds admits
  have silent (none : ∀ answer, answered ≠ some answer) : answered = Option.none :=
    Option.eq_none_iff_forall_ne_some.mpr none
  unfold Host.proceed
  cases point with
  | noted =>
      have unanswered := silent answers
      dsimp only
      split
      · exact guarded.idle found unanswered rfl rfl rfl
      · exact guarded.idle found unanswered rfl rfl rfl
      next revision pins pinned =>
        obtain rfl := pinActive_of_fresh holds pinned
        by_cases current : revision = binding.revision
        · rw [if_pos current]
          refine guarded.goOn found rfl (fun id => ?_) (answers_of_none unanswered)
            (fun _ admitted => by cases admitted)
          rw [Dict.get?_set, current]
          rfl
        · rw [if_neg current]
          exact guarded.goOn found rfl (fun id => Dict.get?_set) (answers_of_none unanswered)
            (fun _ admitted => by cases admitted)
  | pinned =>
      have unanswered := silent answers
      have fresh : host.controller.pins.get? pinId = none := Option.map_eq_none_iff.mp admits
      have noted := guarded.plain pinId ((guarded.noted pinId).mpr ⟨_, found⟩)
      dsimp only
      split
      · exact guarded.idle found unanswered rfl rfl rfl
      next pin next admitted =>
        obtain ⟨⟨named, plain, coordinate, revision⟩, set, coordinates⟩ :=
          DrainController.admission_of_fresh fresh noted.2 admitted
        refine guarded.moves found (guarded.sound.admission admitted).sound ?_ (fun id => ?_)
          (guarded.held_same found rfl) (answers_of_none unanswered) ?_
        · rw [DrainController.Open, coordinates]
          exact guarded.isOpen
        · rw [set, Dict.get?_set]
          split <;> rfl
        · rintro _ ⟨⟩
          exact ⟨named, plain, coordinate, revision⟩
  | serving pin =>
      refine guarded.goOn found rfl (guarded.held_same found rfl) ?_ own
      rintro _ ⟨⟩
      rfl
  | served pin other =>
      have given := own pin rfl
      obtain ⟨counted, known, _⟩ := Option.map_eq_some_iff.mp admits
      obtain ⟨next, released, erased, coordinates⟩ :=
        DrainController.release_of_known guarded.isOpen given.plain known
      dsimp only
      rw [given.named, released]
      refine guarded.moves found (guarded.sound.release ?_ released).sound ?_ (fun id => ?_)
        (guarded.held_same found rfl) answers (fun _ admitted => by cases admitted)
      · intro selected _ pin _ draining
        cases guarded.isOpen _ _ draining
      · rw [DrainController.Open, coordinates]
        exact guarded.isOpen
      · rw [erased, Dict.get?_erase]
        split <;> rfl
  | leaving pinned outcome =>
      cases pinned with
      | none =>
          exact guarded.idle found (silent answers) rfl rfl rfl
      | some revision =>
          have released : pinId ∈ host.revisionPins.keys := Dict.mem_keys_of_get? holds
          have noted := guarded.plain pinId ((guarded.noted pinId).mpr ⟨_, found⟩)
          dsimp only
          rw [releasePin_of_held noted.1 released]
          exact guarded.goOn found rfl (fun id => Dict.get?_erase) answers
            (fun _ admitted => by cases admitted)
  | forgetting outcome =>
      have others (id : String) (other : Execution ρ) :
          (host.executions.erase pinId).get? id = some other ↔
            id ≠ pinId ∧ host.executions.get? id = some other := by
        rw [Dict.get?_erase]
        split
        next same => simp [same]
        next apart => simp [apart]
      dsimp only
      refine ⟨guarded.sound, guarded.isOpen, guarded.nodup.erase pinId, fun id => ?_,
        fun id member => guarded.plain id (List.mem_of_mem_erase member), fun id => ?_, fun id => ?_,
        fun id other here => guarded.own id other ((others id other).mp here).2, ?_⟩
      · simp only [guarded.nodup.mem_erase_iff, guarded.noted, others, exists_and_left]
      · rw [Dict.get?_erase]
        split
        next same => rw [same, admits]; rfl
        · exact guarded.places id
      · rw [Dict.get?_erase]
        split
        next same => rw [same, holds]; rfl
        · exact guarded.held id
      · intro other ended member
        rcases List.mem_append.mp member with before | last
        · exact guarded.finished other ended before
        · cases List.mem_singleton.mp last
          exact answers

theorem Guarded.arrive {operation : String} {binding : ExecutionBinding} {given : Option String}
    {next : Host ρ} (guarded : host.Guarded settings data) (plain : ∀ pinId ∈ given, Plain data pinId)
    (done : host.arrive operation binding given = .ok next) :
    next.Guarded settings data ∧ next.controller = host.controller := by
  cases given with
  | none =>
      obtain ⟨_, _, done⟩ := bind_eq_ok.mp done
      cases done
  | some pinId =>
      simp only [Host.arrive, bind_eq_ok, exists_unit, raiseIf_eq_ok, pure_eq_ok] at done
      obtain ⟨_, named, fresh, rfl⟩ := done
      have absent : host.executions.get? pinId = none := by
        rw [guarded.noted] at fresh
        exact Option.eq_none_iff_forall_ne_some.mpr fun execution found => fresh ⟨execution, found⟩
      refine ⟨⟨guarded.sound, guarded.isOpen, ?_, fun id => ?_, fun id member => ?_, fun id => ?_, fun id => ?_,
        fun id execution found => ?_, guarded.finished⟩, rfl⟩
      · exact guarded.nodup.append (List.nodup_singleton pinId) (List.disjoint_singleton.mpr fresh)
      · rw [List.mem_append, List.mem_singleton, guarded.noted, Dict.get?_isSome_iff, Dict.get?_isSome_iff,
          Dict.mem_keys_set, or_comm]
      · rcases List.mem_append.mp member with old | new
        · exact guarded.plain id old
        · exact List.mem_singleton.mp new ▸ ⟨named, plain pinId rfl⟩
      · rw [guarded.places, Dict.get?_set]
        split
        next same => rw [same, absent]; rfl
        · rfl
      · rw [guarded.held, Dict.get?_set]
        split
        next same => rw [same, absent]; rfl
        · rfl
      · rw [Dict.get?_set] at found
        split at found
        · cases found
          exact ⟨answers_of_none rfl, fun _ admitted => by cases admitted⟩
        · exact guarded.own id execution found

theorem Guarded.manage {call : Action} (guarded : host.Guarded settings data)
    (lawful : host.controller.Lawful data call)
    (steady : ∀ requests next, host.controller.perform settings data call = .ok (requests, next) →
      DrainController.Steady host.controller next) :
    (host.manage settings data call).Guarded settings data ∧
      host.controller.Evolves (host.manage settings data call).controller := by
  unfold Host.manage
  split
  · exact ⟨guarded, DrainController.evolves_refl⟩
  next requests next done =>
    have kept := steady requests next done
    have advances := (guarded.sound.perform lawful done).1
    exact ⟨⟨advances.sound, kept.isOpen guarded.isOpen, guarded.nodup, guarded.noted, guarded.plain,
      fun id => (kept.places id).trans (guarded.places id), guarded.held, guarded.own, guarded.finished⟩,
      advances.evolves⟩

theorem Guarded.evolves_proceed (guarded : host.Guarded settings data) (pinId : String)
    (execution : Execution ρ) (answer : Except Raised ρ) :
    host.controller.Evolves (host.proceed settings data pinId execution answer).controller := by
  unfold Host.proceed
  split
  · split <;> exact DrainController.evolves_refl
  · split
    · exact DrainController.evolves_refl
    next admitted => exact (guarded.sound.admission admitted).evolves
  · exact DrainController.evolves_refl
  · split
    · exact DrainController.evolves_refl
    next released =>
      refine (guarded.sound.release (fun _ _ _ _ draining => ?_) released).evolves
      cases guarded.isOpen _ _ draining
  · exact DrainController.evolves_refl
  · split <;> exact DrainController.evolves_refl
  · exact DrainController.evolves_refl

/-- **Every step keeps the invariant**, and moves the drain controller only forward. -/
theorem Guarded.step (guarded : host.Guarded settings data) {action : HostAction ρ}
    (plain : ∀ operation binding pinId, action = .arrive operation binding (some pinId) → Plain data pinId) :
    (host.step settings data action).Guarded settings data ∧
      host.controller.Evolves (host.step settings data action).controller := by
  cases action with
  | arrive operation binding given =>
      rw [Host.step]
      split
      · exact ⟨guarded, DrainController.evolves_refl⟩
      next next done =>
        obtain ⟨kept, same⟩ := guarded.arrive (fun pinId given => plain operation binding pinId (given ▸ rfl)) done
        exact ⟨kept, same ▸ DrainController.evolves_refl⟩
  | proceed pinId answer =>
      rw [Host.step]
      split
      · exact ⟨guarded, DrainController.evolves_refl⟩
      next execution found =>
        exact ⟨guarded.proceed found answer, guarded.evolves_proceed pinId execution answer⟩
  | register coordinate revision =>
      have lawful : host.controller.Lawful data (.register coordinate revision) := trivial
      refine guarded.manage lawful fun requests next done => ?_
      obtain ⟨⟨_, _⟩, returned, same⟩ := map_eq_ok.mp done
      cases same
      exact DrainController.steady_register returned
  | beginDrain coordinate revision reason =>
      have lawful : host.controller.Lawful data (.beginDrain coordinate (some revision) reason) := trivial
      refine guarded.manage lawful fun requests next done => ?_
      obtain ⟨⟨_, _⟩, returned, same⟩ := map_eq_ok.mp done
      cases same
      exact DrainController.steady_beginDrain returned
  | advance coordinate revision deadline now =>
      have lawful : host.controller.Lawful data (.advance coordinate revision deadline now) := trivial
      refine guarded.manage lawful fun requests next done => ?_
      obtain ⟨⟨_, _⟩, returned, same⟩ := map_eq_ok.mp done
      cases same
      exact DrainController.steady_advance guarded.sound guarded.isOpen returned
  | update call =>
      exact ⟨⟨guarded.sound, guarded.isOpen, guarded.nodup, guarded.noted, guarded.plain, guarded.places,
        guarded.held, guarded.own, guarded.finished⟩, DrainController.evolves_refl⟩

/-- The pins that the wrapper creates are identifiers that the drain controller does not rewrite. -/
def PlainPins (data : CharacterData) (actions : List (HostAction ρ)) : Prop :=
  ∀ operation binding pinId, .arrive operation binding (some pinId) ∈ actions → Plain data pinId

theorem PlainPins.earlier {earlier later : List (HostAction ρ)} (plain : PlainPins data (earlier ++ later)) :
    PlainPins data earlier :=
  fun operation binding pinId member => plain operation binding pinId (List.mem_append_left later member)

theorem PlainPins.later {earlier later : List (HostAction ρ)} (plain : PlainPins data (earlier ++ later)) :
    PlainPins data later :=
  fun operation binding pinId member => plain operation binding pinId (List.mem_append_right earlier member)

theorem Guarded.run {actions : List (HostAction ρ)} (guarded : host.Guarded settings data)
    (plain : PlainPins data actions) :
    (CapabilityHub.run (Host.step settings data) host actions).Guarded settings data ∧
      host.controller.Evolves (CapabilityHub.run (Host.step settings data) host actions).controller := by
  induction actions generalizing host with
  | nil => exact ⟨guarded, DrainController.evolves_refl⟩
  | cons action actions ih =>
      obtain ⟨kept, first⟩ := guarded.step fun operation binding pinId same =>
        plain operation binding pinId (same ▸ List.mem_cons_self)
      obtain ⟨last, rest⟩ := ih kept fun operation binding pinId member =>
        plain operation binding pinId (List.mem_cons_of_mem action member)
      exact ⟨last, first.trans rest⟩

/-- The wrapper before its first execution. -/
def started (updates : Updates.CapabilityUpdates) : Host ρ := { updates := updates }

theorem guarded_started (updates : Updates.CapabilityUpdates) :
    (started updates : Host ρ).Guarded settings data where
  sound := ⟨fun _ _ found => (by cases found), fun _ _ draining => (by cases draining),
    fun _ member => (by cases member), Nat.zero_le _, Nat.zero_le _, Nat.zero_le _⟩
  isOpen _ _ found := by cases found
  nodup := List.nodup_nil
  noted _ := ⟨fun member => (by cases member), fun ⟨_, found⟩ => by cases found⟩
  plain _ member := by cases member
  places _ := rfl
  held _ := rfl
  own _ _ found := by cases found
  finished _ _ member := by cases member

/-- An execution is admitted on a place: the service executes it, or has answered and it is not
released yet. -/
def Admitted (host : Host ρ) (pinId : String) (execution : Execution ρ) (pin : AdmissionPin) : Prop :=
  host.executions.get? pinId = some execution ∧ execution.point.pin? = some pin

/-- The controller counts the pin of an execution, though its cancellation may have been requested since. -/
theorem Guarded.counted (guarded : host.Guarded settings data) {pin : AdmissionPin}
    (admitted : host.Admitted pinId execution pin) :
    ∃ counted, host.controller.pins.get? pinId = some counted ∧ counted.place = pin.place := by
  have places := guarded.places pinId
  rw [admitted.1, Option.bind_some, admitted.2] at places
  exact Option.map_eq_some_iff.mp places

theorem Guarded.of_counted (guarded : host.Guarded settings data) {counted : AdmissionPin}
    (found : host.controller.pins.get? pinId = some counted) :
    ∃ execution pin, host.Admitted pinId execution pin ∧ pin.place = counted.place := by
  have places := guarded.places pinId
  rw [found, Option.map_some, eq_comm] at places
  obtain ⟨pin, admitted, same⟩ := Option.map_eq_some_iff.mp places
  obtain ⟨execution, here, point⟩ := Option.bind_eq_some_iff.mp admitted
  exact ⟨execution, pin, ⟨here, point⟩, same⟩

theorem pins_congr {pin counted : AdmissionPin} {target : Target} (same : counted.place = pin.place)
    (of : DrainController.Pins pin target) : DrainController.Pins counted target := by
  obtain ⟨coordinate, revision⟩ := Prod.mk.inj same
  exact ⟨coordinate.trans of.1, fun which given => revision.trans (of.2 which given)⟩

/-- What the wrapper promises between any two steps. -/
structure Safe (data : CharacterData) (host : Host ρ) : Prop where
  /-- From its admission to its release an execution is counted in flight on the revision that it was
  bound to, and the update store holds that revision for it. -/
  admitted : ∀ pinId execution pin, host.Admitted pinId execution pin →
    PinOf data pinId execution.binding pin ∧
    (∃ counted ∈ host.controller.targetPins (pin.coordinate, some pin.revision), counted.pinId = pinId) ∧
    host.revisionPins.get? pinId = some (execution.binding.coordinate, execution.binding.revision)
  /-- No execution is in flight on a target that was reported as drained. -/
  drained : ∀ event ∈ host.controller.recorded, DrainController.ReportsDrained event →
    ∀ pinId execution pin, host.Admitted pinId execution pin → ¬DrainController.Pins pin event.target
  /-- A revision that is draining waits for an execution. -/
  draining : ∀ coordinate revision,
    host.controller.state (coordinate, some revision) = some .draining →
    ∃ pinId execution pin, host.Admitted pinId execution pin ∧ pin.place = (coordinate, revision)
  /-- An execution that has ended has left nothing behind. -/
  tidy : ∀ pinId, host.executions.get? pinId = none →
    host.controller.pins.get? pinId = none ∧ host.revisionPins.get? pinId = none ∧
      pinId ∉ host.activePinIds
  /-- What the service answered is what the execution returned or raised. -/
  answered : ∀ execution outcome, (execution, outcome) ∈ host.finished →
    ∀ answer, execution.answered = some answer → outcome = answer

theorem Guarded.safe (guarded : host.Guarded settings data) : host.Safe data where
  admitted pinId execution pin admitted := by
    obtain ⟨counted, found, same⟩ := guarded.counted admitted
    have of : DrainController.Pins pin (pin.coordinate, some pin.revision) :=
      ⟨rfl, fun which given => Option.some.inj given⟩
    have held := guarded.held pinId
    rw [admitted.1, Option.bind_some] at held
    refine ⟨(guarded.own pinId execution admitted.1).2 pin admitted.2,
      ⟨counted, DrainController.mem_targetPins.mpr ⟨⟨pinId, found⟩, pins_congr same of⟩,
        (guarded.sound.known pinId counted found).1⟩, held.trans ?_⟩
    have point := admitted.2
    unfold Execution.held
    split <;> simp_all [Point.pin?]
  drained event member reports pinId execution pin admitted of := by
    obtain ⟨counted, found, same⟩ := guarded.counted admitted
    have inside := DrainController.mem_targetPins.mpr ⟨⟨pinId, found⟩, pins_congr same of⟩
    rw [(guarded.sound.honest event member reports).pins] at inside
    cases inside
  draining coordinate revision draining := by
    obtain ⟨counted, member⟩ := List.exists_mem_of_ne_nil _ (guarded.sound.pinned coordinate revision draining)
    obtain ⟨⟨pinId, found⟩, named, which⟩ := DrainController.mem_targetPins.mp member
    obtain ⟨execution, pin, admitted, same⟩ := guarded.of_counted found
    exact ⟨pinId, execution, pin, admitted, same.trans (Prod.ext named (which revision rfl))⟩
  tidy pinId absent := by
    have places := guarded.places pinId
    have held := guarded.held pinId
    rw [absent, Option.bind_none] at places held
    refine ⟨Option.map_eq_none_iff.mp places, held, fun member => ?_⟩
    obtain ⟨execution, found⟩ := (guarded.noted pinId).mp member
    rw [absent] at found
    cases found
  answered := guarded.finished

/-- The binding of both executions below. -/
def runBinding : ExecutionBinding where
  coordinate := "c"
  revision := "1"
  operation := { name := "run", operationType := .execute }
  cancellable := true
  named := by decide

/-- A revision is drained while an execution is in flight on it. -/
def admittedRun : List (HostAction Unit) :=
  [.register "c" "1", .arrive "run" runBinding (some "p"), .proceed "p" (.ok ()), .proceed "p" (.ok ()),
    .beginDrain "c" "1" "update"]

/-- Another one comes too late. -/
def refusedRun : List (HostAction Unit) :=
  .arrive "run" runBinding (some "q") :: List.replicate 2 (.proceed "q" (.ok ()))

def onlyActive : Updates.CapabilityUpdates := Dict.set ∅ "c" { activeRevision := some "1" }

theorem plainPins_refusedRun : PlainPins plainText (admittedRun ++ refusedRun) := by
  have plain : ∀ pinId ∈ ["p", "q"], identifier plainText pinId = .ok pinId := by decide +kernel
  intro operation binding pinId member selected done
  have among : pinId ∈ ["p", "q"] := by
    simp only [admittedRun, refusedRun, List.cons_append, List.nil_append, List.mem_cons, List.mem_replicate,
      and_false, HostAction.arrive.injEq, Option.some.injEq, reduceCtorEq, false_or, List.not_mem_nil, or_false] at member ⊢
    exact member.imp (fun same => same.2.2) fun same => same.2.2
  rw [plain pinId among] at done
  cases done
  rfl

/-- **Executions are safe under drain.** Whatever order the steps of the executions, the drains and the
updates of the pointers come in. -/
theorem drained_service_safe (settings : DrainSettings) (updates : Updates.CapabilityUpdates)
    (actions : List (HostAction ρ)) (plain : PlainPins data actions) :
    (run (Host.step settings data) (started updates) actions).Safe data :=
  ((guarded_started updates).run plain).1.safe

theorem drained_service_safe_refused :
    (run (Host.step noLimits plainText) (started onlyActive) (admittedRun ++ refusedRun)).Safe plainText :=
  drained_service_safe noLimits onlyActive _ plainPins_refusedRun

/-- **A drain lets no execution in.** Once the drain of a target has begun, the executions in flight on
it are those that were in flight then. -/
theorem drain_admits_none (settings : DrainSettings) (updates : Updates.CapabilityUpdates)
    (earlier later : List (HostAction ρ)) (plain : PlainPins data (earlier ++ later)) (target : Target)
    (begun : Begun
      ((run (Host.step settings data) (started updates) earlier).controller.state target))
    {pin : AdmissionPin} (of : DrainController.Pins pin target)
    (admitted : (run (Host.step settings data) (started updates) (earlier ++ later)).Admitted pinId execution
      pin) :
    ∃ before held, held.place = pin.place ∧
      (run (Host.step settings data) (started updates) earlier).Admitted pinId before held := by
  have first : (run (Host.step settings data) (started updates) earlier).Guarded settings data :=
    ((guarded_started updates).run plain.earlier).1
  rw [run_append] at admitted
  obtain ⟨last, evolves⟩ := first.run plain.later
  obtain ⟨counted, found, same⟩ := last.counted admitted
  rcases evolves.pins pinId counted found with ⟨old, found', _, coordinate, revision⟩ | ⟨idle, idle'⟩
  · obtain ⟨before, held, admitted', same'⟩ := first.of_counted found'
    exact ⟨before, held, same'.trans ((Prod.ext coordinate revision : old.place = counted.place).trans same),
      admitted'⟩
  · obtain ⟨named, which⟩ := pins_congr same of
    obtain ⟨coordinate, revision⟩ := target
    cases revision with
    | none => exact absurd (named ▸ begun) idle
    | some revision => exact absurd (named ▸ which revision rfl ▸ begun) idle'

theorem drain_admits_none_refused : ∃ before held, held.place = ("c", "1") ∧
    (run (Host.step noLimits plainText) (started onlyActive) admittedRun).Admitted "p" before held := by
  have flying : ((run (Host.step noLimits plainText) (started onlyActive)
      (admittedRun ++ refusedRun)).executions.get? "p").bind (fun execution => execution.point.pin?) =
        some ⟨"p", "c", "1", true, false⟩ := by
    decide +kernel
  obtain ⟨execution, found, admitted⟩ := Option.bind_eq_some_iff.mp flying
  exact drain_admits_none noLimits onlyActive admittedRun refusedRun plainPins_refusedRun ("c", some "1")
    (.inl (by decide +kernel)) ⟨rfl, fun _ given => Option.some.inj given⟩ ⟨found, admitted⟩

end Host

end CapabilityHub.Lifecycle
