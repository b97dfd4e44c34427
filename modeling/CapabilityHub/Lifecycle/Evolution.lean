import CapabilityHub.Lifecycle.Draining

/-! # How a drain controller evolves

`Evolves` is what any operation may do to the targets and pins of a controller; it is reflexive
and transitive, so it is enough to look at the small changes that the operations are made of.
`Honest` says of the events that report a target as drained that it has no pin in flight, and
`Evolves` keeps it.
-/

namespace CapabilityHub.Lifecycle

/-- The drain of a target has begun. -/
def Begun (state : Option LifecycleState) : Prop := state = some .draining ∨ state = some .retired

/-- A state has not gone back. -/
def Later (before after : Option LifecycleState) : Prop :=
  ∀ state ∈ before, ∃ state' ∈ after, state.rank ≤ state'.rank

theorem later_refl {state : Option LifecycleState} : Later state state :=
  fun state member => ⟨state, member, Nat.le_refl _⟩

theorem Later.trans {before middle after : Option LifecycleState} (first : Later before middle)
    (second : Later middle after) : Later before after := by
  intro state member
  obtain ⟨state', member', le⟩ := first state member
  obtain ⟨state'', member'', le'⟩ := second state' member'
  exact ⟨state'', member'', le.trans le'⟩

theorem later_retired {before : Option LifecycleState} : Later before (some .retired) := by
  intro state _
  refine ⟨.retired, rfl, ?_⟩
  cases state <;> decide

theorem Later.begun {before after : Option LifecycleState} (later : Later before after)
    (begun : Begun before) : Begun after := by
  rcases begun with rfl | rfl
  · obtain ⟨state, member, le⟩ := later .draining rfl
    cases state with
    | accepting => exact absurd le (by decide)
    | draining => exact .inl member
    | retired => exact .inr member
  · obtain ⟨state, member, le⟩ := later .retired rfl
    cases state with
    | accepting => exact absurd le (by decide)
    | draining => exact absurd le (by decide)
    | retired => exact .inr member

theorem Later.retired {after : Option LifecycleState} (later : Later (some .retired) after) :
    after = some .retired := by
  obtain ⟨state, member, le⟩ := later .retired rfl
  cases state with
  | accepting => exact absurd le (by decide)
  | draining => exact absurd le (by decide)
  | retired => exact member

namespace DrainController

variable {settings : DrainSettings} {data : CharacterData} {controller next : DrainController}
  {target : Target} {pin : AdmissionPin} {coordinate : String} {key : String × String}

/-- The pin is of the target. -/
def Pins (pin : AdmissionPin) (target : Target) : Prop :=
  pin.coordinate = target.1 ∧ ∀ revision ∈ target.2, pin.revision = revision

theorem mem_targetPins : pin ∈ controller.targetPins target ↔
    (∃ id, controller.pins.get? id = some pin) ∧ Pins pin target := by
  simp only [targetPins, List.mem_filter, List.mem_map, Prod.exists, Pins, decide_eq_true_eq]
  refine and_congr_left fun _ => ⟨?_, ?_⟩
  · rintro ⟨id, _, member, rfl⟩
    exact ⟨id, Dict.mem_entries_iff.mp member⟩
  · rintro ⟨id, found⟩
    exact ⟨id, pin, Dict.mem_entries_iff.mpr found, rfl⟩

/-- What an operation may do to the targets and the pins. -/
structure Evolves (controller next : DrainController) : Prop where
  state : ∀ target, Later (controller.state target) (next.state target)
  pins : ∀ id pin, next.pins.get? id = some pin →
    (∃ old, controller.pins.get? id = some old ∧ old.pinId = pin.pinId ∧
      old.coordinate = pin.coordinate ∧ old.revision = pin.revision) ∨
    ¬Begun (controller.state (pin.coordinate, none)) ∧
      ¬Begun (controller.state (pin.coordinate, some pin.revision))

theorem evolves_refl : Evolves controller controller :=
  ⟨fun _ => later_refl, fun _ pin found => .inl ⟨pin, found, rfl, rfl, rfl⟩⟩

theorem Evolves.trans {last : DrainController} (first : Evolves controller next)
    (second : Evolves next last) : Evolves controller last := by
  refine ⟨fun target => (first.state target).trans (second.state target), fun id pin found => ?_⟩
  rcases second.pins id pin found with ⟨old, found', named, same, same'⟩ | ⟨idle, idle'⟩
  · rcases first.pins id old found' with ⟨older, found'', named', same'', same'''⟩ | ⟨idle, idle'⟩
    · exact .inl ⟨older, found'', named'.trans named, same''.trans same, same'''.trans same'⟩
    · exact .inr (same ▸ same' ▸ ⟨idle, idle'⟩)
  · exact .inr ⟨fun begun => idle ((first.state _).begun begun),
      fun begun => idle' ((first.state _).begun begun)⟩

/-- An event that reports its target as drained. -/
def ReportsDrained (event : LifecycleEvent) : Prop :=
  (event.action = .revisionRetired ∨ event.action = .coordinateRetired) ∧
    event.reason = some "drained"

/-- The target of an event is retired and has no pin in flight, nor had it then. -/
structure Empty (controller : DrainController) (event : LifecycleEvent) : Prop where
  inFlight : event.inFlight = 0
  pins : controller.targetPins event.target = []
  retired : controller.state event.target = some .retired

/-- A target that was reported as drained has no pin in flight. -/
def Honest (controller : DrainController) : Prop :=
  ∀ event ∈ controller.recorded, ReportsDrained event → Empty controller event

theorem Pins.begun {controller : DrainController} (of : Pins pin target)
    (retired : controller.state target = some .retired) :
    Begun (controller.state (pin.coordinate, none)) ∨
      Begun (controller.state (pin.coordinate, some pin.revision)) := by
  obtain ⟨coordinate, revision⟩ := target
  rcases of with ⟨rfl, same⟩
  cases revision with
  | none => exact .inl (.inr retired)
  | some revision =>
      rw [same revision rfl]
      exact .inr (.inr retired)

/-- A target that is retired gets no pin. -/
theorem Evolves.targetPins_nil (evolves : Evolves controller next)
    (retired : controller.state target = some .retired)
    (empty : controller.targetPins target = []) : next.targetPins target = [] := by
  refine List.eq_nil_iff_forall_not_mem.mpr fun pin member => ?_
  rcases mem_targetPins.mp member with ⟨⟨id, found⟩, of⟩
  rcases evolves.pins id pin found with ⟨old, found', _, same, same'⟩ | ⟨idle, idle'⟩
  · have of' : Pins old target := ⟨same.trans of.1, fun revision given =>
      same'.trans (of.2 revision given)⟩
    have member' := mem_targetPins.mpr ⟨⟨id, found'⟩, of'⟩
    rw [empty] at member'
    exact List.not_mem_nil member'
  · rcases of.begun retired with begun | begun
    · exact idle begun
    · exact idle' begun

theorem Evolves.empty {event : LifecycleEvent} (evolves : Evolves controller next)
    (empty : Empty controller event) : Empty next event where
  inFlight := empty.inFlight
  pins := evolves.targetPins_nil empty.retired empty.pins
  retired := (empty.retired ▸ evolves.state event.target).retired

/-- The new events are honest, and the old ones stay so. -/
theorem Honest.evolve {events : List LifecycleEvent} (honest : controller.Honest)
    (evolves : Evolves controller next) (recorded : next.recorded = controller.recorded ++ events)
    (new : ∀ event ∈ events, ReportsDrained event → Empty next event) :
    next.Honest := by
  intro event member reports
  rw [recorded] at member
  rcases List.mem_append.mp member with old | fresh
  · exact evolves.empty (honest event old reports)
  · exact new event fresh reports

/-! ## Changes of the states -/

@[simp] theorem state_record {action : LifecycleAction} {of : Target} {inFlight count : Nat}
    {reason : Option String} :
    (controller.record action of inFlight reason count).state target = controller.state target := rfl

@[simp] theorem targetPins_record {action : LifecycleAction} {of : Target} {inFlight count : Nat}
    {reason : Option String} :
    (controller.record action of inFlight reason count).targetPins target =
      controller.targetPins target := rfl

theorem targetPins_congr (same : next.pins = controller.pins) :
    next.targetPins target = controller.targetPins target := by
  rw [targetPins, same, targetPins]

theorem none_ne_some {other revision : String} : ((coordinate, none) : Target) ≠ (other, some revision) :=
  fun same => Option.some_ne_none _ (Prod.mk.inj same).2.symm

theorem state_set_revision {state : LifecycleState} :
    ({ controller with revisions := controller.revisions.set key state } :
      DrainController).state target =
      if target = (key.1, some key.2) then some state else controller.state target := by
  obtain ⟨coordinate, revision⟩ := target
  cases revision with
  | none =>
      rw [if_neg none_ne_some]
      rfl
  | some revision =>
      refine Dict.get?_set.trans ?_
      by_cases same : (coordinate, revision) = key
      · rw [if_pos same, if_pos (by rw [← same])]
      · rw [if_neg same, if_neg fun equal => same (Prod.ext (Prod.mk.inj equal).1
          (Option.some.inj (Prod.mk.inj equal).2))]
        rfl

theorem state_set_coordinate {state : LifecycleState} :
    ({ controller with coordinates := controller.coordinates.set coordinate state } :
      DrainController).state target =
      if target = (coordinate, none) then some state else controller.state target := by
  obtain ⟨other, revision⟩ := target
  cases revision with
  | none =>
      refine Dict.get?_set.trans ?_
      by_cases same : other = coordinate
      · rw [if_pos same, if_pos (by rw [same])]
      · rw [if_neg same, if_neg fun equal => same (congrArg Prod.fst equal)]
        rfl
  | some revision =>
      rw [if_neg none_ne_some.symm]
      rfl

/-- A draining revision has a pin. -/
def Pinned (controller : DrainController) : Prop :=
  ∀ coordinate revision, controller.state (coordinate, some revision) = some .draining →
    controller.targetPins (coordinate, some revision) ≠ []

/-- A change of the states alone. -/
structure Quiet (controller next : DrainController) : Prop where
  pins : next.pins = controller.pins
  evolves : Evolves controller next
  honest : controller.Honest → next.Honest
  pinned : controller.Pinned → next.Pinned
  coordinates : next.coordinates.size = controller.coordinates.size
  revisions : next.revisions.size = controller.revisions.size

theorem quiet_refl : Quiet controller controller :=
  ⟨rfl, evolves_refl, id, id, rfl, rfl⟩

theorem Quiet.trans {last : DrainController} (first : Quiet controller next)
    (second : Quiet next last) : Quiet controller last where
  pins := second.pins.trans first.pins
  evolves := first.evolves.trans second.evolves
  honest := second.honest ∘ first.honest
  pinned := second.pinned ∘ first.pinned
  coordinates := second.coordinates.trans first.coordinates
  revisions := second.revisions.trans first.revisions

theorem evolves_of_state (pins : next.pins = controller.pins)
    (state : ∀ target, Later (controller.state target) (next.state target)) :
    Evolves controller next :=
  ⟨state, fun _ pin found => .inl ⟨pin, pins ▸ found, rfl, rfl, rfl⟩⟩

theorem quiet_retireRevision {reason : String} {forced : Bool}
    (known : ∃ state, controller.revisions.get? key = some state)
    (empty : forced = false → controller.targetPins (key.1, some key.2) = []) :
    Quiet controller (controller.retireRevision key reason forced) := by
  unfold retireRevision
  split
  · exact quiet_refl
  · dsimp only
    have state (target : Target) :
        (({ controller with revisions := controller.revisions.set key .retired } :
          DrainController).state target) = _ := state_set_revision
    have evolves : Evolves controller
        { controller with revisions := controller.revisions.set key .retired } := by
      refine evolves_of_state rfl fun target => ?_
      rw [state]
      split
      · exact later_retired
      · exact later_refl
    refine ⟨rfl, ⟨evolves.state, evolves.pins⟩, fun honest => ?_, fun pinned => ?_, rfl, ?_⟩
    · refine honest.evolve ⟨evolves.state, evolves.pins⟩ rfl fun event member reports => ?_
      obtain rfl := List.mem_singleton.mp member
      cases forced with
      | true => exact absurd reports.1 (by simp)
      | false =>
          have none := empty rfl
          refine ⟨?_, none, (state _).trans (if_pos rfl)⟩
          exact congrArg List.length none
    · intro coordinate revision draining
      rw [state_record, state] at draining
      split at draining
      · cases draining
      · exact pinned coordinate revision draining
    · exact Dict.size_set.trans (if_pos (Dict.get?_isSome_iff.mp known))

theorem quiet_maybeRetireCoordinate
    (empty : controller.coordinates.get? coordinate = some .draining →
      (∀ key ∈ controller.coordinateRevisions coordinate,
        controller.revisions.get? key = some .retired) →
      controller.targetPins (coordinate, none) = []) :
    Quiet controller (controller.maybeRetireCoordinate coordinate) := by
  unfold maybeRetireCoordinate
  split
  next fires =>
    have none := empty fires.1 fires.2
    dsimp only
    have state (target : Target) :
        (({ controller with coordinates := controller.coordinates.set coordinate .retired } :
          DrainController).state target) = _ := state_set_coordinate
    have evolves : Evolves controller
        { controller with coordinates := controller.coordinates.set coordinate .retired } := by
      refine evolves_of_state rfl fun target => ?_
      rw [state]
      split
      · exact later_retired
      · exact later_refl
    refine ⟨rfl, ⟨evolves.state, evolves.pins⟩, fun honest => ?_, fun pinned => ?_, ?_, rfl⟩
    · refine honest.evolve ⟨evolves.state, evolves.pins⟩ rfl fun event member reports => ?_
      obtain rfl := List.mem_singleton.mp member
      exact ⟨congrArg List.length none, none, (state _).trans (if_pos rfl)⟩
    · intro other revision draining
      rw [state_record, state, if_neg none_ne_some.symm] at draining
      exact pinned other revision draining
    · exact Dict.size_set.trans (if_pos (Dict.mem_keys_of_get? fires.1))
  next => exact quiet_refl

theorem state_retireRevision {reason : String} {forced : Bool} :
    (controller.retireRevision key reason forced).state target =
      if target = (key.1, some key.2) then some .retired else controller.state target := by
  unfold retireRevision
  split
  next already =>
    split
    next same => exact same ▸ already
    next => rfl
  next => exact state_record.trans state_set_revision

theorem pins_retireRevision {reason : String} {forced : Bool} :
    (controller.retireRevision key reason forced).pins = controller.pins := by
  unfold retireRevision
  split <;> rfl

/-- What `_begin_revision_drain` makes of an accepting revision. -/
theorem state_beginRevisionDrain {reason : String} :
    (controller.beginRevisionDrain key reason).state target =
      if target = (key.1, some key.2) ∧ controller.revisions.get? key = some .accepting then
        if controller.pinCount (key.1, some key.2) = 0 then some .retired else some .draining
      else controller.state target := by
  unfold beginRevisionDrain
  by_cases accepting : controller.revisions.get? key = some .accepting
  · rw [if_pos accepting]
    dsimp only
    have same : ({ controller with revisions := controller.revisions.set key .draining } :
        DrainController).pinCount (key.1, some key.2) = controller.pinCount (key.1, some key.2) :=
      rfl
    rw [same]
    by_cases none : controller.pinCount (key.1, some key.2) = 0
    · rw [if_pos none, state_retireRevision, state_record, state_set_revision]
      by_cases of : target = (key.1, some key.2)
      · rw [if_pos of, if_pos ⟨of, accepting⟩, if_pos none]
      · rw [if_neg of, if_neg of, if_neg fun both => of both.1]
    · rw [if_neg none, state_record, state_set_revision]
      by_cases of : target = (key.1, some key.2)
      · rw [if_pos of, if_pos ⟨of, accepting⟩, if_neg none]
      · rw [if_neg of, if_neg fun both => of both.1]
  · rw [if_neg accepting, if_neg fun both => accepting both.2]

theorem later_accepting {state : LifecycleState} : Later (some .accepting) (some state) := by
  intro before member
  cases member
  exact ⟨state, rfl, Nat.zero_le _⟩

theorem quiet_beginRevisionDrain {reason : String} :
    Quiet controller (controller.beginRevisionDrain key reason) := by
  have state (target : Target) : (controller.beginRevisionDrain key reason).state target = _ :=
    state_beginRevisionDrain
  have pins : (controller.beginRevisionDrain key reason).pins = controller.pins := by
    unfold beginRevisionDrain
    split
    · dsimp only
      split
      · exact pins_retireRevision
      · rfl
    · rfl
  have evolves : Evolves controller (controller.beginRevisionDrain key reason) := by
    refine evolves_of_state pins fun target => ?_
    rw [state]
    split
    next of =>
      have accepting : controller.state target = some .accepting := by
        rw [of.1]
        exact of.2
      rw [accepting]
      split <;> exact later_accepting
    next => exact later_refl
  refine ⟨pins, evolves, fun honest => ?_, fun pinned => ?_, ?_, ?_⟩
  · by_cases accepting : controller.revisions.get? key = some .accepting
    · unfold beginRevisionDrain at evolves ⊢
      rw [if_pos accepting] at evolves ⊢
      dsimp only at evolves ⊢
      have draining : Honest (({ controller with
          revisions := controller.revisions.set key .draining } : DrainController).record
            .revisionDraining (key.1, some key.2) (controller.pinCount (key.1, some key.2))
            reason) := by
        have evolves' : Evolves controller
            { controller with revisions := controller.revisions.set key .draining } := by
          refine evolves_of_state rfl fun target => ?_
          rw [state_set_revision]
          split
          next of =>
            have before : controller.state target = some .accepting := by
              rw [of]
              exact accepting
            rw [before]
            exact later_accepting
          next => exact later_refl
        refine honest.evolve ⟨evolves'.state, evolves'.pins⟩ rfl fun event member reports => ?_
        obtain rfl := List.mem_singleton.mp member
        exact absurd reports.1 (by simp)
      split
      next none =>
        refine Quiet.honest (quiet_retireRevision ⟨.draining, Dict.get?_set_self⟩ fun _ => ?_)
          draining
        exact List.eq_nil_of_length_eq_zero none
      next => exact draining
    · unfold beginRevisionDrain
      rw [if_neg accepting]
      exact honest
  · intro coordinate revision draining
    rw [targetPins_congr pins]
    rw [state] at draining
    split at draining
    next of =>
      rw [of.1]
      split at draining
      · cases draining
      next some' => exact fun none => some' (congrArg List.length none)
    next => exact pinned coordinate revision draining
  · unfold beginRevisionDrain retireRevision
    dsimp only
    repeat' split
    all_goals rfl
  · by_cases accepting : controller.revisions.get? key = some .accepting
    · have size : (controller.revisions.set key .draining).size = controller.revisions.size :=
        Dict.size_set.trans (if_pos (Dict.mem_keys_of_get? accepting))
      unfold beginRevisionDrain
      rw [if_pos accepting]
      dsimp only
      split
      next none =>
        refine (Quiet.revisions (quiet_retireRevision ⟨.draining, Dict.get?_set_self⟩
          fun _ => ?_)).trans size
        exact List.eq_nil_of_length_eq_zero none
      next => exact size
    · unfold beginRevisionDrain
      rw [if_neg accepting]

theorem quiet_foldl {κ : Type} {change : DrainController → κ → DrainController} {keys : List κ}
    (each : ∀ next, next.pins = controller.pins → ∀ key ∈ keys, Quiet next (change next key)) :
    Quiet controller (keys.foldl change controller) := by
  induction keys generalizing controller with
  | nil => exact quiet_refl
  | cons key rest ih =>
      have first := each controller rfl key List.mem_cons_self
      refine first.trans (ih fun next pins key member => ?_)
      exact each next (pins.trans first.pins) key (List.mem_cons_of_mem _ member)

/-- What retiring a whole coordinate does, of which no pin is in flight unless it is forced. -/
theorem quiet_retireCoordinate {reason : String} {forced : Bool}
    (known : ∃ state, controller.coordinates.get? coordinate = some state)
    (empty : forced = false → controller.targetPins (coordinate, none) = []) :
    Quiet controller (controller.retireTarget (coordinate, none) reason forced) := by
  unfold retireTarget
  dsimp only
  have emptied : Quiet controller ((controller.coordinateRevisions coordinate).foldl
      (fun controller key =>
        if controller.revisions.get? key = some .draining then
          controller.retireRevision key reason forced
        else controller) controller) := by
    refine quiet_foldl fun next pins key member => ?_
    split
    next draining =>
      refine quiet_retireRevision ⟨_, draining⟩ fun unforced => ?_
      rw [targetPins_congr pins]
      refine List.eq_nil_iff_forall_not_mem.mpr fun pin inside => ?_
      rcases mem_targetPins.mp inside with ⟨found, same, _⟩
      have named := of_decide_eq_true (List.mem_filter.mp member).2
      have whole : pin ∈ controller.targetPins (coordinate, none) :=
        mem_targetPins.mpr ⟨found, same.trans named, fun _ given => nomatch given⟩
      rw [empty unforced] at whole
      exact List.not_mem_nil whole
    next => exact quiet_refl
  refine emptied.trans ?_
  generalize (controller.coordinateRevisions coordinate).foldl _ controller = middle at emptied
  have state (target : Target) :
      (({ middle with coordinates := middle.coordinates.set coordinate .retired } :
        DrainController).state target) = _ := state_set_coordinate
  have evolves : Evolves middle
      { middle with coordinates := middle.coordinates.set coordinate .retired } := by
    refine evolves_of_state rfl fun target => ?_
    rw [state]
    split
    · exact later_retired
    · exact later_refl
  have known' : ∃ state, middle.coordinates.get? coordinate = some state := by
    rcases known with ⟨before, found⟩
    obtain ⟨after, found', _⟩ := emptied.evolves.state (coordinate, none) before found
    exact ⟨after, found'⟩
  refine ⟨rfl, ⟨evolves.state, evolves.pins⟩, fun honest => ?_, fun pinned => ?_, ?_, rfl⟩
  · refine honest.evolve ⟨evolves.state, evolves.pins⟩ rfl fun event member reports => ?_
    obtain rfl := List.mem_singleton.mp member
    cases forced with
    | true => exact absurd reports.1 (by simp)
    | false =>
        have none : middle.targetPins (coordinate, none) = [] :=
          (targetPins_congr emptied.pins).trans (empty rfl)
        exact ⟨congrArg List.length none, none, (state _).trans (if_pos rfl)⟩
  · intro other revision draining
    rw [state_record, state, if_neg none_ne_some.symm] at draining
    exact pinned other revision draining
  · exact Dict.size_set.trans (if_pos (Dict.get?_isSome_iff.mp known'))

end DrainController

end CapabilityHub.Lifecycle
