import CapabilityHub.Data.Runs
import CapabilityHub.Lifecycle.Evolution

/-! # Runs of a drain controller

Any order of the operations of one controller, failing calls included. `listed` counts how often
`advance` has asked to cancel the pin that an identifier names.
-/

namespace CapabilityHub.Lifecycle

inductive Action where
  | register (coordinate revision : String)
  | admission (coordinate revision pinId : String) (cancellable : Bool)
  | release (pinId : String)
  | beginDrain (coordinate : String) (revision : Option String) (reason : String)
  | advance (coordinate : String) (revision : Option String) (deadline now : ℚ)
  | forceRetire (coordinate : String) (revision : Option String) (policy : ForceRetirePolicy)
      (reason : String)

structure System where
  controller : DrainController := {}
  listed : String → Nat := fun _ => 0

namespace DrainController

variable (settings : DrainSettings) (data : CharacterData) (controller : DrainController)

/-- The pins that a call asks to cancel, and the next controller. -/
def perform : Action → Except Raised (List String × DrainController)
  | .register coordinate revision =>
      (controller.register settings data coordinate revision).map fun done => ([], done.2)
  | .admission coordinate revision pinId cancellable =>
      (controller.admission settings data coordinate revision pinId cancellable).map
        fun done => ([], done.2)
  | .release pinId => (controller.release data pinId).map fun done => ([], done.2)
  | .beginDrain coordinate revision reason =>
      (controller.beginDrain data coordinate revision reason).map fun done => ([], done.2)
  | .advance coordinate revision deadline now =>
      (controller.advance data coordinate revision deadline now).map
        fun done => (done.1.cancellationRequests, done.2)
  | .forceRetire coordinate revision policy reason =>
      (controller.forceRetire data coordinate revision policy reason).map fun done => ([], done.2)

/-- If a pin of the coordinate stays in flight, one of those that stay is of a revision that is
not retired and is not about to be. -/
def Attended (coordinate : String) (leaves closes : AdmissionPin → Prop) : Prop :=
  (∃ pin ∈ controller.targetPins (coordinate, none), ¬leaves pin) →
    ∃ kept ∈ controller.targetPins (coordinate, none), ¬leaves kept ∧ ¬closes kept ∧
      controller.state (kept.coordinate, some kept.revision) ≠ some .retired

/-- A call that can retire the last revision of a draining coordinate, by a release, by a forced
retirement or because the coordinate begins to drain, leaves no pin of a retired revision behind
on its own. -/
def Lawful : Action → Prop
  | .release pinId =>
      ∀ selected ∈ (identifier data pinId).toOption, ∀ pin ∈ controller.pins.get? selected,
        controller.state (pin.coordinate, none) = some .draining →
        controller.Attended pin.coordinate (·.pinId = selected) fun _ => False
  | .beginDrain coordinate none reason =>
      (reasonCode reason).isOk → ∀ selected ∈ (identifier data coordinate).toOption,
        controller.state (selected, none) ≠ some .retired →
        controller.Attended selected (fun _ => False) fun _ => False
  | .forceRetire coordinate (some revision) .allowInFlight reason =>
      (reasonCode reason).isOk → ∀ selected ∈ (identifier data coordinate).toOption,
        ∀ selectedRevision ∈ (identifier data revision).toOption,
        controller.state (selected, none) = some .draining →
        controller.state (selected, some selectedRevision) = some .draining →
        controller.Attended selected (fun _ => False) (·.revision = selectedRevision)
  | _ => True

instance decidableAttended {leaves closes : AdmissionPin → Prop} [DecidablePred leaves]
    [DecidablePred closes] : Decidable (controller.Attended coordinate leaves closes) :=
  inferInstanceAs (Decidable (_ → ∃ kept ∈ controller.targetPins (coordinate, none), _ ∧ _ ∧ _))

instance decidableLawful : DecidablePred (controller.Lawful data)
  | .release _ => by unfold Lawful; infer_instance
  | .beginDrain _ none _ => by unfold Lawful; infer_instance
  | .forceRetire _ (some _) .allowInFlight _ => by unfold Lawful; infer_instance
  | .register _ _ => .isTrue trivial
  | .admission _ _ _ _ => .isTrue trivial
  | .beginDrain _ (some _) _ => .isTrue trivial
  | .advance _ _ _ _ => .isTrue trivial
  | .forceRetire _ none _ _ => .isTrue trivial
  | .forceRetire _ (some _) .deny _ => .isTrue trivial

end DrainController

/-- One call. -/
def step (settings : DrainSettings) (data : CharacterData) (system : System) (action : Action) :
    System :=
  match system.controller.perform settings data action with
  | .error _ => system
  | .ok (requests, next) =>
      { controller := next
        listed := fun id =>
          (if (system.controller.pins.get? id).isNone ∧ (next.pins.get? id).isSome then 0
            else system.listed id) + requests.count id }

/-- What a call keeps to. -/
structure Keeps (settings : DrainSettings) (data : CharacterData) (system : System)
    (action : Action) : Prop where
  /-- A state only moves from accepting to draining to retired. -/
  forward : ∀ target, Later (system.controller.state target)
    ((step settings data system action).controller.state target)
  /-- No pin is given on a target whose drain has begun. -/
  closed : ∀ id pin, (step settings data system action).controller.pins.get? id = some pin →
    system.controller.pins.get? id = none →
    ¬Begun (system.controller.state (pin.coordinate, none)) ∧
      ¬Begun (system.controller.state (pin.coordinate, some pin.revision))
  pinned : (step settings data system action).controller.Pinned
  /-- A target that was reported as drained had no pin in flight then, and has none now. -/
  honest : (step settings data system action).controller.Honest
  /-- A pin is asked to cancel at most once. -/
  once : ∀ id, (step settings data system action).listed id ≤ 1
  bounded : (step settings data system action).controller.coordinates.size ≤
      settings.maxCoordinates ∧
    (step settings data system action).controller.revisions.size ≤ settings.maxRevisions ∧
    (step settings data system action).controller.pins.size ≤ settings.maxInFlight

namespace DrainController

variable {settings : DrainSettings} {data : CharacterData} {controller next : DrainController}
  {target : Target} {pin : AdmissionPin} {coordinate : String}

structure Sound (settings : DrainSettings) (controller : DrainController) : Prop where
  known : ∀ id pin, controller.pins.get? id = some pin → pin.pinId = id ∧
    ∃ state, controller.state (pin.coordinate, some pin.revision) = some state
  pinned : controller.Pinned
  honest : controller.Honest
  coordinates : controller.coordinates.size ≤ settings.maxCoordinates
  revisions : controller.revisions.size ≤ settings.maxRevisions
  inFlight : controller.pins.size ≤ settings.maxInFlight

/-- What every call does. -/
structure Advances (settings : DrainSettings) (controller next : DrainController) : Prop where
  evolves : Evolves controller next
  sound : Sound settings next
  /-- A pin that was asked to cancel stays so. -/
  asked : ∀ id old pin, controller.pins.get? id = some old → next.pins.get? id = some pin →
    old.cancelRequested → pin.cancelRequested

theorem Sound.quiet (sound : Sound settings controller) (quiet : Quiet controller next) :
    Advances settings controller next where
  evolves := quiet.evolves
  sound :=
    { known := fun id pin found => by
        obtain ⟨named, state, present⟩ := sound.known id pin (quiet.pins ▸ found)
        obtain ⟨later, present', _⟩ := quiet.evolves.state _ state present
        exact ⟨named, later, present'⟩
      pinned := quiet.pinned sound.pinned
      honest := quiet.honest sound.honest
      coordinates := quiet.coordinates ▸ sound.coordinates
      revisions := quiet.revisions ▸ sound.revisions
      inFlight := quiet.pins ▸ sound.inFlight }
  asked := fun id old pin found found' asked => by
    rw [quiet.pins, found] at found'
    cases found'
    exact asked

/-- A change that keeps the pins that it does not remove. -/
theorem advances_of_kept (evolves : Evolves controller next) (sound : Sound settings next)
    (kept : ∀ id old pin, controller.pins.get? id = some old → next.pins.get? id = some pin →
      pin = old) : Advances settings controller next :=
  ⟨evolves, sound, fun id old pin found found' asked => kept id old pin found found' ▸ asked⟩

theorem Advances.quiet {middle : DrainController} (first : Advances settings controller middle)
    (second : Quiet middle next) : Advances settings controller next where
  evolves := first.evolves.trans second.evolves
  sound := (first.sound.quiet second).sound
  asked := fun id old pin found found' => first.asked id old pin found (second.pins ▸ found')

theorem Sound.same (sound : Sound settings controller) : Advances settings controller controller :=
  sound.quiet quiet_refl

/-! ## The operations -/

theorem state_registered {coordinate revision : String} (absent : controller.revisions.get?
    (coordinate, revision) = none) (idle : ∀ state ∈ controller.coordinates.get? coordinate,
      state = .accepting) (target : Target) :
    Later (controller.state target)
      (({ controller with
        coordinates :=
          if controller.coordinates.get? coordinate = none then
            controller.coordinates.set coordinate .accepting
          else controller.coordinates
        revisions := controller.revisions.set (coordinate, revision) .accepting } :
          DrainController).state target) := by
  obtain ⟨other, which⟩ := target
  cases which with
  | none =>
      intro state member
      by_cases unknown : controller.coordinates.get? coordinate = none
      · refine ⟨state, ?_, Nat.le_refl _⟩
        have apart : other ≠ coordinate := fun same => by
          subst same
          exact nomatch unknown.symm.trans member
        dsimp only [DrainController.state]
        rw [if_pos unknown, Dict.get?_set_of_ne apart]
        exact member
      · refine ⟨state, ?_, Nat.le_refl _⟩
        dsimp only [DrainController.state]
        rw [if_neg unknown]
        exact member
  | some which =>
      intro state member
      have apart : (other, which) ≠ (coordinate, revision) := fun same => by
        have present : controller.revisions.get? (other, which) = some state := member
        rw [same, absent] at present
        cases present
      exact ⟨state, (Dict.get?_set_of_ne apart).trans member, Nat.le_refl _⟩

theorem Sound.register {coordinate revision : String} {snapshot : LifecycleSnapshot}
    (sound : Sound settings controller)
    (done : controller.register settings data coordinate revision = .ok (snapshot, next)) :
    Advances settings controller next := by
  obtain ⟨coordinate, _, done⟩ := bind_eq_ok.mp done
  obtain ⟨revision, _, done⟩ := bind_eq_ok.mp done
  cases present : controller.revisions.get? (coordinate, revision) with
  | some state =>
      rw [present] at done
      cases done
      exact sound.same
  | none =>
      simp only [present, bind_eq_ok, exists_unit, raiseIf_eq_ok] at done
      obtain ⟨accepting, few, room, done⟩ := done
      cases done
      have idle : ∀ state ∈ controller.coordinates.get? coordinate, state = .accepting := by
        intro state member
        by_contra moved
        exact accepting ⟨state, member, moved⟩
      have later := state_registered present idle
      have evolves : Evolves controller (({ controller with
          coordinates :=
            if controller.coordinates.get? coordinate = none then
              controller.coordinates.set coordinate .accepting
            else controller.coordinates
          revisions := controller.revisions.set (coordinate, revision) .accepting } :
            DrainController).record .registered (coordinate, some revision) 0) :=
        evolves_of_state rfl later
      refine advances_of_kept evolves ?_ fun id old pin found found' =>
        Option.some.inj (found'.symm.trans found)
      refine ⟨fun id pin found => ?_, fun other which draining => ?_, ?_, ?_, ?_, sound.inFlight⟩
      · obtain ⟨named, state, known⟩ := sound.known id pin found
        obtain ⟨after, known', _⟩ := evolves.state _ state known
        exact ⟨named, after, known'⟩
      · have before : controller.state (other, some which) = some .draining := by
          have set : (controller.revisions.set (coordinate, revision) .accepting).get?
              (other, which) = some .draining := draining
          rw [Dict.get?_set] at set
          split at set
          · cases set
          · exact set
        exact sound.pinned other which before
      · refine sound.honest.evolve evolves rfl fun event member reports => ?_
        obtain rfl := List.mem_singleton.mp member
        exact absurd reports.1 (by simp)
      · change (if controller.coordinates.get? coordinate = none then
          controller.coordinates.set coordinate .accepting else controller.coordinates).size ≤ _
        by_cases unknown : controller.coordinates.get? coordinate = none
        · have room : ¬settings.maxCoordinates ≤ controller.coordinates.size :=
            fun full => room ⟨unknown, full⟩
          rw [if_pos unknown, Dict.size_set, if_neg (Dict.get?_eq_none_iff.mp unknown)]
          omega
        · rw [if_neg unknown]
          exact sound.coordinates
      · change (controller.revisions.set (coordinate, revision) .accepting).size ≤ _
        rw [Dict.size_set, if_neg (Dict.get?_eq_none_iff.mp present)]
        omega

theorem Sound.admission {coordinate revision pinId : String} {cancellable : Bool}
    {given : AdmissionPin} (sound : Sound settings controller)
    (done : controller.admission settings data coordinate revision pinId cancellable =
      .ok (given, next)) : Advances settings controller next := by
  obtain ⟨coordinate, _, done⟩ := bind_eq_ok.mp done
  obtain ⟨revision, _, done⟩ := bind_eq_ok.mp done
  obtain ⟨selected, _, done⟩ := bind_eq_ok.mp done
  cases presentRevision : controller.revisions.get? (coordinate, revision) with
  | none =>
      rw [presentRevision] at done
      cases done
  | some revisionState =>
  cases presentCoordinate : controller.coordinates.get? coordinate with
  | none =>
      rw [presentRevision, presentCoordinate] at done
      cases done
  | some coordinateState =>
  simp only [presentRevision, presentCoordinate, bind_eq_ok, exists_unit, raiseIf_eq_ok] at done
  obtain ⟨accepting, done⟩ := done
  obtain ⟨acceptingCoordinate, acceptingRevision⟩ := not_or.mp accepting
  rw [not_not.mp acceptingCoordinate] at presentCoordinate
  rw [not_not.mp acceptingRevision] at presentRevision
  cases existing : controller.pins.get? selected with
  | some pin =>
      simp only [existing] at done
      split at done
      · cases done
        exact sound.same
      · cases done
  | none =>
      simp only [existing, bind_eq_ok, exists_unit, raiseIf_eq_ok, Except.ok.injEq,
        Prod.mk.injEq] at done
      obtain ⟨room, rfl, rfl⟩ := done
      have idle {state : Option LifecycleState} (is : state = some .accepting) : ¬Begun state := by
        rintro (begun | begun)
        · cases is.symm.trans begun
        · cases is.symm.trans begun
      have evolves : Evolves controller { controller with
          pins := controller.pins.set selected ⟨selected, coordinate, revision, cancellable, false⟩ } := by
        refine ⟨fun _ => later_refl, fun id pin found => ?_⟩
        rw [Dict.get?_set] at found
        split at found
        · cases found
          exact .inr ⟨idle presentCoordinate, idle presentRevision⟩
        · exact .inl ⟨pin, found, rfl, rfl, rfl⟩
      refine advances_of_kept evolves ?_ fun id old pin found found' => ?_
      swap
      · have apart : id ≠ selected := fun same => by
          cases (same ▸ found).symm.trans existing
        rw [Dict.get?_set_of_ne apart, found] at found'
        exact (Option.some.inj found').symm
      refine ⟨fun id pin found => ?_, fun other which draining => ?_, ?_, sound.coordinates,
        sound.revisions, ?_⟩
      · rw [Dict.get?_set] at found
        split at found
        next same =>
          cases found
          exact ⟨same.symm, .accepting, presentRevision⟩
        next => exact sound.known id pin found
      · obtain ⟨pin, member⟩ := List.exists_mem_of_ne_nil _ (sound.pinned other which draining)
        obtain ⟨⟨id, found⟩, of⟩ := mem_targetPins.mp member
        have apart : id ≠ selected := by
          intro same
          rw [same, existing] at found
          cases found
        exact List.ne_nil_of_mem (mem_targetPins.mpr
          ⟨⟨id, (Dict.get?_set_of_ne apart).trans found⟩, of⟩)
      · exact sound.honest.evolve evolves (List.append_nil _).symm
          fun _ member => absurd member List.not_mem_nil
      · change (controller.pins.set selected _).size ≤ _
        rw [Dict.size_set, if_neg (Dict.get?_eq_none_iff.mp existing)]
        omega

theorem mem_coordinateRevisions {key : String × String} {state : LifecycleState}
    (present : controller.revisions.get? key = some state) :
    key ∈ controller.coordinateRevisions key.1 :=
  List.mem_filter.mpr ⟨Dict.mem_keys_of_get? present, decide_eq_true rfl⟩

/-- A coordinate is retired only where no pin of a retired revision is left behind on its own. -/
theorem quiet_maybeRetire
    (attended : controller.coordinates.get? coordinate = some .draining →
      controller.targetPins (coordinate, none) ≠ [] →
      ∃ kept ∈ controller.targetPins (coordinate, none),
        ∃ state, controller.state (coordinate, some kept.revision) = some state ∧
          state ≠ .retired) :
    Quiet controller (controller.maybeRetireCoordinate coordinate) := by
  refine quiet_maybeRetireCoordinate fun draining retired => ?_
  by_contra some'
  obtain ⟨kept, _, state, present, open'⟩ := attended draining some'
  have member : (coordinate, kept.revision) ∈ controller.coordinateRevisions coordinate :=
    mem_coordinateRevisions present
  have known : controller.revisions.get? (coordinate, kept.revision) = some state := present
  exact open' (Option.some.inj (known.symm.trans (retired _ member)))

/-- The controller without a pin. -/
def without (controller : DrainController) (selected : String) : DrainController :=
  { controller with pins := controller.pins.erase selected }

theorem Sound.mem_without {selected : String} (sound : Sound settings controller) :
    pin ∈ (controller.without selected).targetPins target ↔
      pin ∈ controller.targetPins target ∧ pin.pinId ≠ selected := by
  rw [mem_targetPins, mem_targetPins]
  constructor
  · intro member
    obtain ⟨⟨id, inside⟩, of⟩ := member
    rw [without, Dict.get?_erase] at inside
    split at inside
    · cases inside
    next apart => exact ⟨⟨⟨id, inside⟩, of⟩, (sound.known id pin inside).1 ▸ apart⟩
  · intro both
    obtain ⟨⟨⟨id, inside⟩, of⟩, apart⟩ := both
    refine ⟨⟨id, ?_⟩, of⟩
    rw [without, Dict.get?_erase, if_neg ((sound.known id pin inside).1 ▸ apart)]
    exact inside

theorem evolves_without {selected : String} : Evolves controller (controller.without selected) := by
  refine ⟨fun _ => later_refl, fun id pin found => ?_⟩
  rw [without, Dict.get?_erase] at found
  split at found
  · cases found
  · exact .inl ⟨pin, found, rfl, rfl, rfl⟩

/-- What the release of a pin leaves before it looks at the coordinate. -/
def drainedBy (controller : DrainController) (pin : AdmissionPin) (selected : String) :
    DrainController :=
  if (controller.without selected).revisions.get? (pin.coordinate, pin.revision) = some .draining ∧
      (controller.without selected).pinCount (pin.coordinate, some pin.revision) = 0 then
    (controller.without selected).retireRevision (pin.coordinate, pin.revision) "drained" false
  else controller.without selected

theorem Sound.drainedBy {selected : String} (sound : Sound settings controller)
    (found : controller.pins.get? selected = some pin) :
    Advances settings controller (controller.drainedBy pin selected) ∧
      ∀ revision, (controller.drainedBy pin selected).state (pin.coordinate, some revision) ≠
          controller.state (pin.coordinate, some revision) →
        (controller.without selected).targetPins (pin.coordinate, some revision) = [] := by
  have pinned {other : Target} (some' : controller.targetPins other ≠ [])
      (apart : other ≠ (pin.coordinate, some pin.revision)) (coordinate revision : String)
      (is : other = (coordinate, some revision)) :
      (controller.without selected).targetPins other ≠ [] := by
    obtain ⟨kept, member⟩ := List.exists_mem_of_ne_nil _ some'
    refine List.ne_nil_of_mem (sound.mem_without.mpr ⟨member, fun named => apart ?_⟩)
    obtain ⟨⟨id, inside⟩, of⟩ := mem_targetPins.mp member
    obtain rfl := (sound.known id kept inside).1.symm.trans named
    cases inside.symm.trans found
    rw [is] at of ⊢
    rw [of.1, of.2 revision rfl]
  have sizes : (controller.without selected).pins.size ≤ settings.maxInFlight := by
    have fewer := Dict.size_erase_add_one (Dict.mem_keys_of_get? found)
    have limit := sound.inFlight
    change (controller.pins.erase selected).size ≤ _
    omega
  have knows (id : String) (other : AdmissionPin)
      (inside : (controller.without selected).pins.get? id = some other) :
      other.pinId = id ∧ ∃ state, controller.state (other.coordinate, some other.revision) =
        some state := by
    rw [without, Dict.get?_erase] at inside
    split at inside
    · cases inside
    · exact sound.known id other inside
  have keeps (id : String) (old other : AdmissionPin) (inside : controller.pins.get? id = some old)
      (inside' : (controller.without selected).pins.get? id = some other) : other = old := by
    rw [without, Dict.get?_erase] at inside'
    split at inside'
    · cases inside'
    · exact Option.some.inj (inside'.symm.trans inside)
  unfold DrainController.drainedBy
  split
  next empties =>
    have none := List.eq_nil_of_length_eq_zero empties.2
    have quiet : Quiet (controller.without selected) ((controller.without selected).retireRevision
        (pin.coordinate, pin.revision) "drained" false) :=
      quiet_retireRevision ⟨.draining, empties.1⟩ fun _ => none
    have evolves := evolves_without.trans quiet.evolves
    refine ⟨advances_of_kept evolves ?_ fun id old other inside inside' =>
      keeps id old other inside (quiet.pins ▸ inside'), fun revision moved => ?_⟩
    · refine ⟨fun id other inside => ?_, fun coordinate revision draining => ?_, ?_, ?_, ?_, ?_⟩
      · obtain ⟨named, state, present⟩ := knows id other (quiet.pins ▸ inside)
        obtain ⟨later, present', _⟩ := evolves.state _ state present
        exact ⟨named, later, present'⟩
      · rw [state_retireRevision] at draining
        split at draining
        · cases draining
        next apart =>
          rw [targetPins_congr quiet.pins]
          exact pinned (sound.pinned coordinate revision draining) apart coordinate revision rfl
      · exact quiet.honest (sound.honest.evolve evolves_without (List.append_nil _).symm
          fun _ member => absurd member List.not_mem_nil)
      · exact quiet.coordinates ▸ sound.coordinates
      · exact quiet.revisions ▸ sound.revisions
      · exact quiet.pins ▸ sizes
    · rw [state_retireRevision] at moved
      split at moved
      next same => exact same ▸ none
      next => exact absurd rfl moved
  next stays =>
    refine ⟨advances_of_kept evolves_without ?_ keeps, fun revision moved => absurd rfl moved⟩
    refine ⟨knows, fun coordinate revision draining => ?_, ?_, sound.coordinates, sound.revisions,
      sizes⟩
    · by_cases own : ((coordinate, some revision) : Target) = (pin.coordinate, some pin.revision)
      · rw [own] at draining ⊢
        exact fun none => stays ⟨draining, congrArg List.length none⟩
      · exact pinned (sound.pinned coordinate revision draining) own coordinate revision rfl
    · exact sound.honest.evolve evolves_without (List.append_nil _).symm
        fun _ member => absurd member List.not_mem_nil

theorem coordinates_drainedBy {selected : String} :
    (controller.drainedBy pin selected).coordinates = controller.coordinates := by
  unfold DrainController.drainedBy retireRevision
  split
  · split <;> rfl
  · rfl

theorem pins_drainedBy {selected : String} :
    (controller.drainedBy pin selected).pins = (controller.without selected).pins := by
  unfold DrainController.drainedBy
  split
  · exact pins_retireRevision
  · rfl

theorem Sound.release {pinId : String} {released : Bool} (sound : Sound settings controller)
    (lawful : controller.Lawful data (.release pinId))
    (done : controller.release data pinId = .ok (released, next)) :
    Advances settings controller next := by
  obtain ⟨selected, selects, done⟩ := bind_eq_ok.mp done
  cases found : controller.pins.get? selected with
  | none =>
      simp only [found] at done
      cases done
      exact sound.same
  | some pin =>
      simp only [found] at done
      cases done
      have attended := lawful selected (by rw [selects]; rfl) pin found
      obtain ⟨drained, kept⟩ := sound.drainedBy found
      change Advances settings controller
        ((controller.drainedBy pin selected).maybeRetireCoordinate pin.coordinate)
      refine drained.quiet (quiet_maybeRetire fun draining some' => ?_)
      rw [coordinates_drainedBy] at draining
      rw [targetPins_congr pins_drainedBy] at some' ⊢
      obtain ⟨stays, member⟩ := List.exists_mem_of_ne_nil _ some'
      obtain ⟨inside, apart⟩ := sound.mem_without.mp member
      obtain ⟨open', among, apart', _, unretired⟩ := attended draining ⟨stays, inside, apart⟩
      have member' := sound.mem_without.mpr ⟨among, apart'⟩
      obtain ⟨⟨id, present⟩, named, _⟩ := mem_targetPins.mp among
      obtain ⟨_, state, is⟩ := sound.known id open' present
      have named : open'.coordinate = pin.coordinate := named
      rw [named] at unretired is
      have same : (controller.drainedBy pin selected).state
          (pin.coordinate, some open'.revision) = some state := by
        by_contra moved
        have none := kept open'.revision (is.symm ▸ moved)
        have own : open' ∈ (controller.without selected).targetPins
            (pin.coordinate, some open'.revision) := by
          refine sound.mem_without.mpr ⟨mem_targetPins.mpr ⟨⟨id, present⟩, named, ?_⟩, apart'⟩
          exact fun revision given => Option.some.inj given
        rw [none] at own
        exact List.not_mem_nil own
      exact ⟨open', member', state, same, fun retired => unretired (retired ▸ is)⟩

/-- The start of the drain of a coordinate. -/
def begun (controller : DrainController) (coordinate : String) (state : LifecycleState)
    (reason : String) : DrainController :=
  if state = .accepting then
    { controller with coordinates := controller.coordinates.set coordinate .draining }.record
      .coordinateDraining (coordinate, none) 0 reason
  else controller

theorem quiet_begun {state : LifecycleState} {reason : String}
    (present : controller.coordinates.get? coordinate = some state) :
    Quiet controller (controller.begun coordinate state reason) := by
  unfold begun
  split
  next accepting =>
    have evolves : Evolves controller
        { controller with coordinates := controller.coordinates.set coordinate .draining } := by
      refine evolves_of_state rfl fun target => ?_
      rw [state_set_coordinate]
      split
      next of =>
        have before : controller.state target = some .accepting := by
          rw [of]
          exact accepting ▸ present
        rw [before]
        exact later_accepting
      next => exact later_refl
    refine ⟨rfl, ⟨evolves.state, evolves.pins⟩, fun honest => ?_, fun pinned => ?_, ?_, rfl⟩
    · refine honest.evolve ⟨evolves.state, evolves.pins⟩ rfl fun event member reports => ?_
      obtain rfl := List.mem_singleton.mp member
      exact absurd reports.1 (by simp)
    · exact pinned
    · exact Dict.size_set.trans (if_pos (Dict.mem_keys_of_get? present))
  next => exact quiet_refl

/-- A revision with a pin is not retired by the start of a drain. -/
theorem unretired_foldl {reason : String} {keys : List (String × String)} {state : LifecycleState}
    (pins : controller.targetPins target ≠ []) (is : controller.state target = some state)
    (unretired : state ≠ .retired) :
    ∃ state', (keys.foldl (fun controller key => controller.beginRevisionDrain key reason)
      controller).state target = some state' ∧ state' ≠ .retired := by
  induction keys generalizing controller state with
  | nil => exact ⟨state, is, unretired⟩
  | cons key rest ih =>
      have quiet : Quiet controller (controller.beginRevisionDrain key reason) :=
        quiet_beginRevisionDrain
      have pins' : (controller.beginRevisionDrain key reason).targetPins target ≠ [] := by
        rw [targetPins_congr quiet.pins]
        exact pins
      have after : (controller.beginRevisionDrain key reason).state target = _ :=
        state_beginRevisionDrain
      split at after
      next of =>
        split at after
        next none => exact absurd (List.eq_nil_of_length_eq_zero (of.1 ▸ none)) pins
        next => exact ih pins' after nofun
      next => exact ih pins' (after.trans is) unretired

theorem optionalIdentifier_none {revision : Option String}
    (chosen : optionalIdentifier data revision = .ok none) : revision = none := by
  cases revision with
  | none => rfl
  | some revision =>
      change (identifier data revision).map some = _ at chosen
      cases named : identifier data revision with
      | error raised =>
          rw [named] at chosen
          cases chosen
      | ok selected =>
          rw [named] at chosen
          cases chosen

theorem optionalIdentifier_some {revision : Option String} {selected : String}
    (chosen : optionalIdentifier data revision = .ok (some selected)) :
    ∃ given, revision = some given ∧ identifier data given = .ok selected := by
  cases revision with
  | none => cases chosen
  | some revision =>
      change (identifier data revision).map some = _ at chosen
      cases named : identifier data revision with
      | error raised =>
          rw [named] at chosen
          cases chosen
      | ok other =>
          rw [named] at chosen
          cases chosen
          exact ⟨revision, rfl, named⟩

theorem Sound.beginDrain {coordinate reason : String} {revision : Option String}
    {snapshot : LifecycleSnapshot} (sound : Sound settings controller)
    (lawful : controller.Lawful data (.beginDrain coordinate revision reason))
    (done : controller.beginDrain data coordinate revision reason = .ok (snapshot, next)) :
    Advances settings controller next := by
  obtain ⟨selected, selects, done⟩ := bind_eq_ok.mp done
  obtain ⟨which, whichIs, done⟩ := bind_eq_ok.mp done
  obtain ⟨code, coded, done⟩ := bind_eq_ok.mp done
  cases present : controller.coordinates.get? selected with
  | none =>
      simp only [present] at done
      cases done
  | some coordinateState =>
  simp only [present] at done
  cases which with
  | some which =>
      dsimp only at done
      cases present' : controller.revisions.get? (selected, which) with
      | none =>
          simp only [present'] at done
          cases done
      | some state =>
          simp only [present'] at done
          obtain ⟨snapshot', _, done⟩ := bind_eq_ok.mp done
          cases done
          exact sound.quiet quiet_beginRevisionDrain
  | none =>
      have lawful := optionalIdentifier_none whichIs ▸ lawful
      dsimp only at done
      obtain ⟨snapshot', _, done⟩ := bind_eq_ok.mp done
      cases done
      change Advances settings controller
        ((((controller.begun selected coordinateState code).coordinateRevisions selected).foldl
          (fun controller key => controller.beginRevisionDrain key code)
          (controller.begun selected coordinateState code)).maybeRetireCoordinate selected)
      have starts : Quiet controller (controller.begun selected coordinateState code) :=
        quiet_begun present
      have drains : Quiet (controller.begun selected coordinateState code)
          (((controller.begun selected coordinateState code).coordinateRevisions selected).foldl
            (fun controller key => controller.beginRevisionDrain key code)
            (controller.begun selected coordinateState code)) :=
        quiet_foldl fun _ _ _ _ => quiet_beginRevisionDrain
      have both := starts.trans drains
      refine sound.quiet (both.trans (quiet_maybeRetire fun draining some' => ?_))
      have unretired : controller.state (selected, none) ≠ some .retired := by
        intro retired
        have after := (retired ▸ both.evolves.state (selected, none)).retired
        exact nomatch after.symm.trans draining
      rw [targetPins_congr both.pins] at some' ⊢
      have attends := lawful (by rw [coded]; rfl) selected (by rw [selects]; rfl) unretired
      obtain ⟨stays, member⟩ := List.exists_mem_of_ne_nil _ some'
      obtain ⟨kept, among, _, _, open'⟩ := attends ⟨stays, member, not_false⟩
      obtain ⟨⟨id, inside⟩, named, _⟩ := mem_targetPins.mp among
      obtain ⟨_, state, is⟩ := sound.known id kept inside
      have named : kept.coordinate = selected := named
      rw [named] at open' is
      have own : kept ∈ controller.targetPins (selected, some kept.revision) :=
        mem_targetPins.mpr ⟨⟨id, inside⟩, named, fun revision given => Option.some.inj given⟩
      have unmoved : (controller.begun selected coordinateState code).state
          (selected, some kept.revision) = some state := by
        unfold begun
        split
        · rw [state_record, state_set_coordinate, if_neg none_ne_some.symm]
          exact is
        · exact is
      have pins : (controller.begun selected coordinateState code).targetPins
          (selected, some kept.revision) ≠ [] := by
        rw [targetPins_congr starts.pins]
        exact List.ne_nil_of_mem own
      exact ⟨kept, among, unretired_foldl pins unmoved fun retired => open' (retired ▸ is)⟩

theorem snapshot_eq_ok {snapshot : LifecycleSnapshot}
    (taken : controller.snapshot target = .ok snapshot) :
    controller.state target = some snapshot.state ∧
      snapshot.inFlight = (controller.targetPins target).length := by
  unfold DrainController.snapshot at taken
  split at taken
  · cases taken
  · split at taken
    · cases taken
    next is =>
      cases taken
      exact ⟨is, rfl⟩

/-- Asking to cancel changes what the pins say, and not which there are. -/
theorem get?_requested {pins : Dict String AdmissionPin} {requests : List AdmissionPin}
    (distinct : (requests.map AdmissionPin.pinId).Nodup) (id : String) :
    ((requests.foldl (fun pins pin => pins.set pin.pinId { pin with cancelRequested := true })
      pins).get? id) =
      ((requests.find? (·.pinId = id)).map fun pin => { pin with cancelRequested := true }).or
        (pins.get? id) := by
  induction requests generalizing pins with
  | nil => rfl
  | cons pin rest ih =>
      obtain ⟨fresh, distinct⟩ := List.nodup_cons.mp distinct
      rw [List.foldl_cons, ih distinct, Dict.get?_set, List.find?_cons]
      by_cases same : pin.pinId = id
      · have absent : rest.find? (·.pinId = id) = none := by
          refine List.find?_eq_none.mpr fun other member named => fresh ?_
          rw [same, ← of_decide_eq_true named]
          exact List.mem_map_of_mem member
        rw [absent, if_pos same.symm, decide_eq_true same]
        rfl
      · rw [if_neg fun equal => same equal.symm, decide_eq_false same]

theorem size_requested {pins : Dict String AdmissionPin} {requests : List AdmissionPin}
    (known : ∀ pin ∈ requests, ∃ old, pins.get? pin.pinId = some old) :
    (requests.foldl (fun pins pin => pins.set pin.pinId { pin with cancelRequested := true })
      pins).size = pins.size := by
  induction requests generalizing pins with
  | nil => rfl
  | cons pin rest ih =>
      have present := known pin List.mem_cons_self
      have size : (pins.set pin.pinId { pin with cancelRequested := true }).size = pins.size :=
        Dict.size_set.trans (if_pos (Dict.get?_isSome_iff.mp present))
      rw [List.foldl_cons, ih, size]
      intro other member
      rw [Dict.get?_set]
      split
      · exact ⟨_, rfl⟩
      · exact known other (List.mem_cons_of_mem _ member)

/-- Whom a call asks to cancel. -/
structure Asks (controller next : DrainController) (requests : List String) : Prop where
  nodup : requests.Nodup
  unasked : ∀ id ∈ requests, ∃ old, controller.pins.get? id = some old ∧ ¬old.cancelRequested
  asked : ∀ id ∈ requests, ∀ pin, next.pins.get? id = some pin → pin.cancelRequested

theorem asks_nobody : Asks controller next [] :=
  ⟨List.nodup_nil, fun _ member => absurd member List.not_mem_nil,
    fun _ member => absurd member List.not_mem_nil⟩

theorem mem_requests : pin ∈ controller.requests target ↔
    pin ∈ controller.targetPins target ∧ pin.cancellable ∧ ¬pin.cancelRequested := by
  rw [requests, List.mem_filter, decide_eq_true_eq]

theorem Sound.requests_nodup (sound : Sound settings controller) :
    ((controller.requests target).map AdmissionPin.pinId).Nodup := by
  have keys : controller.pins.entries.map (fun entry => entry.2.pinId) =
      controller.pins.entries.map Prod.fst := by
    refine List.map_congr_left fun entry member => ?_
    exact (sound.known entry.1 entry.2 (Dict.mem_entries_iff.mp member)).1
  have all : ((controller.pins.entries.map Prod.snd).map AdmissionPin.pinId).Nodup := by
    rw [List.map_map]
    exact keys.symm ▸ controller.pins.keys_nodup
  have sub : (controller.requests target).Sublist (controller.pins.entries.map Prod.snd) :=
    List.filter_sublist.trans List.filter_sublist
  exact all.sublist (sub.map _)

/-- The pins after some were asked to cancel. -/
theorem Sound.get?_requestCancellation (sound : Sound settings controller) {id : String}
    (found : (controller.requestCancellation target).pins.get? id = some pin) :
    ∃ old, controller.pins.get? id = some old ∧ pin.pinId = id ∧
      pin.coordinate = old.coordinate ∧ pin.revision = old.revision ∧
      (old.cancelRequested → pin.cancelRequested) ∧
      (id ∈ (controller.requests target).map AdmissionPin.pinId → pin.cancelRequested) := by
  have after : (controller.requestCancellation target).pins.get? id = _ :=
    get?_requested sound.requests_nodup id
  rw [found] at after
  cases asked : (controller.requests target).find? (·.pinId = id) with
  | some old =>
      rw [asked] at after
      cases after
      have named : old.pinId = id := by simpa using List.find?_some asked
      obtain ⟨⟨id', found'⟩, _⟩ := mem_targetPins.mp
        (mem_requests.mp (List.mem_of_find?_eq_some asked)).1
      have same := (sound.known id' old found').1.symm.trans named
      exact ⟨old, same ▸ found', named, rfl, rfl, fun _ => rfl, fun _ => rfl⟩
  | none =>
      rw [asked] at after
      have found' : controller.pins.get? id = some pin := after.symm
      refine ⟨pin, found', (sound.known id pin found').1, rfl, rfl, fun asked => asked, fun member => ?_⟩
      obtain ⟨other, among, named⟩ := List.mem_map.mp member
      exact absurd (decide_eq_true named) (List.find?_eq_none.mp asked other among)

theorem Sound.requestCancellation (sound : Sound settings controller) :
    Advances settings controller (controller.requestCancellation target) := by
  have evolves : Evolves controller (controller.requestCancellation target) := by
    refine ⟨fun _ => later_refl, fun id pin found => ?_⟩
    obtain ⟨old, found', named, coordinate, revision, _⟩ := sound.get?_requestCancellation found
    exact .inl ⟨old, found', (sound.known id old found').1.trans named.symm, coordinate.symm,
      revision.symm⟩
  have size : (controller.requestCancellation target).pins.size = controller.pins.size := by
    refine size_requested fun pin member => ?_
    obtain ⟨⟨id, found⟩, _⟩ := mem_targetPins.mp (mem_requests.mp member).1
    exact ⟨pin, (sound.known id pin found).1.symm ▸ found⟩
  refine ⟨evolves, ?_, fun id old pin found found' asked => ?_⟩
  · refine ⟨fun id pin found => ?_, fun coordinate revision draining => ?_, ?_, sound.coordinates,
      sound.revisions, size.trans_le sound.inFlight⟩
    · obtain ⟨old, found', named, coordinate, revision, _⟩ := sound.get?_requestCancellation found
      rw [coordinate, revision]
      exact ⟨named, (sound.known id old found').2⟩
    · obtain ⟨old, member⟩ := List.exists_mem_of_ne_nil _ (sound.pinned coordinate revision draining)
      obtain ⟨⟨id, found⟩, of⟩ := mem_targetPins.mp member
      have present : ∃ pin, (controller.requestCancellation target).pins.get? id = some pin := by
        have after : (controller.requestCancellation target).pins.get? id = _ :=
          get?_requested sound.requests_nodup id
        rw [found] at after
        rw [after]
        cases ((controller.requests target).find? (·.pinId = id)) with
        | some other => exact ⟨_, rfl⟩
        | none => exact ⟨old, rfl⟩
      obtain ⟨pin, found'⟩ := present
      obtain ⟨other, found'', _, same, same', _⟩ := sound.get?_requestCancellation found'
      cases found''.symm.trans found
      exact List.ne_nil_of_mem (mem_targetPins.mpr
        ⟨⟨id, found'⟩, same.trans of.1, fun revision given => same'.trans (of.2 revision given)⟩)
    · exact sound.honest.evolve evolves (List.append_nil _).symm
        fun _ member => absurd member List.not_mem_nil
  · obtain ⟨other, found'', _, _, _, keeps, _⟩ := sound.get?_requestCancellation found'
    cases found''.symm.trans found
    exact keeps asked

theorem quiet_cancellation {inFlight count : Nat} : Quiet controller
    (controller.record .cancellationRequested target inFlight none count) := by
  refine ⟨rfl, ⟨fun _ => later_refl, evolves_refl.pins⟩, fun honest => ?_, fun pinned => pinned, rfl,
    rfl⟩
  refine honest.evolve ⟨fun _ => later_refl, evolves_refl.pins⟩ rfl fun event member reports => ?_
  obtain rfl := List.mem_singleton.mp member
  exact absurd reports.1 (by simp)

theorem Sound.advance {revision : Option String} {deadline now : ℚ} {progress : DrainProgress}
    (sound : Sound settings controller)
    (done : controller.advance data coordinate revision deadline now = .ok (progress, next)) :
    Advances settings controller next ∧ Asks controller next progress.cancellationRequests := by
  obtain ⟨selected, _, done⟩ := bind_eq_ok.mp done
  obtain ⟨which, _, done⟩ := bind_eq_ok.mp done
  obtain ⟨_, _, done⟩ := bind_eq_ok.mp done
  obtain ⟨_, _, done⟩ := bind_eq_ok.mp done
  obtain ⟨snapshot, taken, done⟩ := bind_eq_ok.mp done
  obtain ⟨is, counted⟩ := snapshot_eq_ok taken
  split at done
  · cases done
    exact ⟨sound.same, asks_nobody⟩
  split at done
  · cases done
  next draining =>
  have draining := not_not.mp draining
  rw [draining] at is
  split at done
  next none =>
    have none := List.eq_nil_of_length_eq_zero (counted.symm.trans none)
    obtain ⟨after, _, done⟩ := bind_eq_ok.mp done
    cases done
    refine ⟨?_, asks_nobody⟩
    cases which with
    | none => exact sound.quiet (quiet_retireCoordinate ⟨.draining, is⟩ fun _ => none)
    | some which => exact absurd none (sound.pinned selected which is)
  split at done
  · cases done
    exact ⟨sound.same, asks_nobody⟩
  dsimp only at done
  split at done
  · obtain ⟨after, _, done⟩ := bind_eq_ok.mp done
    cases done
    have requested : Advances settings controller
        (controller.requestCancellation (selected, which)) := sound.requestCancellation
    refine ⟨requested.quiet quiet_cancellation, ⟨sound.requests_nodup, fun id member => ?_,
      fun id member pin found => ?_⟩⟩
    · obtain ⟨pin, among, named⟩ := List.mem_map.mp member
      obtain ⟨inside, _, unasked⟩ := mem_requests.mp among
      obtain ⟨⟨id', found⟩, _⟩ := mem_targetPins.mp inside
      have same := (sound.known id' pin found).1.symm.trans named
      exact ⟨pin, same ▸ found, unasked⟩
    · obtain ⟨_, _, _, _, _, _, asked⟩ := sound.get?_requestCancellation found
      exact asked member
  · cases done
    exact ⟨sound.same, asks_nobody⟩

theorem Sound.forceRetire {revision : Option String} {policy : ForceRetirePolicy} {reason : String}
    {snapshot : LifecycleSnapshot} (sound : Sound settings controller)
    (lawful : controller.Lawful data (.forceRetire coordinate revision policy reason))
    (done : controller.forceRetire data coordinate revision policy reason = .ok (snapshot, next)) :
    Advances settings controller next := by
  obtain ⟨selected, selects, done⟩ := bind_eq_ok.mp done
  obtain ⟨which, whichIs, done⟩ := bind_eq_ok.mp done
  obtain ⟨code, coded, done⟩ := bind_eq_ok.mp done
  obtain ⟨_, allowed, done⟩ := bind_eq_ok.mp done
  obtain ⟨before, taken, done⟩ := bind_eq_ok.mp done
  obtain ⟨_, drains, done⟩ := bind_eq_ok.mp done
  obtain ⟨after, _, done⟩ := bind_eq_ok.mp done
  cases done
  have draining := not_not.mp (raiseIf_eq_ok.mp drains)
  obtain ⟨is, _⟩ := snapshot_eq_ok taken
  rw [draining] at is
  cases which with
  | none => exact sound.quiet (quiet_retireCoordinate ⟨.draining, is⟩ nofun)
  | some which =>
      obtain ⟨given, rfl, names⟩ := optionalIdentifier_some whichIs
      obtain rfl := not_not.mp (raiseIf_eq_ok.mp allowed)
      have retires : Quiet controller
          (controller.retireRevision (selected, which) code true) :=
        quiet_retireRevision ⟨.draining, is⟩ nofun
      refine sound.quiet (retires.trans (quiet_maybeRetire fun open' some' => ?_))
      have whole : controller.state (selected, none) = some .draining := by
        have same : (controller.retireRevision (selected, which) code true).state
            (selected, none) = some .draining := open'
        rwa [state_retireRevision, if_neg none_ne_some] at same
      have attends := lawful (by rw [coded]; rfl) selected (by rw [selects]; rfl) which
        (by rw [names]; rfl) whole is
      rw [targetPins_congr retires.pins] at some' ⊢
      obtain ⟨stays, member⟩ := List.exists_mem_of_ne_nil _ some'
      obtain ⟨kept, among, _, apart, unretired⟩ := attends ⟨stays, member, not_false⟩
      obtain ⟨⟨id, found⟩, named, _⟩ := mem_targetPins.mp among
      obtain ⟨_, state, present⟩ := sound.known id kept found
      have named : kept.coordinate = selected := named
      rw [named] at unretired present
      refine ⟨kept, among, state, ?_, fun retired => unretired (retired ▸ present)⟩
      rw [state_retireRevision, if_neg]
      · exact present
      · exact fun same => apart (Option.some.inj (Prod.mk.inj same).2)

/-- What a call does that returns. -/
theorem Sound.perform {action : Action} {requests : List String}
    (sound : Sound settings controller) (lawful : controller.Lawful data action)
    (done : controller.perform settings data action = .ok (requests, next)) :
    Advances settings controller next ∧ Asks controller next requests := by
  cases action with
  | register coordinate revision =>
      obtain ⟨⟨_, _⟩, returned, same⟩ := map_eq_ok.mp done
      cases same
      exact ⟨sound.register returned, asks_nobody⟩
  | admission coordinate revision pinId cancellable =>
      obtain ⟨⟨_, _⟩, returned, same⟩ := map_eq_ok.mp done
      cases same
      exact ⟨sound.admission returned, asks_nobody⟩
  | release pinId =>
      obtain ⟨⟨_, _⟩, returned, same⟩ := map_eq_ok.mp done
      cases same
      exact ⟨sound.release lawful returned, asks_nobody⟩
  | beginDrain coordinate revision reason =>
      obtain ⟨⟨_, _⟩, returned, same⟩ := map_eq_ok.mp done
      cases same
      exact ⟨sound.beginDrain lawful returned, asks_nobody⟩
  | advance coordinate revision deadline now =>
      obtain ⟨⟨_, _⟩, returned, same⟩ := map_eq_ok.mp done
      cases same
      exact sound.advance returned
  | forceRetire coordinate revision policy reason =>
      obtain ⟨⟨_, _⟩, returned, same⟩ := map_eq_ok.mp done
      cases same
      exact ⟨sound.forceRetire lawful returned, asks_nobody⟩

end DrainController

end CapabilityHub.Lifecycle
