import CapabilityHub.Data.Runs
import CapabilityHub.Updates.Store

/-! # The pointer state machine

The calls of any number of processes are made and commit in any order. Every commit follows the
state machine of its row, and between two changes of a pointer that expect the same revision the
pointer comes back to it (`CapabilityHub.Updates.pointers_along`): comparing with the expected
revision does not tell a pointer that has come back from one that never changed
(`CapabilityHub.Updates.rolls_back_twice`).
-/

namespace CapabilityHub.Updates

open Transaction

/-- A call that returned. -/
structure Commit where
  /-- The number of the call, in the order in which the calls were made. -/
  number : Nat
  call : Call
  /-- The row of the coordinate before the call. -/
  before : UpdateState
  after : UpdateState
  /-- How many calls had been made. -/
  made : Nat

/-- A store and the calls that were made. -/
structure System where
  updates : CapabilityUpdates := ∅
  /-- The calls that have not committed. -/
  waiting : List (Nat × Call) := []
  made : Nat := 0
  /-- The calls that returned, the last one first. -/
  commits : List Commit := []

inductive Action where
  | make (call : Call)
  | commit (number : Nat)

def step (system : System) : Action → System
  | .make call => { system with
      waiting := system.waiting ++ [(system.made, call)]
      made := system.made + 1 }
  | .commit number =>
      match system.waiting.lookup number with
      | none => system
      | some call =>
          let waiting := system.waiting.filter (·.1 ≠ number)
          match call.perform system.updates with
          | .ok state updates => { system with
              updates := updates
              waiting := waiting
              commits := ⟨number, call, system.updates.readState call.coordinate, state,
                system.made⟩ :: system.commits }
          | .error _ updates => { system with updates := updates, waiting := waiting }

/-! ## What the history tells -/

/-- The commits of the coordinate. -/
def commitsOf (coordinate : String) (commits : List Commit) : List Commit :=
  commits.filter (·.call.coordinate = coordinate)

/-- The call changed the active pointer. -/
def Commit.Changes (commit : Commit) : Prop :=
  commit.before.activeRevision ≠ commit.after.activeRevision

instance {commit : Commit} : Decidable commit.Changes := inferInstanceAs (Decidable (_ ≠ _))

/-- The pointer just before the current one. -/
def pointerBefore (commits : List Commit) : Option String :=
  (commits.find? (·.Changes)).bind fun commit => commit.before.activeRevision

/-- The last result for the revision since it is the staged one. -/
def lastHealth (revision : String) : List Commit → Option Bool
  | [] => none
  | commit :: earlier =>
      match commit.call with
      | .recordHealth _ _ passed => some passed
      | _ =>
          if commit.before.stagedRevision = some revision then lastHealth revision earlier else none

/-- The call moves the pointer of its coordinate, if only to the revision that it has. -/
def Call.Moves : Call → Bool
  | .activate .. | .rollback .. => true
  | _ => false

/-- The last activation or rollback. -/
def lastMove (commits : List Commit) : Option Commit := commits.find? (·.call.Moves)

/-! ## What is claimed of a run -/

/-- The call may change the pointer of the row as it does. -/
def Call.MayChange (commits : List Commit) (before after : UpdateState) : Call → Prop
  | .bootstrapActive _ revision => before = {} ∧ after.activeRevision = some revision
  | .activate _ revision _ _ => before.stagedRevision = some revision ∧
      lastHealth revision commits = some true ∧ after.activeRevision = some revision
  | .rollback .. => after.activeRevision = pointerBefore commits
  | _ => False

/-- **What holds of every step.** -/
structure Lawful (system : System) (action : Action) : Prop where
  /-- The pointers change by a call that may do so only. -/
  changes : ∀ coordinate, let before := system.updates.readState coordinate
    let after := (step system action).updates.readState coordinate
    before.activeRevision ≠ after.activeRevision → ∃ number call, action = .commit number ∧
      system.waiting.lookup number = some call ∧ call.coordinate = coordinate ∧
      call.MayChange (commitsOf coordinate system.commits) before after
  /-- A call that raises changes no row. -/
  refusal : ∀ number call error final, action = .commit number →
    system.waiting.lookup number = some call → call.perform system.updates = .error error final →
    (step system action).updates = system.updates
  /-- After an activation of another revision, a rollback restores the one before. -/
  restores : ∀ coordinate revision earlier expected expected' validate validate' commit state final,
    lastMove (commitsOf coordinate system.commits) = some commit →
    commit.call = .activate coordinate revision expected validate →
    commit.before.activeRevision = some earlier → earlier ≠ revision →
    ((SQLiteUpdateStore.rollback coordinate expected' validate' system.updates = .ok state final) ↔
      expected' = revision ∧
      validate' (system.updates.activePointers.set coordinate earlier) = .ok () ∧
      state = { activeRevision := some earlier, previousRevision := some revision } ∧
      final = system.updates.set coordinate state)

/-- Of two changes of a pointer by calls that expect one revision, the second one comes after a
change back to that revision. -/
def ReturnsBetween (commits : List Commit) : Prop :=
  ∀ later second middle first earlier expected,
    commits = later ++ second :: middle ++ first :: earlier →
    first.call.coordinate = second.call.coordinate →
    first.call.expected = some expected → second.call.expected = some expected →
    first.Changes → second.Changes →
    ∃ commit ∈ middle, commit.call.coordinate = first.call.coordinate ∧ commit.Changes ∧
      commit.after.activeRevision = expected

/-- One at most of two calls that expect the same revision, and were both made before one of them
committed, changes the pointer. -/
def ChangesOnce (commits : List Commit) : Prop :=
  ∀ later second middle first earlier expected,
    commits = later ++ second :: middle ++ first :: earlier →
    first.call.coordinate = second.call.coordinate →
    first.call.expected = some expected → second.call.expected = some expected →
    second.number < first.made → first.Changes → ¬second.Changes

/-- There is a health status just where a revision is staged. -/
def HealthOfStaged (updates : CapabilityUpdates) : Prop :=
  ∀ coordinate, (updates.readState coordinate).healthStatus ≠ none ↔
    (updates.readState coordinate).stagedRevision ≠ none

/-! ## What holds of a row -/

section

variable {commits : List Commit} {state state' : UpdateState} {call : Call} {system : System}
  {action : Action} {number made : Nat} {revision coordinate : String}

/-- The status of a staged revision with the last result. -/
def HealthStatus.of : Option Bool → HealthStatus
  | none => .pending
  | some true => .passed
  | some false => .failed

/-- The change of the pointer. -/
def Commit.change (commit : Commit) : Option String × Option String :=
  (commit.before.activeRevision, commit.after.activeRevision)

/-- **What the row of a coordinate keeps of its commits.** -/
structure Sound (commits : List Commit) (state : UpdateState) : Prop where
  health : state.healthStatus ≠ none ↔ state.stagedRevision ≠ none
  unmanaged : state.activeRevision = none → state.previousRevision = none
  known : ∀ revision, state.stagedRevision = some revision →
    state.healthStatus = some (.of (lastHealth revision commits))
  previous : state.previousRevision = none ∨ state.previousRevision = state.activeRevision ∨
    state.previousRevision = pointerBefore commits
  activated : ∀ commit coordinate revision expected validate, lastMove commits = some commit →
    commit.call = .activate coordinate revision expected validate →
    state.activeRevision = some revision ∧ state.previousRevision = commit.before.activeRevision
  leads : Leads state.activeRevision (commits.map Commit.change)
  moved : ∀ commit ∈ commits, Moved commit.call commit.before commit.after

theorem sound_nil : Sound [] {} where
  health := by simp
  unmanaged := fun _ => rfl
  known := nofun
  previous := .inl rfl
  activated := fun _ _ _ _ _ last => (by contradiction)
  leads := trivial
  moved := fun _ member => absurd member List.not_mem_nil

theorem pointerBefore_cons {commit : Commit} : pointerBefore (commit :: commits) =
    if commit.Changes then commit.before.activeRevision else pointerBefore commits := by
  rw [pointerBefore, List.find?_cons]
  by_cases changes : commit.Changes
  · simp [changes]
  · simp [changes, pointerBefore]

theorem lastMove_cons {commit : Commit} : lastMove (commit :: commits) =
    if commit.call.Moves then some commit else lastMove commits := by
  rw [lastMove, List.find?_cons]
  cases moves : commit.call.Moves
  · rfl
  · rfl

theorem Sound.moved_cons (sound : Sound commits state) (moves : Moved call state state') :
    ∀ commit ∈ (⟨number, call, state, state', made⟩ : Commit) :: commits,
      Moved commit.call commit.before commit.after := by
  intro commit member
  rcases List.mem_cons.mp member with rfl | member
  · exact moves
  · exact sound.moved commit member

/-- A call that keeps the pointers. -/
theorem Sound.keep (sound : Sound commits state) (moves : Moved call state state')
    (stays : call.Moves = false) (active : state'.activeRevision = state.activeRevision)
    (previous : state'.previousRevision = state.previousRevision)
    (health : state'.healthStatus ≠ none ↔ state'.stagedRevision ≠ none)
    (known : ∀ revision, state'.stagedRevision = some revision → state'.healthStatus =
      some (.of (lastHealth revision (⟨number, call, state, state', made⟩ :: commits)))) :
    Sound (⟨number, call, state, state', made⟩ :: commits) state' where
  health := health
  unmanaged := by
    rw [active, previous]
    exact sound.unmanaged
  known := known
  previous := by
    have kept : ¬(⟨number, call, state, state', made⟩ : Commit).Changes :=
      fun changes => changes active.symm
    rw [pointerBefore_cons, if_neg kept, active, previous]
    exact sound.previous
  activated := by
    rw [lastMove_cons, stays, active, previous]
    exact sound.activated
  leads := ⟨rfl, sound.leads⟩
  moved := sound.moved_cons moves

/-- A call that moves the pointer, and remembers where it was. -/
theorem Sound.move (sound : Sound commits state) (moves : Moved call state state')
    (moving : call.Moves = true) (active : state'.activeRevision = some revision)
    (previous : state'.previousRevision = state.activeRevision)
    (unstaged : state'.stagedRevision = none) (cleared : state'.healthStatus = none)
    (target : ∀ coordinate revision' expected validate,
      call = .activate coordinate revision' expected validate → revision = revision') :
    Sound (⟨number, call, state, state', made⟩ :: commits) state' where
  health := by simp [unstaged, cleared]
  unmanaged := by
    rw [active]
    exact nofun
  known := by
    rw [unstaged]
    exact nofun
  previous := by
    rw [pointerBefore_cons]
    by_cases changes : (⟨number, call, state, state', made⟩ : Commit).Changes
    · rw [if_pos changes]
      exact .inr (.inr previous)
    · exact .inr (.inl (previous.trans (not_not.mp changes)))
  activated := by
    intro commit coordinate revision' expected validate last activation
    rw [lastMove_cons, if_pos moving] at last
    obtain rfl := Option.some.inj last
    obtain rfl := target _ _ _ _ activation
    exact ⟨active, previous⟩
  leads := ⟨rfl, sound.leads⟩
  moved := sound.moved_cons moves

theorem Sound.step (sound : Sound commits state) (moves : Moved call state state') :
    Sound (⟨number, call, state, state', made⟩ :: commits) state' := by
  cases moves with
  | bootstrapped empty unstaged => exact {
      health := by simp
      unmanaged := nofun
      known := nofun
      previous := .inl rfl
      activated := by
        intro commit coordinate revision expected validate last activation
        rw [lastMove_cons] at last
        have managed := (sound.activated _ _ _ _ _ last activation).1
        rw [empty] at managed
        contradiction
      leads := ⟨rfl, sound.leads⟩
      moved := sound.moved_cons (.bootstrapped empty unstaged) }
  | confirmed found =>
      refine sound.keep (.confirmed found) rfl rfl rfl sound.health fun revision staged => ?_
      rw [lastHealth, if_pos staged]
      exact sound.known revision staged
  | staged unstaged =>
      refine sound.keep (.staged unstaged) rfl rfl rfl (by simp) fun revision _ => ?_
      rw [lastHealth, if_neg (by rw [unstaged]; exact nofun)]
      rfl
  | restaged staged =>
      refine sound.keep (.restaged staged) rfl rfl rfl sound.health fun revision staged => ?_
      rw [lastHealth, if_pos staged]
      exact sound.known revision staged
  | checked staged =>
      refine sound.keep (.checked staged) rfl rfl rfl (by simp [staged]) fun revision _ => ?_
      rw [lastHealth]
      split <;> simp_all [HealthStatus.of]
  | activated staged healthy =>
      exact sound.move (.activated staged healthy) rfl rfl rfl rfl rfl
        fun _ _ _ _ same => (Call.activate.inj same).2.1
  | rolledBack expects found =>
      exact sound.move (.rolledBack expects found) rfl rfl expects.symm rfl rfl nofun

/-- The pointer changes by a call that may change it. -/
theorem Sound.mayChange (sound : Sound commits state) (moves : Moved call state state')
    (changes : state.activeRevision ≠ state'.activeRevision) :
    call.MayChange commits state state' := by
  cases moves with
  | bootstrapped empty unstaged =>
      have cleared : state.healthStatus = none := by
        by_contra present
        exact sound.health.mp present unstaged
      have row : state = {} := by
        obtain ⟨active, previous, staged, health⟩ := state
        obtain rfl : active = none := empty
        obtain rfl : staged = none := unstaged
        obtain rfl : health = none := cleared
        obtain rfl : previous = none := sound.unmanaged rfl
        rfl
      exact ⟨row, rfl⟩
  | activated staged healthy =>
      refine ⟨staged, ?_, rfl⟩
      have known := sound.known _ staged
      rw [healthy, Option.some.injEq] at known
      rcases last : lastHealth _ commits with _ | _ | _
      · rw [last] at known
        contradiction
      · rw [last] at known
        contradiction
      · rfl
  | rolledBack expects found =>
      rcases sound.previous with none | same | before
      · rw [found] at none
        contradiction
      · exact absurd (same.symm.trans found) changes
      · exact found.symm.trans before
  | _ => exact absurd rfl changes

/-- A call expects the pointer that it finds. -/
theorem Moved.expects (moves : Moved call state state') {expected : Option String}
    (same : call.expected = some expected) : state.activeRevision = expected := by
  cases moves with
  | staged | restaged | activated => exact Option.some.inj same
  | rolledBack expects => exact expects.trans (Option.some.inj same)
  | _ => contradiction

/-- Between two changes that expect one revision the pointer comes back to it. -/
theorem returnsBetween
    (sound : ∀ coordinate, ∃ state, Sound (commitsOf coordinate commits) state) :
    ReturnsBetween commits := by
  intro later second middle first earlier expected split same expects expects' changes changes'
  obtain ⟨state, sound⟩ := sound first.call.coordinate
  have row : commitsOf first.call.coordinate commits = commitsOf first.call.coordinate later ++
      second :: commitsOf first.call.coordinate middle ++ first ::
        commitsOf first.call.coordinate earlier := by
    simp [split, commitsOf, List.filter_append, same]
  have leads := sound.leads
  have moved := sound.moved
  rw [row] at leads moved
  rw [List.append_assoc, List.map_append, List.cons_append, List.map_cons, List.map_append,
    List.map_cons] at leads
  have found := (moved first (by simp)).expects expects
  have found' := (moved second (by simp)).expects expects'
  have rest := leads.before
  rw [Commit.change, found'] at rest
  obtain ⟨back, member, changed, value⟩ := rest.returns fun left => changes (found.trans left.symm)
  obtain ⟨commit, present, rfl⟩ := List.mem_map.mp member
  obtain ⟨listed, about⟩ := List.mem_filter.mp present
  exact ⟨commit, listed, of_decide_eq_true about, changed, value⟩

end

section

variable {system : System} {action : Action} {number : Nat} {call : Call}

/-- The row of every coordinate is that of its commits. -/
def SystemSound (system : System) : Prop :=
  ∀ coordinate, Sound (commitsOf coordinate system.commits) (system.updates.readState coordinate)

theorem step_of_error {error : Raised} {final : CapabilityUpdates}
    (found : system.waiting.lookup number = some call)
    (raised : call.perform system.updates = .error error final) :
    step system (.commit number) =
      { system with waiting := system.waiting.filter (·.1 ≠ number) } := by
  have same := atomic_perform call _ _ _ raised
  rw [step, found]
  dsimp only
  rw [raised]
  dsimp only
  rw [same]

theorem step_of_ok {state : UpdateState} {final : CapabilityUpdates}
    (found : system.waiting.lookup number = some call)
    (done : call.perform system.updates = .ok state final) :
    step system (.commit number) = { system with
      updates := final
      waiting := system.waiting.filter (·.1 ≠ number)
      commits := ⟨number, call, system.updates.readState call.coordinate, state, system.made⟩ ::
        system.commits } := by
  rw [step, found]
  dsimp only
  rw [done]

theorem SystemSound.step (sound : SystemSound system) : SystemSound (step system action) := by
  cases action with
  | make call => exact sound
  | commit number =>
      cases found : system.waiting.lookup number with
      | none =>
          rw [Updates.step, found]
          exact sound
      | some call =>
          cases done : call.perform system.updates with
          | error error final =>
              rw [step_of_error found done]
              exact sound
          | ok state final =>
              obtain ⟨moves, rows⟩ := perform_eq_ok done
              rw [step_of_ok found done]
              intro coordinate
              dsimp only
              rw [rows, commitsOf, List.filter_cons]
              by_cases same : coordinate = call.coordinate
              · rw [if_pos (decide_eq_true same.symm), if_pos same, same]
                exact (sound call.coordinate).step moves
              · have other : ¬call.coordinate = coordinate := fun equal => same equal.symm
                rw [if_neg (by simp [other]), if_neg same]
                exact sound coordinate

theorem SystemSound.lawful (sound : SystemSound system) : Lawful system action where
  changes := by
    intro coordinate before after changes
    cases action with
    | make call => exact absurd rfl changes
    | commit number =>
        cases found : system.waiting.lookup number with
        | none =>
            refine absurd ?_ changes
            simp only [before, after, Updates.step, found]
        | some call =>
            refine ⟨number, call, rfl, found, ?_⟩
            cases done : call.perform system.updates with
            | error error final =>
                refine absurd ?_ changes
                simp only [before, after, step_of_error found done]
            | ok state final =>
                obtain ⟨moves, rows⟩ := perform_eq_ok done
                have next : after = final.readState coordinate := by
                  simp only [after, step_of_ok found done]
                rw [next, rows] at changes ⊢
                split at changes
                next same =>
                  subst same
                  rw [if_pos rfl]
                  exact ⟨rfl, (sound call.coordinate).mayChange moves changes⟩
                next => exact absurd rfl changes
  refusal := by
    intro number call error final same found raised
    rw [same, step_of_error found raised]
  restores := by
    intro coordinate revision earlier expected expected' validate validate' commit state final last
      activation before other
    obtain ⟨active, previous⟩ := (sound coordinate).activated _ _ _ _ _ last activation
    rw [rollback_eq_ok, active, previous, before, Option.some.injEq]
    constructor
    · rintro ⟨rfl, _, same, valid, rfl, rfl⟩
      obtain rfl := Option.some.inj same
      exact ⟨rfl, valid, rfl, rfl⟩
    · rintro ⟨rfl, valid, rfl, rfl⟩
      exact ⟨rfl, earlier, rfl, valid, rfl, rfl⟩

end

/-- **The pointers live by their state machine.** -/
theorem pointers_along (actions : List Action) : Along step Lawful {} actions ∧
    HealthOfStaged (run step {} actions).updates ∧
    ReturnsBetween (run step {} actions).commits := by
  have start : SystemSound {} := fun _ => sound_nil
  have sound : SystemSound (run step {} actions) := run_invariant start fun _ _ sound => sound.step
  exact ⟨along_true.imp start (fun _ _ _ sound => sound.step) fun _ _ sound _ => sound.lawful,
    fun coordinate => (sound coordinate).health,
    returnsBetween fun coordinate => ⟨_, sound coordinate⟩⟩

/-! ## A pointer that comes back -/

/-- A second revision is activated, and three rollbacks swap the two. -/
def swaps : List Action :=
  let accept : Validate := fun _ => .ok ()
  [.make (.bootstrapActive "d/a" "1"), .commit 0, .make (.stage "d/a" "2" (some "1")), .commit 1,
    .make (.recordHealth "d/a" "2" true), .commit 2, .make (.activate "d/a" "2" (some "1") accept),
    .commit 3, .make (.rollback "d/a" "2" accept), .make (.rollback "d/a" "2" accept), .commit 4,
    .make (.rollback "d/a" "1" accept), .commit 6, .commit 5]

/-- A rollback of the run. -/
def swap (number made : Nat) (expected other : String) : Commit where
  number := number
  call := .rollback "d/a" expected fun _ => .ok ()
  before := { activeRevision := some expected, previousRevision := some other }
  after := { activeRevision := some other, previousRevision := some expected }
  made := made

/-- **Two calls that expect one revision both change the pointer**, as a third one brings it back
in between. -/
theorem rolls_back_twice : ¬ChangesOnce (run step {} swaps).commits := by
  intro once
  have commits : (run step {} swaps).commits = [] ++ swap 5 7 "2" "1" :: [swap 6 7 "1" "2"] ++
      swap 4 6 "2" "1" :: (run step {} swaps).commits.drop 3 := rfl
  exact once [] _ _ _ _ (some "2") commits rfl rfl rfl (by decide) (by decide) (by decide)

end CapabilityHub.Updates
