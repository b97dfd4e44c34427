import CapabilityHub.Supervision.Workers

/-! # Exclusive workers

Where a worker begins to run provider code only after its call has registered it, runs none when
its call takes it off the register, and is not closed while a `cancel` looks at it, at most one
worker of a reference runs provider code, and `cancel` returns
(`CapabilityHub.Supervision.workers_along`). The code does not see to any of the three
(`CapabilityHub.Supervision.unsafe_runs`).
-/

namespace CapabilityHub.Supervision

/-- The worker is registered in this phase. -/
def Phase.Registered : Phase → Prop
  | registered | received | closed => True
  | _ => False

instance : DecidablePred Phase.Registered
  | .registered | .received | .closed => .isTrue trivial
  | .started | .failed | .rejected | .over => .isFalse id

/-- The worker was registered by this phase. -/
def Phase.wasRegistered : Phase → Bool
  | started | failed | rejected => false
  | _ => true

namespace Supervisor

variable (supervisor : Supervisor)

/-- **What is claimed of a supervisor.** -/
structure Safe : Prop where
  /-- Two workers of one reference do not run provider code at once. -/
  exclusive : ∀ number other first second, supervisor.executions.get? number = some first →
    supervisor.executions.get? other = some second → first.executionRef = second.executionRef →
    first.process.InCode → second.process.InCode → number = other
  /-- The worker of a call that was rejected never ran provider code. -/
  unused : ∀ number execution, supervisor.executions.get? number = some execution →
    execution.phase = .rejected → execution.process.entered = false
  /-- The register has the workers of the calls that are between registration and deregistration. -/
  register : ∀ executionRef number, supervisor.workers.get? executionRef = some number ↔
    ∃ execution, supervisor.executions.get? number = some execution ∧
      execution.executionRef = executionRef ∧ execution.phase.Registered
  /-- Each worker is registered once, and taken off the register once when its call is over. -/
  once : ∀ number execution, supervisor.executions.get? number = some execution →
    supervisor.registrations.count number = (if execution.phase.wasRegistered then 1 else 0) ∧
      supervisor.deregistrations.count number = if execution.phase = .over then 1 else 0
  /-- A reference is marked as cancelled just where a `cancel` stopped the worker that it has now. -/
  marks : ∀ executionRef, executionRef ∈ supervisor.cancelled ↔
    ∃ number execution, supervisor.workers.get? executionRef = some number ∧
      supervisor.executions.get? number = some execution ∧ execution.cancelled = true
  /-- Every `cancel` returned. -/
  returned : ∀ answer ∈ supervisor.answers, answer ≠ none

/-- **What is claimed of a step.** -/
structure Lawful (action : Action) : Prop where
  /-- A worker is taken off the register by its own call. -/
  own : ∀ executionRef number, supervisor.workers.get? executionRef = some number →
    (supervisor.step action).workers.get? executionRef ≠ some number → action = .deregister number
  /-- A `cancel` does something to the worker only that has the reference when it takes the lock. -/
  aimed : ∀ executionRef number, action = .cancel executionRef →
    (supervisor.step action).executions.get? number ≠ supervisor.executions.get? number →
    supervisor.workers.get? executionRef = some number
  /-- While it holds the lock, this worker stays the one. -/
  kept : ∀ killed last number, action = .stop killed last →
    (supervisor.step action).executions.get? number ≠ supervisor.executions.get? number →
    supervisor.stopping = some number ∧
      ∃ executionRef, supervisor.workers.get? executionRef = some number

/-- Provider code begins in registered workers only and has ended when a worker is taken off the
register, and no `cancel` meets a closed process. -/
def Orderly : Action → Prop
  | .enter number => ∀ execution ∈ supervisor.executions.get? number, execution.phase.Registered
  | .deregister number =>
      ∀ execution ∈ supervisor.executions.get? number, ¬execution.process.InCode
  | .cancel executionRef => ∀ number ∈ supervisor.workers.get? executionRef,
      ∀ execution ∈ supervisor.executions.get? number, execution.process.closed = false
  | .stop _ _ => ∀ number ∈ supervisor.stopping,
      ∀ execution ∈ supervisor.executions.get? number, execution.process.closed = false
  | _ => True

instance : DecidablePred supervisor.Orderly
  | .enter _ | .deregister _ | .cancel _ | .stop _ _ => inferInstanceAs (Decidable (∀ _ ∈ _, _))
  | .start _ | .leave _ | .exit _ | .failJob _ _ | .register _ _ | .receive _ _ | .close _ _ =>
      .isTrue trivial

end Supervisor

/-! ## What holds of a supervisor -/

namespace Supervisor

variable {supervisor : Supervisor} {number other : Nat} {execution : Execution} {action : Action}
  {executionRef : String} {killed last : Bool}

/-- **Only registered workers are in provider code, and the register is that of the phases.** -/
structure Sound (supervisor : Supervisor) : Prop where
  register : ∀ executionRef number, supervisor.workers.get? executionRef = some number ↔
    ∃ execution, supervisor.executions.get? number = some execution ∧
      execution.executionRef = executionRef ∧ execution.phase.Registered
  inCode : ∀ number execution, supervisor.executions.get? number = some execution →
    execution.process.InCode → execution.phase.Registered
  entered : ∀ number execution, supervisor.executions.get? number = some execution →
    execution.process.entered = true → execution.phase.wasRegistered = true
  stopped : ∀ number execution, supervisor.executions.get? number = some execution →
    execution.cancelled = true → execution.phase.wasRegistered = true
  counted : ∀ number execution, supervisor.executions.get? number = some execution →
    supervisor.registrations.count number = (if execution.phase.wasRegistered then 1 else 0) ∧
      supervisor.deregistrations.count number = if execution.phase = .over then 1 else 0
  marks : ∀ executionRef, executionRef ∈ supervisor.cancelled ↔
    ∃ number execution, supervisor.workers.get? executionRef = some number ∧
      supervisor.executions.get? number = some execution ∧ execution.cancelled = true
  returned : ∀ answer ∈ supervisor.answers, answer ≠ none
  fresh : ∀ number, supervisor.started ≤ number → supervisor.executions.get? number = none ∧
    supervisor.registrations.count number = 0 ∧ supervisor.deregistrations.count number = 0
  stopping : ∀ number, supervisor.stopping = some number →
    ∃ executionRef, supervisor.workers.get? executionRef = some number

theorem sound_empty : Sound {} where
  register := by simp
  inCode := nofun
  entered := nofun
  stopped := nofun
  counted := nofun
  marks := by simp
  returned := nofun
  fresh := fun _ _ => ⟨rfl, rfl, rfl⟩
  stopping := nofun

theorem get?_put : (supervisor.put number execution).executions.get? other =
    if other = number then some execution else supervisor.executions.get? other :=
  Dict.get?_set

theorem Sound.safe (sound : Sound supervisor) : Safe supervisor where
  exclusive := by
    intro number other first second found found' same inCode inCode'
    have here := (sound.register first.executionRef number).mpr
      ⟨first, found, rfl, sound.inCode number first found inCode⟩
    have there := (sound.register first.executionRef other).mpr
      ⟨second, found', same.symm, sound.inCode other second found' inCode'⟩
    rw [here] at there
    exact Option.some.inj there
  unused := by
    intro number execution found rejected
    by_contra ran
    have was := sound.entered number execution found ((Bool.not_eq_false _).mp ran)
    rw [rejected] at was
    contradiction
  register := sound.register
  once := sound.counted
  marks := sound.marks
  returned := sound.returned

/-- Another state of an execution that says the same to the register. -/
structure Alike (before after : Execution) : Prop where
  reference : after.executionRef = before.executionRef
  registered : after.phase.Registered ↔ before.phase.Registered
  was : after.phase.wasRegistered = before.phase.wasRegistered
  finished : after.phase = .over ↔ before.phase = .over
  inCode : after.process.InCode → after.phase.Registered
  entered : after.process.entered = true → after.phase.wasRegistered = true
  stopped : after.cancelled = true → after.phase.wasRegistered = true

/-- Another state of an execution, and other marks and answers of the calls of `cancel`. -/
theorem Sound.change (sound : Sound supervisor) {before : Execution} {cancelled : List String}
    {stopping : Option Nat} {answers : List (Option Bool)}
    (found : supervisor.executions.get? number = some before) (alike : Alike before execution)
    (marks : ∀ executionRef, executionRef ∈ cancelled ↔
      ∃ other state, supervisor.workers.get? executionRef = some other ∧
        (supervisor.put number execution).executions.get? other = some state ∧
        state.cancelled = true)
    (returned : ∀ answer ∈ answers, answer ≠ none)
    (locked : ∀ other, stopping = some other →
      ∃ executionRef, supervisor.workers.get? executionRef = some other) :
    Sound { supervisor.put number execution with
      cancelled := cancelled, stopping := stopping, answers := answers } where
  register := by
    intro executionRef other
    refine (sound.register executionRef other).trans ?_
    dsimp only
    rw [get?_put]
    split
    next same =>
      subst same
      simp only [found, Option.some.injEq, exists_eq_left']
      rw [alike.reference, alike.registered]
    next => rfl
  inCode := by
    intro other state known
    dsimp only at known
    rw [get?_put] at known
    split at known
    next =>
      obtain rfl := Option.some.inj known
      exact alike.inCode
    next => exact sound.inCode other state known
  entered := by
    intro other state known
    dsimp only at known
    rw [get?_put] at known
    split at known
    next =>
      obtain rfl := Option.some.inj known
      exact alike.entered
    next => exact sound.entered other state known
  stopped := by
    intro other state known
    dsimp only at known
    rw [get?_put] at known
    split at known
    next =>
      obtain rfl := Option.some.inj known
      exact alike.stopped
    next => exact sound.stopped other state known
  counted := by
    intro other state known
    dsimp only at known
    rw [get?_put] at known
    split at known
    next same =>
      obtain rfl := Option.some.inj known
      subst same
      have counted := sound.counted _ before found
      rw [alike.was]
      simp only [alike.finished]
      exact counted
    next => exact sound.counted other state known
  marks := marks
  returned := returned
  fresh := by
    intro other late
    obtain ⟨none, counts⟩ := sound.fresh other late
    refine ⟨?_, counts⟩
    dsimp only
    rw [get?_put, if_neg ?_, none]
    intro same
    rw [same, found] at none
    contradiction
  stopping := locked

theorem Sound.put (sound : Sound supervisor) {before : Execution}
    (found : supervisor.executions.get? number = some before) (alike : Alike before execution)
    (cancelled : execution.cancelled = before.cancelled) :
    Sound (supervisor.put number execution) := by
  refine sound.change found alike (fun executionRef => ?_) sound.returned sound.stopping
  refine (sound.marks executionRef).trans (exists_congr fun other => ?_)
  rw [get?_put]
  split
  next same =>
    subst same
    simp only [found, Option.some.injEq, exists_eq_left', cancelled, exists_and_left]
  next => rfl

theorem Sound.start (sound : Sound supervisor) :
    Sound (supervisor.step (.start executionRef)) := by
  obtain ⟨unknown, unregistered, kept⟩ := sound.fresh _ (Nat.le_refl supervisor.started)
  have old {number : Nat} {execution : Execution}
      (found : supervisor.executions.get? number = some execution) : number ≠ supervisor.started := by
    intro same
    rw [same, unknown] at found
    contradiction
  rw [step]
  constructor
  · intro executionRef' number
    dsimp only
    rw [get?_put]
    split
    next same =>
      subst same
      refine ⟨fun found => ?_, fun ⟨_, same, _, registered⟩ => ?_⟩
      · obtain ⟨_, known, _⟩ := (sound.register _ _).mp found
        rw [unknown] at known
        contradiction
      · obtain rfl := Option.some.inj same
        exact absurd registered id
    next => exact sound.register executionRef' number
  · intro number execution found
    dsimp only at found
    rw [get?_put] at found
    split at found
    next =>
      obtain rfl := Option.some.inj found
      exact fun inCode => absurd inCode.2.1 Bool.false_ne_true
    next => exact sound.inCode number execution found
  · intro number execution found
    dsimp only at found
    rw [get?_put] at found
    split at found
    next =>
      obtain rfl := Option.some.inj found
      exact fun entered => absurd entered Bool.false_ne_true
    next => exact sound.entered number execution found
  · intro number execution found
    dsimp only at found
    rw [get?_put] at found
    split at found
    next =>
      obtain rfl := Option.some.inj found
      exact fun cancelled => absurd cancelled Bool.false_ne_true
    next => exact sound.stopped number execution found
  · intro number execution found
    dsimp only at found
    rw [get?_put] at found
    split at found
    next same =>
      obtain rfl := Option.some.inj found
      subst same
      exact ⟨unregistered, kept⟩
    next => exact sound.counted number execution found
  · intro executionRef'
    refine (sound.marks executionRef').trans (exists_congr fun number => ?_)
    dsimp only
    rw [get?_put]
    split
    next same =>
      subst same
      refine ⟨fun ⟨_, _, found, _⟩ => absurd rfl (old found), fun ⟨_, here, _⟩ => ?_⟩
      obtain ⟨_, found, _⟩ := (sound.register _ _).mp here
      exact absurd rfl (old found)
    next => rfl
  · exact sound.returned
  · intro number late
    obtain ⟨none, counts⟩ := sound.fresh number (Nat.le_of_succ_le late)
    refine ⟨?_, counts⟩
    dsimp only
    rw [get?_put, if_neg (Nat.ne_of_gt late), none]
  · exact sound.stopping

theorem Sound.register_worker (sound : Sound supervisor)
    (found : supervisor.executions.get? number = some execution)
    (started : execution.phase = .started)
    (free : supervisor.workers.get? execution.executionRef = none) :
    Sound { supervisor.put number { execution with phase := .registered } with
      workers := supervisor.workers.set execution.executionRef number
      registrations := number :: supervisor.registrations } := by
  have unregistered {executionRef : String} :
      supervisor.workers.get? executionRef ≠ some number := by
    intro here
    obtain ⟨_, known, _, registered⟩ := (sound.register _ _).mp here
    rw [found] at known
    obtain rfl := Option.some.inj known
    rw [started] at registered
    exact registered
  constructor
  · intro executionRef other
    dsimp only
    rw [Dict.get?_set, get?_put]
    by_cases same : executionRef = execution.executionRef
    · rw [if_pos same]
      subst same
      refine ⟨fun here => ?_, fun ⟨state, known, named, registered⟩ => ?_⟩
      · rw [if_pos (Option.some.inj here).symm]
        exact ⟨_, rfl, rfl, trivial⟩
      · split at known
        next same => rw [same]
        next =>
          have here := (sound.register _ _).mpr ⟨state, known, named, registered⟩
          rw [free] at here
          contradiction
    · rw [if_neg same]
      split
      next here =>
        subst here
        refine ⟨fun here => absurd here unregistered, fun ⟨state, known, named, _⟩ => ?_⟩
        obtain rfl := Option.some.inj known
        exact absurd named.symm same
      next => exact sound.register executionRef other
  · intro other state known
    dsimp only at known
    rw [get?_put] at known
    split at known
    next =>
      obtain rfl := Option.some.inj known
      exact fun _ => trivial
    next => exact sound.inCode other state known
  · intro other state known
    dsimp only at known
    rw [get?_put] at known
    split at known
    next =>
      obtain rfl := Option.some.inj known
      exact fun _ => rfl
    next => exact sound.entered other state known
  · intro other state known
    dsimp only at known
    rw [get?_put] at known
    split at known
    next =>
      obtain rfl := Option.some.inj known
      exact fun _ => rfl
    next => exact sound.stopped other state known
  · intro other state known
    dsimp only at known ⊢
    rw [get?_put] at known
    split at known
    next same =>
      obtain rfl := Option.some.inj known
      obtain ⟨none, kept⟩ := sound.counted number execution found
      rw [started] at none kept
      rw [same, List.count_cons_self, none]
      exact ⟨rfl, kept⟩
    next different =>
      rw [List.count_cons_of_ne (Ne.symm different)]
      exact sound.counted other state known
  · intro executionRef
    dsimp only
    refine (sound.marks executionRef).trans ?_
    rw [Dict.get?_set]
    by_cases same : executionRef = execution.executionRef
    · rw [if_pos same, same, free]
      refine ⟨fun ⟨_, _, here, _⟩ => (by contradiction), fun ⟨other, state, here, known, marked⟩ => ?_⟩
      obtain rfl := Option.some.inj here
      rw [get?_put, if_pos rfl] at known
      obtain rfl := Option.some.inj known
      have was := sound.stopped number execution found marked
      rw [started] at was
      contradiction
    · rw [if_neg same]
      refine exists_congr fun other => exists_congr fun state => and_congr_right fun here => ?_
      rw [get?_put, if_neg fun equal => unregistered (equal ▸ here)]
  · exact sound.returned
  · intro other late
    obtain ⟨none, counts⟩ := sound.fresh other late
    have different : other ≠ number := by
      intro same
      rw [same, found] at none
      contradiction
    dsimp only
    rw [get?_put, if_neg different, List.count_cons_of_ne (Ne.symm different)]
    exact ⟨none, counts⟩
  · intro other stopping
    obtain ⟨executionRef, here⟩ := sound.stopping other stopping
    refine ⟨executionRef, ?_⟩
    dsimp only
    rw [Dict.get?_set, if_neg ?_, here]
    intro same
    rw [same, free] at here
    contradiction

theorem Sound.deregister (sound : Sound supervisor)
    (found : supervisor.executions.get? number = some execution) (closed : execution.phase = .closed)
    (idle : ¬execution.process.InCode) (unlocked : supervisor.stopping = none) :
    Sound (supervisor.deregister number execution) := by
  have registered : supervisor.workers.get? execution.executionRef = some number :=
    (sound.register _ _).mpr ⟨execution, found, rfl, by rw [closed]; trivial⟩
  rw [Supervisor.deregister]
  constructor
  · intro executionRef other
    dsimp only
    rw [Dict.get?_erase, get?_put]
    by_cases same : executionRef = execution.executionRef
    · rw [if_pos same]
      refine ⟨fun here => (by contradiction), fun ⟨state, known, named, isRegistered⟩ => ?_⟩
      split at known
      next =>
        obtain rfl := Option.some.inj known
        exact absurd isRegistered id
      next different =>
        have here := (sound.register _ _).mpr ⟨state, known, named, isRegistered⟩
        rw [same, registered] at here
        exact absurd (Option.some.inj here).symm different
    · rw [if_neg same]
      split
      next here =>
        subst here
        refine ⟨fun here => ?_, fun ⟨state, known, _, isRegistered⟩ => ?_⟩
        · obtain ⟨state, known, named, _⟩ := (sound.register _ _).mp here
          rw [found] at known
          obtain rfl := Option.some.inj known
          exact absurd named.symm same
        · obtain rfl := Option.some.inj known
          exact absurd isRegistered id
      next => exact sound.register executionRef other
  · intro other state known
    dsimp only at known
    rw [get?_put] at known
    split at known
    next =>
      obtain rfl := Option.some.inj known
      exact fun inCode => absurd inCode idle
    next => exact sound.inCode other state known
  · intro other state known
    dsimp only at known
    rw [get?_put] at known
    split at known
    next =>
      obtain rfl := Option.some.inj known
      exact fun _ => rfl
    next => exact sound.entered other state known
  · intro other state known
    dsimp only at known
    rw [get?_put] at known
    split at known
    next =>
      obtain rfl := Option.some.inj known
      exact fun _ => rfl
    next => exact sound.stopped other state known
  · intro other state known
    dsimp only at known ⊢
    rw [get?_put] at known
    split at known
    next same =>
      obtain rfl := Option.some.inj known
      obtain ⟨once, none⟩ := sound.counted number execution found
      rw [closed] at once none
      rw [same, List.count_cons_self, none]
      exact ⟨once, rfl⟩
    next different =>
      rw [List.count_cons_of_ne (Ne.symm different)]
      exact sound.counted other state known
  · intro executionRef
    dsimp only
    rw [List.mem_filter, sound.marks executionRef, Dict.get?_erase]
    by_cases same : executionRef = execution.executionRef
    · rw [if_pos same]
      refine ⟨fun ⟨_, different⟩ => absurd same (of_decide_eq_true different),
        fun ⟨_, _, here, _⟩ => (by contradiction)⟩
    · rw [if_neg same]
      refine (and_iff_left (decide_eq_true same)).trans ?_
      refine exists_congr fun other => exists_congr fun state => and_congr_right fun here => ?_
      rw [get?_put, if_neg ?_]
      intro equal
      obtain ⟨state, known, named, _⟩ := (sound.register _ _).mp here
      rw [equal, found] at known
      obtain rfl := Option.some.inj known
      exact same named.symm
  · exact sound.returned
  · intro other late
    obtain ⟨none, registrations, deregistrations⟩ := sound.fresh other late
    have different : other ≠ number := by
      intro same
      rw [same, found] at none
      contradiction
    dsimp only
    rw [get?_put, if_neg different, List.count_cons_of_ne (Ne.symm different)]
    exact ⟨none, registrations, deregistrations⟩
  · intro other stopping
    dsimp only [Supervisor.put] at stopping
    rw [unlocked] at stopping
    contradiction

theorem wasRegistered_of_registered {phase : Phase} (registered : phase.Registered) :
    phase.wasRegistered = true := by
  cases phase with
  | registered | received | closed => rfl
  | _ => exact absurd registered id

/-- A registered execution stays registered, whatever becomes of its process. -/
theorem alike_of_registered {before after : Execution}
    (reference : after.executionRef = before.executionRef)
    (registered : before.phase.Registered) (registered' : after.phase.Registered) :
    Alike before after := by
  have was := wasRegistered_of_registered registered'
  have unfinished {phase : Phase} (registered : phase.Registered) : phase ≠ .over := by
    intro same
    rw [same] at registered
    exact registered
  exact ⟨reference, iff_of_true registered' registered,
    was.trans (wasRegistered_of_registered registered).symm,
    iff_of_false (unfinished registered') (unfinished registered), fun _ => registered',
    fun _ => was, fun _ => was⟩

theorem Sound.cancel (sound : Sound supervisor)
    (here : supervisor.workers.get? executionRef = some number)
    (found : supervisor.executions.get? number = some execution)
    (opened : execution.process.closed = false) :
    Sound (supervisor.cancel executionRef number execution) := by
  obtain ⟨state, known, named, registered⟩ := (sound.register _ _).mp here
  rw [found] at known
  obtain rfl := Option.some.inj known
  rw [Supervisor.cancel, opened, if_neg Bool.false_ne_true]
  split
  next =>
    refine sound.change found (alike_of_registered rfl registered registered) ?_ sound.returned
      fun other same => ⟨executionRef, here.trans same⟩
    intro executionRef'
    by_cases same : executionRef' = executionRef
    · rw [same]
      exact iff_of_true List.mem_cons_self
        ⟨number, _, here, get?_put.trans (if_pos rfl), rfl⟩
    · rw [List.mem_cons, or_iff_right same]
      refine (sound.marks executionRef').trans ?_
      refine exists_congr fun other => exists_congr fun state => and_congr_right fun there => ?_
      rw [get?_put, if_neg ?_]
      intro equal
      obtain ⟨state, known, named', _⟩ := (sound.register _ _).mp there
      rw [equal, found] at known
      obtain rfl := Option.some.inj known
      exact same (named'.symm.trans named)
  next =>
    refine { sound with returned := ?_ }
    intro answer member
    rcases List.mem_cons.mp member with rfl | member
    · exact nofun
    · exact sound.returned answer member

theorem Sound.stopPart (sound : Sound supervisor) (stopping : supervisor.stopping = some number)
    (found : supervisor.executions.get? number = some execution)
    (opened : execution.process.closed = false) :
    Sound (supervisor.stopPart number execution killed last) := by
  obtain ⟨executionRef, here⟩ := sound.stopping number stopping
  obtain ⟨state, known, _, registered⟩ := (sound.register _ _).mp here
  rw [found] at known
  obtain rfl := Option.some.inj known
  have stopped : Sound (supervisor.put number
      { execution with process := execution.process.stop killed }) :=
    sound.put found (alike_of_registered rfl registered registered) rfl
  rw [Supervisor.stopPart, opened, if_neg Bool.false_ne_true]
  dsimp only
  split
  next =>
    refine { stopped with returned := ?_, stopping := nofun }
    intro answer member
    rcases List.mem_cons.mp member with rfl | member
    · exact nofun
    · exact sound.returned answer member
  next => exact stopped

theorem entered_stop {process : Process} : (process.stop killed).entered = process.entered := by
  cases killed <;> rfl

theorem entered_cleanUp {process : Process} :
    (process.cleanUp killed).entered = process.entered := by
  rw [Process.cleanUp]
  split
  next => exact entered_stop
  next => exact entered_stop

/-- An execution that was not registered stays so. -/
theorem Sound.put_unregistered (sound : Sound supervisor) {before : Execution}
    (found : supervisor.executions.get? number = some before) (started : before.phase = .started)
    (reference : execution.executionRef = before.executionRef)
    (phase : execution.phase ∈ [.failed, .rejected])
    (entered : execution.process.entered = before.process.entered)
    (cancelled : execution.cancelled = before.cancelled) :
    Sound (supervisor.put number execution) := by
  have unregistered : before.phase.wasRegistered = false := by rw [started]; rfl
  have never : execution.process.entered = false := by
    rw [entered]
    by_contra ran
    have was := sound.entered number before found ((Bool.not_eq_false _).mp ran)
    rw [unregistered] at was
    contradiction
  have unmarked : execution.cancelled = false := by
    rw [cancelled]
    by_contra marked
    have was := sound.stopped number before found ((Bool.not_eq_false _).mp marked)
    rw [unregistered] at was
    contradiction
  have plain : ¬execution.phase.Registered ∧ execution.phase.wasRegistered = false ∧
      execution.phase ≠ .over := by
    rcases List.mem_cons.mp phase with same | rest
    · rw [same]
      exact ⟨id, rfl, nofun⟩
    · rw [List.mem_singleton.mp rest]
      exact ⟨id, rfl, nofun⟩
  refine sound.put found ⟨reference, iff_of_false plain.1 ?_, plain.2.1.trans unregistered.symm,
    iff_of_false plain.2.2 ?_, fun inCode => absurd (never.symm.trans inCode.2.1) Bool.false_ne_true,
    fun ran => absurd (never.symm.trans ran) Bool.false_ne_true,
    fun marked => absurd (unmarked.symm.trans marked) Bool.false_ne_true⟩ cancelled
  · rw [started]
    exact id
  · rw [started]
    exact nofun

theorem Sound.step (sound : Sound supervisor) (orderly : supervisor.Orderly action) :
    Sound (supervisor.step action) := by
  cases action with
  | start executionRef => exact sound.start
  | enter number =>
      rw [Supervisor.step]
      split
      next execution found =>
        split
        next =>
          have registered := orderly execution found
          exact sound.put found (alike_of_registered rfl registered registered) rfl
        next => exact sound
      next => exact sound
  | leave number =>
      rw [Supervisor.step]
      split
      next execution found =>
        split
        next inCode =>
          have registered := sound.inCode number execution found inCode
          exact sound.put found (alike_of_registered rfl registered registered) rfl
        next => exact sound
      next => exact sound
  | exit number =>
      rw [Supervisor.step]
      split
      next execution found =>
        have ended : (execution.process.stop true).alive = false := rfl
        exact sound.put found ⟨rfl, Iff.rfl, rfl, Iff.rfl,
          fun inCode => absurd (ended.symm.trans inCode.1) Bool.false_ne_true,
          sound.entered number execution found, sound.stopped number execution found⟩ rfl
      next => exact sound
  | failJob number killed =>
      rw [Supervisor.step]
      split
      next execution found =>
        split
        next started =>
          exact sound.put_unregistered found started rfl List.mem_cons_self entered_cleanUp rfl
        next => exact sound
      next => exact sound
  | register number killed =>
      rw [Supervisor.step]
      split
      next execution found =>
        split
        next ready =>
          rw [Supervisor.register]
          split
          next =>
            exact sound.put_unregistered found ready.1 rfl (List.mem_cons_of_mem _ List.mem_cons_self)
              entered_stop rfl
          next free => exact sound.register_worker found ready.1 free
        next => exact sound
      next => exact sound
  | receive number killed =>
      rw [Supervisor.step]
      split
      next execution found =>
        split
        next registered =>
          exact sound.put found (alike_of_registered rfl (by rw [registered]; trivial) trivial) rfl
        next => exact sound
      next => exact sound
  | close number killed =>
      rw [Supervisor.step]
      split
      next execution found =>
        split
        next received =>
          exact sound.put found (alike_of_registered rfl (by rw [received]; trivial) trivial) rfl
        next => exact sound
      next => exact sound
  | deregister number =>
      rw [Supervisor.step]
      split
      next execution found =>
        split
        next ready => exact sound.deregister found ready.1 (orderly execution found) ready.2
        next => exact sound
      next => exact sound
  | cancel executionRef =>
      rw [Supervisor.step]
      split
      next =>
        split
        next =>
          refine { sound with returned := ?_ }
          intro answer member
          rcases List.mem_cons.mp member with rfl | member
          · exact nofun
          · exact sound.returned answer member
        next number here =>
          split
          next execution found =>
            exact sound.cancel here found (orderly number here execution found)
          next => exact sound
      next => exact sound
  | stop killed last =>
      rw [Supervisor.step]
      split
      next => exact sound
      next number stopping =>
        split
        next execution found =>
          exact sound.stopPart stopping found (orderly number stopping execution found)
        next => exact sound

/-- All other actions keep the workers that are registered. -/
theorem workers_step : (∃ number, action = .deregister number) ∨
    (supervisor.step action).workers = supervisor.workers ∨
    ∃ executionRef number, supervisor.workers.get? executionRef = none ∧
      (supervisor.step action).workers = supervisor.workers.set executionRef number := by
  cases action with
  | deregister number => exact .inl ⟨number, rfl⟩
  | register number killed =>
      right
      rw [step]
      split
      next execution found =>
        split
        next =>
          rw [Supervisor.register]
          split
          next => exact .inl rfl
          next free => exact .inr ⟨_, _, free, rfl⟩
        next => exact .inl rfl
      next => exact .inl rfl
  | start | enter | leave | exit | failJob | receive | close =>
      right
      left
      rw [step]
      repeat' split
      all_goals rfl
  | cancel =>
      right
      left
      rw [step]
      repeat' split
      all_goals try rfl
      rw [Supervisor.cancel]
      repeat' split
      all_goals rfl
  | stop =>
      right
      left
      rw [step]
      repeat' split
      all_goals try rfl
      rw [Supervisor.stopPart]
      repeat' split
      all_goals rfl

theorem Sound.own (sound : Sound supervisor)
    (here : supervisor.workers.get? executionRef = some number)
    (gone : (supervisor.step action).workers.get? executionRef ≠ some number) :
    action = .deregister number := by
  have cases_step : _ ∨ (supervisor.step action).workers = supervisor.workers ∨ _ := workers_step
  rcases cases_step with ⟨other, rfl⟩ | same | ⟨free, other, none, set⟩
  · rw [Supervisor.step] at gone
    split at gone
    next execution found =>
      split at gone
      next ready =>
        have registered : supervisor.workers.get? execution.executionRef = some other :=
          (sound.register _ _).mpr ⟨execution, found, rfl, by rw [ready.1]; trivial⟩
        by_cases same : executionRef = execution.executionRef
        · rw [same, registered] at here
          rw [Option.some.inj here]
        · refine absurd ?_ gone
          rw [Supervisor.deregister]
          exact Dict.get?_erase.trans ((if_neg same).trans here)
      next => exact absurd here gone
    next => exact absurd here gone
  · rw [same] at gone
    exact absurd here gone
  · refine absurd ?_ gone
    rw [set, Dict.get?_set, if_neg ?_, here]
    intro same
    rw [same, none] at here
    contradiction

theorem Sound.lawful (sound : Sound supervisor) : Lawful supervisor action where
  own := fun _ _ => sound.own
  aimed := by
    intro executionRef number same changed
    subst same
    by_contra other
    refine changed ?_
    rw [Supervisor.step]
    split
    next =>
      split
      next => rfl
      next worker here =>
        split
        next execution found =>
          have different : number ≠ worker := fun same => other (same ▸ here)
          rw [Supervisor.cancel]
          split
          next => rfl
          next =>
            split
            next => exact get?_put.trans (if_neg different)
            next => rfl
        next => rfl
    next => rfl
  kept := by
    intro killed last number same changed
    subst same
    have stopping : supervisor.stopping = some number := by
      by_contra other
      refine changed ?_
      rw [Supervisor.step]
      split
      next => rfl
      next worker stopping =>
        split
        next execution found =>
          have different : number ≠ worker := fun same => other (same ▸ stopping)
          rw [Supervisor.stopPart]
          split
          next => rfl
          next =>
            dsimp only
            split
            next => exact get?_put.trans (if_neg different)
            next => exact get?_put.trans (if_neg different)
        next => rfl
    exact ⟨stopping, sound.stopping number stopping⟩

end Supervisor

/-- **Workers are exclusive, and cancelled alone**, in an orderly run. -/
theorem workers_along (actions : List Action)
    (orderly : Along Supervisor.step Supervisor.Orderly {} actions) :
    (run Supervisor.step {} actions).Safe ∧
      Along Supervisor.step Supervisor.Lawful {} actions :=
  ⟨(orderly.invariant Supervisor.sound_empty fun _ _ orderly sound => sound.step orderly).safe,
    orderly.imp Supervisor.sound_empty (fun _ _ orderly sound => sound.step orderly)
      fun _ _ sound _ => sound.lawful⟩

/-- A worker is cancelled, and a later call of the reference is not. -/
def orderlyRun : List Action :=
  [.start "r", .register 0 false, .enter 0, .cancel "r", .stop true true, .receive 0 false,
    .close 0 false, .deregister 0, .start "r", .register 1 false, .enter 1]

theorem workers_along_orderlyRun : (run Supervisor.step {} orderlyRun).Safe ∧
    Along Supervisor.step Supervisor.Lawful {} orderlyRun :=
  workers_along _ (by decide)

/-- A second call of a reference starts its worker. -/
def secondStart : List Action := [.start "r", .register 0 false, .enter 0, .start "r", .enter 1]

/-- A `cancel` meets a worker that has been closed. -/
def lateCancel : List Action :=
  [.start "r", .register 0 false, .exit 0, .receive 0 false, .close 0 false, .cancel "r"]

/-- **Two workers of one reference run provider code**, one of a call that is rejected then, and a
`cancel` raises. -/
theorem unsafe_runs : ¬(run Supervisor.step {} secondStart).Safe ∧
    ¬(run Supervisor.step {} (secondStart ++ [.register 1 true])).Safe ∧
    ¬(run Supervisor.step {} lateCancel).Safe := by
  refine ⟨fun safe => ?_, fun safe => ?_, fun safe => ?_⟩
  · have same := safe.exclusive 0 1 _ _ rfl rfl rfl (by decide) (by decide)
    contradiction
  · have unused := safe.unused 1 _ rfl rfl
    contradiction
  · exact safe.returned none List.mem_cons_self rfl

end CapabilityHub.Supervision
