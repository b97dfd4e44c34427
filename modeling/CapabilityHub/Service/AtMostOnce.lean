import CapabilityHub.Service.Approvals
import Mathlib.Data.List.Chain

/-! # At most one execution of a slot

The calls that are admitted to a slot follow each other only where the record of the one before was
completed and has aged out of the store, and what is replayed is what a completed call returned
(`CapabilityHub.Service.atMostOnce`). In the shared state nothing ages, so there one call is
admitted at most.
-/

namespace CapabilityHub.Service

variable {sha256 slotHash mac : Bytes → Bytes} {validates : List (String × Json) → Json → Bool}
  {backend : IdempotencyBackend} {system final : System} {call : Call} {seat : Seat} {index : Nat}

/-- The calls that were admitted to a seat, in order. -/
def System.admitted (system : System) (seat : Seat) : List Nat :=
  (system.admissions.filter fun admission => admission.1 = seat).map Prod.snd

/-- The second call found the record of the first completed and aged. -/
def Follows (backend : IdempotencyBackend) (system : System) (first second : Nat) : Prop :=
  match backend with
  | .shared => False
  | .sqlite settings => ∃ before after completedAt result reservedAt,
      system.calls[first]? = some before ∧ system.calls[second]? = some after ∧
        before.completion = some (completedAt, result) ∧ after.reservedAt = some reservedAt ∧
        (settings.resultTtlSeconds : ℚ) ≤ reservedAt - completedAt

/-- What a store gives back has the members of its output in order. -/
def Replays (backend : IdempotencyBackend) (result replay : ExecutionResult) : Prop :=
  match backend with
  | .shared => replay = result
  | .sqlite _ => replay = { result with output := result.output.sorted }

/-- Executions of one slot. -/
structure AtMostOnce (sha256 : Bytes → Bytes) (backend : IdempotencyBackend) (system : System) :
    Prop where
  /-- No call invokes its provider twice. -/
  once : ∀ call ∈ system.calls, call.invocations ≤ 1
  /-- Only calls that were admitted to their slot invoke it. -/
  admitted : ∀ index call seat, system.calls[index]? = some call → call.seat backend = some seat →
    0 < call.invocations → index ∈ system.admitted seat
  /-- No call is admitted twice. -/
  distinct : ∀ seat, (system.admitted seat).Nodup
  /-- A call is admitted only after the one before has completed and its record has aged. -/
  ordered : ∀ seat, (system.admitted seat).IsChain (Follows backend system)
  /-- A replay gives what an admitted call with the same arguments has completed with. -/
  replayed : ∀ call ∈ system.calls, ∀ seat replay, call.seat backend = some seat →
    call.phase = .replayed replay → ∃ index ∈ system.admitted seat, ∃ first now result,
      system.calls[index]? = some first ∧ first.digest sha256 = call.digest sha256 ∧
        first.invocations = 1 ∧ first.completion = some (now, result) ∧ Replays backend result replay

/-! ## Calls -/

namespace Call

/-- The call has been admitted and has not ended. -/
def Running (call : Call) : Prop :=
  match call.phase with
  | .admitted | .invoked | .settled _ | .raising => True
  | _ => False

/-- The call has been admitted, or has failed. -/
def Past (call : Call) : Prop :=
  match call.phase with
  | .checked | .waiting | .replayed _ => False
  | _ => True

/-- What the call notes fits its phase. -/
def Sound (call : Call) : Prop :=
  match call.phase with
  | .checked | .waiting | .replayed _ =>
      call.reservedAt = none ∧ call.completion = none ∧ call.invocations = 0
  | .admitted => call.completion = none ∧ call.invocations = 0
  | .invoked => call.completion = none ∧ call.invocations = 1
  | .settled result => call.completion = none ∧ call.invocations = 1 ∧ result.output.Distinct
  | .raising | .failed => call.completion = none ∧ call.invocations ≤ 1
  | .returned result => (∃ now, call.completion = some (now, result)) ∧ call.invocations = 1 ∧
      result.output.Distinct

/-- What a step keeps of a call. -/
structure Later (sha256 : Bytes → Bytes) (backend : IdempotencyBackend) (call later : Call) :
    Prop where
  seat : later.seat backend = call.seat backend
  digest : later.digest sha256 = call.digest sha256
  completion : ∀ entry, call.completion = some entry → later.completion = some entry
  reservedAt : ∀ time, call.reservedAt = some time → later.reservedAt = some time
  past : call.Past → later.Past
  running : call.Past → later.Running → call.Running

theorem later_refl (call : Call) : Later sha256 backend call call :=
  ⟨rfl, rfl, fun _ => id, fun _ => id, id, fun _ => id⟩

end Call

theorem calls_put {old changed : Call} (found : system.calls[index]? = some old) (other : Nat) :
    (system.put index changed).calls[other]? =
      if other = index then some changed else system.calls[other]? := by
  have inside : index < system.calls.length := (List.getElem?_eq_some_iff.mp found).1
  rw [System.put, List.getElem?_set]
  by_cases same : other = index
  · rw [if_pos same.symm, if_pos same, if_pos (same ▸ inside)]
  · rw [if_neg (Ne.symm same), if_neg same]

/-- A changed call and its notes. -/
theorem later_put {old changed : Call} (found : system.calls[index]? = some old)
    (later : old.Later sha256 backend changed) {other : Nat} {call : Call}
    (present : system.calls[other]? = some call) :
    ∃ after, (system.put index changed).calls[other]? = some after ∧
      call.Later sha256 backend after := by
  rw [calls_put found]
  by_cases same : other = index
  · subst same
    rw [found, Option.some.injEq] at present
    exact ⟨changed, if_pos rfl, present ▸ later⟩
  · exact ⟨call, by rw [if_neg same, present], Call.later_refl call⟩

theorem Advances.later {phase : Phase}
    (advances : Advances sha256 slotHash backend system call phase) :
    call.Later sha256 backend { call with phase := phase } := by
  refine ⟨rfl, rfl, fun _ => id, fun _ => id, ?_, ?_⟩
  · intro past
    cases advances with
    | raises => trivial
    | keyless phase => simp [Call.Past, phase] at past
    | waits phase => simp [Call.Past, phase] at past
    | fails phase => trivial
    | replays phase => rcases phase with phase | phase <;> simp [Call.Past, phase] at past
  · intro past running
    cases advances with
    | raises phase => rcases phase with phase | phase <;> simp [Call.Running, phase]
    | keyless phase => simp [Call.Past, phase] at past
    | waits => exact running.elim
    | fails => exact running.elim
    | replays => exact running.elim

theorem Advances.sound {phase : Phase} (sound : call.Sound)
    (advances : Advances sha256 slotHash backend system call phase) :
    Call.Sound { call with phase := phase } := by
  cases advances with
  | keyless phase =>
      simp only [Call.Sound, phase] at sound
      exact sound.2
  | waits phase =>
      simp only [Call.Sound, phase] at sound
      exact sound
  | fails phase =>
      rcases phase with phase | phase
      · simp only [Call.Sound, phase] at sound
        exact ⟨sound.2.1, by simp [sound.2.2]⟩
      · simp only [Call.Sound, phase] at sound
        exact ⟨sound.2.1, by simp [sound.2.2]⟩
  | replays phase =>
      rcases phase with phase | phase
      · simp only [Call.Sound, phase] at sound
        exact sound
      · simp only [Call.Sound, phase] at sound
        exact sound
  | raises phase =>
      rcases phase with phase | phase
      · simp only [Call.Sound, phase] at sound
        exact ⟨sound.1, by simp [sound.2]⟩
      · simp only [Call.Sound, phase] at sound
        exact ⟨sound.1, by simp [sound.2]⟩

theorem Call.Sound.of_completion (sound : call.Sound) {entry : ℚ × ExecutionResult}
    (completed : call.completion = some entry) :
    call.phase = .returned entry.2 ∧ call.invocations = 1 ∧ entry.2.output.Distinct := by
  unfold Call.Sound at sound
  cases phase : call.phase with
  | returned result =>
      simp only [phase, completed] at sound
      rcases sound with ⟨⟨now, same⟩, once, distinct⟩
      cases same
      exact ⟨rfl, once, distinct⟩
  | _ => simp [phase, completed] at sound

/-! ## Records -/

/-- The record of a seat is that of the call that was admitted last. -/
def Recorded (sha256 slotHash : Bytes → Bytes) (backend : IdempotencyBackend) (system : System)
    (seat : Seat) : Prop :=
  match view slotHash backend system.idempotency seat with
  | none => system.admitted seat = []
  | some (record, written) => ∃ last call, (system.admitted seat).getLast? = some last ∧
      system.calls[last]? = some call ∧ record.argumentsDigest = call.digest sha256 ∧
      (record.status = .complete → ¬call.Running ∧ ∃ now result,
        call.completion = some (now, result) ∧ (∀ time, written = some time → time = now) ∧
        ∀ stored, record.result = some stored → Replays backend result stored)

/-- What is replayed to a call has been completed in its slot. -/
def Backed (sha256 : Bytes → Bytes) (backend : IdempotencyBackend) (system : System) (seat : Seat)
    (digest : String) (replay : ExecutionResult) : Prop :=
  ∃ index ∈ system.admitted seat, ∃ first now result, system.calls[index]? = some first ∧
    first.digest sha256 = digest ∧ first.completion = some (now, result) ∧
    Replays backend result replay

/-- What holds throughout a run. -/
structure Sound (sha256 slotHash : Bytes → Bytes) (backend : IdempotencyBackend) (system : System) :
    Prop where
  calls : ∀ (index : Nat) (call : Call), system.calls[index]? = some call → call.Sound
  running : ∀ (index : Nat) (call : Call) (seat : Seat), system.calls[index]? = some call →
    call.seat backend = some seat → call.Running → (system.admitted seat).getLast? = some index
  listed : ∀ seat, ∀ index ∈ system.admitted seat, ∃ call, system.calls[index]? = some call ∧
    call.seat backend = some seat ∧ call.Past
  invoked : ∀ (index : Nat) (call : Call) (seat : Seat), system.calls[index]? = some call →
    call.seat backend = some seat → 0 < call.invocations → index ∈ system.admitted seat
  distinct : ∀ seat, (system.admitted seat).Nodup
  ordered : ∀ seat, (system.admitted seat).IsChain (Follows backend system)
  recorded : ∀ seat, Recorded sha256 slotHash backend system seat
  replayed : ∀ (index : Nat) (call : Call) (seat : Seat) (replay : ExecutionResult),
    system.calls[index]? = some call → call.seat backend = some seat → call.phase = .replayed replay →
      Backed sha256 backend system seat (call.digest sha256) replay

/-- Every call of the system is there later. -/
def Extends (sha256 : Bytes → Bytes) (backend : IdempotencyBackend) (system final : System) : Prop :=
  ∀ (index : Nat) (call : Call), system.calls[index]? = some call →
    ∃ later, final.calls[index]? = some later ∧ call.Later sha256 backend later

theorem Follows.extends {first second : Nat} (follows : Follows backend system first second)
    (grown : Extends sha256 backend system final) : Follows backend final first second := by
  cases backend with
  | shared => exact follows
  | sqlite settings =>
      rcases follows with ⟨before, after, completedAt, result, reservedAt, present, present',
        completion, reserved, aged⟩
      rcases grown first before present with ⟨before', found, later⟩
      rcases grown second after present' with ⟨after', found', later'⟩
      exact ⟨before', after', completedAt, result, reservedAt, found, found',
        later.completion _ completion, later'.reservedAt _ reserved, aged⟩

theorem Backed.extends {digest : String} {replay : ExecutionResult}
    (backed : Backed sha256 backend system seat digest replay)
    (grown : Extends sha256 backend system final)
    (admitted : ∀ index ∈ system.admitted seat, index ∈ final.admitted seat) :
    Backed sha256 backend final seat digest replay := by
  rcases backed with ⟨index, member, first, now, result, present, same, completion, replays⟩
  rcases grown index first present with ⟨first', found, later⟩
  exact ⟨index, admitted index member, first', now, result, found, later.digest.trans same,
    later.completion _ completion, replays⟩

/-- A completed record backs what it replays. -/
theorem Recorded.backed {record : IdempotencyRecord} {written : Option ℚ} {stored : ExecutionResult}
    (recorded : Recorded sha256 slotHash backend system seat)
    (seen : view slotHash backend system.idempotency seat = some (record, written))
    (complete : record.status = .complete) (given : record.result = some stored) :
    Backed sha256 backend system seat record.argumentsDigest stored := by
  unfold Recorded at recorded
  rw [seen] at recorded
  rcases recorded with ⟨last, call, ends, present, same, completed⟩
  rcases completed complete with ⟨_, now, result, completion, _, replays⟩
  exact ⟨last, List.mem_of_getLast? ends, call, now, result, present, same.symm, completion,
    replays stored given⟩

/-- A record that is left alone is still that of its last call. -/
theorem Sound.recorded_of_view (sound : Sound sha256 slotHash backend system)
    (grown : Extends sha256 backend system final)
    (admitted : final.admitted seat = system.admitted seat)
    (same : view slotHash backend final.idempotency seat =
      view slotHash backend system.idempotency seat) :
    Recorded sha256 slotHash backend final seat := by
  have recorded := sound.recorded seat
  unfold Recorded at recorded ⊢
  rw [same, admitted]
  split at recorded
  next empty => exact recorded
  next record written seen =>
    rcases recorded with ⟨last, call, ends, present, digest, completed⟩
    rcases grown last call present with ⟨later, found, after⟩
    refine ⟨last, later, ends, found, digest.trans after.digest.symm, ?_⟩
    intro complete
    rcases completed complete with ⟨ended, now, result, completion, facts⟩
    rcases sound.listed seat last (List.mem_of_getLast? ends) with ⟨call', present', _, past⟩
    rw [present, Option.some.injEq] at present'
    subst present'
    exact ⟨fun running => ended (after.running past running), now, result,
      after.completion _ completion, facts⟩

/-- Steps that admit no call. -/
theorem Sound.grow (sound : Sound sha256 slotHash backend system)
    (grown : Extends sha256 backend system final)
    (admissions : final.admissions = system.admissions)
    (calls : ∀ (index : Nat) (call : Call), final.calls[index]? = some call → call.Sound)
    (running : ∀ (index : Nat) (call : Call) (seat : Seat), final.calls[index]? = some call →
      call.seat backend = some seat → call.Running ∨ 0 < call.invocations →
        ∃ old, system.calls[index]? = some old ∧ old.seat backend = some seat ∧
          (call.Running → old.Running) ∧ (old.Running ∨ 0 < old.invocations))
    (recorded : ∀ seat, Recorded sha256 slotHash backend final seat)
    (replayed : ∀ (index : Nat) (call : Call) (seat : Seat) (replay : ExecutionResult),
      final.calls[index]? = some call → call.seat backend = some seat →
        call.phase = .replayed replay →
          Backed sha256 backend system seat (call.digest sha256) replay) :
    Sound sha256 slotHash backend final := by
  have admitted (seat : Seat) : final.admitted seat = system.admitted seat := by
    rw [System.admitted, System.admitted, admissions]
  refine ⟨calls, ?_, ?_, ?_, ?_, ?_, recorded, ?_⟩
  · intro index call seat present seated active
    rcases running index call seat present seated (.inl active) with
      ⟨old, present', seated', before, _⟩
    rw [admitted]
    exact sound.running index old seat present' seated' (before active)
  · intro seat index member
    rw [admitted] at member
    rcases sound.listed seat index member with ⟨old, present, seated, past⟩
    rcases grown index old present with ⟨later, found, after⟩
    exact ⟨later, found, after.seat.trans seated, after.past past⟩
  · intro index call seat present seated positive
    rcases running index call seat present seated (.inr positive) with
      ⟨old, present', seated', _, active⟩
    rw [admitted]
    rcases active with active | positive
    · exact List.mem_of_getLast? (sound.running index old seat present' seated' active)
    · exact sound.invoked index old seat present' seated' positive
  · intro seat
    rw [admitted]
    exact sound.distinct seat
  · intro seat
    rw [admitted]
    exact (sound.ordered seat).imp fun _ _ follows => follows.extends grown
  · intro index call seat replay present seated phase
    exact (replayed index call seat replay present seated phase).extends grown
      fun _ member => by rw [admitted]; exact member

/-- A step that changes one call and leaves the records alone. -/
theorem Sound.put {old changed : Call} (sound : Sound sha256 slotHash backend system)
    (found : system.calls[index]? = some old) (later : old.Later sha256 backend changed)
    (valid : changed.Sound) (running : ∀ seat, old.seat backend = some seat →
      changed.Running ∨ 0 < changed.invocations →
        (changed.Running → old.Running) ∧ (old.Running ∨ 0 < old.invocations))
    (replayed : ∀ seat replay, old.seat backend = some seat → changed.phase = .replayed replay →
      Backed sha256 backend system seat (changed.digest sha256) replay)
    {idempotency : IdempotencyState}
    (recorded : ∀ seat, Recorded sha256 slotHash backend
      { system.put index changed with idempotency := idempotency } seat) :
    Sound sha256 slotHash backend
      { system.put index changed with idempotency := idempotency } := by
  have grown : Extends sha256 backend system
      { system.put index changed with idempotency := idempotency } :=
    fun _ _ present => later_put found later present
  refine sound.grow grown rfl ?_ ?_ recorded ?_
  · intro other call present
    replace present := (calls_put found other).symm.trans present
    split at present
    · cases present
      exact valid
    · exact sound.calls other call present
  · intro other call seat present seated active
    replace present := (calls_put found other).symm.trans present
    split at present
    next same =>
      cases present
      subst same
      rw [later.seat] at seated
      exact ⟨old, found, seated, running seat seated active⟩
    · exact ⟨call, present, seated, id, active⟩
  · intro other call seat replay present seated phase
    replace present := (calls_put found other).symm.trans present
    split at present
    · cases present
      rw [later.seat] at seated
      exact replayed seat replay seated phase
    · exact sound.replayed other call seat replay present seated phase

/-- A change that leaves the record of a seat alone. -/
theorem Sound.recorded_put {old changed : Call} (sound : Sound sha256 slotHash backend system)
    (found : system.calls[index]? = some old) (later : old.Later sha256 backend changed)
    {idempotency : IdempotencyState}
    (same : view slotHash backend idempotency seat = view slotHash backend system.idempotency seat) :
    Recorded sha256 slotHash backend
      { system.put index changed with idempotency := idempotency } seat :=
  sound.recorded_of_view (fun _ _ present => later_put found later present) rfl same

/-- A failure leaves a record that is not running alone. -/
theorem Sound.recorded_of_abandoned {now : ℚ} (sound : Sound sha256 slotHash backend system)
    (grown : Extends sha256 backend system final)
    (admitted : final.admitted seat = system.admitted seat)
    (changed : view slotHash backend final.idempotency seat =
      (view slotHash backend system.idempotency seat).map (abandoned now)) :
    Recorded sha256 slotHash backend final seat := by
  cases seen : view slotHash backend system.idempotency seat with
  | none =>
      apply sound.recorded_of_view grown admitted
      rw [changed, seen]
      rfl
  | some entry =>
      by_cases progress : entry.1.status = .inProgress
      swap
      · apply sound.recorded_of_view grown admitted
        rw [changed, seen, Option.map_some, abandoned, if_neg progress]
      rw [seen, Option.map_some, abandoned, if_pos progress] at changed
      have recorded := sound.recorded seat
      unfold Recorded at recorded ⊢
      rw [seen] at recorded
      rw [changed, admitted]
      rcases recorded with ⟨last, call, ends, present, digest, _⟩
      rcases grown last call present with ⟨later, found, after⟩
      exact ⟨last, later, ends, found, digest.trans after.digest.symm, fun complete => by cases complete⟩

theorem Sound.advanced {phase : Phase} (sound : Sound sha256 slotHash backend system)
    (found : system.calls[index]? = some call)
    (advances : Advances sha256 slotHash backend system call phase) :
    Sound sha256 slotHash backend (system.put index { call with phase := phase }) := by
  have valid := sound.calls index call found
  refine sound.put found advances.later (advances.sound valid) ?_ ?_
    (fun _ => sound.recorded_put found advances.later rfl)
  · intro seat seated active
    cases advances with
    | keyless _ keyless =>
        rw [keyless] at seated
        cases seated
    | raises phase =>
        have before : call.Running := by
          rcases phase with phase | phase <;> simp [Call.Running, phase]
        exact ⟨fun _ => before, .inl before⟩
    | waits => exact ⟨False.elim, active.imp_left False.elim⟩
    | fails => exact ⟨False.elim, active.imp_left False.elim⟩
    | replays => exact ⟨False.elim, active.imp_left False.elim⟩
  · intro seat replay seated same
    cases advances with
    | replays _ seated' seen digest complete stored =>
        cases same
        rw [seated'] at seated
        cases seated
        have backed := (sound.recorded _).backed seen complete stored
        rw [digest] at backed
        exact backed
    | _ => cases same

theorem Sound.invoke (sound : Sound sha256 slotHash backend system)
    (found : system.calls[index]? = some call) (phase : call.phase = .admitted) :
    Sound sha256 slotHash backend
      (system.put index { call with phase := .invoked, invocations := call.invocations + 1 }) := by
  have valid := sound.calls index call found
  have before : call.Running := by simp [Call.Running, phase]
  have past : call.Past := by simp [Call.Past, phase]
  have later : call.Later sha256 backend
      { call with phase := .invoked, invocations := call.invocations + 1 } :=
    ⟨rfl, rfl, fun _ => id, fun _ => id, fun _ => trivial, fun _ _ => before⟩
  simp only [Call.Sound, phase] at valid
  refine sound.put found later ⟨valid.1, by simp [valid.2]⟩ ?_ ?_ (fun _ => sound.recorded_put found later rfl)
  · exact fun _ _ _ => ⟨fun _ => before, .inl before⟩
  · intro _ _ _ same
    cases same

theorem Sound.settle {result : ExecutionResult} (sound : Sound sha256 slotHash backend system)
    (found : system.calls[index]? = some call) (phase : call.phase = .invoked)
    (distinct : result.output.Distinct) :
    Sound sha256 slotHash backend (system.put index { call with phase := .settled result }) := by
  have valid := sound.calls index call found
  have before : call.Running := by simp [Call.Running, phase]
  have later : call.Later sha256 backend { call with phase := .settled result } :=
    ⟨rfl, rfl, fun _ => id, fun _ => id, fun _ => trivial, fun _ _ => before⟩
  simp only [Call.Sound, phase] at valid
  refine sound.put found later ⟨valid.1, valid.2, distinct⟩ ?_ ?_ (fun _ => sound.recorded_put found later rfl)
  · exact fun _ _ _ => ⟨fun _ => before, .inl before⟩
  · intro _ _ _ same
    cases same

/-- The record of a running call is its own. -/
theorem Sound.record_of_running (sound : Sound sha256 slotHash backend system)
    (found : system.calls[index]? = some call) (seated : call.seat backend = some seat)
    (running : call.Running) : ∃ record written,
      view slotHash backend system.idempotency seat = some (record, written) ∧
        record.argumentsDigest = call.digest sha256 ∧ record.status ≠ .complete := by
  have last := sound.running index call seat found seated running
  have recorded := sound.recorded seat
  unfold Recorded at recorded
  split at recorded
  next =>
    rw [recorded] at last
    cases last
  next record written seen =>
    rcases recorded with ⟨other, call', ends, present, digest, completed⟩
    rw [last, Option.some.injEq] at ends
    subst ends
    rw [found, Option.some.injEq] at present
    subst present
    exact ⟨record, written, seen, digest, fun complete => (completed complete).1 running⟩

theorem Sound.complete {result : ExecutionResult} {now : ℚ}
    (injective : Function.Injective slotHash) (sound : Sound sha256 slotHash backend system)
    (found : system.calls[index]? = some call) (phase : call.phase = .settled result) :
    Sound sha256 slotHash backend
      { system.put index { call with phase := .returned result, completion := some (now, result) } with
        idempotency := match call.seat backend with
          | none => system.idempotency
          | some seat => completeSeat slotHash seat result now backend system.idempotency } := by
  have valid := sound.calls index call found
  have before : call.Running := by simp [Call.Running, phase]
  simp only [Call.Sound, phase] at valid
  rcases valid with ⟨none, once, distinct⟩
  have later : call.Later sha256 backend
      { call with phase := .returned result, completion := some (now, result) } := by
    refine ⟨rfl, rfl, ?_, fun _ => id, fun _ => trivial, fun _ => False.elim⟩
    intro entry same
    rw [none] at same
    cases same
  refine sound.put found later ⟨⟨now, rfl⟩, once, distinct⟩ ?_ ?_ ?_
  · exact fun _ _ _ => ⟨False.elim, .inl before⟩
  · intro _ _ _ same
    cases same
  intro seat
  cases seated : call.seat backend with
  | none => exact sound.recorded_put found later rfl
  | some own =>
      have kept := kept_seat seated
      by_cases same : seat = own
      swap
      · apply sound.recorded_put found later
        exact (view_completeSeat injective kept).trans (if_neg same)
      subst same
      rcases sound.record_of_running found seated before with ⟨record, written, seen, digest, open_⟩
      have changed := @view_completeSeat slotHash backend system.idempotency seat seat now result
        injective kept
      rw [if_pos rfl, seen, Option.map_some] at changed
      unfold Recorded
      dsimp only
      rw [changed]
      refine ⟨index, _, sound.running index call seat found seated before,
        (calls_put found index).trans (if_pos rfl), ?_, ?_⟩
      · rw [later.digest, ← digest]
        cases backend with
        | shared => rfl
        | sqlite settings =>
            dsimp only [Service.completed]
            split <;> rfl
      · intro complete
        refine ⟨False.elim, now, result, rfl, ?_⟩
        cases backend with
        | shared =>
            constructor
            · intro _ same
              cases same
            · exact fun _ same => (Option.some.inj same).symm
        | sqlite settings =>
            dsimp only [Service.completed] at complete ⊢
            split at complete
            next progress =>
              simp only [if_pos progress]
              refine ⟨fun _ same => (Option.some.inj same).symm, ?_⟩
              intro stored given
              unfold SqliteIdempotencyStore.storedResult at given
              dsimp only at given
              split at given
              · rw [decodeResult_encodeResult distinct] at given
                exact (Option.some.inj given).symm
              · cases given
            next => exact absurd complete open_

theorem Sound.abandon {now : ℚ} (injective : Function.Injective slotHash)
    (sound : Sound sha256 slotHash backend system) (found : system.calls[index]? = some call)
    (phase : call.phase = .raising ∨ ∃ result, call.phase = .replayed result) :
    Sound sha256 slotHash backend
      { system.put index { call with phase := .failed } with
        idempotency := match call.seat backend with
          | none => system.idempotency
          | some seat => uncertainSeat slotHash seat now backend system.idempotency } := by
  have valid := sound.calls index call found
  have ended : Call.Sound { call with phase := .failed } := by
    rcases phase with phase | ⟨result, phase⟩
    · simp only [Call.Sound, phase] at valid
      exact valid
    · simp only [Call.Sound, phase] at valid
      exact ⟨valid.2.1, by simp [valid.2.2]⟩
  have later : call.Later sha256 backend { call with phase := .failed } :=
    ⟨rfl, rfl, fun _ => id, fun _ => id, fun _ => trivial, fun _ => False.elim⟩
  refine sound.put found later ended ?_ ?_ ?_
  · intro _ _ active
    exact ⟨False.elim, .inr (active.resolve_left id)⟩
  · intro _ _ _ same
    cases same
  intro seat
  cases seated : call.seat backend with
  | none => exact sound.recorded_put found later rfl
  | some own =>
      have kept := kept_seat seated
      by_cases same : seat = own
      swap
      · apply sound.recorded_put found later
        exact (view_uncertainSeat injective kept).trans (if_neg same)
      subst same
      refine sound.recorded_of_abandoned ?_ rfl
        ((view_uncertainSeat injective kept).trans (if_pos rfl))
      exact fun _ _ present => later_put found later present

theorem Sound.recover (sound : Sound sha256 slotHash backend system) (now : ℚ) :
    Sound sha256 slotHash backend (recoverStep backend system now) := by
  cases backend with
  | shared => exact sound
  | sqlite settings =>
      refine sound.grow (fun _ call present => ⟨call, present, Call.later_refl call⟩) rfl sound.calls
        ?_ ?_ sound.replayed
      · exact fun index call seat present seated active => ⟨call, present, seated, id, active⟩
      · intro seat
        refine sound.recorded_of_abandoned ?_ rfl view_recoverAbandoned
        exact fun _ call present => ⟨call, present, Call.later_refl call⟩

/-- Where a slot can be reserved, no call is running in it. -/
theorem Sound.aged {checkedAt : ℚ} (sound : Sound sha256 slotHash backend system)
    (free : ∀ entry, view slotHash backend system.idempotency seat = some entry →
      Aged backend checkedAt entry) {last : Nat}
    (ends : (system.admitted seat).getLast? = some last) :
    ∃ call, system.calls[last]? = some call ∧ ¬call.Running ∧
      match backend with
      | .shared => False
      | .sqlite settings => ∃ now result, call.completion = some (now, result) ∧
          (settings.resultTtlSeconds : ℚ) ≤ checkedAt - now := by
  have recorded := sound.recorded seat
  unfold Recorded at recorded
  split at recorded
  next =>
    rw [recorded] at ends
    cases ends
  next record written seen =>
    have aged := free _ seen
    cases backend with
    | shared => exact aged.elim
    | sqlite settings =>
        rcases aged with ⟨complete, updatedAt, updated, old⟩
        rcases recorded with ⟨last', call, ends', present, _, completed⟩
        rw [ends, Option.some.injEq] at ends'
        subst ends'
        rcases completed complete with ⟨ended, now, result, completion, same, _⟩
        refine ⟨call, present, ended, now, result, completion, ?_⟩
        rw [← same updatedAt updated]
        exact old

theorem admitted_append {admissions : List (Seat × Nat)} {own : Seat}
    (grown : final.admissions = admissions ++ [(own, index)])
    (same : system.admissions = admissions) (seat : Seat) :
    final.admitted seat = if seat = own then system.admitted seat ++ [index]
      else system.admitted seat := by
  rw [System.admitted, grown, List.filter_append, List.map_append, System.admitted, same]
  by_cases equal : seat = own
  · simp [equal]
  · simp [equal, Ne.symm equal]

theorem Sound.reserve {checkedAt insertedAt : ℚ} (injective : Function.Injective slotHash)
    (sound : Sound sha256 slotHash backend system) (found : system.calls[index]? = some call)
    (phase : call.phase = .checked) (seated : call.seat backend = some seat)
    (free : (reserveSeat slotHash seat (call.digest sha256) checkedAt insertedAt backend
      system.idempotency).1 = none) :
    Sound sha256 slotHash backend
      { system.put index { call with phase := .admitted, reservedAt := some checkedAt } with
        idempotency := (reserveSeat slotHash seat (call.digest sha256) checkedAt insertedAt backend
          system.idempotency).2
        admissions := system.admissions ++ [(seat, index)] } := by
  have valid := sound.calls index call found
  have kept := kept_seat seated
  simp only [Call.Sound, phase] at valid
  rcases valid with ⟨reservedAt, completion, invocations⟩
  rcases reserveSeat_none kept free with ⟨aged, written, inserted⟩
  have later : call.Later sha256 backend
      { call with phase := .admitted, reservedAt := some checkedAt } := by
    refine ⟨rfl, rfl, fun _ => id, ?_, fun _ => trivial, ?_⟩
    · intro time same
      rw [reservedAt] at same
      cases same
    · intro past
      simp [Call.Past, phase] at past
  have grown : Extends sha256 backend system
      { system.put index { call with phase := .admitted, reservedAt := some checkedAt } with
        idempotency := (reserveSeat slotHash seat (call.digest sha256) checkedAt insertedAt backend
          system.idempotency).2
        admissions := system.admissions ++ [(seat, index)] } :=
    fun _ _ present => later_put found later present
  have admitted (other : Seat) := @admitted_append system
    { system.put index { call with phase := .admitted, reservedAt := some checkedAt } with
      idempotency := (reserveSeat slotHash seat (call.digest sha256) checkedAt insertedAt backend
        system.idempotency).2
      admissions := system.admissions ++ [(seat, index)] } index system.admissions seat rfl rfl other
  have member {other : Seat} {earlier : Nat} (known : earlier ∈ system.admitted other) :
      earlier ∈ if other = seat then system.admitted other ++ [index] else system.admitted other := by
    split
    · exact List.mem_append_left _ known
    · exact known
  have fresh : index ∉ system.admitted seat := by
    intro known
    rcases sound.listed seat index known with ⟨call', present, _, past⟩
    rw [found, Option.some.injEq] at present
    subst present
    simp [Call.Past, phase] at past
  have idle {other : Nat} {call' : Call} (present : system.calls[other]? = some call')
      (seated' : call'.seat backend = some seat) : ¬call'.Running := by
    intro running
    have last := sound.running other call' seat present seated' running
    rcases sound.aged aged last with ⟨call'', present', ended, _⟩
    rw [present, Option.some.injEq] at present'
    exact ended (present' ▸ running)
  refine ⟨?_, ?_, ?_, ?_, ?_, ?_, ?_, ?_⟩
  · intro other call' present
    replace present := (calls_put found other).symm.trans present
    split at present
    · cases present
      exact ⟨completion, invocations⟩
    · exact sound.calls other call' present
  · intro other call' seat' present seated' running
    replace present := (calls_put found other).symm.trans present
    rw [admitted]
    split at present
    next same =>
      cases present
      have own : seat' = seat := Option.some.inj (seated'.symm.trans seated)
      rw [if_pos own, same, List.getLast?_append]
      rfl
    next =>
      split
      next own => exact absurd running (idle present (own ▸ seated'))
      · exact sound.running other call' seat' present seated' running
  · intro seat' other known
    rw [admitted] at known
    have listed : other = index ∧ seat' = seat ∨ other ∈ system.admitted seat' := by
      split at known
      next own =>
        rcases List.mem_append.mp known with known | same
        · exact .inr known
        · exact .inl ⟨List.mem_singleton.mp same, own⟩
      · exact .inr known
    rcases listed with ⟨rfl, rfl⟩ | known
    · exact ⟨_, (calls_put found other).trans (if_pos rfl), seated, trivial⟩
    · rcases sound.listed seat' other known with ⟨call', present, seated', past⟩
      rcases grown other call' present with ⟨after, there, kept'⟩
      exact ⟨after, there, kept'.seat.trans seated', kept'.past past⟩
  · intro other call' seat' present seated' positive
    replace present := (calls_put found other).symm.trans present
    rw [admitted]
    split at present
    · cases present
      simp [invocations] at positive
    · exact member (sound.invoked other call' seat' present seated' positive)
  · intro seat'
    rw [admitted]
    split
    next own =>
      subst own
      rw [List.nodup_append]
      refine ⟨sound.distinct seat', List.nodup_singleton _, ?_⟩
      intro earlier known other same equal
      rw [List.mem_singleton.mp same] at equal
      exact fresh (equal ▸ known)
    · exact sound.distinct seat'
  · intro seat'
    rw [admitted]
    have ordered := (sound.ordered seat').imp fun _ _ follows => Follows.extends follows grown
    split
    next own =>
      subst own
      rw [List.isChain_append]
      refine ⟨ordered, List.isChain_singleton _, ?_⟩
      intro last ends other same
      rw [List.head?_cons, Option.mem_some_iff] at same
      subst same
      rcases sound.aged aged ends with ⟨before, present, _, facts⟩
      cases backend with
      | shared => exact facts.elim
      | sqlite settings =>
          rcases facts with ⟨now, result, completed, old⟩
          rcases grown last before present with ⟨after, there, kept'⟩
          exact ⟨after, _, now, result, checkedAt, there, (calls_put found index).trans (if_pos rfl),
            kept'.completion _ completed, rfl, old⟩
    · exact ordered
  · intro seat'
    by_cases own : seat' = seat
    · subst own
      unfold Recorded
      dsimp only
      rw [inserted, admitted, if_pos rfl]
      refine ⟨index, _, List.getLast?_concat, (calls_put found index).trans (if_pos rfl), rfl, ?_⟩
      intro complete
      cases complete
    · apply sound.recorded_of_view grown (by rw [admitted, if_neg own])
      exact view_reserveSeat_of_ne injective kept own
  · intro other call' seat' replay present seated' same
    replace present := (calls_put found other).symm.trans present
    split at present
    · cases present
      cases same
    · apply (sound.replayed other call' seat' replay present seated' same).extends grown
      intro earlier known
      rw [admitted]
      exact member known

theorem Sound.open (sound : Sound sha256 slotHash backend system) (phase : call.phase = .checked)
    (reservedAt : call.reservedAt = none) (completion : call.completion = none)
    (invocations : call.invocations = 0) :
    Sound sha256 slotHash backend { system with calls := system.calls ++ [call] } := by
  have grown : Extends sha256 backend system { system with calls := system.calls ++ [call] } := by
    intro index known present
    have inside : index < system.calls.length := (List.getElem?_eq_some_iff.mp present).1
    exact ⟨known, (List.getElem?_append_left inside).trans present, known.later_refl⟩
  have origin {index : Nat} {known : Call} (present : (system.calls ++ [call])[index]? = some known) :
      system.calls[index]? = some known ∨ known = call := by
    rcases Nat.lt_or_ge index system.calls.length with inside | outside
    · rw [List.getElem?_append_left inside] at present
      exact .inl present
    · rw [List.getElem?_append_right outside] at present
      exact .inr (List.mem_singleton.mp (List.mem_of_getElem? present))
  refine sound.grow grown rfl ?_ ?_ (fun _ => sound.recorded_of_view grown rfl rfl) ?_
  · intro index known present
    rcases origin present with present | rfl
    · exact sound.calls index known present
    · simp [Call.Sound, phase, reservedAt, completion, invocations]
  · intro index known seat present seated active
    rcases origin present with present | rfl
    · exact ⟨known, present, seated, id, active⟩
    · simp [Call.Running, phase, invocations] at active
  · intro index known seat replay present seated same
    rcases origin present with present | rfl
    · exact sound.replayed index known seat replay present seated same
    · rw [phase] at same
      cases same

/-- One step keeps the executions of each slot apart. -/
theorem Sound.effect (injective : Function.Injective slotHash)
    (sound : Sound sha256 slotHash backend system)
    (effect : Effect sha256 slotHash backend system final) :
    Sound sha256 slotHash backend final := by
  cases effect with
  | issued idempotency calls admissions =>
      have admitted (seat : Seat) : final.admitted seat = system.admitted seat := by
        rw [System.admitted, System.admitted, admissions]
      have grown : Extends sha256 backend system final :=
        fun _ call present => ⟨call, calls ▸ present, call.later_refl⟩
      refine sound.grow grown admissions (calls ▸ sound.calls) ?_ ?_ ?_
      · rw [calls]
        exact fun _ call _ present seated active => ⟨call, present, seated, id, active⟩
      · exact fun seat => sound.recorded_of_view grown (admitted seat) (by rw [idempotency])
      · rw [calls]
        exact sound.replayed
  | opened phase reservedAt completion invocations =>
      exact sound.open phase reservedAt completion invocations
  | progressed progress =>
      cases progress with
      | idle => exact sound
      | advanced found advances => exact sound.advanced found advances
      | invoked found phase => exact sound.invoke found phase
      | settled found phase distinct => exact sound.settle found phase distinct
      | reserved found phase seated free => exact sound.reserve injective found phase seated free
      | completed found phase => exact sound.complete injective found phase
      | abandoned found phase => exact sound.abandon injective found phase
      | recovered => exact sound.recover _

theorem sound_initial : Sound sha256 slotHash backend .initial where
  calls := by simp [System.initial]
  running := by simp [System.initial]
  listed := by simp [System.initial, System.admitted]
  invoked := by simp [System.initial]
  distinct := by simp [System.initial, System.admitted]
  ordered := by simp [System.initial, System.admitted]
  recorded := by
    intro seat
    cases backend <;> simp [Recorded, view, System.initial, System.admitted, Dict.get?_empty]
  replayed := by simp [System.initial]

theorem Sound.executions (sound : Sound sha256 slotHash backend system) :
    AtMostOnce sha256 backend system where
  once := by
    intro call member
    rcases List.mem_iff_getElem?.mp member with ⟨index, present⟩
    have valid := sound.calls index call present
    unfold Call.Sound at valid
    split at valid <;> omega
  admitted := sound.invoked
  distinct := sound.distinct
  ordered := sound.ordered
  replayed := by
    intro call member seat replay seated phase
    rcases List.mem_iff_getElem?.mp member with ⟨index, present⟩
    rcases sound.replayed index call seat replay present seated phase with
      ⟨first, listed, before, now, result, there, same, completion, replays⟩
    have once := ((sound.calls first before there).of_completion completion).2.1
    exact ⟨first, listed, before, now, result, there, same, once, completion, replays⟩

/-- **At most one execution of a slot** at a time, and until its record has aged. -/
theorem atMostOnce (sha256 slotHash mac : Bytes → Bytes)
    (validates : List (String × Json) → Json → Bool) (backend : IdempotencyBackend)
    (actions : List Action) (injective : Function.Injective slotHash)
    (answers : ∀ action ∈ actions, Answers action) :
    AtMostOnce sha256 backend
      (run (step sha256 slotHash mac validates backend) .initial actions) := by
  apply Sound.executions
  exact (along_of_forall answers).invariant sound_initial
    fun system action legal sound => sound.effect injective (step_effect legal)

/-! ## A record that ages -/

/-- Invocations of one slot are those of one call. -/
def SingleExecution (backend : IdempotencyBackend) (system : System) : Prop :=
  ∀ (first second : Nat) (call call' : Call) (seat : Seat), system.calls[first]? = some call →
    system.calls[second]? = some call' → call.seat backend = some seat →
      call'.seat backend = some seat → 0 < call.invocations → 0 < call'.invocations →
        first = second

section

variable {service : CapabilityHubService} {manifest : CapabilityManifest} {operation : OperationSpec}
  {context : ServiceContext}

/-- Of two executions of an operation, one completes before the other reaches the store, which is
when the record is one second old. -/
def executedTwice (sha256 mac : Bytes → Bytes) (service : CapabilityHubService)
    (manifest : CapabilityManifest) (operation : OperationSpec) (context : ServiceContext) :
    List Action :=
  let request := requestOf sha256 mac service manifest operation context "a"
  [.search service context manifest.identity.revision 0,
    .load service (References.referenceOf mac
      (claimsFor manifest "load" context.referenceScope service.loadRefTtl)) context none none 2000 0 0
      (fun _ => (0, 0)) (.ok ()),
    .approve service manifest.identity.revision operation.name [] "a" context 300 0,
    .execute service request context none 0 0 (.ok ()),
    .execute service request context none 0 0 (.ok ()),
    .reserve 0 0 0, .invoke 0,
    .provide 0 (.ok ⟨manifest.identity.revision, operation.name, .null, manifest.provider, 0, ""⟩)
      (.ok ()),
    .complete 0 0, .reserve 1 1 1, .invoke 1]

/-- A store that keeps its records for one second. -/
def brief : StoreSettings where
  resultTtlSeconds := 1
  ttl := by decide
  bytes := by decide

theorem OpenWrite.run_executedTwice (openWrite : OpenWrite service manifest operation context) :
    ¬SingleExecution (.sqlite brief)
      (run (step sha256 slotHash mac (fun _ _ => true) (.sqlite brief)) .initial
        (executedTwice sha256 mac service manifest operation context)) := by
  have short : ¬256 < "k".length := by decide
  have tokens : ((measureText (canonicalJson .null)).portableTokens : Int) = 1 := by decide +kernel
  have limit : ¬context.maxOutputTokens < 1 := by
    have positive := context.positive.2
    omega
  intro single
  simp only [run, executedTwice, List.foldl_cons, List.foldl_nil, openWrite.step_search,
    openWrite.step_load, openWrite.step_approve, openWrite.step_execute, Dict.get?_set_self] at single
  simp [short, step, reserveStep, invokeStep, System.change, System.put, System.initial, requestOf,
    Call.seat, reserveSeat, SqliteIdempotencyStore.reserve, provideStep, settleResult,
    normalizeResult, validateProviderOutput, raiseIf, Bind.bind, Except.bind, pure, Except.pure,
    tokens, limit, completeStep, completeSeat, SqliteIdempotencyStore.complete,
    SqliteIdempotencyStore.completeRow, brief] at single
  have same := single 0 1 _ _ _ rfl rfl rfl rfl Nat.one_pos Nat.one_pos
  cases same

/-- The record of an execution ages out, and the slot is executed again. -/
theorem slot_executed_twice : ¬SingleExecution (.sqlite brief)
    (run (step id id id (fun _ _ => true) (.sqlite brief)) .initial
      (executedTwice id id writing writer write actor)) :=
  openWrite_writing.run_executedTwice

theorem atMostOnce_executedTwice : AtMostOnce id (.sqlite brief)
    (run (step id id id (fun _ _ => true) (.sqlite brief)) .initial
      (executedTwice id id writing writer write actor)) := by
  apply atMostOnce id id id (fun _ _ => true) (.sqlite brief) _ Function.injective_id
  simp [executedTwice, Answers, Json.Distinct]

end

end CapabilityHub.Service
