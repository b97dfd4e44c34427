import CapabilityHub.Data.Runs
import CapabilityHub.Removal.Effects
import CapabilityHub.Residency.Agreement

/-! # The context removal protocol

Calls of any coordinators on one scope. As long as each request that issues an instruction finds room
for its record, no instruction is forgotten and none is confirmed without an acknowledgement that says
so (`CapabilityHub.Removal.instructions_kept`). A coordinator that is at its limit forgets instructions
nobody has confirmed (`CapabilityHub.Removal.not_instructions_kept`).
-/

namespace CapabilityHub.Removal

open Residency Tenancy

/-- Where the scoped state keeps the records. -/
def place (keying : Keying) (scope : TenantScope) : String × String × String :=
  (keying.scope scope, "context-removal", keying.key (keying.scope scope) "context-removal" "state")

/-- A call of a coordinator. -/
structure Call where
  coordinator : ContextRemovalCoordinator
  now : ℚ
  operation : Operation

structure System where
  state : ScopedState Json
  /-- The operations that have returned and what they returned, the last one first. -/
  returned : List (Operation × RemovalInstruction) := []

section

variable (sha256 : Bytes → Bytes) (keying : Keying) (scope : TenantScope)

/-- A call that raises changes nothing. -/
def step (system : System) (call : Call) : System :=
  match perform sha256 keying scope call.coordinator system.state call.now call.operation with
  | .ok (instruction, state) =>
      { state := state, returned := (call.operation, instruction) :: system.returned }
  | .error _ => system

/-- A request that adds a record finds fewer than its coordinator keeps. -/
def Room (system : System) (call : Call) : Prop :=
  call.coordinator.supported = true → call.operation.check = .ok () → 0 ≤ call.now →
    ∀ generation records,
      decode (system.state.entry (place keying scope) call.now) = .ok (generation, records) →
      call.operation.Issues sha256 generation records →
      records.length < call.coordinator.recordLimit

/-- `token_hex(16)` gives text that no instruction has been given. -/
def Fresh (system : System) (call : Call) : Prop :=
  match call.operation with
  | .request _ _ _ token =>
      token.length = 32 ∧ ∀ done ∈ system.returned, done.2.instructionId ≠ token
  | _ => True

end

/-- What the coordinators of a scope promise after calls. -/
structure Kept (sha256 : Bytes → Bytes) (keying : Keying) (scope : TenantScope) (system : System)
    (ledger : Ledger) : Prop where
  reads : ∀ now, ledger.Reads (system.state.entry (place keying scope) now)
  /-- An instruction that is confirmed was acknowledged as removed, at the latest by that call. -/
  confirmed : ∀ done earlier, done :: earlier <:+ system.returned → done.2.confirmed = true →
    ∃ acknowledgement ∈ done :: earlier, Confirms acknowledgement done.2.instructionId
  /-- A confirmed instruction stays confirmed. -/
  stays : system.returned.Pairwise fun later earlier =>
    later.2.instructionId = earlier.2.instructionId → earlier.2.confirmed = true →
      later.2.confirmed = true
  /-- The generation counts the changes, and a call that expects another one makes none. -/
  generation : ∀ call, ∃ next : Ledger,
    (∀ now, next.Reads ((step sha256 keying scope system call).state.entry (place keying scope) now)) ∧
      (next = ledger ∨ next.generation = ledger.generation + 1) ∧
      (call.operation.expectedGeneration ≠ ledger.generation → next = ledger)
  /-- Each instruction that was returned is kept, with what is known of its confirmation. -/
  remembered : ∀ done ∈ system.returned, ∃ record ∈ ledger.records,
    record.instructionId = done.2.instructionId ∧ record.target = done.2.target ∧
      (done.2.confirmed = true → record.confirmed = true)
  retries : ∀ record ∈ ledger.records, record.confirmed = false →
    ∀ coordinator : ContextRemovalCoordinator, coordinator.supported = true → ∀ now, 0 ≤ now →
      ∃ instruction state, perform sha256 keying scope coordinator system.state now
          (.retry record.instructionId ledger.generation) = .ok (instruction, state) ∧
        instruction.instructionId = record.instructionId ∧ instruction.attempts = record.attempts + 1
  acknowledges : ∀ record ∈ ledger.records, record.confirmed = false →
    ∀ coordinator : ContextRemovalCoordinator, coordinator.supported = true → ∀ now, 0 ≤ now →
      ∀ acknowledgementId removed, checkText acknowledgementId = .ok () →
        ∃ instruction state, perform sha256 keying scope coordinator system.state now
            (.acknowledge record.instructionId acknowledgementId removed ledger.generation) =
              .ok (instruction, state) ∧
          instruction.instructionId = record.instructionId ∧
          (record.ackDigest ≠ some (digest sha256 acknowledgementId) →
            instruction.acknowledged = true ∧ instruction.confirmed = removed)
  /-- A request with a key that was used returns the instruction of that key and creates none. -/
  repeats : ∀ target key expected token instruction,
    (.request target key expected token, instruction) ∈ system.returned →
      ∀ coordinator : ContextRemovalCoordinator, ∀ now again token',
        (coordinator.supported = true → 0 ≤ now →
          ∃ repeated state, perform sha256 keying scope coordinator system.state now
              (.request target key again token') = .ok (repeated, state) ∧
            repeated.instructionId = instruction.instructionId) ∧
        ∀ target' repeated state, perform sha256 keying scope coordinator system.state now
            (.request target' key again token') = .ok (repeated, state) →
          repeated.instructionId = instruction.instructionId ∧ repeated.target = target ∧
            ∀ moment, ledger.Reads (state.entry (place keying scope) moment)

/-! ## Calls -/

variable {sha256 : Bytes → Bytes} {limit : Nat} {ledger next : Ledger} {operation : Operation}
  {result : RemovalInstruction} {record : Record} {keying : LetteredKeying} {scope : TenantScope} {system : System} {call : Call}
  {coordinator : ContextRemovalCoordinator} {state after : ScopedState Json} {now : ℚ}

theorem perform_eq_ok : perform sha256 keying.toKeying scope coordinator state now operation =
      .ok (result, after) ↔
    (coordinator.supported = true ∧ operation.check = .ok () ∧ 0 ≤ now) ∧
      ∃ value, update sha256 coordinator.recordLimit operation
          (state.entry (place keying.toKeying scope) now) = .ok (value, result) ∧
        after = { state with
          entries := (value.map fun value =>
            state.entries.set (place keying.toKeying scope) ⟨value, now, none⟩).getD
              (state.entries.erase (place keying.toKeying scope)) } := by
  have named : checkName keying.toKeying "context-removal" = .ok () :=
    ScopedContextState.checkName_plain (by decide +kernel) (by decide +kernel)
  have identified : identifier keying.toKeying "state" = .ok () :=
    ScopedContextState.identifier_plain (by decide +kernel) (by decide +kernel)
  rw [perform, bind_eq_ok, exists_unit, raiseIf_eq_ok, Bool.not_eq_false, bind_eq_ok, exists_unit,
    ScopedState.transactEntry_eq_ok named identified rfl]
  exact ⟨fun ⟨supported, checked, natural, written⟩ => ⟨⟨supported, checked, natural⟩, written⟩,
    fun ⟨⟨supported, checked, natural⟩, written⟩ => ⟨supported, checked, natural, written⟩⟩

/-- A call that returns has had one of the effects of its operation. -/
theorem effect_of_perform (reads : ∀ now, ledger.Reads (state.entry (place keying.toKeying scope) now))
    (keyed : ledger.Keyed) (valid : ledger.Valid)
    (done : perform sha256 keying.toKeying scope coordinator state now operation =
      .ok (result, after)) :
    ∃ next, Effect sha256 coordinator.recordLimit ledger operation next result ∧
      ∀ moment, next.Reads (after.entry (place keying.toKeying scope) moment) := by
  obtain ⟨-, value, updated, rfl⟩ := perform_eq_ok.mp done
  obtain ⟨next, effect, written, some⟩ := effect_of_update (reads now) keyed valid updated
  obtain ⟨json, rfl⟩ := Option.ne_none_iff_exists'.mp some
  refine ⟨next, effect, fun moment => ?_⟩
  rw [Option.map_some, Option.getD_some, ScopedState.entry_set, if_pos rfl]
  exact written

theorem perform_of_effect (reads : ∀ now, ledger.Reads (state.entry (place keying.toKeying scope) now))
    (keyed : ledger.Keyed) (valid : ledger.Valid)
    (effect : Effect sha256 coordinator.recordLimit ledger operation next result)
    (ready : coordinator.supported = true ∧ operation.check = .ok () ∧ 0 ≤ now) :
    ∃ after, perform sha256 keying.toKeying scope coordinator state now operation =
      .ok (result, after) := by
  obtain ⟨value, updated⟩ := update_of_effect (reads now) keyed valid effect
  exact ⟨_, perform_eq_ok.mpr ⟨ready, value, updated, rfl⟩⟩

/-! ## Runs -/

/-- The invariant of a run with fresh tokens and room for new records. -/
structure Sound (sha256 : Bytes → Bytes) (keying : Keying) (scope : TenantScope) (system : System)
    (ledger : Ledger) : Prop where
  reads : ∀ now, ledger.Reads (system.state.entry (place keying scope) now)
  valid : ledger.Valid
  keyed : ledger.Keyed
  sized : ∀ record ∈ ledger.records, record.instructionId.length = 32
  issued : ∀ record ∈ ledger.records, ∃ done ∈ system.returned,
    done.2.instructionId = record.instructionId
  checked : ∀ done ∈ system.returned, done.1.check = .ok ()
  remembered : ∀ done ∈ system.returned, ∃ record ∈ ledger.records,
    record.instructionId = done.2.instructionId ∧ record.target = done.2.target ∧
      (done.2.confirmed = true → record.confirmed = true)
  requested : ∀ target key expected token instruction,
    (.request target key expected token, instruction) ∈ system.returned →
      ∃ record ∈ ledger.records, record.instructionId = instruction.instructionId ∧
        record.target = target ∧ record.idempotencyDigest = digest sha256 key
  acknowledged : ∀ record ∈ ledger.records, record.confirmed = true →
    ∃ done ∈ system.returned, Confirms done record.instructionId
  confirmed : ∀ done earlier, done :: earlier <:+ system.returned → done.2.confirmed = true →
    ∃ acknowledgement ∈ done :: earlier, Confirms acknowledgement done.2.instructionId
  stays : system.returned.Pairwise fun later earlier =>
    later.2.instructionId = earlier.2.instructionId → earlier.2.confirmed = true →
      later.2.confirmed = true

theorem sound_initial (absent : state.entries.get? (place keying.toKeying scope) = none) :
    Sound sha256 keying.toKeying scope { state := state } {} where
  reads := fun now => by
    rw [ScopedState.entry, absent]
    exact reads_none
  valid := ⟨Int.le_refl 0, by simp⟩
  keyed := ⟨List.nodup_nil, List.nodup_nil⟩
  sized := by simp
  issued := by simp
  checked := by simp
  remembered := by simp
  requested := by simp
  acknowledged := by simp
  confirmed := by simp
  stays := List.Pairwise.nil

namespace Sound

variable {returned : List (Operation × RemovalInstruction)}

/-- What is confirmed after an operation was acknowledged. -/
theorem acknowledged_after (sound : Sound sha256 keying.toKeying scope ⟨state, returned⟩ ledger)
    (effect : Effect sha256 limit ledger operation next result) (confirmed : result.confirmed = true) :
    ∃ done ∈ (operation, result) :: returned, Confirms done result.instructionId := by
  rcases effect.confirmed sound.valid confirmed with ⟨record, member, rfl⟩ | confirms
  · obtain ⟨done, earlier, confirms⟩ := sound.acknowledged record member confirmed
    exact ⟨done, List.mem_cons_of_mem _ earlier, confirms⟩
  · exact ⟨_, List.mem_cons_self, confirms⟩

/-- Every record after an operation is of an instruction that was returned. -/
theorem issued_after (sound : Sound sha256 keying.toKeying scope ⟨state, returned⟩ ledger)
    (effect : Effect sha256 limit ledger operation next result) :
    ∀ record ∈ next.records, ∃ done ∈ (operation, result) :: returned,
      done.2.instructionId = record.instructionId := by
  intro record member
  rcases effect.origin member with old | rfl
  · obtain ⟨done, earlier, same⟩ := sound.issued record old
    exact ⟨done, List.mem_cons_of_mem _ earlier, same⟩
  · exact ⟨_, List.mem_cons_self, rfl⟩

theorem sized_after (sound : Sound sha256 keying.toKeying scope ⟨state, returned⟩ ledger)
    (effect : Effect sha256 limit ledger operation next result)
    (fresh : Fresh ⟨state, returned⟩ ⟨coordinator, now, operation⟩) :
    ∀ record ∈ next.records, record.instructionId.length = 32 := by
  intro record member
  rcases effect.origin member with old | rfl
  · exact sound.sized record old
  · rcases effect.identifier with ⟨old, among, same⟩ | ⟨target, key, expected, rfl⟩
    · exact same ▸ sound.sized old among
    · exact fresh.1

theorem keyed_after (sound : Sound sha256 keying.toKeying scope ⟨state, returned⟩ ledger)
    (effect : Effect sha256 limit ledger operation next result)
    (fresh : Fresh ⟨state, returned⟩ ⟨coordinator, now, operation⟩) : next.Keyed := by
  refine effect.keyed sound.keyed fun target key expected token same record member taken => ?_
  subst same
  obtain ⟨done, earlier, given⟩ := sound.issued record member
  exact fresh.2 done earlier (given.trans taken)

/-- An operation with an effect keeps the invariant. -/
theorem performed (sound : Sound sha256 keying.toKeying scope ⟨state, returned⟩ ledger)
    (reads : ∀ now, next.Reads (after.entry (place keying.toKeying scope) now))
    (effect : Effect sha256 limit ledger operation next result)
    (checked : operation.check = .ok ())
    (room : operation.Issues sha256 ledger.generation ledger.records →
      ledger.records.length < limit)
    (fresh : Fresh ⟨state, returned⟩ ⟨coordinator, now, operation⟩) :
    Sound sha256 keying.toKeying scope ⟨after, (operation, result) :: returned⟩ next := by
  obtain ⟨kept, last, among, returns⟩ := effect.kept sound.keyed room
  have keyed := sound.keyed_after effect fresh
  refine ⟨reads, effect.valid sound.valid, keyed, sound.sized_after effect fresh,
    sound.issued_after effect, List.forall_mem_cons.mpr ⟨checked, sound.checked⟩,
    List.forall_mem_cons.mpr ⟨?_, fun done earlier => ?_⟩, ?_, ?_, ?_,
    List.pairwise_cons.mpr ⟨fun done earlier same confirmed => ?_, sound.stays⟩⟩
  · exact ⟨last, among, congrArg _ returns, congrArg _ returns, fun confirmed => by
      rw [returns]
      exact confirmed⟩
  · obtain ⟨record, member, same, target, confirmed⟩ := sound.remembered done earlier
    obtain ⟨later, present, continues⟩ := kept record member
    exact ⟨later, present, continues.identifier.trans same, continues.target.trans target,
      fun holds => continues.confirmed (confirmed holds)⟩
  · intro target key expected token instruction member
    rcases List.mem_cons.mp member with new | old
    · obtain ⟨rfl, rfl⟩ := Prod.mk.inj new
      obtain ⟨record, present, rfl, named, keyed⟩ := effect.requested room
      exact ⟨record, present, rfl, named, keyed⟩
    · obtain ⟨record, member, same, named, keyed⟩ :=
        sound.requested target key expected token instruction old
      obtain ⟨later, present, continues⟩ := kept record member
      exact ⟨later, present, continues.identifier.trans same, continues.target.trans named,
        continues.key.trans keyed⟩
  · intro record member confirmed
    rcases effect.origin member with old | rfl
    · obtain ⟨done, earlier, confirms⟩ := sound.acknowledged record old confirmed
      exact ⟨done, List.mem_cons_of_mem _ earlier, confirms⟩
    · exact sound.acknowledged_after effect confirmed
  · intro done earlier suffix confirmed
    rcases List.suffix_cons_iff.mp suffix with whole | before
    · obtain ⟨rfl, rfl⟩ := List.cons.inj whole
      exact sound.acknowledged_after effect confirmed
    · exact sound.confirmed done earlier before confirmed
  · obtain ⟨record, member, named, _, holds⟩ := sound.remembered done earlier
    obtain ⟨later, present, continues⟩ := kept record member
    have one : later = last := List.inj_on_of_nodup_map keyed.ids present among <| by
      rw [continues.identifier, named, ← same, returns]
    rw [← returns, ← one]
    exact continues.confirmed (holds confirmed)

/-- A call with a fresh token and room for what it adds keeps the invariant. -/
theorem step (sound : Sound sha256 keying.toKeying scope system ledger)
    (fresh : Fresh system call) (room : Room sha256 keying.toKeying scope system call) :
    ∃ next, Sound sha256 keying.toKeying scope
      (Removal.step sha256 keying.toKeying scope system call) next := by
  rw [Removal.step]
  split
  next result after done =>
    obtain ⟨next, effect, reads⟩ := effect_of_perform sound.reads sound.keyed sound.valid done
    obtain ⟨⟨supported, checked, natural⟩, _⟩ := perform_eq_ok.mp done
    exact ⟨next, sound.performed reads effect checked
      (room supported checked natural _ _ (sound.reads call.now)) fresh⟩
  next => exact ⟨ledger, sound⟩

theorem checkText_sized (sound : Sound sha256 keying.toKeying scope system ledger)
    (member : record ∈ ledger.records) : checkText record.instructionId = .ok () := by
  have sized := sound.sized record member
  refine raiseIf_eq_ok.mpr fun bad => ?_
  rcases bad with empty | long
  · rw [empty] at sized
    exact absurd sized (by decide)
  · exact absurd long (by rw [sized]; decide)

theorem generation (sound : Sound sha256 keying.toKeying scope system ledger) (call : Call) :
    ∃ next : Ledger, (∀ now, next.Reads ((Removal.step sha256 keying.toKeying scope system
        call).state.entry (place keying.toKeying scope) now)) ∧
      (next = ledger ∨ next.generation = ledger.generation + 1) ∧
      (call.operation.expectedGeneration ≠ ledger.generation → next = ledger) := by
  rw [Removal.step]
  split
  next result after done =>
    obtain ⟨next, effect, reads⟩ := effect_of_perform sound.reads sound.keyed sound.valid done
    exact ⟨next, reads, effect.generation, effect.eq_of_stale⟩
  next => exact ⟨ledger, sound.reads, .inl rfl, fun _ => rfl⟩

theorem acknowledges (sound : Sound sha256 keying.toKeying scope system ledger)
    (member : record ∈ ledger.records) (pending : record.confirmed = false)
    (supported : coordinator.supported = true) (natural : 0 ≤ now) {acknowledgementId : String}
    {removed : Bool} (named : checkText acknowledgementId = .ok ()) :
    ∃ instruction after, perform sha256 keying.toKeying scope coordinator system.state now
        (.acknowledge record.instructionId acknowledgementId removed ledger.generation) =
          .ok (instruction, after) ∧
      instruction.instructionId = record.instructionId ∧
      (record.ackDigest ≠ some (digest sha256 acknowledgementId) →
        instruction.acknowledged = true ∧ instruction.confirmed = removed) := by
  have checked : (Operation.acknowledge record.instructionId acknowledgementId removed
      ledger.generation).check = .ok () :=
    bind_eq_ok.mpr ⟨(), sound.checkText_sized member, named⟩
  by_cases known : record.ackDigest = some (digest sha256 acknowledgementId)
  · obtain ⟨after, done⟩ := perform_of_effect sound.reads sound.keyed sound.valid
      (.known record acknowledgementId removed _ member known) ⟨supported, checked, natural⟩
    exact ⟨_, after, done, rfl, fun differs => absurd known differs⟩
  · obtain ⟨after, done⟩ := perform_of_effect sound.reads sound.keyed sound.valid
      (.answered record acknowledgementId removed member known pending)
      ⟨supported, checked, natural⟩
    exact ⟨_, after, done, rfl, fun _ => ⟨rfl, answered_confirmed sound.valid member pending⟩⟩

theorem repeats (sound : Sound sha256 keying.toKeying scope system ledger)
    {target key token token' : String} {expected again : Int} {instruction : RemovalInstruction}
    (returned : (.request target key expected token, instruction) ∈ system.returned) :
    (coordinator.supported = true → 0 ≤ now →
      ∃ repeated after, perform sha256 keying.toKeying scope coordinator system.state now
          (.request target key again token') = .ok (repeated, after) ∧
        repeated.instructionId = instruction.instructionId) ∧
    ∀ target' repeated after, perform sha256 keying.toKeying scope coordinator system.state now
        (.request target' key again token') = .ok (repeated, after) →
      repeated.instructionId = instruction.instructionId ∧ repeated.target = target ∧
        ∀ moment, ledger.Reads (after.entry (place keying.toKeying scope) moment) := by
  obtain ⟨record, member, same, named, keyed⟩ := sound.requested _ _ _ _ _ returned
  refine ⟨fun supported natural => ?_, fun target' repeated after done => ?_⟩
  · have checked : (Operation.request record.target key again token').check = .ok () :=
      named ▸ sound.checked _ returned
    obtain ⟨after, done⟩ := perform_of_effect sound.reads sound.keyed sound.valid
      (.repeated record key again token' member keyed) ⟨supported, checked, natural⟩
    exact ⟨_, after, named ▸ done, same⟩
  · obtain ⟨next, effect, reads⟩ := effect_of_perform sound.reads sound.keyed sound.valid done
    cases effect with
    | repeated other _ _ _ among digested =>
        have one : other = record :=
          List.inj_on_of_nodup_map sound.keyed.digests among member (digested.trans keyed.symm)
        exact ⟨one ▸ same, one ▸ named, reads⟩
    | issued _ _ _ absent => exact absurd keyed (absent record member)

/-- Where the invariant holds, the coordinators keep what they promise. -/
theorem promises (sound : Sound sha256 keying.toKeying scope system ledger) :
    Kept sha256 keying.toKeying scope system ledger where
  reads := sound.reads
  confirmed := sound.confirmed
  stays := sound.stays
  generation := sound.generation
  remembered := sound.remembered
  retries := fun record member pending coordinator supported now natural => by
    have effect : Effect sha256 coordinator.recordLimit ledger
        (.retry record.instructionId ledger.generation) _ _ := .retried record member pending
    obtain ⟨after, done⟩ := perform_of_effect sound.reads sound.keyed sound.valid effect
      ⟨supported, sound.checkText_sized member, natural⟩
    exact ⟨_, after, done, rfl, rfl⟩
  acknowledges := fun record member pending coordinator supported now natural _ _ =>
    sound.acknowledges member pending supported natural
  repeats := fun _ _ _ _ _ returned _ _ _ _ => sound.repeats returned

end Sound

/-- In every run in which tokens are fresh and each request that adds a record finds room for it, the
coordinators of a scope keep what they promise. -/
theorem instructions_kept (sha256 : Bytes → Bytes) (keying : LetteredKeying) (scope : TenantScope)
    (state : ScopedState Json) (absent : state.entries.get? (place keying.toKeying scope) = none)
    (calls : List Call)
    (along : Along (step sha256 keying.toKeying scope)
      (fun system call => Fresh system call ∧ Room sha256 keying.toKeying scope system call)
      { state := state } calls) :
    ∃ ledger, Kept sha256 keying.toKeying scope
      (run (step sha256 keying.toKeying scope) { state := state } calls) ledger := by
  have start : ∃ ledger, Sound sha256 keying.toKeying scope { state := state } ledger :=
    ⟨{}, sound_initial absent⟩
  obtain ⟨ledger, sound⟩ := @Along.invariant _ _ _ _ _ _
    (fun system => ∃ ledger, Sound sha256 keying.toKeying scope system ledger) along start
    fun _ _ allowed ⟨_, sound⟩ => sound.step allowed.1 allowed.2
  exact ⟨ledger, sound.promises⟩

section Operator

def isLetter (_ : Char) : Bool := true

def isControl (_ : Char) : Bool := false

/-- A keying whose digests are the names themselves. -/
def plainKeying : LetteredKeying where
  scope := TenantScope.task
  key := fun _ _ key => key
  alnum := isLetter
  control := isControl
  letter := fun _ _ _ => ⟨rfl, rfl⟩
  dash := rfl

def taskScope : TenantScope := ⟨"local", "operator", "cli", "first"⟩

/-- A coordinator that keeps so many records. -/
def coordinatorOf (recordLimit : Nat) (bounded : 1 ≤ recordLimit ∧ recordLimit ≤ 10000) :
    ContextRemovalCoordinator := ⟨true, recordLimit, bounded⟩

def firstToken : String := "00000000000000000000000000000001"

def secondToken : String := "00000000000000000000000000000002"

/-- A request and the acknowledgement of its instruction. -/
def acknowledged : List Call :=
  [⟨coordinatorOf 1 (by decide), 0, .request "section" "first" 0 firstToken⟩,
    ⟨coordinatorOf 1 (by decide), 1, .acknowledge firstToken "done" true 1⟩]

theorem instructions_kept_acknowledged : ∃ ledger, Kept id plainKeying.toKeying taskScope
    (run (step id plainKeying.toKeying taskScope) { state := {} } acknowledged) ledger := by
  refine instructions_kept id plainKeying taskScope {} rfl acknowledged
    ⟨⟨⟨by decide, by simp⟩, fun _ _ _ generation records reads _ => ?_⟩,
      ⟨trivial, fun _ _ _ _ _ _ issues => issues.elim⟩, trivial⟩
  obtain ⟨-, rfl⟩ := Prod.mk.inj (Except.ok.inj reads)
  decide

/-- Two requests to a coordinator that keeps one record. -/
def crowded : List Call :=
  [⟨coordinatorOf 1 (by decide), 0, .request "section" "first" 0 firstToken⟩,
    ⟨coordinatorOf 1 (by decide), 1, .request "other section" "second" 1 secondToken⟩]

theorem not_instructions_kept : ¬∀ (sha256 : Bytes → Bytes) (keying : LetteredKeying)
    (scope : TenantScope) (state : ScopedState Json),
    state.entries.get? (place keying.toKeying scope) = none → ∀ calls : List Call,
      Along (step sha256 keying.toKeying scope) Fresh { state := state } calls →
        ∃ ledger, Kept sha256 keying.toKeying scope
          (run (step sha256 keying.toKeying scope) { state := state } calls) ledger := by
  intro claimed
  let system := run (step id plainKeying.toKeying taskScope) { state := {} } crowded
  obtain ⟨ledger, kept⟩ := claimed id plainKeying taskScope {} rfl crowded
    ⟨⟨by decide, by simp⟩, ⟨by decide, by decide +kernel⟩, trivial⟩
  have returned : system.returned.map (·.2.instructionId) = [secondToken, firstToken] := by
    decide +kernel
  have stored : (decode (system.state.entry (place plainKeying.toKeying taskScope) 0)).map
      (fun read => read.2.map (·.instructionId)) = .ok [secondToken] := by
    rfl
  have first : firstToken ∈ system.returned.map (·.2.instructionId) := by
    rw [returned]
    decide
  obtain ⟨done, member, named⟩ := List.mem_map.mp first
  obtain ⟨record, among, same, _⟩ := kept.remembered done member
  rw [kept.reads 0] at stored
  have listed : ledger.records.map (·.instructionId) = [secondToken] := Except.ok.inj stored
  have held : firstToken ∈ ledger.records.map (·.instructionId) :=
    List.mem_map.mpr ⟨record, among, same.trans named⟩
  rw [listed] at held
  exact absurd held (by decide)

end Operator

end CapabilityHub.Removal
