import CapabilityHub.Audit.Retention
import CapabilityHub.Data.Runs

/-! # Runs of the audit ledger

What the calls on one manager have emitted and archived, beside its directory. Whatever moves and
removals fail, the newest segments and the current ledger are the last events, in their order
(`CapabilityHub.Audit.rotations_keep_events`).
-/

namespace CapabilityHub.Audit

/-- What was emitted, and how rotations have divided it into segments. -/
structure History where
  emitted : List Json := []
  batches : List (Nat × List Json) := []
  pending : List Json := []

/-- The manager's directory and what led to it. -/
structure System where
  root : Root := {}
  history : History := {}

inductive Call where
  | emit (event : AuditEvent)
  | rotate (faults : Faults)

section

variable (sha256 mac : Bytes → Digest) (manager : RetentionManager)

/-- The event of a record. -/
def recordEvent (record : Fields) : Json := (mappingGet record "event").getD .null

/-- The events of a segment that verifies. -/
def eventsOf (directory : Directory) : Option (List Json) :=
  let read := readVerified mac directory
  if read.1.valid then some (read.2.map recordEvent) else none

/-- An event as it is recorded. -/
def recorded (event : AuditEvent) : Json :=
  match safeEvent sha256 event with
  | .ok safe => (Json.obj safe).sorted
  | .error _ => .null

/-- Whether a rotation has moved the current ledger. -/
def moved : Except Raised RotationResult → Bool
  | .ok _ => true
  | .error error => error = pruneError

def History.emit (history : History) (event : Json) : History where
  emitted := history.emitted ++ [event]
  batches := history.batches
  pending := history.pending ++ [event]

def History.archive (history : History) (index : Nat) : History where
  emitted := history.emitted
  batches := history.batches ++ [(index, history.pending)]
  pending := []

/-- A call of `emit`. -/
def System.emit (system : System) (event : AuditEvent) : System :=
  match Audit.emit sha256 mac system.root.current event with
  | .ok directory =>
      ⟨{ system.root with current := directory }, system.history.emit (recorded sha256 event)⟩
  | .error _ => system

/-- A call of `rotate`. -/
def System.rotate (system : System) (faults : Faults) : System :=
  let work := Audit.rotate mac manager faults
  ⟨Transaction.stateAfter work system.root,
    if moved (Transaction.outcome work system.root) then system.history.archive system.root.nextIndex
    else system.history⟩

def System.step (system : System) : Call → System
  | .emit event => system.emit sha256 mac event
  | .rotate faults => system.rotate mac manager faults

/-- A rotation takes an index that has a name of its own. -/
def System.Within (system : System) : Call → Prop
  | .emit _ => True
  | .rotate _ => system.root.nextIndex < maxIndices

instance (system : System) : ∀ call, Decidable (system.Within call)
  | .emit _ => inferInstanceAs (Decidable True)
  | .rotate _ => inferInstanceAs (Decidable (system.root.nextIndex < maxIndices))

/-- The newest segments and the current ledger are what was emitted last. -/
structure System.Kept (system : System) : Prop where
  emitted : system.history.emitted = system.history.batches.flatMap Prod.snd ++ system.history.pending
  rising : (system.history.batches.map Prod.fst).Pairwise (· < ·)
  names : newest manager.maxSegments system.root.segments =
    (newest manager.maxSegments system.history.batches).map fun batch => segmentName batch.1
  segments : ∀ batch ∈ newest manager.maxSegments system.history.batches,
    ∃ directory, system.root.archive.get? (segmentName batch.1) = some directory ∧
      eventsOf mac directory = some batch.2
  current : eventsOf mac system.root.current = some system.history.pending

/-- What holds after the calls of a run. -/
structure System.Sound (system : System) : Prop extends system.Kept mac manager where
  works : system.history.pending ≠ [] → system.root.nextIndex < maxIndices →
    ∃ result final, Audit.rotate mac manager {} system.root = .ok result final
  retains : ∀ faults result final, Audit.rotate mac manager faults system.root = .ok result final →
    system.root.nextIndex < maxIndices → final.segments.length ≤ manager.maxSegments

end

/-! ## The invariant -/

variable {sha256 mac : Bytes → Digest} {manager : RetentionManager} {system : System} {call : Call}
  {progress : Progress} {directory : Directory} {calls : List Call}

theorem eventsOf_of_holds (holds : Holds mac directory progress) :
    eventsOf mac directory = some (progress.records.map recordEvent) := by
  rw [eventsOf, readVerified_of_holds holds]
  rfl

theorem exists_holds_of_eventsOf {events : List Json} (read : eventsOf mac directory = some events) :
    ∃ progress, Holds mac directory progress ∧ progress.records.map recordEvent = events := by
  by_cases valid : (readVerified mac directory).1.valid = true
  · obtain ⟨progress, holds⟩ := exists_holds valid
    exact ⟨progress, holds, Option.some.inj ((eventsOf_of_holds holds).symm.trans read)⟩
  · rw [eventsOf] at read
    simp [valid] at read

/-- An event that is emitted is read after the others. -/
theorem eventsOf_emit {directory' : Directory} {event : AuditEvent} {events : List Json}
    (read : eventsOf mac directory = some events) (done : emit sha256 mac directory event = .ok directory') :
    eventsOf mac directory' = some (events ++ [recorded sha256 event]) := by
  obtain ⟨progress, holds, rfl⟩ := exists_holds_of_eventsOf read
  obtain ⟨safe, record, chainHash, kept, held, found⟩ := holds.emit done
  have same : recordEvent record = recorded sha256 event := by
    simp only [recordEvent, found, recorded, kept, Option.getD_some]
  rw [eventsOf_of_holds held, Progress.add, List.map_append, List.map_singleton, same]

/-- The archive has the segments of the last rotations, at least as many as are kept. -/
structure System.Retained (mac : Bytes → Digest) (manager : RetentionManager) (system : System) :
    Prop where
  emitted : system.history.emitted = system.history.batches.flatMap Prod.snd ++ system.history.pending
  rising : (system.history.batches.map Prod.fst).Pairwise (· < ·)
  archives : ∃ indices, system.root.Archives indices ∧
    indices <:+ system.history.batches.map Prod.fst ∧
    min manager.maxSegments system.history.batches.length ≤ indices.length
  segments : ∀ batch ∈ newest manager.maxSegments system.history.batches,
    ∃ directory, system.root.archive.get? (segmentName batch.1) = some directory ∧
      eventsOf mac directory = some batch.2
  current : eventsOf mac system.root.current = some system.history.pending

namespace System.Retained

theorem start : System.Retained mac manager {} where
  emitted := rfl
  rising := List.Pairwise.nil
  archives := by
    refine ⟨[], ⟨List.Pairwise.nil, fun _ member => absurd member List.not_mem_nil, fun name => ?_⟩,
      List.suffix_rfl, Nat.min_le_right _ _⟩
    exact iff_of_false List.not_mem_nil (by simp)
  segments := by
    intro batch member
    exact absurd ((newest_suffix _ _).mem member) List.not_mem_nil
  current := rfl

variable (retained : system.Retained mac manager)
include retained

theorem kept : system.Kept mac manager where
  emitted := retained.emitted
  rising := retained.rising
  names := by
    obtain ⟨indices, archives, suffix, enough⟩ := retained.archives
    rw [archives.segments, newest_map, newest_of_suffix suffix (by rwa [List.length_map]), newest_map,
      List.map_map]
    rfl
  segments := retained.segments
  current := retained.current

theorem emit {event : AuditEvent} {directory : Directory}
    (done : Audit.emit sha256 mac system.root.current event = .ok directory) :
    System.Retained mac manager
      ⟨{ system.root with current := directory }, system.history.emit (recorded sha256 event)⟩ where
  emitted := by
    rw [History.emit, retained.emitted, List.append_assoc]
  rising := retained.rising
  archives := by
    obtain ⟨indices, archives, suffix, enough⟩ := retained.archives
    exact ⟨indices, ⟨archives.rising, archives.bounded, archives.names⟩, suffix, enough⟩
  segments := retained.segments
  current := eventsOf_emit retained.current done

/-- The next index follows the last one that a rotation took. -/
theorem nextIndex : system.root.nextIndex =
    ((system.history.batches.map Prod.fst).getLast?.map (· + 1)).getD 1 := by
  obtain ⟨indices, archives, ⟨before, split⟩, enough⟩ := retained.archives
  rw [archives.nextIndex, ← split, List.getLast?_append]
  cases last : indices.getLast? with
  | some newest => rfl
  | none =>
      have positive := manager.positive
      have count := congrArg List.length split
      rw [List.getLast?_eq_none_iff.mp last] at enough count
      rw [List.length_append, List.length_nil, List.length_map] at count
      rw [List.length_nil] at enough
      have none : before = [] := List.length_eq_zero_iff.mp (by omega)
      rw [none]
      rfl

/-- A rotation that moves the current ledger closes its batch. -/
theorem archive {final : Root} {indices expired left : List Nat} (archives : system.root.Archives indices)
    (small : system.root.nextIndex < maxIndices)
    (suffix : indices <:+ system.history.batches.map Prod.fst)
    (enough : min manager.maxSegments system.history.batches.length ≤ indices.length)
    (pruned : Pruned (system.root.moveTo (segmentName system.root.nextIndex)) expired
      (newest manager.maxSegments (indices ++ [system.root.nextIndex])) left final)
    (parts : expired ++ newest manager.maxSegments (indices ++ [system.root.nextIndex]) =
      indices ++ [system.root.nextIndex]) :
    System.Retained mac manager ⟨final, system.history.archive system.root.nextIndex⟩ := by
  obtain ⟨earlier, whole⟩ := suffix
  have counts := congrArg List.length whole
  rw [List.length_append, List.length_map] at counts
  have same : newest manager.maxSegments (indices ++ [system.root.nextIndex]) =
      (newest manager.maxSegments
        (system.history.archive system.root.nextIndex).batches).map Prod.fst := by
    rw [← newest_map, History.archive, List.map_append, ← whole, List.append_assoc]
    refine newest_of_suffix (List.suffix_append earlier _) ?_
    simp only [List.length_append, List.map_cons, List.map_nil, List.length_singleton]
    omega
  constructor
  · simp only [History.archive, retained.emitted, List.flatMap_append, List.flatMap_cons,
      List.flatMap_nil, List.append_nil]
  · rw [History.archive, List.map_append, List.pairwise_append]
    refine ⟨retained.rising, List.pairwise_singleton _ _, fun index member next here => ?_⟩
    rw [List.mem_singleton.mp here, retained.nextIndex]
    exact lt_succ_getLast retained.rising member
  · refine ⟨left, pruned.archives, ?_, ?_⟩
    · rw [History.archive, List.map_append, ← whole, List.append_assoc]
      exact (parts ▸ pruned.suffix).trans (List.suffix_append earlier _)
    · have length := pruned.newest.length_le
      rw [length_newest, List.length_append, List.length_singleton] at length
      rw [History.archive, List.length_append, List.length_singleton]
      omega
  · intro batch member
    have inside : batch.1 ∈ newest manager.maxSegments (indices ++ [system.root.nextIndex]) := by
      rw [same]
      exact List.mem_map_of_mem member
    dsimp only
    rw [pruned.unchanged _ inside, Root.moveTo]
    rcases mem_newest_concat member with rfl | older
    · exact ⟨system.root.current, Dict.get?_set_self, retained.current⟩
    · obtain ⟨directory, found, read⟩ := retained.segments batch older
      refine ⟨directory, ?_, read⟩
      have taken : segmentName batch.1 ∈ system.root.archive.keys := Dict.mem_keys_of_get? found
      rw [← found]
      apply Dict.get?_set_of_ne
      intro named
      exact archives.nextName_notMem small (named ▸ taken)
  · rw [pruned.current]
    rfl

theorem step (within : system.Within call) :
    System.Retained mac manager (system.step sha256 mac manager call) := by
  cases call with
  | emit event =>
      rw [System.step, System.emit]
      split
      next directory done => exact retained.emit done
      next => exact retained
  | rotate faults =>
      obtain ⟨indices, archives, suffix, enough⟩ := retained.archives
      obtain ⟨progress, holds, events⟩ := exists_holds_of_eventsOf retained.current
      rw [System.step, System.rotate]
      rcases @rotate_cases _ _ manager mac faults progress archives within holds with
        ⟨_, fails, raised⟩ | ⟨_, final, expired, left, pruned, parts, ⟨result, done, _⟩ | raised⟩
      · have unmoved : moved (.error (rotationError fails)) = false := by cases fails <;> decide
        simp only [Transaction.stateAfter, Transaction.outcome, raised, unmoved, Bool.false_eq_true,
          if_false]
        exact retained
      · simp only [Transaction.stateAfter, Transaction.outcome, done]
        exact retained.archive archives within suffix enough pruned parts
      · simp only [Transaction.stateAfter, Transaction.outcome, raised]
        exact retained.archive archives within suffix enough pruned parts

theorem sound : system.Sound mac manager where
  toKept := retained.kept
  works := by
    intro some small
    obtain ⟨indices, archives, -⟩ := retained.archives
    obtain ⟨progress, holds, events⟩ := exists_holds_of_eventsOf retained.current
    have records : progress.records ≠ [] := by
      intro none
      rw [← events, none] at some
      exact some rfl
    obtain ⟨result, final, done, _⟩ := rotate_ok (archives.nextName_notMem small) holds records
    exact ⟨result, final, done⟩
  retains := by
    intro faults result final done small
    obtain ⟨indices, archives, -⟩ := retained.archives
    obtain ⟨progress, holds, events⟩ := exists_holds_of_eventsOf retained.current
    rcases @rotate_cases _ _ manager mac faults progress archives small holds with
      ⟨_, fails, raised⟩ | ⟨_, final', expired, left, pruned, parts, ⟨result', done', all⟩ | raised⟩
    · rw [raised] at done
      cases done
    · rw [done'] at done
      cases done
      rw [pruned.archives.segments, List.length_map, all, length_newest]
      exact Nat.min_le_left _ _
    · rw [raised] at done
      cases done

end System.Retained

/-- **Audit rotation and retention lose nothing early.** After every call of a run in which no rotation
takes an index of more than twenty digits, the newest segments and the current ledger verify and are what
was emitted last, and a rotation works and prunes. -/
theorem rotations_keep_events
    (within : Along (System.step sha256 mac manager) System.Within {} calls) :
    (run (System.step sha256 mac manager) {} calls).Sound mac manager :=
  (within.invariant System.Retained.start fun _ _ allowed retained => retained.step allowed).sound

theorem nextIndex_emit {event : AuditEvent} :
    (system.step sha256 mac manager (.emit event)).root.nextIndex = system.root.nextIndex := by
  rw [System.step, System.emit]
  split <;> rfl

/-! ## More rotations than there are names -/

section

/-- A digest that is the same for all texts. -/
def blankDigest (_ : Bytes) : Digest := ⟨List.replicate 32 0, List.length_replicate⟩

/-- A manager that retains one segment. -/
def oneSegment : RetentionManager := ⟨1, le_rfl, Nat.le_add_left 1 999⟩

def searched : AuditEvent where
  eventId := "event-1"
  sequence := 1
  taskId := "task-1"
  eventType := "search"
  capabilityRevision := none
  outcome := "success"

/-- One event and a rotation, as many times as it says. -/
def rounds : Nat → List Call
  | 0 => []
  | count + 1 => rounds count ++ [.emit searched, .rotate {}]

theorem rotations_keep_events_failing :
    (run (System.step blankDigest blankDigest oneSegment) {}
      [.emit searched, .rotate { rename := true }]).Sound blankDigest oneSegment :=
  rotations_keep_events ⟨trivial, nextIndex_emit.trans_lt (by decide +kernel), trivial⟩

/-- The event is emitted into a ledger without records. -/
theorem emit_searched : ∃ directory, emit blankDigest blankDigest {} searched = .ok directory := by
  have start : Holds blankDigest {} {} := .inl ⟨rfl, rfl⟩
  refine exists_emit start rfl _ rfl (by decide +kernel) (by decide +kernel)

/-- A round without faults archives one segment under the next index. -/
theorem step_round (retained : system.Retained blankDigest oneSegment) (empty : system.root.current = {})
    (fresh : segmentName system.root.nextIndex ∉ system.root.archive.keys) :
    ∃ final, run (System.step blankDigest blankDigest oneSegment) system [.emit searched, .rotate {}] =
        ⟨final, (system.history.emit (recorded blankDigest searched)).archive system.root.nextIndex⟩ ∧
      final.current = {} := by
  obtain ⟨directory, done⟩ := emit_searched
  rw [← empty] at done
  obtain ⟨progress, holds, events⟩ := exists_holds_of_eventsOf (retained.emit done).current
  have records : progress.records ≠ [] := by
    intro none
    rw [none, List.map_nil] at events
    exact List.append_ne_nil_of_right_ne_nil _ (List.cons_ne_nil _ _) events.symm
  obtain ⟨result, final, rotated, current⟩ := @rotate_ok ⟨directory, system.root.archive⟩ oneSegment _ progress fresh
    holds records
  refine ⟨final, ?_, current⟩
  simp only [run, List.foldl_cons, List.foldl_nil, System.step, System.emit, System.rotate, done]
  simp only [Transaction.stateAfter, Transaction.outcome, rotated]
  rfl

/-- Rounds are archived one after the other, as long as there are names. -/
theorem run_rounds (count : Nat) (small : count < maxIndices) :
    let system := run (System.step blankDigest blankDigest oneSegment) {} (rounds count)
    system.Retained blankDigest oneSegment ∧ system.root.current = {} ∧
      system.root.nextIndex = count + 1 := by
  induction count with
  | zero => exact ⟨System.Retained.start, rfl, by decide +kernel⟩
  | succ count ih =>
      obtain ⟨retained, empty, next⟩ := ih (Nat.lt_of_succ_lt small)
      rw [rounds, run_append]
      generalize run (System.step blankDigest blankDigest oneSegment) {} (rounds count) = system at *
      have within : system.root.nextIndex < maxIndices := by rwa [next]
      obtain ⟨indices, archives, -⟩ := retained.archives
      obtain ⟨final, same, current⟩ := step_round retained empty (archives.nextName_notMem within)
      have kept : (run (System.step blankDigest blankDigest oneSegment) system
          [.emit searched, .rotate {}]).Retained blankDigest oneSegment := by
        have along : Along (System.step blankDigest blankDigest oneSegment) System.Within system
            [.emit searched, .rotate {}] := ⟨trivial, nextIndex_emit.trans_lt within, trivial⟩
        exact along.invariant retained fun _ _ allowed retained => retained.step allowed
      dsimp only
      rw [same] at kept ⊢
      refine ⟨kept, current, ?_⟩
      · rw [kept.nextIndex, History.archive, List.map_append, List.map_singleton, List.getLast?_concat,
          Option.map_some, Option.getD_some, next]

/-- After more rotations than there are indices with twenty digits, the newest segment is not among
those that are retained. -/
theorem not_rotations_keep_events :
    ¬(run (System.step blankDigest blankDigest oneSegment) {} (rounds maxIndices)).Kept blankDigest
      oneSegment := by
  obtain ⟨count, last⟩ : ∃ count, maxIndices = count + 1 := ⟨maxIndices - 1, by decide⟩
  obtain ⟨retained, empty, next⟩ := run_rounds count (last ▸ Nat.lt_succ_self count)
  rw [← last] at next
  rw [last, rounds, run_append]
  generalize run (System.step blankDigest blankDigest oneSegment) {} (rounds count) = system at *
  have unnamed : segmentIndex (segmentName maxIndices) = none := by
    rw [segmentIndex_segmentName, if_neg (lt_irrefl _)]
  obtain ⟨indices, archives, -⟩ := retained.archives
  have fresh : segmentName system.root.nextIndex ∉ system.root.archive.keys := by
    intro taken
    obtain ⟨index, member, same⟩ := (archives.names _).mp taken
    rw [next] at same
    rw [← same, segmentIndex_segmentName, if_pos (archives.bounded index member)] at unnamed
    cases unnamed
  obtain ⟨final, same, _⟩ := step_round retained empty fresh
  rw [same, next]
  intro kept
  have taken : segmentName maxIndices ∈ newest 1 final.segments := by
    have names := kept.names
    have last : newest 1 ((system.history.emit (recorded blankDigest searched)).archive maxIndices).batches =
        [(maxIndices, (system.history.emit (recorded blankDigest searched)).pending)] := by
      rw [newest, History.archive, List.length_append, List.length_singleton, Nat.add_sub_cancel,
        List.drop_left]
    exact names.trans (congrArg _ last) ▸ List.mem_singleton.mpr rfl
  have named := (List.mem_filter.mp ((mem_sortedBy _).mp ((newest_suffix _ _).mem taken))).2
  rw [unnamed] at named
  cases named

end

end CapabilityHub.Audit
