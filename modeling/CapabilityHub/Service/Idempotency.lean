import CapabilityHub.Data.Dict
import CapabilityHub.Service.Intent

/-! # Idempotency records

The records of `SqliteIdempotencyStore`, one row for the digest of a slot, and those of the
shared state of a service, which has no store. Both answer the same questions about a slot, and
`view` is what a slot's record says in either of them.
-/

namespace CapabilityHub.Service

inductive IdempotencyStatus where
  | inProgress
  | complete
  | uncertain
  | conflict
  deriving DecidableEq

structure IdempotencyRecord where
  argumentsDigest : String
  status : IdempotencyStatus
  result : Option ExecutionResult := none

/-- The settings of a `SqliteIdempotencyStore`. -/
structure StoreSettings where
  persistResults : Bool := false
  resultTtlSeconds : Nat := 300
  maxResultBytes : Nat := 1000000
  ttl : 1 ≤ resultTtlSeconds ∧ resultTtlSeconds ≤ 86400
  bytes : 1024 ≤ maxResultBytes ∧ maxResultBytes ≤ 4000000

/-- Where records are kept: in the shared state of the services, or in a database. -/
inductive IdempotencyBackend where
  | shared
  | sqlite (settings : StoreSettings)

/-- `_encode_result`. -/
def encodeResult (result : ExecutionResult) : String :=
  canonicalJson (.obj [("audit_id", .str result.auditId),
    ("capability_revision", .str result.capabilityRevision), ("operation", .str result.operation),
    ("output", result.output), ("portable_tokens", .int result.portableTokens),
    ("provider", .str result.provider)])

/-- `_decode_result`, of a text that `_encode_result` may have written. -/
def decodeResult (raw : Option String) : Option ExecutionResult := do
  let raw ← raw
  match ← loads raw.toList with
  | .obj fields =>
      match mappingGet fields "capability_revision", mappingGet fields "operation",
          mappingGet fields "output", mappingGet fields "provider",
          mappingGet fields "portable_tokens", mappingGet fields "audit_id" with
      | some (.str revision), some (.str operation), some output, some (.str provider),
          some (.int tokens), some (.str auditId) =>
          some ⟨revision, operation, output, provider, tokens, auditId⟩
      | _, _, _, _, _, _ => none
  | _ => none

/-- A row of `idempotency_records`, under its slot digest. -/
structure IdempotencyRow where
  argumentsDigest : String
  status : IdempotencyStatus
  resultJson : Option String
  updatedAt : ℚ

def IdempotencyRow.record (row : IdempotencyRow) : IdempotencyRecord :=
  ⟨row.argumentsDigest, row.status, decodeResult row.resultJson⟩

namespace SqliteIdempotencyStore

variable (settings : StoreSettings)

/-- `reserve`, which reads the clock once to age out a row and once to insert one. -/
def reserve (key argumentsDigest : String) (checkedAt insertedAt : ℚ)
    (rows : Dict String IdempotencyRow) : Option IdempotencyRecord × Dict String IdempotencyRow :=
  let inserted := ((rows.erase key).set key ⟨argumentsDigest, .inProgress, none, insertedAt⟩)
  match rows.get? key with
  | none => (none, inserted)
  | some row =>
      if row.status = .complete ∧ (settings.resultTtlSeconds : ℚ) ≤ checkedAt - row.updatedAt then
        (none, inserted)
      else (some row.record, rows)

/-- The text that `complete` stores. -/
def storedResult (result : ExecutionResult) : Option String :=
  let encoded := encodeResult result
  if settings.persistResults ∧ (encodeUtf8 encoded).length ≤ settings.maxResultBytes then some encoded
  else none

/-- The row as `complete` updates it. -/
def completeRow (result : ExecutionResult) (now : ℚ) (row : IdempotencyRow) : IdempotencyRow :=
  if row.status = .inProgress then
    { row with status := .complete, resultJson := storedResult settings result, updatedAt := now }
  else row

/-- The row as `uncertain` and `recover_abandoned` update it. -/
def uncertainRow (now : ℚ) (row : IdempotencyRow) : IdempotencyRow :=
  if row.status = .inProgress then { row with status := .uncertain, updatedAt := now } else row

/-- `complete`. -/
def complete (key : String) (result : ExecutionResult) (now : ℚ)
    (rows : Dict String IdempotencyRow) : Dict String IdempotencyRow :=
  rows.alter (Option.map (completeRow settings result now)) key

/-- `uncertain`. -/
def uncertain (key : String) (now : ℚ) (rows : Dict String IdempotencyRow) :
    Dict String IdempotencyRow :=
  rows.alter (Option.map (uncertainRow now)) key

/-- What `recover_abandoned` does at startup. -/
def recoverAbandoned (now : ℚ) (rows : Dict String IdempotencyRow) : Dict String IdempotencyRow :=
  rows.mapValues (uncertainRow now)

/-- One reading of `wait`. -/
def waitRead (key argumentsDigest : String) (rows : Dict String IdempotencyRow) :
    IdempotencyRecord :=
  match rows.get? key with
  | none => ⟨"", .conflict, none⟩
  | some row => if row.argumentsDigest ≠ argumentsDigest then ⟨"", .conflict, none⟩ else row.record

end SqliteIdempotencyStore

/-- A slot, and the shared state that would keep its record. -/
abbrev Seat : Type := Nat × IdempotencySlot

structure IdempotencyState where
  memory : Dict Seat IdempotencyRecord
  rows : Dict String IdempotencyRow

section

variable (slotHash : Bytes → Bytes)

/-- The record of a slot is looked up, and one is made if there is none. -/
def reserveSeat (seat : Seat) (argumentsDigest : String) (checkedAt insertedAt : ℚ) :
    IdempotencyBackend → IdempotencyState → Option IdempotencyRecord × IdempotencyState
  | .shared, state =>
      match state.memory.get? seat with
      | some record => (some record, state)
      | none => (none, { state with
          memory := state.memory.set seat ⟨argumentsDigest, .inProgress, none⟩ })
  | .sqlite settings, state =>
      let reserved := SqliteIdempotencyStore.reserve settings (slotDigest slotHash seat.2)
        argumentsDigest checkedAt insertedAt state.rows
      (reserved.1, { state with rows := reserved.2 })

/-- `_complete_idempotency` of a slot. -/
def completeSeat (seat : Seat) (result : ExecutionResult) (now : ℚ) :
    IdempotencyBackend → IdempotencyState → IdempotencyState
  | .shared, state => { state with
      memory := state.memory.alter (Option.map fun record =>
        { record with status := .complete, result := some result }) seat }
  | .sqlite settings, state => { state with
      rows := SqliteIdempotencyStore.complete settings (slotDigest slotHash seat.2) result now
        state.rows }

/-- `_mark_idempotency_uncertain` of a slot. -/
def uncertainSeat (seat : Seat) (now : ℚ) :
    IdempotencyBackend → IdempotencyState → IdempotencyState
  | .shared, state => { state with
      memory := state.memory.alter (Option.map fun record =>
        if record.status = .inProgress then { record with status := .uncertain } else record) seat }
  | .sqlite _, state => { state with
      rows := SqliteIdempotencyStore.uncertain (slotDigest slotHash seat.2) now state.rows }

/-- The record that a caller reads who has to wait. -/
def waitSeat (seat : Seat) (argumentsDigest : String) :
    IdempotencyBackend → IdempotencyState → IdempotencyRecord
  | .shared, state => (state.memory.get? seat).getD ⟨"", .conflict, none⟩
  | .sqlite _, state =>
      SqliteIdempotencyStore.waitRead (slotDigest slotHash seat.2) argumentsDigest state.rows

end

/-! ## What a slot's record says -/

/-- The seats that records are kept for: a database keeps one row for each slot. -/
def Kept (backend : IdempotencyBackend) (seat : Seat) : Prop :=
  match backend with
  | .shared => True
  | .sqlite _ => seat.1 = 0

/-- What the record of a seat says, and when its row was last written. -/
def view (slotHash : Bytes → Bytes) (backend : IdempotencyBackend) (state : IdempotencyState)
    (seat : Seat) : Option (IdempotencyRecord × Option ℚ) :=
  match backend with
  | .shared => (state.memory.get? seat).map fun record => (record, none)
  | .sqlite _ =>
      if seat.1 = 0 then
        (state.rows.get? (slotDigest slotHash seat.2)).map fun row => (row.record, some row.updatedAt)
      else none

/-- A completed record has reached the age at which a store drops it. -/
def Aged (backend : IdempotencyBackend) (now : ℚ) (entry : IdempotencyRecord × Option ℚ) : Prop :=
  match backend with
  | .shared => False
  | .sqlite settings => entry.1.status = .complete ∧
      ∃ updatedAt, entry.2 = some updatedAt ∧ (settings.resultTtlSeconds : ℚ) ≤ now - updatedAt

/-- What completing makes of a record. -/
def completed (backend : IdempotencyBackend) (result : ExecutionResult) (now : ℚ)
    (entry : IdempotencyRecord × Option ℚ) : IdempotencyRecord × Option ℚ :=
  match backend with
  | .shared => ({ entry.1 with status := .complete, result := some result }, none)
  | .sqlite settings =>
      if entry.1.status = .inProgress then
        ({ entry.1 with
            status := .complete
            result := decodeResult (SqliteIdempotencyStore.storedResult settings result) },
          some now)
      else entry

/-- What a failure makes of a record. -/
def abandoned (now : ℚ) (entry : IdempotencyRecord × Option ℚ) : IdempotencyRecord × Option ℚ :=
  if entry.1.status = .inProgress then
    ({ entry.1 with status := .uncertain }, entry.2.map fun _ => now)
  else entry

section

variable {slotHash : Bytes → Bytes} {backend : IdempotencyBackend} {state : IdempotencyState}
  {seat other : Seat} {argumentsDigest : String} {checkedAt insertedAt now : ℚ}
  {result : ExecutionResult} {record : IdempotencyRecord}

/-- Two kept seats have one row only if they are the same. -/
theorem digest_ne (injective : Function.Injective slotHash) (first : seat.1 = 0)
    (second : other.1 = 0) (different : other ≠ seat) :
    slotDigest slotHash other.2 ≠ slotDigest slotHash seat.2 := fun same =>
  different (Prod.ext (second.trans first.symm) (slotDigest_injective injective same))

/-- A slot is reserved where it has no record, or one that has aged. -/
theorem reserveSeat_none (kept : Kept backend seat)
    (free : (reserveSeat slotHash seat argumentsDigest checkedAt insertedAt backend state).1 = none) :
    (∀ entry, view slotHash backend state seat = some entry → Aged backend checkedAt entry) ∧
      ∃ written, view slotHash backend
        (reserveSeat slotHash seat argumentsDigest checkedAt insertedAt backend state).2 seat =
          some (⟨argumentsDigest, .inProgress, none⟩, written) := by
  cases backend with
  | shared =>
      cases found : state.memory.get? seat with
      | some record => simp [reserveSeat, found] at free
      | none => simp [reserveSeat, view, found]
  | sqlite settings =>
      have home : seat.1 = 0 := kept
      cases found : state.rows.get? (slotDigest slotHash seat.2) with
      | none =>
          simp [reserveSeat, SqliteIdempotencyStore.reserve, view, found, home,
            IdempotencyRow.record, decodeResult]
      | some row =>
          by_cases aged : row.status = .complete ∧
              (settings.resultTtlSeconds : ℚ) ≤ checkedAt - row.updatedAt
          · refine ⟨fun entry seen => ?_, ?_⟩
            · simp only [view, home, if_true, found, Option.map_some, Option.some.injEq] at seen
              subst seen
              exact ⟨aged.1, row.updatedAt, rfl, aged.2⟩
            · simp [reserveSeat, SqliteIdempotencyStore.reserve, view, found, home, aged,
                IdempotencyRow.record, decodeResult]
          · simp [reserveSeat, SqliteIdempotencyStore.reserve, found, aged] at free

/-- Otherwise its record is given and nothing is written. -/
theorem reserveSeat_some (kept : Kept backend seat)
    (found : (reserveSeat slotHash seat argumentsDigest checkedAt insertedAt backend state).1 =
      some record) :
    (∃ written, view slotHash backend state seat = some (record, written)) ∧
      (reserveSeat slotHash seat argumentsDigest checkedAt insertedAt backend state).2 = state := by
  cases backend with
  | shared =>
      cases seen : state.memory.get? seat with
      | none => simp [reserveSeat, seen] at found
      | some record' => simpa [reserveSeat, view, seen] using found
  | sqlite settings =>
      have home : seat.1 = 0 := kept
      cases seen : state.rows.get? (slotDigest slotHash seat.2) with
      | none => simp [reserveSeat, SqliteIdempotencyStore.reserve, seen] at found
      | some row =>
          by_cases aged : row.status = .complete ∧
              (settings.resultTtlSeconds : ℚ) ≤ checkedAt - row.updatedAt
          · simp [reserveSeat, SqliteIdempotencyStore.reserve, seen, aged] at found
          · have same : row.record = record := by
              simpa [reserveSeat, SqliteIdempotencyStore.reserve, seen, aged] using found
            simp [reserveSeat, SqliteIdempotencyStore.reserve, view, seen, aged, home, same]

/-- Reserving one slot leaves the others alone. -/
theorem view_reserveSeat_of_ne (injective : Function.Injective slotHash) (kept : Kept backend seat)
    (different : other ≠ seat) :
    view slotHash backend
        (reserveSeat slotHash seat argumentsDigest checkedAt insertedAt backend state).2 other =
      view slotHash backend state other := by
  cases backend with
  | shared =>
      cases found : state.memory.get? seat with
      | some record => simp [reserveSeat, found]
      | none => simp [reserveSeat, view, found, Dict.get?_set_of_ne different]
  | sqlite settings =>
      by_cases home : other.1 = 0
      · have apart := digest_ne injective kept home different
        cases found : state.rows.get? (slotDigest slotHash seat.2) with
        | none =>
            simp [reserveSeat, SqliteIdempotencyStore.reserve, view, found,
              Dict.get?_set_of_ne apart, Dict.get?_erase, apart]
        | some row =>
            by_cases aged : row.status = .complete ∧
                (settings.resultTtlSeconds : ℚ) ≤ checkedAt - row.updatedAt
            · simp [reserveSeat, SqliteIdempotencyStore.reserve, view, found, aged,
                Dict.get?_set_of_ne apart, Dict.get?_erase, apart]
            · simp [reserveSeat, SqliteIdempotencyStore.reserve, view, found, aged]
      · simp [view, home]

theorem view_completeSeat (injective : Function.Injective slotHash) (kept : Kept backend seat) :
    view slotHash backend (completeSeat slotHash seat result now backend state) other =
      if other = seat then (view slotHash backend state seat).map (completed backend result now)
      else view slotHash backend state other := by
  cases backend with
  | shared =>
      by_cases same : other = seat
      · subst same
        cases found : state.memory.get? other <;>
          simp [view, completeSeat, completed, found]
      · simp [view, completeSeat, same]
  | sqlite settings =>
      by_cases same : other = seat
      · subst same
        have home : other.1 = 0 := kept
        cases found : state.rows.get? (slotDigest slotHash other.2) with
        | none => simp [view, completeSeat, SqliteIdempotencyStore.complete, found, home]
        | some row =>
            by_cases running : row.status = .inProgress <;>
              simp [view, completeSeat, SqliteIdempotencyStore.complete, found, home, completed,
                SqliteIdempotencyStore.completeRow, IdempotencyRow.record, running]
      · by_cases home : other.1 = 0
        · have apart := digest_ne injective kept home same
          simp [view, completeSeat, SqliteIdempotencyStore.complete, home, same, apart]
        · simp [view, home, same]

theorem view_uncertainSeat (injective : Function.Injective slotHash) (kept : Kept backend seat) :
    view slotHash backend (uncertainSeat slotHash seat now backend state) other =
      if other = seat then (view slotHash backend state seat).map (abandoned now)
      else view slotHash backend state other := by
  cases backend with
  | shared =>
      by_cases same : other = seat
      · subst same
        cases found : state.memory.get? other with
        | none => simp [view, uncertainSeat, found]
        | some record =>
            by_cases running : record.status = .inProgress <;>
              simp [view, uncertainSeat, abandoned, found, running]
      · simp [view, uncertainSeat, same]
  | sqlite settings =>
      by_cases same : other = seat
      · subst same
        have home : other.1 = 0 := kept
        cases found : state.rows.get? (slotDigest slotHash other.2) with
        | none => simp [view, uncertainSeat, SqliteIdempotencyStore.uncertain, found, home]
        | some row =>
            by_cases running : row.status = .inProgress <;>
              simp [view, uncertainSeat, SqliteIdempotencyStore.uncertain, found, home, abandoned,
                SqliteIdempotencyStore.uncertainRow, IdempotencyRow.record, running]
      · by_cases home : other.1 = 0
        · have apart := digest_ne injective kept home same
          simp [view, uncertainSeat, SqliteIdempotencyStore.uncertain, home, same, apart]
        · simp [view, home, same]

/-- Recovery does to every row what a failure does to one. -/
theorem view_recoverAbandoned {settings : StoreSettings} :
    view slotHash (.sqlite settings)
        { state with rows := SqliteIdempotencyStore.recoverAbandoned now state.rows } seat =
      (view slotHash (.sqlite settings) state seat).map (abandoned now) := by
  by_cases home : seat.1 = 0
  · cases found : state.rows.get? (slotDigest slotHash seat.2) with
    | none => simp [view, SqliteIdempotencyStore.recoverAbandoned, found, home]
    | some row =>
        by_cases running : row.status = .inProgress <;>
          simp [view, SqliteIdempotencyStore.recoverAbandoned, found, home, abandoned,
            SqliteIdempotencyStore.uncertainRow, IdempotencyRow.record, running]
  · simp [view, home]

/-- A caller who waits and reads a completed record reads that of its slot. -/
theorem view_of_waitSeat (kept : Kept backend seat)
    (complete : (waitSeat slotHash seat argumentsDigest backend state).status = .complete) :
    ∃ written, view slotHash backend state seat =
      some (waitSeat slotHash seat argumentsDigest backend state, written) := by
  cases backend with
  | shared =>
      cases found : state.memory.get? seat with
      | none => simp [waitSeat, found] at complete
      | some record => simp [view, waitSeat, found]
  | sqlite settings =>
      have home : seat.1 = 0 := kept
      cases found : state.rows.get? (slotDigest slotHash seat.2) with
      | none => simp [waitSeat, SqliteIdempotencyStore.waitRead, found] at complete
      | some row =>
          by_cases equal : row.argumentsDigest = argumentsDigest
          · simp [view, waitSeat, SqliteIdempotencyStore.waitRead, found, home, equal]
          · simp [waitSeat, SqliteIdempotencyStore.waitRead, found, equal] at complete

end

/-! ## Stored results -/

/-- A stored result reads back with the members of its output in order. -/
theorem decodeResult_encodeResult {result : ExecutionResult} (distinct : result.output.Distinct) :
    decodeResult (some (encodeResult result)) =
      some { result with output := result.output.sorted } := by
  have whole : (Json.obj [("audit_id", .str result.auditId),
      ("capability_revision", .str result.capabilityRevision), ("operation", .str result.operation),
      ("output", result.output), ("portable_tokens", .int result.portableTokens),
      ("provider", .str result.provider)]).Distinct := by
    simp [Json.Distinct, DistinctFields, distinct]
  rw [decodeResult, Option.bind_eq_bind, Option.bind_some, encodeResult, loads_canonicalJson whole]
  simp [Json.sorted, sortedFields, mappingGet, List.lookup_cons]

end CapabilityHub.Service
