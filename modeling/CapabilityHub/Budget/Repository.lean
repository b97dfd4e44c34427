import CapabilityHub.Budget.Counters
import CapabilityHub.Database.Transaction

/-! # The durable ledger of one scope

`SqliteBudgetRepository` of `budget_store.py`, and the ledger and reservation objects
over it. A table is a dictionary under its primary key. Every row is inserted after the
row of its scope, so the foreign keys of the schema always hold and are left out.
-/

namespace CapabilityHub.Budget

open Transaction

namespace Repository

/-- A row of `budget_reservations`. -/
structure ReservationRow where
  scope : String
  amountsJson : RawAmounts
  status : Status
  deriving DecidableEq

end Repository

/-- The database of `SqliteBudgetRepository`. -/
structure Repository where
  scopes : List String
  limits : Dict (String × String) Nat
  counters : Dict (String × String) Charge
  reservations : Dict String Repository.ReservationRow

namespace Repository

variable (integer : SqlInteger)

def empty : Repository := ⟨[], ∅, ∅, ∅⟩

/-- `_counter`. -/
def counter (repository : Repository) (scope name : String) : Charge :=
  (repository.counters.get? (scope, name)).getD ⟨0, 0⟩

/-- `_require_scope`. -/
def requireScope (repository : Repository) (scope : String) : Except BudgetError Unit :=
  raiseIf (scope ∉ repository.scopes) (.unknownScope scope)

/-- `_check_capacity`. -/
def checkCapacity (repository : Repository) (scope : String) (replaced amounts : Amounts) :
    Except BudgetError Unit :=
  checkScope scope (fun name => repository.limits.get? (scope, name)) (repository.counter scope)
    replaced amounts

/-- `INSERT INTO budget_limits … ON CONFLICT … DO UPDATE`. -/
def writeLimit (scope name : String) (limit : Nat) : Transaction Repository BudgetError Unit := do
  query fun _ => integer.bind .overflowError limit
  write fun repository =>
    { repository with limits := repository.limits.set (scope, name) limit }

/-- `ledger`: an existing scope keeps its limits. -/
def ledger (scope : String) (limits : RawAmounts) : Transaction Repository BudgetError Unit := do
  query fun _ => raiseIf (scope = "") (.valueError "scope must be non-empty")
  let normalized ← query fun _ => validateAmounts limits "limits" false
  atomically do
    let known ← query fun repository => .ok (decide (scope ∈ repository.scopes))
    if known then pure ()
    else do
      write fun repository => { repository with scopes := repository.scopes ++ [scope] }
      forM normalized.keys fun name => writeLimit integer scope name (normalized.getD name 0)

/-- One turn of the loop of `configure`. -/
def configureCounter (scope : String) (limits : Amounts) (name : String) :
    Transaction Repository BudgetError Unit := do
  query fun repository =>
    raiseIf ((repository.counter scope name).used + (repository.counter scope name).reserved >
        limits.getD name 0)
      (.budgetExceeded scope name (limits.getD name 0)
        ((repository.counter scope name).used + (repository.counter scope name).reserved : Nat))
  writeLimit integer scope name (limits.getD name 0)

/-- `configure`. -/
def configure (scope : String) (limits : RawAmounts) : Transaction Repository BudgetError Unit := do
  let normalized ← query fun _ => validateAmounts limits "limits" false
  query fun _ => raiseIf (normalized.keys = []) (.valueError "at least one limit is required")
  atomically do
    query fun repository => repository.requireScope scope
    forM normalized.keys (configureCounter integer scope normalized)

/-- `_add_counter`. -/
def addCounter (scope : String) (amounts : Amounts) (name : String) :
    Transaction Repository BudgetError Unit := do
  query fun _ => integer.bind .overflowError (amounts.getD name 0)
  write fun repository =>
    { repository with
      counters := repository.counters.alter
        (fun row => some (addedRow integer (amounts.getD name 0) row)) (scope, name) }

/-- `_reserve`. -/
def reserve (scope : String) (amounts : Amounts) (reservationId : String) :
    Transaction Repository BudgetError Unit :=
  atomically do
    query fun repository => repository.requireScope scope
    query fun repository => repository.checkCapacity scope ∅ amounts
    query fun repository => raiseIf (reservationId ∈ repository.reservations.keys)
      (.valueError "reservation_id must be unique")
    write fun repository =>
      { repository with
        reservations := repository.reservations.set reservationId
          ⟨scope, encodeAmounts amounts, .active⟩ }
    forM amounts.keys (addCounter integer scope amounts)

/-- The active row of a reservation. -/
def activeRow (repository : Repository) (scope reservationId : String) :
    Except BudgetError ReservationRow :=
  match repository.reservations.get? reservationId with
  | none => .error (.runtimeError "reservation is no longer active")
  | some row =>
      if row.scope = scope ∧ row.status = .active then .ok row
      else .error (.runtimeError "reservation is no longer active")

/-- One turn of the loop of `_finish`. -/
def finishCounter (scope : String) (reserved charged : Amounts) (name : String) :
    Transaction Repository BudgetError Unit := do
  let held ← query fun repository => .ok (repository.counter scope name)
  query fun _ => raiseIf (held.reserved < reserved.getD name 0) (.negativeReserved name)
  query fun _ => integer.bind .overflowError (held.used + charged.getD name 0)
  query fun _ => integer.bind .overflowError (held.reserved - reserved.getD name 0)
  write fun repository =>
    { repository with
      counters := repository.counters.set (scope, name)
        ⟨held.used + charged.getD name 0, held.reserved - reserved.getD name 0⟩ }

/-- `_finish`: `actual` is missing when the reservation is cancelled. -/
def finish (scope reservationId : String) (actual : Option Amounts) :
    Transaction Repository BudgetError Unit :=
  atomically do
    let row ← query fun repository => repository.activeRow scope reservationId
    let reserved ← query fun _ => decodeAmounts row.amountsJson
    let charged := actual.getD ∅
    query fun repository => repository.checkCapacity scope reserved charged
    forM (unionKeys reserved charged) (finishCounter integer scope reserved charged)
    write fun repository =>
      { repository with
        reservations := repository.reservations.set reservationId
          { row with status := if actual.isSome then .reconciled else .cancelled } }

/-- `_snapshot`. -/
def snapshot (repository : Repository) (scope : String) : Except BudgetError BudgetSnapshot := do
  repository.requireScope scope
  pure (snapshotOf scope (repository.limits.row scope)
    ((repository.limits.row scope).keys ++ (repository.counters.row scope).keys)
    (repository.counter scope))

/-! ## What the calls do -/

variable {integer} {repository final : Repository} {scope reservationId : String}
  {amounts reserved charged : Amounts} {row : ReservationRow} {error : BudgetError}

/-- The rows of some counters of a scope rewritten. -/
def rewrite (repository : Repository) (scope : String) (names : List String)
    (f : String → Option Charge → Charge) : Repository :=
  { repository with
    counters := repository.counters.alterEach (fun key row => some (f key.2 row))
      (names.map fun name => (scope, name)) }

theorem counter_rewrite {names : List String} (nodup : names.Nodup)
    (f : String → Option Charge → Charge) (name : String) :
    (repository.rewrite scope names f).counter scope name =
      if name ∈ names then f name (repository.counters.get? (scope, name))
      else repository.counter scope name := by
  have keys : (names.map fun name => (scope, name)).Nodup :=
    nodup.map fun _ _ same => congrArg Prod.snd same
  rw [counter, rewrite, Dict.get?_alterEach _ keys]
  by_cases member : name ∈ names
  · simp [member]
  · simp [member, counter]

/-- A loop over counters, each turn of which rewrites its own row under a condition. -/
theorem forM_counters {statement : String → Transaction Repository BudgetError Unit}
    (admits : String → Option Charge → Prop) (f : String → Option Charge → Charge)
    (spec : ∀ name repository final, statement name repository = .ok () final ↔
      admits name (repository.counters.get? (scope, name)) ∧
        { repository with
          counters := repository.counters.alter (fun row => some (f name row)) (scope, name) } =
          final)
    {names : List String} (nodup : names.Nodup) :
    forM names statement repository = .ok () final ↔
      (∀ name ∈ names, admits name (repository.counters.get? (scope, name))) ∧
        repository.rewrite scope names f = final := by
  have stable : ∀ name other (repository : Repository), name ≠ other →
      (admits name ((repository.counters.alter (fun row => some (f other row)) (scope, other)).get?
        (scope, name)) ↔ admits name (repository.counters.get? (scope, name))) := by
    intro name other repository different
    simp [different]
  rw [Transaction.forM_eq_ok spec stable nodup]
  have written : ∀ (names : List String) (repository : Repository),
      names.foldl (fun repository name =>
        { repository with
          counters := repository.counters.alter (fun row => some (f name row)) (scope, name) })
        repository = repository.rewrite scope names f := by
    intro names
    induction names with
    | nil => exact fun _ => rfl
    | cons name names ih =>
        intro repository
        rw [List.foldl_cons, ih]
        rfl
  rw [written]

theorem addCounter_eq_ok {name : String} :
    addCounter integer scope amounts name repository = .ok () final ↔
      integer.Fits (amounts.getD name 0) ∧
        { repository with
          counters := repository.counters.alter
            (fun row => some (addedRow integer (amounts.getD name 0) row)) (scope, name) } =
          final := by
  simp only [addCounter, Transaction.bind_eq_ok, exists_unit, query_eq_ok, SqlInteger.bind_eq_ok,
    write_eq_ok]
  constructor
  · rintro ⟨middle, ⟨fits, rfl⟩, written⟩
    exact ⟨fits, written⟩
  · rintro ⟨fits, written⟩
    exact ⟨repository, ⟨fits, rfl⟩, written⟩

theorem finishCounter_eq_ok {name : String} :
    finishCounter integer scope reserved charged name repository = .ok () final ↔
      FinishAdmits integer reserved charged name (repository.counters.get? (scope, name)) ∧
        { repository with
          counters := repository.counters.alter
            (fun row => some (finishedRow reserved charged name row)) (scope, name) } = final := by
  simp only [finishCounter, Transaction.bind_eq_ok, exists_unit, query_eq_ok, raiseIf_eq_ok,
    SqlInteger.bind_eq_ok, write_eq_ok, Nat.not_lt, Except.ok.injEq]
  constructor
  · rintro ⟨held, middle, ⟨rfl, rfl⟩, middle, ⟨enough, rfl⟩, middle, ⟨used, rfl⟩, middle,
      ⟨remaining, rfl⟩, written⟩
    exact ⟨⟨enough, used, remaining⟩, written⟩
  · rintro ⟨⟨enough, used, remaining⟩, written⟩
    exact ⟨_, repository, ⟨rfl, rfl⟩, repository, ⟨enough, rfl⟩, repository, ⟨used, rfl⟩, repository,
      ⟨remaining, rfl⟩, written⟩

theorem reserve_of_refused (known : scope ∈ repository.scopes)
    (refused : repository.checkCapacity scope ∅ amounts = .error error) :
    reserve integer scope amounts reservationId repository = .error error repository := by
  simp only [reserve, atomically, query_bind, requireScope, raiseIf, known, not_true_eq_false,
    ↓reduceIte, refused]

theorem reserve_of_admitted (known : scope ∈ repository.scopes)
    (admitted : repository.checkCapacity scope ∅ amounts = .ok ())
    (fresh : repository.reservations.get? reservationId = none)
    (fits : ∀ name ∈ amounts.keys, integer.Fits (amounts.getD name 0)) :
    reserve integer scope amounts reservationId repository = .ok ()
      (rewrite { repository with
          reservations := repository.reservations.set reservationId
            ⟨scope, encodeAmounts amounts, .active⟩ }
        scope amounts.keys fun name => addedRow integer (amounts.getD name 0)) := by
  have unused : reservationId ∉ repository.reservations.keys := Dict.get?_eq_none_iff.mp fresh
  rw [reserve, atomically_eq_ok]
  simp only [query_bind, requireScope, raiseIf, known, not_true_eq_false, ↓reduceIte, admitted,
    unused, write_bind]
  rw [forM_counters (fun name _ => integer.Fits (amounts.getD name 0)) _
    (fun _ _ _ => addCounter_eq_ok) amounts.keys_nodup]
  exact ⟨fits, rfl⟩

theorem activeRow_eq_ok : repository.activeRow scope reservationId = .ok row ↔
    repository.reservations.get? reservationId = some row ∧ row.scope = scope ∧
      row.status = .active := by
  rw [activeRow]
  cases found : repository.reservations.get? reservationId with
  | none => simp
  | some other =>
      by_cases active : other.scope = scope ∧ other.status = .active
      · simp only [active, and_self, ↓reduceIte, Except.ok.injEq, Option.some.injEq]
        constructor
        · rintro rfl
          exact ⟨rfl, active⟩
        · exact And.left
      · simp only [active, ↓reduceIte, reduceCtorEq, Option.some.injEq, false_iff]
        rintro ⟨rfl, rest⟩
        exact active rest

section Active

variable (actual : Option Amounts)
  (open_row : repository.activeRow scope reservationId = .ok row)
  (decoded : decodeAmounts row.amountsJson = .ok reserved)

include open_row decoded

theorem finish_of_refused
    (refused : repository.checkCapacity scope reserved (actual.getD ∅) = .error error) :
    finish integer scope reservationId actual repository = .error error repository := by
  simp only [finish, atomically, query_bind, open_row, decoded, refused]

theorem finish_of_admitted
    (admitted : repository.checkCapacity scope reserved (actual.getD ∅) = .ok ())
    (admits : ∀ name ∈ unionKeys reserved (actual.getD ∅),
      FinishAdmits integer reserved (actual.getD ∅) name (repository.counters.get? (scope, name))) :
    finish integer scope reservationId actual repository = .ok ()
      { repository.rewrite scope (unionKeys reserved (actual.getD ∅))
          (finishedRow reserved (actual.getD ∅)) with
        reservations := repository.reservations.set reservationId
          { row with status := if actual.isSome then .reconciled else .cancelled } } := by
  rw [finish, atomically_eq_ok]
  simp only [query_bind, open_row, decoded, admitted]
  rw [Transaction.bind_eq_ok]
  refine ⟨(), _, ?_, write_eq_ok.mpr rfl⟩
  rw [forM_counters (FinishAdmits integer reserved (actual.getD ∅)) _
    (fun _ _ _ => finishCounter_eq_ok) (unionKeys_nodup _ _)]
  exact ⟨admits, rfl⟩

end Active

/-- The hard limits of a scope merged with new ones. -/
def limiting (repository : Repository) (scope : String) (limits : Amounts) : Repository :=
  { repository with
    limits := repository.limits.alterEach (fun key _ => some (limits.getD key.2 0))
      (limits.keys.map fun name => (scope, name)) }

theorem get?_limiting (limits : Amounts) (name : String) :
    (repository.limiting scope limits).limits.get? (scope, name) =
      (limits.get? name).or (repository.limits.get? (scope, name)) := by
  have keys : (limits.keys.map fun name => (scope, name)).Nodup :=
    limits.keys_nodup.map fun _ _ same => congrArg Prod.snd same
  rw [limiting, Dict.get?_alterEach _ keys]
  by_cases member : name ∈ limits.keys
  · obtain ⟨limit, found⟩ := Dict.get?_isSome_iff.mpr member
    simp [member, Dict.getD, found]
  · simp [member, Dict.get?_eq_none_iff.mpr member]

theorem writeLimit_eq_ok {name : String} {limit : Nat} :
    writeLimit integer scope name limit repository = .ok () final ↔
      integer.Fits limit ∧
        { repository with limits := repository.limits.set (scope, name) limit } = final := by
  simp only [writeLimit, Transaction.bind_eq_ok, exists_unit, query_eq_ok, SqlInteger.bind_eq_ok,
    write_eq_ok]
  constructor
  · rintro ⟨middle, ⟨fits, rfl⟩, written⟩
    exact ⟨fits, written⟩
  · rintro ⟨fits, written⟩
    exact ⟨repository, ⟨fits, rfl⟩, written⟩

theorem configureCounter_eq_ok {limits : Amounts} {name : String} :
    configureCounter integer scope limits name repository = .ok () final ↔
      ((repository.counter scope name).used + (repository.counter scope name).reserved ≤
          limits.getD name 0 ∧ integer.Fits (limits.getD name 0)) ∧
        { repository with limits := repository.limits.set (scope, name) (limits.getD name 0) } =
          final := by
  simp only [configureCounter, Transaction.bind_eq_ok, exists_unit, query_eq_ok, raiseIf_eq_ok,
    writeLimit_eq_ok, Nat.not_lt, gt_iff_lt]
  constructor
  · rintro ⟨middle, ⟨enough, rfl⟩, fits, written⟩
    exact ⟨⟨enough, fits⟩, written⟩
  · rintro ⟨⟨enough, fits⟩, written⟩
    exact ⟨repository, ⟨enough, rfl⟩, fits, written⟩

/-- A loop over limits, each turn of which writes its own limit under a condition. -/
theorem forM_limits {limits : Amounts} {statement : String → Transaction Repository BudgetError Unit}
    (admits : String → Repository → Prop)
    (spec : ∀ name repository final, statement name repository = .ok () final ↔
      admits name repository ∧
        { repository with limits := repository.limits.set (scope, name) (limits.getD name 0) } =
          final)
    (stable : ∀ name repository table,
      admits name { repository with limits := table } ↔ admits name repository) :
    forM limits.keys statement repository = .ok () final ↔
      (∀ name ∈ limits.keys, admits name repository) ∧
        repository.limiting scope limits = final := by
  have written : ∀ (names : List String) (repository : Repository),
      names.foldl (fun repository name =>
        { repository with limits := repository.limits.set (scope, name) (limits.getD name 0) })
        repository =
        { repository with
          limits := repository.limits.alterEach (fun key _ => some (limits.getD key.2 0))
            (names.map fun name => (scope, name)) } := by
    intro names
    induction names with
    | nil => exact fun _ => rfl
    | cons name names ih =>
        intro repository
        rw [List.foldl_cons, ih]
        rfl
  rw [Transaction.forM_eq_ok spec (fun name _ _ _ => stable name _ _) limits.keys_nodup, written,
    limiting]

/-- What a successful `configure` has checked and written. -/
theorem configure_eq_ok {raw : RawAmounts} :
    configure integer scope raw repository = .ok () final ↔
      ∃ limits, validateAmounts raw "limits" false = .ok limits ∧ limits.keys ≠ [] ∧
        scope ∈ repository.scopes ∧
        (∀ name ∈ limits.keys,
          (repository.counter scope name).used + (repository.counter scope name).reserved ≤
            limits.getD name 0 ∧ integer.Fits (limits.getD name 0)) ∧
        repository.limiting scope limits = final := by
  have loop : ∀ limits : Amounts,
      forM limits.keys (configureCounter integer scope limits) repository = .ok () final ↔
        (∀ name ∈ limits.keys,
          (repository.counter scope name).used + (repository.counter scope name).reserved ≤
            limits.getD name 0 ∧ integer.Fits (limits.getD name 0)) ∧
        repository.limiting scope limits = final := fun limits =>
    forM_limits (fun name repository =>
        (repository.counter scope name).used + (repository.counter scope name).reserved ≤
          limits.getD name 0 ∧ integer.Fits (limits.getD name 0))
      (fun _ _ _ => configureCounter_eq_ok) (fun _ _ _ => Iff.rfl)
  simp only [configure, Transaction.bind_eq_ok, exists_unit, query_eq_ok, atomically_eq_ok,
    raiseIf_eq_ok, requireScope, not_not]
  constructor
  · rintro ⟨limits, middle, ⟨valid, rfl⟩, middle, ⟨named, rfl⟩, middle, ⟨known, rfl⟩, looped⟩
    exact ⟨limits, valid, named, known, (loop limits).mp looped⟩
  · rintro ⟨limits, valid, named, known, looped⟩
    exact ⟨limits, repository, ⟨valid, rfl⟩, repository, ⟨named, rfl⟩, repository, ⟨known, rfl⟩,
      (loop limits).mpr looped⟩

/-- A configuration that raises, also one that raises at its last counter, writes nothing. -/
theorem state_of_configure_error {raw : RawAmounts}
    (raised : configure integer scope raw repository = .error error final) :
    final = repository := by
  rw [configure, query_bind] at raised
  cases valid : validateAmounts raw "limits" false with
  | error other =>
      rw [valid] at raised
      exact (EStateM.Result.error.inj raised).2.symm
  | ok limits =>
      simp only [valid, query_bind] at raised
      split at raised
      · exact state_of_atomically_error raised
      · exact (EStateM.Result.error.inj raised).2.symm

/-- A new scope starts with its limits. -/
theorem ledger_eq_ok_of_new {raw : RawAmounts} (new : scope ∉ repository.scopes) :
    ledger integer scope raw repository = .ok () final ↔
      scope ≠ "" ∧ ∃ limits, validateAmounts raw "limits" false = .ok limits ∧
        (∀ name ∈ limits.keys, integer.Fits (limits.getD name 0)) ∧
        limiting { repository with scopes := repository.scopes ++ [scope] } scope limits =
          final := by
  have loop : ∀ limits : Amounts,
      (forM limits.keys fun name => writeLimit integer scope name (limits.getD name 0))
        { repository with scopes := repository.scopes ++ [scope] } = .ok () final ↔
        (∀ name ∈ limits.keys, integer.Fits (limits.getD name 0)) ∧
          limiting { repository with scopes := repository.scopes ++ [scope] } scope limits =
            final := fun limits =>
    forM_limits (fun name _ => integer.Fits (limits.getD name 0)) (fun _ _ _ => writeLimit_eq_ok)
      (fun _ _ _ => Iff.rfl)
  simp only [ledger, Transaction.bind_eq_ok, exists_unit, query_eq_ok, atomically_eq_ok,
    raiseIf_eq_ok, Except.ok.injEq]
  constructor
  · rintro ⟨middle, ⟨named, rfl⟩, limits, middle, ⟨valid, rfl⟩, known, middle, ⟨rfl, rfl⟩, looped⟩
    simp only [new, decide_false, Bool.false_eq_true, ↓reduceIte, write_bind] at looped
    exact ⟨named, limits, valid, (loop limits).mp looped⟩
  · rintro ⟨named, limits, valid, looped⟩
    refine ⟨repository, ⟨named, rfl⟩, limits, repository, ⟨valid, rfl⟩, false, repository,
      ⟨by simp [new], rfl⟩, ?_⟩
    simp only [Bool.false_eq_true, ↓reduceIte, write_bind]
    exact (loop limits).mpr looped

end Repository

namespace SqliteBudgetLedger

/-- `SqliteBudgetReservation`. -/
structure Reservation where
  scope : String
  active : Bool

end SqliteBudgetLedger

/-- The database, and the reservation objects that one process holds. -/
structure Session where
  repository : Repository
  reservations : Dict String SqliteBudgetLedger.Reservation

namespace SqliteBudgetLedger

variable (integer : SqlInteger)

/-- Work on the database of a session. -/
def onRepository {α : Type} (work : Transaction Repository BudgetError α) :
    Transaction Session BudgetError α := fun session =>
  match work session.repository with
  | .ok value repository => .ok value { session with repository }
  | .error error repository => .error error { session with repository }

theorem onRepository_of_ok {α : Type} {work : Transaction Repository BudgetError α}
    {session : Session} {value : α} {repository : Repository}
    (done : work session.repository = .ok value repository) :
    onRepository work session = .ok value { session with repository } := by
  rw [onRepository, done]

theorem onRepository_of_error {α : Type} {work : Transaction Repository BudgetError α}
    {session : Session} {error : BudgetError} {repository : Repository}
    (raised : work session.repository = .error error repository) :
    onRepository work session = .error error { session with repository } := by
  rw [onRepository, raised]

/-- `SqliteBudgetLedger.reserve`. The identifier is the given one or a new one. -/
def reserve (scope : String) (amounts : RawAmounts) (reservationId : String) :
    Transaction Session BudgetError Unit := do
  let requested ← query fun _ => validateAmounts amounts "amounts" true
  onRepository (Repository.reserve integer scope requested reservationId)
  write fun session =>
    { session with reservations := session.reservations.set reservationId ⟨scope, true⟩ }

/-- The reservation object the caller holds. -/
def find (session : Session) (reservationId : String) : Except BudgetError Reservation :=
  match session.reservations.get? reservationId with
  | some reservation => .ok reservation
  | none => .error (.noReservation reservationId)

/-- `self._active = False`. -/
def deactivate (reservationId : String) (reservation : Reservation) (session : Session) : Session :=
  { session with
    reservations := session.reservations.set reservationId { reservation with active := false } }

/-- `SqliteBudgetReservation.reconcile`. -/
def reconcile (reservationId : String) (actual : RawAmounts) :
    Transaction Session BudgetError Unit := do
  let reservation ← query fun session => find session reservationId
  let charged ← query fun _ => validateAmounts actual "actual" true
  query fun _ => raiseIf (reservation.active = false)
    (.runtimeError "reservation is no longer active")
  onRepository (Repository.finish integer reservation.scope reservationId (some charged))
  write (deactivate reservationId reservation)

/-- `SqliteBudgetReservation.cancel`. -/
def cancel (reservationId : String) : Transaction Session BudgetError Unit := do
  let reservation ← query fun session => find session reservationId
  query fun _ => raiseIf (reservation.active = false)
    (.runtimeError "reservation is no longer active")
  onRepository (Repository.finish integer reservation.scope reservationId none)
  write (deactivate reservationId reservation)

/-- `SqliteBudgetLedger.spend`. -/
def spend (scope : String) (amounts : RawAmounts) (reservationId : String) :
    Transaction Session BudgetError Unit := do
  reserve integer scope amounts reservationId
  reconcile integer reservationId amounts

end SqliteBudgetLedger

end CapabilityHub.Budget
