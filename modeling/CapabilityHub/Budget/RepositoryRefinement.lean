import CapabilityHub.Budget.Ledger
import CapabilityHub.Budget.Repository

/-! # The durable ledger refines the one in memory

A sequence of calls on one scope of a `SqliteBudgetRepository` beside the same sequence on
a parentless `BudgetLedger`, whose limits follow the successful configurations. As long as
the totals fit into the integers of the database, the snapshots agree after every call and
the calls end alike (`CapabilityHub.Budget.sqliteBudgetLedger_refines_budgetLedger`).
-/

namespace CapabilityHub.Budget

open Transaction

/-- A call on a ledger or on a reservation it returned. -/
inductive LedgerCall where
  | configure (limits : RawAmounts)
  | reserve (amounts : RawAmounts) (reservationId : String)
  | reconcile (reservationId : String) (actual : RawAmounts)
  | cancel (reservationId : String)
  | spend (amounts : RawAmounts) (reservationId : String)

namespace LedgerCall

variable (integer : SqlInteger) (scope : String)

/-- The call on the durable ledger. -/
def durable : LedgerCall → Transaction Session BudgetError Unit
  | .configure limits =>
      SqliteBudgetLedger.onRepository (Repository.configure integer scope limits)
  | .reserve amounts reservationId => SqliteBudgetLedger.reserve integer scope amounts reservationId
  | .reconcile reservationId actual => SqliteBudgetLedger.reconcile integer reservationId actual
  | .cancel reservationId => SqliteBudgetLedger.cancel integer reservationId
  | .spend amounts reservationId => SqliteBudgetLedger.spend integer scope amounts reservationId

/-- The call on the ledger in memory, which cannot be configured. -/
def inMemory : LedgerCall → Transaction (Memory String) BudgetError Unit
  | .configure _ => pure ()
  | .reserve amounts reservationId => Memory.reserve (.root scope) amounts reservationId
  | .reconcile reservationId actual => Memory.reconcile reservationId actual
  | .cancel reservationId => Memory.cancel reservationId
  | .spend amounts reservationId => Memory.spend (.root scope) amounts reservationId

/-- The limits of the ledger in memory replaced by a successful configuration. -/
def relimit (limits : RawAmounts) (memory : Memory String) : Memory String :=
  match validateAmounts limits "limits" false with
  | .ok normalized =>
      { memory with
        limits := Function.update memory.limits scope ((memory.limits scope).merge normalized) }
  | .error _ => memory

/-- The memory after a call, where the durable ledger was in `session` before it. -/
def follow (call : LedgerCall) (session : Session) (memory : Memory String) : Memory String :=
  match call with
  | .configure limits =>
      match outcome ((LedgerCall.configure limits).durable integer scope) session with
      | .ok () => relimit scope limits memory
      | .error _ => memory
  | call => stateAfter (call.inMemory scope) memory

/-- A new reservation gets an identifier that no reservation of the database has. -/
def Fresh (session : Session) : LedgerCall → Prop
  | .reserve _ reservationId => session.repository.reservations.get? reservationId = none
  | .spend _ reservationId => session.repository.reservations.get? reservationId = none
  | _ => True

/-- The totals that an accepted call leads to fit into the integers of the database. -/
def InRange (memory : Memory String) (call : LedgerCall) : Prop :=
  outcome (call.inMemory scope) memory = .ok () →
    match call with
    | .configure _ | .cancel _ => True
    | .reserve amounts _ => ∀ requested, validateAmounts amounts "amounts" true = .ok requested →
        ∀ name ∈ requested.keys,
          integer.Fits ((memory.charge scope name).reserved + requested.getD name 0)
    | .reconcile _ actual => ∀ charged, validateAmounts actual "actual" true = .ok charged →
        ∀ name ∈ charged.keys,
          integer.Fits ((memory.charge scope name).used + charged.getD name 0)
    | .spend amounts _ => ∀ requested, validateAmounts amounts "amounts" true = .ok requested →
        ∀ name ∈ requested.keys,
          integer.Fits ((memory.charge scope name).reserved + requested.getD name 0) ∧
            integer.Fits ((memory.charge scope name).used + requested.getD name 0)

end LedgerCall

/-- Every row of the repository belongs to a scope it has. -/
structure Repository.References (repository : Repository) : Prop where
  limits : ∀ scope name limit,
    repository.limits.get? (scope, name) = some limit → scope ∈ repository.scopes
  counters : ∀ scope name charge,
    repository.counters.get? (scope, name) = some charge → scope ∈ repository.scopes

/-- A session over a new scope beside a new ledger, after the same calls on both. -/
inductive Lockstep (integer : SqlInteger) (scope : String) : Session → Memory String → Prop where
  | opened {repository repository' : Repository} {limits : RawAmounts} {ledger : BudgetLedger String}
      {memory : Memory String} (references : repository.References)
      (new : scope ∉ repository.scopes)
      (opened : Repository.ledger integer scope limits repository = .ok () repository')
      (constructed : Memory.construct scope scope limits none Memory.start = .ok ledger memory) :
      Lockstep integer scope ⟨repository', ∅⟩ memory
  | called {session : Session} {memory : Memory String} (before : Lockstep integer scope session memory)
      (call : LedgerCall) (fresh : call.Fresh session) (inRange : call.InRange integer scope memory) :
      Lockstep integer scope (stateAfter (call.durable integer scope) session)
        (call.follow integer scope session memory)

/-! ## The relation between the two -/

/-- A reservation object over the database, the one in memory and the row belong together. -/
inductive Matches (scope : String) : Option SqliteBudgetLedger.Reservation →
    Option (BudgetReservation String) → Option Repository.ReservationRow → Prop where
  | absent (row : Option Repository.ReservationRow) : Matches scope none none row
  | present {amounts : Amounts} (positive : Positive amounts) {active : Bool} {status : Status}
      (same : status = .active ↔ active = true) :
      Matches scope (some ⟨scope, active⟩) (some ⟨.root scope, amounts, active⟩)
        (some ⟨scope, encodeAmounts amounts, status⟩)

/-- The database shows of the scope what the ledger in memory has. -/
structure Refines (integer : SqlInteger) (scope : String) (session : Session)
    (memory : Memory String) : Prop where
  known : scope ∈ session.repository.scopes
  named : memory.scope scope = scope
  limits : ∀ name,
    session.repository.limits.get? (scope, name) = (memory.limits scope).get? name
  charges : ∀ name, session.repository.counter scope name = memory.charge scope name
  usedFits : ∀ name, integer.Fits (memory.charge scope name).used
  reservedFits : ∀ name, integer.Fits (memory.charge scope name).reserved
  accounted : memory.Accounted
  objects : ∀ reservationId, Matches scope (session.reservations.get? reservationId)
    (memory.reservations.get? reservationId) (session.repository.reservations.get? reservationId)

/-- Two calls that end alike, in states that belong together again. A failed call has not
written to the database. -/
inductive EndAlike (integer : SqlInteger) (scope : String) (repository : Repository) :
    EStateM.Result BudgetError Session Unit → EStateM.Result BudgetError (Memory String) Unit →
      Prop where
  | ok {session : Session} {memory : Memory String} (refines : Refines integer scope session memory) :
      EndAlike integer scope repository (.ok () session) (.ok () memory)
  | error {session : Session} {memory : Memory String} {error : BudgetError}
      (refines : Refines integer scope session memory) (kept : session.repository = repository) :
      EndAlike integer scope repository (.error error session) (.error error memory)

namespace EndAlike

variable {integer : SqlInteger} {scope : String} {repository : Repository} {memory : Memory String}
  {result : EStateM.Result BudgetError Session Unit} {error : BudgetError}

theorem of_ok (alike : EndAlike integer scope repository result (.ok () memory)) :
    ∃ session, result = .ok () session ∧ Refines integer scope session memory := by
  cases alike with
  | ok refines => exact ⟨_, rfl, refines⟩

theorem of_error (alike : EndAlike integer scope repository result (.error error memory)) :
    ∃ session, result = .error error session ∧ Refines integer scope session memory ∧
      session.repository = repository := by
  cases alike with
  | error refines kept => exact ⟨_, rfl, refines, kept⟩

section Works

variable {session : Session} {work : Transaction Session BudgetError Unit}
  {work' : Transaction (Memory String) BudgetError Unit}
  (alike : EndAlike integer scope repository (work session) (work' memory))

include alike

theorem outcome_eq : outcome work session = outcome work' memory := by
  rw [outcome, outcome]
  generalize work session = result at alike
  generalize work' memory = result' at alike
  cases alike <;> rfl

theorem stateAfter : Refines integer scope (stateAfter work session) (stateAfter work' memory) := by
  rw [Transaction.stateAfter, Transaction.stateAfter]
  generalize work session = result at alike
  generalize work' memory = result' at alike
  cases alike with
  | ok refines => exact refines
  | error refines => exact refines

theorem repository_of_error {final : Session} (raised : work session = .error error final) :
    final.repository = repository := by
  rw [raised] at alike
  generalize work' memory = result' at alike
  cases alike with
  | error refines kept => exact kept

end Works

end EndAlike

namespace Refines

variable {integer : SqlInteger} {scope : String} {session : Session} {memory : Memory String}
  {raw : RawAmounts} {reservationId : String}

theorem root_acyclic : (BudgetLedger.root scope).path.Nodup := by
  simp [BudgetLedger.path]

theorem forM_singleton {check : String → Except BudgetError Unit} :
    forM [scope] check = check scope := by
  cases result : check scope <;> simp [result, bind, Except.bind, pure, Except.pure]

/-- Both ledgers refuse the same amounts with the same error. -/
theorem checkCapacity (refines : Refines integer scope session memory)
    {replaced replaced' : Amounts} (same : ∀ name, replaced.get? name = replaced'.get? name)
    (amounts : Amounts) :
    session.repository.checkCapacity scope replaced amounts =
      memory.checkCapacity [scope] replaced' amounts := by
  rw [Memory.checkCapacity, forM_singleton, refines.named, Repository.checkCapacity,
    checkScope_congr same]
  congr 1
  · exact funext refines.limits
  · exact funext refines.charges

theorem missing (refines : Refines integer scope session memory)
    (absent : memory.reservations.get? reservationId = none) :
    session.reservations.get? reservationId = none := by
  have matched := refines.objects reservationId
  rw [absent] at matched
  generalize session.reservations.get? reservationId = held at matched
  generalize session.repository.reservations.get? reservationId = row at matched
  cases matched
  rfl

theorem found {reservation : BudgetReservation String} (refines : Refines integer scope session memory)
    (held : memory.reservations.get? reservationId = some reservation) :
    ∃ status, reservation.ledger = .root scope ∧ Positive reservation.amounts ∧
      session.reservations.get? reservationId = some ⟨scope, reservation.active⟩ ∧
      session.repository.reservations.get? reservationId =
        some ⟨scope, encodeAmounts reservation.amounts, status⟩ ∧
      (status = .active ↔ reservation.active = true) := by
  have matched := refines.objects reservationId
  rw [held] at matched
  generalize session.reservations.get? reservationId = object at matched
  generalize session.repository.reservations.get? reservationId = row at matched
  cases matched with
  | present positive same => exact ⟨_, rfl, positive, rfl, rfl, same⟩

theorem unheld (refines : Refines integer scope session memory)
    (fresh : session.repository.reservations.get? reservationId = none) :
    memory.reservations.get? reservationId = none := by
  cases held : memory.reservations.get? reservationId with
  | none => rfl
  | some reservation =>
      obtain ⟨status, _, _, _, row, _⟩ := refines.found held
      rw [fresh] at row
      cases row

/-- The relation after both have held the same amounts. -/
theorem holding (refines : Refines integer scope session memory) {requested : Amounts}
    (positive : Positive requested)
    (fresh : session.repository.reservations.get? reservationId = none)
    (fits : ∀ name ∈ requested.keys,
      integer.Fits ((memory.charge scope name).reserved + requested.getD name 0)) :
    Refines integer scope
      { repository :=
          { session.repository with
            reservations := session.repository.reservations.set reservationId
              ⟨scope, encodeAmounts requested, .active⟩ }.rewrite scope requested.keys
            fun name => addedRow integer (requested.getD name 0)
        reservations := session.reservations.set reservationId ⟨scope, true⟩ }
      { memory.holding [scope] requested with
        reservations := memory.reservations.set reservationId ⟨.root scope, requested, true⟩ } := by
  have unheld := refines.unheld fresh
  have charged : ∀ name, Memory.charge { memory.holding [scope] requested with
      reservations := memory.reservations.set reservationId ⟨.root scope, requested, true⟩ }
        scope name = ⟨(memory.charge scope name).used,
          (memory.charge scope name).reserved + requested.getD name 0⟩ := by
    intro name
    have held := memory.charge_holding [scope] requested scope name
    simpa [Memory.charge] using held
  have added : ∀ name, integer.Fits
      ((memory.charge scope name).reserved + requested.getD name 0) := by
    intro name
    by_cases member : name ∈ requested.keys
    · exact fits name member
    · rw [getD_of_notMem member]
      exact refines.reservedFits name
  constructor
  · exact refines.known
  · exact refines.named
  · exact refines.limits
  · intro name
    rw [charged, Repository.counter_rewrite requested.keys_nodup]
    have before := refines.charges name
    rw [Repository.counter] at before
    by_cases member : name ∈ requested.keys
    · rw [if_pos member, addedRow_eq (by rw [before]; exact added name), before]
    · rw [if_neg member, getD_of_notMem member]
      exact before
  · intro name
    rw [charged]
    exact refines.usedFits name
  · intro name
    rw [charged]
    exact added name
  · exact refines.accounted.holding unheld (.root scope) requested
  · intro other
    simp only [Repository.rewrite, Dict.get?_set]
    by_cases same : other = reservationId
    · simp only [same, ↓reduceIte]
      exact .present positive (by simp)
    · simp only [same, ↓reduceIte]
      exact refines.objects other

/-- What a finish needs of the rows it rewrites. -/
theorem finishAdmits (refines : Refines integer scope session memory)
    {reservation : BudgetReservation String} {held charged : Amounts}
    (found : memory.reservations.get? reservationId = some reservation)
    (active : reservation.active = true) (ledger : reservation.ledger = .root scope)
    (same : ∀ name, held.get? name = reservation.amounts.get? name)
    (fits : ∀ name ∈ charged.keys,
      integer.Fits ((memory.charge scope name).used + charged.getD name 0)) (name : String) :
    FinishAdmits integer held charged name
      (session.repository.counters.get? (scope, name)) := by
  have before := refines.charges name
  rw [Repository.counter] at before
  have equal : held.getD name 0 = reservation.amounts.getD name 0 := by
    rw [Dict.getD, Dict.getD, same]
  refine ⟨?_, ?_, ?_⟩
  · rw [before, equal]
    by_cases member : name ∈ reservation.amounts.keys
    · exact refines.accounted.holds found active scope
        (by rw [ledger]; exact List.mem_singleton_self scope) name member
    · rw [getD_of_notMem member]
      exact Nat.zero_le _
  · rw [finishedRow, before]
    by_cases member : name ∈ charged.keys
    · exact fits name member
    · simpa [getD_of_notMem member] using refines.usedFits name
  · rw [finishedRow, before]
    exact integer.fits_of_le _ _ (Nat.sub_le _ _) (refines.reservedFits name)

/-- The relation after both have replaced what a reservation holds by a charge. -/
theorem settling (refines : Refines integer scope session memory)
    {reservation : BudgetReservation String} {held charged : Amounts} {status status' : Status}
    (found : memory.reservations.get? reservationId = some reservation)
    (active : reservation.active = true) (ledger : reservation.ledger = .root scope)
    (positive : Positive reservation.amounts)
    (same : ∀ name, held.get? name = reservation.amounts.get? name)
    (ended : status' ≠ .active)
    (fits : ∀ name ∈ charged.keys,
      integer.Fits ((memory.charge scope name).used + charged.getD name 0)) :
    Refines integer scope
      (SqliteBudgetLedger.deactivate reservationId ⟨scope, true⟩
        { session with
          repository :=
            { session.repository.rewrite scope (unionKeys held charged)
                (finishedRow held charged) with
              reservations := session.repository.reservations.set reservationId
                { (⟨scope, encodeAmounts reservation.amounts, status⟩ :
                    Repository.ReservationRow) with status := status' } } })
      (Memory.deactivate reservationId reservation
        (memory.settling reservation.ledger.path reservation.amounts charged)) := by
  have settled : ∀ name, (Memory.deactivate reservationId reservation
      (memory.settling reservation.ledger.path reservation.amounts charged)).charge scope name =
        ⟨(memory.charge scope name).used + charged.getD name 0,
          (memory.charge scope name).reserved - reservation.amounts.getD name 0⟩ := by
    intro name
    have settled := memory.charge_settling reservation.ledger.path reservation.amounts charged scope
      name
    rw [ledger] at settled ⊢
    simpa [Memory.charge, Memory.deactivate, BudgetLedger.path] using settled
  constructor
  · exact refines.known
  · exact refines.named
  · exact refines.limits
  · intro name
    have before := refines.charges name
    rw [Repository.counter] at before
    have equal : held.getD name 0 = reservation.amounts.getD name 0 := by
      rw [Dict.getD, Dict.getD, same]
    rw [settled, ← equal]
    refine (Repository.counter_rewrite (unionKeys_nodup held charged) _ name).trans ?_
    split
    · rw [finishedRow, before]
    next absent =>
      obtain ⟨unheld, uncharged⟩ := not_or.mp (mem_unionKeys.not.mp absent)
      rw [getD_of_notMem unheld, getD_of_notMem uncharged]
      exact refines.charges name
  · intro name
    rw [settled]
    by_cases member : name ∈ charged.keys
    · exact fits name member
    · simpa [getD_of_notMem member] using refines.usedFits name
  · intro name
    rw [settled]
    exact integer.fits_of_le _ _ (Nat.sub_le _ _) (refines.reservedFits name)
  · exact refines.accounted.settling found active charged
  · intro other
    obtain ⟨root, amounts, flag⟩ := reservation
    obtain rfl := ledger
    simp only [SqliteBudgetLedger.deactivate, Memory.deactivate, Memory.settling,
      Repository.rewrite, Dict.get?_set]
    by_cases equal : other = reservationId
    · simp only [equal, ↓reduceIte]
      exact .present positive (by simp [ended])
    · simp only [equal, ↓reduceIte]
      exact refines.objects other

/-! ### Each call ends alike -/

theorem reserve_endAlike (refines : Refines integer scope session memory)
    (fresh : session.repository.reservations.get? reservationId = none)
    (fits : ∀ requested, validateAmounts raw "amounts" true = .ok requested →
      memory.checkCapacity [scope] ∅ requested = .ok () → ∀ name ∈ requested.keys,
        integer.Fits ((memory.charge scope name).reserved + requested.getD name 0)) :
    EndAlike integer scope session.repository
      (SqliteBudgetLedger.reserve integer scope raw reservationId session)
      (Memory.reserve (.root scope) raw reservationId memory) := by
  cases validated : validateAmounts raw "amounts" true with
  | error error =>
      rw [Memory.reserve_of_invalid validated]
      simp only [SqliteBudgetLedger.reserve, query_bind, validated]
      exact .error refines rfl
  | ok requested =>
      have alike := refines.checkCapacity (fun _ => rfl : ∀ name, (∅ : Amounts).get? name = _)
        requested
      cases checked : memory.checkCapacity [scope] ∅ requested with
      | error error =>
          rw [checked] at alike
          rw [Memory.reserve_of_refused root_acyclic validated checked]
          simp only [SqliteBudgetLedger.reserve, query_bind, validated]
          rw [bind_of_error (SqliteBudgetLedger.onRepository_of_error
            (Repository.reserve_of_refused refines.known alike))]
          exact .error refines rfl
      | ok =>
          rw [checked] at alike
          have held := fits requested validated checked
          have bound : ∀ name ∈ requested.keys, integer.Fits (requested.getD name 0) :=
            fun name member => integer.fits_of_le _ _ (Nat.le_add_left _ _) (held name member)
          rw [Memory.reserve_of_admitted root_acyclic validated checked]
          simp only [SqliteBudgetLedger.reserve, query_bind, validated]
          rw [bind_of_ok (SqliteBudgetLedger.onRepository_of_ok
            (Repository.reserve_of_admitted refines.known alike fresh bound))]
          exact .ok (refines.holding (positive_of_validateAmounts validated) fresh held)

theorem cancel_endAlike (refines : Refines integer scope session memory) :
    EndAlike integer scope session.repository
      (SqliteBudgetLedger.cancel integer reservationId session)
      (Memory.cancel reservationId memory) := by
  cases held : memory.reservations.get? reservationId with
  | none =>
      rw [Memory.cancel_of_missing held]
      simp only [SqliteBudgetLedger.cancel, query_bind, SqliteBudgetLedger.find,
        refines.missing held]
      exact .error refines rfl
  | some reservation =>
      obtain ⟨status, ledger, positive, object, row, same⟩ := refines.found held
      have acyclic : reservation.ledger.path.Nodup := by
        rw [ledger]
        exact root_acyclic
      cases active : reservation.active with
      | false =>
          rw [Memory.cancel_of_inactive held acyclic active]
          simp only [SqliteBudgetLedger.cancel, query_bind, SqliteBudgetLedger.find, object, raiseIf,
            active, ↓reduceIte]
          exact .error refines rfl
      | true =>
          obtain rfl : status = .active := same.mpr active
          obtain ⟨decoded, decodes, agree⟩ := decodeAmounts_encodeAmounts positive
          have admitted : session.repository.checkCapacity scope decoded ((none : Option Amounts).getD ∅) =
              .ok () := checkScope_eq_ok.mpr fun _ _ _ requested => by simp at requested
          have nothing : ∀ name ∈ (∅ : Amounts).keys,
              integer.Fits ((memory.charge scope name).used + (∅ : Amounts).getD name 0) := by simp
          have admits := refines.finishAdmits held active ledger agree nothing
          rw [Memory.cancel_of_active held acyclic active (refines.accounted.holds held active)]
          simp only [SqliteBudgetLedger.cancel, query_bind, SqliteBudgetLedger.find, object, raiseIf,
            active, Bool.true_eq_false, ↓reduceIte]
          rw [bind_of_ok (SqliteBudgetLedger.onRepository_of_ok (Repository.finish_of_admitted none
            (Repository.activeRow_eq_ok.mpr ⟨row, rfl, rfl⟩) decodes admitted
            fun name _ => admits name))]
          exact .ok (refines.settling held active ledger positive agree (by simp) nothing)

theorem reconcile_endAlike (refines : Refines integer scope session memory)
    (fits : ∀ charged, validateAmounts raw "actual" true = .ok charged →
      outcome (Memory.reconcile reservationId raw) memory = .ok () → ∀ name ∈ charged.keys,
        integer.Fits ((memory.charge scope name).used + charged.getD name 0)) :
    EndAlike integer scope session.repository
      (SqliteBudgetLedger.reconcile integer reservationId raw session)
      (Memory.reconcile reservationId raw memory) := by
  cases held : memory.reservations.get? reservationId with
  | none =>
      rw [Memory.reconcile_of_missing held]
      simp only [SqliteBudgetLedger.reconcile, query_bind, SqliteBudgetLedger.find,
        refines.missing held]
      exact .error refines rfl
  | some reservation =>
      obtain ⟨status, ledger, positive, object, row, same⟩ := refines.found held
      have acyclic : reservation.ledger.path.Nodup := by
        rw [ledger]
        exact root_acyclic
      cases validated : validateAmounts raw "actual" true with
      | error error =>
          rw [Memory.reconcile_of_invalid held validated]
          simp only [SqliteBudgetLedger.reconcile, query_bind, SqliteBudgetLedger.find, object,
            validated]
          exact .error refines rfl
      | ok charged =>
          cases active : reservation.active with
          | false =>
              rw [Memory.reconcile_of_inactive held acyclic validated active]
              simp only [SqliteBudgetLedger.reconcile, query_bind, SqliteBudgetLedger.find, object,
                validated, raiseIf, active, ↓reduceIte]
              exact .error refines rfl
          | true =>
              obtain rfl : status = .active := same.mpr active
              obtain ⟨decoded, decodes, agree⟩ := decodeAmounts_encodeAmounts positive
              have alike := refines.checkCapacity agree charged
              have path : reservation.ledger.path = [scope] := by rw [ledger]; rfl
              cases checked : memory.checkCapacity [scope] reservation.amounts charged with
              | error error =>
                  rw [checked] at alike
                  rw [Memory.reconcile_of_refused held acyclic validated active (path ▸ checked)]
                  simp only [SqliteBudgetLedger.reconcile, query_bind, SqliteBudgetLedger.find,
                    object, validated, raiseIf, active, Bool.true_eq_false, ↓reduceIte]
                  rw [bind_of_error (SqliteBudgetLedger.onRepository_of_error
                    (Repository.finish_of_refused (some charged)
                      (Repository.activeRow_eq_ok.mpr ⟨row, rfl, rfl⟩) decodes alike))]
                  exact .error refines rfl
              | ok =>
                  rw [checked] at alike
                  have accepted := Memory.reconcile_of_admitted held acyclic validated active
                    (path ▸ checked) (refines.accounted.holds held active)
                  have bound := fits charged validated (by rw [outcome, accepted])
                  have admits := refines.finishAdmits held active ledger agree bound
                  rw [accepted]
                  simp only [SqliteBudgetLedger.reconcile, query_bind, SqliteBudgetLedger.find,
                    object, validated, raiseIf, active, Bool.true_eq_false, ↓reduceIte]
                  rw [bind_of_ok (SqliteBudgetLedger.onRepository_of_ok
                    (Repository.finish_of_admitted (some charged)
                      (Repository.activeRow_eq_ok.mpr ⟨row, rfl, rfl⟩) decodes alike
                      fun name _ => admits name))]
                  exact .ok (refines.settling held active ledger positive agree (by simp) bound)

theorem spend_endAlike (refines : Refines integer scope session memory)
    (fresh : session.repository.reservations.get? reservationId = none)
    (fits : ∀ requested, validateAmounts raw "amounts" true = .ok requested →
      outcome (Memory.spend (.root scope) raw reservationId) memory = .ok () →
        ∀ name ∈ requested.keys,
          integer.Fits ((memory.charge scope name).reserved + requested.getD name 0) ∧
            integer.Fits ((memory.charge scope name).used + requested.getD name 0)) :
    EndAlike integer scope session.repository
      (SqliteBudgetLedger.spend integer scope raw reservationId session)
      (Memory.spend (.root scope) raw reservationId memory) := by
  have unheld := refines.unheld fresh
  have accepted : ∀ requested, validateAmounts raw "amounts" true = .ok requested →
      memory.checkCapacity [scope] ∅ requested = .ok () →
        ∃ final, Memory.spend (.root scope) raw reservationId memory = .ok () final :=
    fun requested validated checked =>
      Memory.spend_of_admitted root_acyclic refines.accounted unheld validated checked
  have reserved : EndAlike integer scope session.repository
      (SqliteBudgetLedger.reserve integer scope raw reservationId session)
      (Memory.reserve (.root scope) raw reservationId memory) :=
    refines.reserve_endAlike fresh fun requested validated checked name member => by
      obtain ⟨final, spent⟩ := accepted requested validated checked
      exact (fits requested validated (by rw [outcome, spent]) name member).1
  have refused : ∀ error, Memory.reserve (.root scope) raw reservationId memory =
      .error error memory → EndAlike integer scope session.repository
        (SqliteBudgetLedger.spend integer scope raw reservationId session)
        (Memory.spend (.root scope) raw reservationId memory) := by
    intro error raised
    rw [raised] at reserved
    obtain ⟨final, result, refined, kept⟩ := reserved.of_error
    rw [SqliteBudgetLedger.spend, bind_of_error result, Memory.spend, bind_of_error raised]
    exact .error refined kept
  cases validated : validateAmounts raw "amounts" true with
  | error error => exact refused error (Memory.reserve_of_invalid validated)
  | ok requested =>
      cases checked : memory.checkCapacity [scope] ∅ requested with
      | error error =>
          exact refused error (Memory.reserve_of_refused root_acyclic validated checked)
      | ok =>
          obtain ⟨final, spent⟩ := accepted requested validated checked
          have bound := fits requested validated (by rw [outcome, spent])
          have held : Memory.reserve (.root scope) raw reservationId memory = .ok () _ :=
            Memory.reserve_of_admitted root_acyclic validated checked
          rw [held] at reserved
          obtain ⟨between, result, refined⟩ := reserved.of_ok
          rw [SqliteBudgetLedger.spend, bind_of_ok result, Memory.spend, bind_of_ok held]
          rw [Memory.spend, bind_of_ok held] at spent
          have reconciled : EndAlike integer scope between.repository
              (SqliteBudgetLedger.reconcile integer reservationId raw between) _ :=
            refined.reconcile_endAlike fun charged again _ name member => by
              obtain rfl := Except.ok.inj
                ((validateAmounts_relabel validated "actual").symm.trans again)
              exact (bound name member).2
          rw [spent] at reconciled ⊢
          obtain ⟨last, settled, refined⟩ := reconciled.of_ok
          rw [settled]
          exact .ok refined

/-- A successful configuration changes the limits of both alike. -/
theorem configure (refines : Refines integer scope session memory) {repository : Repository}
    (configured : Repository.configure integer scope raw session.repository = .ok () repository) :
    Refines integer scope { session with repository } (LedgerCall.relimit scope raw memory) := by
  obtain ⟨limits, valid, _, known, _, rfl⟩ := Repository.configure_eq_ok.mp configured
  rw [LedgerCall.relimit, valid]
  constructor
  · exact known
  · exact refines.named
  · intro name
    rw [Repository.get?_limiting]
    simp only [Function.update_self, Dict.get?_merge, refines.limits]
  · exact refines.charges
  · exact refines.usedFits
  · exact refines.reservedFits
  · exact refines.accounted
  · exact refines.objects

/-- A new scope shows what a new ledger has. -/
theorem opened {repository repository' : Repository} {limits : RawAmounts}
    {ledger : BudgetLedger String} (references : repository.References)
    (new : scope ∉ repository.scopes)
    (opened : Repository.ledger integer scope limits repository = .ok () repository')
    (constructed : Memory.construct scope scope limits none Memory.start = .ok ledger memory) :
    Refines integer scope ⟨repository', ∅⟩ memory := by
  obtain ⟨named, normalized, valid, _, rfl⟩ := (Repository.ledger_eq_ok_of_new new).mp opened
  obtain ⟨_, limits, valid', _, rfl⟩ := Memory.construct_eq_ok.mp constructed
  obtain rfl := Except.ok.inj (valid.symm.trans valid')
  have unlimited : ∀ name, repository.limits.get? (scope, name) = none := fun name =>
    Option.eq_none_iff_forall_ne_some.mpr fun limit found =>
      new (references.limits scope name limit found)
  have unused : ∀ name, repository.counters.get? (scope, name) = none := fun name =>
    Option.eq_none_iff_forall_ne_some.mpr fun charge found =>
      new (references.counters scope name charge found)
  constructor
  · simp [Repository.limiting]
  · simp [Memory.allocate]
  · intro name
    rw [Repository.get?_limiting]
    simp [unlimited, Memory.allocate]
  · intro name
    simp [Repository.counter, Repository.limiting, unused, Memory.charge, Memory.allocate,
      Dict.getD]
  · intro name
    simpa [Memory.charge, Memory.allocate, Dict.getD] using integer.fits_zero
  · intro name
    simpa [Memory.charge, Memory.allocate, Dict.getD] using integer.fits_zero
  · intro address counter
    by_cases same : address = scope <;>
      simp [Memory.charge, Memory.allocate, Memory.start, Dict.getD, Dict.total, same] <;> rfl
  · intro reservationId
    exact .absent _

/-- A call on the ledger or on a reservation ends alike on both sides. -/
theorem endAlike (refines : Refines integer scope session memory) (call : LedgerCall)
    (fresh : call.Fresh session) (inRange : call.InRange integer scope memory)
    (unconfigured : ∀ limits, call ≠ .configure limits) :
    EndAlike integer scope session.repository (call.durable integer scope session)
      (call.inMemory scope memory) := by
  cases call with
  | configure limits => exact absurd rfl (unconfigured limits)
  | reserve amounts reservationId =>
      apply refines.reserve_endAlike fresh
      intro requested validated checked
      have accepted : outcome (Memory.reserve (.root scope) amounts reservationId) memory =
          .ok () := by
        rw [outcome, Memory.reserve_of_admitted root_acyclic validated checked]
      exact inRange accepted requested validated
  | reconcile reservationId actual =>
      exact refines.reconcile_endAlike fun charged validated accepted =>
        inRange accepted charged validated
  | cancel reservationId => exact refines.cancel_endAlike
  | spend amounts reservationId =>
      exact refines.spend_endAlike fresh fun requested validated accepted =>
        inRange accepted requested validated

theorem called (refines : Refines integer scope session memory) (call : LedgerCall)
    (fresh : call.Fresh session) (inRange : call.InRange integer scope memory) :
    Refines integer scope (stateAfter (call.durable integer scope) session)
      (call.follow integer scope session memory) := by
  by_cases configuration : ∃ limits, call = .configure limits
  · obtain ⟨limits, rfl⟩ := configuration
    cases result : Repository.configure integer scope limits session.repository with
    | ok value repository =>
        have done := SqliteBudgetLedger.onRepository_of_ok result
        simpa only [LedgerCall.follow, LedgerCall.durable, outcome, stateAfter, done]
          using refines.configure result
    | error error repository =>
        have raised := SqliteBudgetLedger.onRepository_of_error result
        obtain rfl := Repository.state_of_configure_error result
        simpa only [LedgerCall.follow, LedgerCall.durable, outcome, stateAfter, raised]
          using refines
  · have unconfigured : ∀ limits, call ≠ .configure limits := fun limits same =>
      configuration ⟨limits, same⟩
    have followed : call.follow integer scope session memory =
        stateAfter (call.inMemory scope) memory := by
      cases call with
      | configure limits => exact absurd rfl (unconfigured limits)
      | _ => rfl
    rw [followed]
    exact (refines.endAlike call fresh inRange unconfigured).stateAfter

/-- The database shows the snapshot of the ledger in memory. -/
theorem snapshot (refines : Refines integer scope session memory) :
    ∃ shown, session.repository.snapshot scope = .ok shown ∧
      shown.Agrees (memory.snapshot (.root scope)) := by
  refine ⟨_, bind_eq_ok.mpr ⟨(), raiseIf_eq_ok.mpr (not_not.mpr refines.known), rfl⟩, ?_⟩
  apply snapshotOf_agrees
  · intro name
    rw [Dict.get?_row]
    exact refines.limits name
  · exact refines.charges
  · intro name absent
    have uncounted := (List.mem_append.not.mp absent)
    have missing := Dict.get?_eq_none_iff.mpr (not_or.mp uncounted).2
    rw [Dict.get?_row] at missing
    rw [Repository.counter, missing]
    rfl
  · intro name absent
    simp only [List.mem_append, not_or] at absent
    simp only [Memory.charge, Dict.getD, Dict.get?_eq_none_iff.mpr absent.1.2,
      Dict.get?_eq_none_iff.mpr absent.2, Option.getD_none]

end Refines

theorem Lockstep.refines {integer : SqlInteger} {scope : String} {session : Session}
    {memory : Memory String} (lockstep : Lockstep integer scope session memory) :
    Refines integer scope session memory := by
  induction lockstep with
  | opened references new opened constructed => exact .opened references new opened constructed
  | called _ call fresh inRange ih => exact ih.called call fresh inRange

/-- **The durable ledger of one scope behaves as the ledger in memory**, as long as the totals
stay in the range of the database's integers. The snapshots agree, the next call on the ledger
or on a reservation ends alike, a configuration succeeds only if every new limit covers what is
used and reserved, and a call that raises leaves the database as it was. -/
theorem sqliteBudgetLedger_refines_budgetLedger {integer : SqlInteger} {scope : String}
    {session : Session} {memory : Memory String} (lockstep : Lockstep integer scope session memory) :
    (∃ shown, session.repository.snapshot scope = .ok shown ∧
      shown.Agrees (memory.snapshot (.root scope))) ∧
    ∀ call : LedgerCall, call.Fresh session → call.InRange integer scope memory →
      ((∀ limits, call ≠ .configure limits) →
        outcome (call.durable integer scope) session = outcome (call.inMemory scope) memory) ∧
      (∀ limits, call = .configure limits →
        outcome (call.durable integer scope) session = .ok () →
          ∃ normalized, validateAmounts limits "limits" false = .ok normalized ∧
            ∀ name limit, normalized.get? name = some limit →
              (session.repository.counter scope name).used +
                (session.repository.counter scope name).reserved ≤ limit) ∧
      (∀ error final, call.durable integer scope session = .error error final →
        final.repository = session.repository) := by
  have refines := lockstep.refines
  refine ⟨refines.snapshot, fun call fresh inRange => ⟨?_, ?_, ?_⟩⟩
  · exact fun unconfigured => (refines.endAlike call fresh inRange unconfigured).outcome_eq
  · rintro limits rfl succeeded
    cases result : Repository.configure integer scope limits session.repository with
    | error error repository =>
        have raised := SqliteBudgetLedger.onRepository_of_error result
        simp [LedgerCall.durable, outcome, raised] at succeeded
    | ok value repository =>
        obtain ⟨normalized, valid, _, _, covered, _⟩ := Repository.configure_eq_ok.mp result
        refine ⟨normalized, valid, fun name limit found => ?_⟩
        have enough := (covered name (Dict.mem_keys_of_get? found)).1
        rwa [Dict.getD, found] at enough
  · intro error final raised
    by_cases configuration : ∃ limits, call = .configure limits
    · obtain ⟨limits, rfl⟩ := configuration
      cases result : Repository.configure integer scope limits session.repository with
      | ok value repository =>
          rw [LedgerCall.durable, SqliteBudgetLedger.onRepository_of_ok result] at raised
          cases raised
      | error other repository =>
          rw [LedgerCall.durable, SqliteBudgetLedger.onRepository_of_error result] at raised
          obtain rfl := (EStateM.Result.error.inj raised).2
          exact Repository.state_of_configure_error result
    · exact (refines.endAlike call fresh inRange
        fun limits same => configuration ⟨limits, same⟩).repository_of_error raised

theorem Repository.references_empty : Repository.empty.References where
  limits := fun _ _ _ found => by simp [Repository.empty] at found
  counters := fun _ _ _ found => by simp [Repository.empty] at found

/-- A new scope without limits beside a new ledger. -/
theorem Lockstep.unlimited (integer : SqlInteger) :
    Lockstep integer "tenant" ⟨⟨["tenant"], ∅, ∅, ∅⟩, ∅⟩
      (Memory.start.allocate "tenant" "tenant" ∅) := by
  have validated : validateAmounts [] "limits" false = .ok ∅ := rfl
  have named : "tenant" ≠ "" := by simp
  have new : "tenant" ∉ Repository.empty.scopes := by simp [Repository.empty]
  have opened : Repository.ledger integer "tenant" [] Repository.empty =
      .ok () ⟨["tenant"], ∅, ∅, ∅⟩ :=
    (Repository.ledger_eq_ok_of_new new).mpr ⟨named, ∅, validated, by simp, rfl⟩
  exact .opened Repository.references_empty new opened
    (Memory.construct_eq_ok.mpr ⟨named, ∅, validated, rfl, rfl⟩)

theorem reserve_five_agrees :
    outcome ((LedgerCall.reserve [(.str "tokens", .int 5)] "first").durable (.signed64 id) "tenant")
      ⟨⟨["tenant"], ∅, ∅, ∅⟩, ∅⟩ =
    outcome ((LedgerCall.reserve [(.str "tokens", .int 5)] "first").inMemory "tenant")
      (Memory.start.allocate "tenant" "tenant" ∅) := by
  have small : (LedgerCall.reserve [(.str "tokens", .int 5)] "first").InRange (.signed64 id)
      "tenant" (Memory.start.allocate "tenant" "tenant" ∅) := by
    intro _ requested validated name member
    obtain rfl : (⟨[("tokens", 5)], by simp⟩ : Amounts) = requested := Except.ok.inj validated
    obtain rfl : name = "tokens" := by simpa [Dict.keys] using member
    exact of_decide_eq_true rfl
  have fresh : (LedgerCall.reserve [(.str "tokens", .int 5)] "first").Fresh
      ⟨⟨["tenant"], ∅, ∅, ∅⟩, ∅⟩ := rfl
  exact ((sqliteBudgetLedger_refines_budgetLedger (Lockstep.unlimited (.signed64 id))).2 _ fresh
    small).1 fun _ same => by cases same

/-- An unlimited counter takes `2 ** 63` in memory, and the database cannot bind it. -/
theorem reserve_overflows :
    ∃ (session : Session) (memory : Memory String) (call : LedgerCall),
      Lockstep (.signed64 id) "tenant" session memory ∧ call.Fresh session ∧
        (∀ limits, call ≠ .configure limits) ∧
        outcome (call.durable (.signed64 id) "tenant") session ≠
          outcome (call.inMemory "tenant") memory := by
  have overflows : outcome ((LedgerCall.reserve [(.str "tokens", .int 9223372036854775808)]
      "first").durable (.signed64 id) "tenant") ⟨⟨["tenant"], ∅, ∅, ∅⟩, ∅⟩ =
      .error .overflowError := rfl
  have succeeds : outcome ((LedgerCall.reserve [(.str "tokens", .int 9223372036854775808)]
      "first").inMemory "tenant") (Memory.start.allocate "tenant" "tenant" ∅) = .ok () := rfl
  refine ⟨_, _, .reserve [(.str "tokens", .int 9223372036854775808)] "first",
    Lockstep.unlimited _, rfl, fun _ same => (by cases same), fun same => ?_⟩
  rw [overflows, succeeds] at same
  cases same

end CapabilityHub.Budget
