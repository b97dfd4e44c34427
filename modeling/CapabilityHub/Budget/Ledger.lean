import CapabilityHub.Budget.Amounts
import CapabilityHub.Database.Transaction
import Mathlib.Logic.Function.Basic

/-! # The ledger in memory

`BudgetLedger` and `BudgetReservation` of `budget.py`. A ledger is an object with a
reference to its parent, so following the references ends; what the methods write lives
in `Memory`, under the address of the object. A method that raises keeps what it wrote
before, as the interpreter does.

The locks are left out: a call holds those of its whole chain, so the calls on a tree
take effect one after the other.
-/

namespace CapabilityHub.Budget

open Transaction

variable {κ : Type}

/-- `BudgetLedger`: the address of the object and the parent it refers to. -/
inductive BudgetLedger (κ : Type) where
  | root (address : κ)
  | child (address : κ) (parent : BudgetLedger κ)

namespace BudgetLedger

def address : BudgetLedger κ → κ
  | .root address => address
  | .child address _ => address

/-- The addresses from the root down. -/
def path : BudgetLedger κ → List κ
  | .root address => [address]
  | .child address parent => parent.path ++ [address]

/-- The loop of `_chain`: `seen` are the addresses passed on the way up. -/
def chainFrom [DecidableEq κ] (seen : List κ) : BudgetLedger κ → Except BudgetError (List κ)
  | .root address => do
      raiseIf (address ∈ seen) (.runtimeError "budget hierarchy contains a cycle")
      pure [address]
  | .child address parent => do
      raiseIf (address ∈ seen) (.runtimeError "budget hierarchy contains a cycle")
      let above ← parent.chainFrom (address :: seen)
      pure (above ++ [address])

/-- `_chain`. -/
def chain [DecidableEq κ] (ledger : BudgetLedger κ) : Except BudgetError (List κ) :=
  ledger.chainFrom []

theorem chainFrom_eq_ok [DecidableEq κ] (ledger : BudgetLedger κ) (seen : List κ)
    (acyclic : (ledger.path ++ seen).Nodup) : ledger.chainFrom seen = .ok ledger.path := by
  induction ledger generalizing seen with
  | root address =>
      have fresh : address ∉ seen := (List.nodup_cons.mp acyclic).1
      exact bind_eq_ok.mpr ⟨(), raiseIf_eq_ok.mpr fresh, rfl⟩
  | child address parent ih =>
      rw [path, List.append_assoc, List.singleton_append] at acyclic
      have fresh : address ∉ seen := (List.nodup_cons.mp (List.nodup_append.mp acyclic).2.1).1
      exact bind_eq_ok.mpr ⟨(), raiseIf_eq_ok.mpr fresh,
        bind_eq_ok.mpr ⟨parent.path, ih (address :: seen) acyclic, rfl⟩⟩

theorem chain_eq_ok [DecidableEq κ] {ledger : BudgetLedger κ} (acyclic : ledger.path.Nodup) :
    ledger.chain = .ok ledger.path :=
  ledger.chainFrom_eq_ok [] (by rwa [List.append_nil])

end BudgetLedger

/-- `BudgetReservation`. -/
structure BudgetReservation (κ : Type) where
  ledger : BudgetLedger κ
  amounts : Amounts
  active : Bool

/-- The attributes of the ledgers by address, and the reservations by their identifier. -/
structure Memory (κ : Type) where
  scope : κ → String
  limits : κ → Amounts
  used : κ → Amounts
  reserved : κ → Amounts
  reservations : Dict String (BudgetReservation κ)

/-- `target[counter] = target.get(counter, 0) + amount` over the amounts. -/
def addAmounts (target amounts : Amounts) : Amounts :=
  target.alterEach (fun counter held => some (held.getD 0 + amounts.getD counter 0)) amounts.keys

theorem getD_addAmounts (target amounts : Amounts) (counter : String) :
    (addAmounts target amounts).getD counter 0 =
      target.getD counter 0 + amounts.getD counter 0 := by
  rw [addAmounts, Dict.getD, Dict.get?_alterEach _ amounts.keys_nodup]
  split
  · rfl
  next absent =>
    rw [Dict.getD, Dict.getD, Dict.get?_eq_none_iff.mpr absent]
    rfl

namespace Memory

variable [DecidableEq κ]

/-- Before any ledger is constructed. -/
def start : Memory κ where
  scope := fun _ => ""
  limits := fun _ => ∅
  used := fun _ => ∅
  reserved := fun _ => ∅
  reservations := ∅

def charge (memory : Memory κ) (address : κ) (counter : String) : Charge where
  used := (memory.used address).getD counter 0
  reserved := (memory.reserved address).getD counter 0

/-- `_check_capacity`. -/
def checkCapacity (memory : Memory κ) (chain : List κ) (replaced amounts : Amounts) :
    Except BudgetError Unit :=
  forM chain fun address =>
    checkScope (memory.scope address) (memory.limits address).get? (memory.charge address)
      replaced amounts

/-- `ledger._add(ledger._reserved, amounts)`. -/
def addReserved (amounts : Amounts) (address : κ) (memory : Memory κ) : Memory κ :=
  { memory with
    reserved := Function.update memory.reserved address
      (addAmounts (memory.reserved address) amounts) }

/-- `ledger._add(ledger._used, amounts)`. -/
def addUsed (amounts : Amounts) (address : κ) (memory : Memory κ) : Memory κ :=
  { memory with
    used := Function.update memory.used address (addAmounts (memory.used address) amounts) }

/-- What is left of an entry, which is dropped when nothing is. -/
def subtractFrom (amounts : Amounts) (counter : String) (held : Option Nat) : Option Nat :=
  if held.getD 0 - amounts.getD counter 0 = 0 then none
  else some (held.getD 0 - amounts.getD counter 0)

/-- One turn of the loop of `ledger._subtract(ledger._reserved, amounts)`. -/
def subtractItem (amounts : Amounts) (address : κ) (counter : String) :
    Transaction (Memory κ) BudgetError Unit := do
  query fun memory =>
    raiseIf ((memory.charge address counter).reserved < amounts.getD counter 0)
      (.negativeReserved counter)
  write fun memory =>
    { memory with
      reserved := Function.update memory.reserved address
        ((memory.reserved address).alter (subtractFrom amounts counter) counter) }

/-- `ledger._subtract(ledger._reserved, amounts)`. -/
def subtractReserved (amounts : Amounts) (address : κ) :
    Transaction (Memory κ) BudgetError Unit :=
  forM amounts.keys (subtractItem amounts address)

/-- The attributes of a new ledger. -/
def allocate (address : κ) (scope : String) (limits : Amounts) (memory : Memory κ) : Memory κ :=
  { memory with
    scope := Function.update memory.scope address scope
    limits := Function.update memory.limits address limits
    used := Function.update memory.used address ∅
    reserved := Function.update memory.reserved address ∅ }

/-- `BudgetLedger(scope, limits, parent=parent)` at a new address, and `create_child`. -/
def construct (address : κ) (scope : String) (limits : RawAmounts)
    (parent : Option (BudgetLedger κ)) : Transaction (Memory κ) BudgetError (BudgetLedger κ) := do
  query fun _ => raiseIf (scope = "") (.valueError "scope must be non-empty")
  let normalized ← query fun _ => validateAmounts limits "limits" false
  write (allocate address scope normalized)
  pure (parent.elim (.root address) (.child address))

/-- `BudgetLedger.reserve`. The identifier is the given one or a new one, so not empty. -/
def reserve (ledger : BudgetLedger κ) (amounts : RawAmounts) (reservationId : String) :
    Transaction (Memory κ) BudgetError Unit := do
  let requested ← query fun _ => validateAmounts amounts "amounts" true
  let chain ← query fun _ => ledger.chain
  query fun memory => memory.checkCapacity chain ∅ requested
  forM chain fun address => write (addReserved requested address)
  write fun memory =>
    { memory with
      reservations := memory.reservations.set reservationId ⟨ledger, requested, true⟩ }

/-- The reservation object the caller holds. -/
def find (memory : Memory κ) (reservationId : String) :
    Except BudgetError (BudgetReservation κ) :=
  match memory.reservations.get? reservationId with
  | some reservation => .ok reservation
  | none => .error (.noReservation reservationId)

/-- `self._active = False`. -/
def deactivate (reservationId : String) (reservation : BudgetReservation κ)
    (memory : Memory κ) : Memory κ :=
  { memory with
    reservations := memory.reservations.set reservationId { reservation with active := false } }

/-- `BudgetReservation.reconcile`. -/
def reconcile (reservationId : String) (actual : RawAmounts) :
    Transaction (Memory κ) BudgetError Unit := do
  let reservation ← query fun memory => memory.find reservationId
  let charged ← query fun _ => validateAmounts actual "actual" true
  let chain ← query fun _ => reservation.ledger.chain
  query fun _ => raiseIf (reservation.active = false)
    (.runtimeError "reservation is no longer active")
  query fun memory => memory.checkCapacity chain reservation.amounts charged
  forM chain fun address => do
    subtractReserved reservation.amounts address
    write (addUsed charged address)
  write (deactivate reservationId reservation)

/-- `BudgetReservation.cancel`. -/
def cancel (reservationId : String) : Transaction (Memory κ) BudgetError Unit := do
  let reservation ← query fun memory => memory.find reservationId
  let chain ← query fun _ => reservation.ledger.chain
  query fun _ => raiseIf (reservation.active = false)
    (.runtimeError "reservation is no longer active")
  forM chain (subtractReserved reservation.amounts)
  write (deactivate reservationId reservation)

/-- `BudgetLedger.spend`. -/
def spend (ledger : BudgetLedger κ) (amounts : RawAmounts) (reservationId : String) :
    Transaction (Memory κ) BudgetError Unit := do
  reserve ledger amounts reservationId
  reconcile reservationId amounts

/-- `BudgetLedger.snapshot`. -/
def snapshot (memory : Memory κ) (ledger : BudgetLedger κ) : BudgetSnapshot :=
  snapshotOf (memory.scope ledger.address) (memory.limits ledger.address)
    ((memory.limits ledger.address).keys ++ (memory.used ledger.address).keys ++
      (memory.reserved ledger.address).keys)
    (memory.charge ledger.address)

/-! ## What the calls do -/

variable {memory final : Memory κ} {ledger : BudgetLedger κ} {raw : RawAmounts}
  {reservationId : String} {reservation : BudgetReservation κ} {requested charged : Amounts}
  {error : BudgetError}

/-- `target` with the amounts taken away. -/
def subtractAmounts (target amounts : Amounts) : Amounts :=
  target.alterEach (subtractFrom amounts) amounts.keys

theorem getD_subtractAmounts (target amounts : Amounts) (counter : String) :
    (subtractAmounts target amounts).getD counter 0 =
      target.getD counter 0 - amounts.getD counter 0 := by
  rw [subtractAmounts, Dict.getD, Dict.get?_alterEach _ amounts.keys_nodup]
  split
  · rw [subtractFrom, Dict.getD]
    split
    next nothing => exact nothing.symm
    · rfl
  next absent =>
    rw [Dict.getD, Dict.getD, Dict.get?_eq_none_iff.mpr absent]
    rfl

/-- The memory after holding the amounts at all addresses. -/
def holding (memory : Memory κ) (addresses : List κ) (amounts : Amounts) : Memory κ :=
  { memory with
    reserved := fun address =>
      if address ∈ addresses then addAmounts (memory.reserved address) amounts
      else memory.reserved address }

/-- The memory after replacing the amounts held by a charge at all addresses. -/
def settling (memory : Memory κ) (addresses : List κ) (held charged : Amounts) : Memory κ :=
  { memory with
    reserved := fun address =>
      if address ∈ addresses then subtractAmounts (memory.reserved address) held
      else memory.reserved address
    used := fun address =>
      if address ∈ addresses then addAmounts (memory.used address) charged
      else memory.used address }

theorem foldl_addReserved (amounts : Amounts) {addresses : List κ} (nodup : addresses.Nodup)
    (memory : Memory κ) :
    addresses.foldl (fun memory address => addReserved amounts address memory) memory =
      memory.holding addresses amounts := by
  induction addresses generalizing memory with
  | nil => simp [holding]
  | cons first addresses ih =>
      obtain ⟨fresh, nodup⟩ := List.nodup_cons.mp nodup
      rw [List.foldl_cons, ih nodup]
      simp only [holding, addReserved, Memory.mk.injEq, true_and, and_true]
      funext address
      by_cases same : address = first
      · subst same
        simp [fresh]
      · simp [same]

theorem foldl_alter (f : String → Option Nat → Option Nat) (address : κ) (counters : List String)
    (memory : Memory κ) :
    counters.foldl (fun memory counter =>
      { memory with
        reserved := Function.update memory.reserved address
          ((memory.reserved address).alter (f counter) counter) }) memory =
      { memory with
        reserved := Function.update memory.reserved address
          ((memory.reserved address).alterEach f counters) } := by
  induction counters generalizing memory with
  | nil => simp [Dict.alterEach]
  | cons counter counters ih =>
      rw [List.foldl_cons, ih]
      simp [Dict.alterEach]

theorem subtractItem_eq_ok {amounts : Amounts} {address : κ} {counter : String} :
    subtractItem amounts address counter memory = .ok () final ↔
      amounts.getD counter 0 ≤ (memory.charge address counter).reserved ∧
        { memory with
          reserved := Function.update memory.reserved address
            ((memory.reserved address).alter (subtractFrom amounts counter) counter) } = final := by
  simp only [subtractItem, Transaction.bind_eq_ok, exists_unit, query_eq_ok, raiseIf_eq_ok,
    write_eq_ok, Nat.not_lt]
  constructor
  · rintro ⟨middle, ⟨enough, rfl⟩, written⟩
    exact ⟨enough, written⟩
  · rintro ⟨enough, written⟩
    exact ⟨memory, ⟨enough, rfl⟩, written⟩

theorem subtractReserved_eq_ok {amounts : Amounts} {address : κ} :
    subtractReserved amounts address memory = .ok () final ↔
      (∀ counter ∈ amounts.keys,
        amounts.getD counter 0 ≤ (memory.charge address counter).reserved) ∧
        { memory with
          reserved := Function.update memory.reserved address
            (subtractAmounts (memory.reserved address) amounts) } = final := by
  rw [subtractReserved, Transaction.forM_eq_ok (fun _ _ _ => subtractItem_eq_ok)
    (fun counter other memory different => by simp [charge, Dict.getD, different])
    amounts.keys_nodup]
  rw [foldl_alter, subtractAmounts]

/-- One ledger of the chain settled. -/
def settleAt (held charged : Amounts) (address : κ) (memory : Memory κ) : Memory κ :=
  addUsed charged address
    { memory with
      reserved := Function.update memory.reserved address
        (subtractAmounts (memory.reserved address) held) }

theorem foldl_settleAt (held charged : Amounts) {addresses : List κ} (nodup : addresses.Nodup)
    (memory : Memory κ) :
    addresses.foldl (fun memory address => settleAt held charged address memory) memory =
      memory.settling addresses held charged := by
  induction addresses generalizing memory with
  | nil => simp [settling]
  | cons first addresses ih =>
      obtain ⟨fresh, nodup⟩ := List.nodup_cons.mp nodup
      rw [List.foldl_cons, ih nodup]
      simp only [settling, settleAt, addUsed, Memory.mk.injEq, true_and, and_true]
      constructor <;> funext address <;> by_cases same : address = first
      · subst same
        simp [fresh]
      · simp [same]
      · subst same
        simp [fresh]
      · simp [same]

/-- Each ledger of the chain has at least the amounts reserved. -/
def Holds (memory : Memory κ) (addresses : List κ) (amounts : Amounts) : Prop :=
  ∀ address ∈ addresses, ∀ counter ∈ amounts.keys,
    amounts.getD counter 0 ≤ (memory.charge address counter).reserved

theorem addUsed_empty (address : κ) (memory : Memory κ) : addUsed ∅ address memory = memory := by
  simp [addUsed, addAmounts, Dict.alterEach]

/-- A loop of statements that settle one ledger each. -/
theorem settle_loop {held charged : Amounts}
    {statement : κ → Transaction (Memory κ) BudgetError Unit}
    (spec : ∀ address memory final, statement address memory = .ok () final ↔
      memory.Holds [address] held ∧ settleAt held charged address memory = final)
    {addresses : List κ} (nodup : addresses.Nodup) (holds : memory.Holds addresses held) :
    forM addresses statement memory = .ok () (memory.settling addresses held charged) := by
  have stable : ∀ address other (memory : Memory κ), address ≠ other →
      ((settleAt held charged other memory).Holds [address] held ↔ memory.Holds [address] held) := by
    intro address other memory different
    simp [Holds, settleAt, addUsed, charge, different]
  rw [← foldl_settleAt held charged nodup]
  apply (Transaction.forM_eq_ok spec stable nodup).mpr
  exact ⟨fun address member => by simpa [Holds] using holds address member, rfl⟩

theorem charge_spec (held charged : Amounts) (address : κ) (memory final : Memory κ) :
    (do subtractReserved held address; write (addUsed charged address) :
      Transaction (Memory κ) BudgetError Unit) memory = .ok () final ↔
      memory.Holds [address] held ∧ settleAt held charged address memory = final := by
  simp only [Transaction.bind_eq_ok, exists_unit, subtractReserved_eq_ok, write_eq_ok, Holds,
    List.forall_mem_singleton]
  constructor
  · rintro ⟨middle, ⟨enough, rfl⟩, written⟩
    exact ⟨enough, written⟩
  · rintro ⟨enough, written⟩
    exact ⟨_, ⟨enough, rfl⟩, written⟩

/-- Releasing writes what settling an empty charge writes. -/
theorem release_spec (held : Amounts) (address : κ) (memory final : Memory κ) :
    subtractReserved held address memory = .ok () final ↔
      memory.Holds [address] held ∧ settleAt held ∅ address memory = final := by
  rw [subtractReserved_eq_ok, settleAt, addUsed_empty, Holds, List.forall_mem_singleton]

theorem charge_holding (memory : Memory κ) (addresses : List κ) (amounts : Amounts) (address : κ)
    (counter : String) : (memory.holding addresses amounts).charge address counter =
      ⟨(memory.charge address counter).used, (memory.charge address counter).reserved +
        if address ∈ addresses then amounts.getD counter 0 else 0⟩ := by
  by_cases member : address ∈ addresses
  · simp [charge, holding, member, getD_addAmounts]
  · simp [charge, holding, member]

theorem charge_settling (memory : Memory κ) (addresses : List κ) (held charged : Amounts)
    (address : κ) (counter : String) :
    (memory.settling addresses held charged).charge address counter =
      ⟨(memory.charge address counter).used +
          if address ∈ addresses then charged.getD counter 0 else 0,
        (memory.charge address counter).reserved -
          if address ∈ addresses then held.getD counter 0 else 0⟩ := by
  by_cases member : address ∈ addresses
  · simp [charge, settling, member, getD_addAmounts, getD_subtractAmounts]
  · simp [charge, settling, member]

theorem construct_eq_ok {address : κ} {scope : String} {parent : Option (BudgetLedger κ)} :
    construct address scope raw parent memory = .ok ledger final ↔
      scope ≠ "" ∧ ∃ limits, validateAmounts raw "limits" false = .ok limits ∧
        parent.elim (.root address) (.child address) = ledger ∧
        allocate address scope limits memory = final := by
  simp only [construct, Transaction.bind_eq_ok, exists_unit, query_eq_ok, raiseIf_eq_ok,
    write_eq_ok, Transaction.pure_eq_ok]
  constructor
  · rintro ⟨middle, ⟨named, rfl⟩, limits, middle, ⟨valid, rfl⟩, middle, rfl, same, rfl⟩
    exact ⟨named, limits, valid, same, rfl⟩
  · rintro ⟨named, limits, valid, same, rfl⟩
    exact ⟨memory, ⟨named, rfl⟩, limits, memory, ⟨valid, rfl⟩, _, rfl, same, rfl⟩

/-! ### Each call -/

theorem reserve_of_invalid (invalid : validateAmounts raw "amounts" true = .error error) :
    reserve ledger raw reservationId memory = .error error memory := by
  simp only [reserve, query_bind, invalid]

theorem reserve_of_refused (acyclic : ledger.path.Nodup)
    (valid : validateAmounts raw "amounts" true = .ok requested)
    (refused : memory.checkCapacity ledger.path ∅ requested = .error error) :
    reserve ledger raw reservationId memory = .error error memory := by
  simp only [reserve, query_bind, valid, BudgetLedger.chain_eq_ok acyclic, refused]

theorem reserve_of_admitted (acyclic : ledger.path.Nodup)
    (valid : validateAmounts raw "amounts" true = .ok requested)
    (admitted : memory.checkCapacity ledger.path ∅ requested = .ok ()) :
    reserve ledger raw reservationId memory = .ok ()
      { memory.holding ledger.path requested with
        reservations := memory.reservations.set reservationId ⟨ledger, requested, true⟩ } := by
  simp only [reserve, query_bind, valid, BudgetLedger.chain_eq_ok acyclic, admitted]
  rw [Transaction.bind_eq_ok]
  exact ⟨(), _, forM_write _ _, by rw [write_eq_ok, foldl_addReserved requested acyclic]; rfl⟩

theorem reconcile_of_missing (missing : memory.reservations.get? reservationId = none) :
    reconcile reservationId raw memory = .error (.noReservation reservationId) memory := by
  simp only [reconcile, query_bind, find, missing]

section Found

variable (found : memory.reservations.get? reservationId = some reservation)

include found

theorem reconcile_of_invalid (invalid : validateAmounts raw "actual" true = .error error) :
    reconcile reservationId raw memory = .error error memory := by
  simp only [reconcile, query_bind, find, found, invalid]

theorem reconcile_of_inactive (acyclic : reservation.ledger.path.Nodup)
    (valid : validateAmounts raw "actual" true = .ok charged) (inactive : reservation.active = false) :
    reconcile reservationId raw memory =
      .error (.runtimeError "reservation is no longer active") memory := by
  simp only [reconcile, query_bind, find, found, valid, BudgetLedger.chain_eq_ok acyclic,
    raiseIf, inactive, ↓reduceIte]

theorem reconcile_of_refused (acyclic : reservation.ledger.path.Nodup)
    (valid : validateAmounts raw "actual" true = .ok charged) (active : reservation.active = true)
    (refused : memory.checkCapacity reservation.ledger.path reservation.amounts charged =
      .error error) :
    reconcile reservationId raw memory = .error error memory := by
  simp only [reconcile, query_bind, find, found, valid, BudgetLedger.chain_eq_ok acyclic,
    raiseIf, active, Bool.true_eq_false, ↓reduceIte, refused]

theorem reconcile_of_admitted (acyclic : reservation.ledger.path.Nodup)
    (valid : validateAmounts raw "actual" true = .ok charged) (active : reservation.active = true)
    (admitted : memory.checkCapacity reservation.ledger.path reservation.amounts charged = .ok ())
    (holds : memory.Holds reservation.ledger.path reservation.amounts) :
    reconcile reservationId raw memory = .ok () (deactivate reservationId reservation
      (memory.settling reservation.ledger.path reservation.amounts charged)) := by
  simp only [reconcile, query_bind, find, found, valid, BudgetLedger.chain_eq_ok acyclic,
    raiseIf, active, Bool.true_eq_false, ↓reduceIte, admitted]
  rw [Transaction.bind_eq_ok]
  exact ⟨(), _, settle_loop (charge_spec reservation.amounts charged) acyclic holds,
    write_eq_ok.mpr rfl⟩

theorem cancel_of_inactive (acyclic : reservation.ledger.path.Nodup)
    (inactive : reservation.active = false) :
    cancel reservationId memory =
      .error (.runtimeError "reservation is no longer active") memory := by
  simp only [cancel, query_bind, find, found, BudgetLedger.chain_eq_ok acyclic, raiseIf, inactive,
    ↓reduceIte]

theorem cancel_of_active (acyclic : reservation.ledger.path.Nodup)
    (active : reservation.active = true)
    (holds : memory.Holds reservation.ledger.path reservation.amounts) :
    cancel reservationId memory = .ok () (deactivate reservationId reservation
      (memory.settling reservation.ledger.path reservation.amounts ∅)) := by
  simp only [cancel, query_bind, find, found, BudgetLedger.chain_eq_ok acyclic, raiseIf, active,
    Bool.true_eq_false, ↓reduceIte]
  rw [Transaction.bind_eq_ok]
  exact ⟨(), _, settle_loop (release_spec reservation.amounts) acyclic holds, write_eq_ok.mpr rfl⟩

end Found

theorem cancel_of_missing (missing : memory.reservations.get? reservationId = none) :
    cancel reservationId memory = .error (.noReservation reservationId) memory := by
  simp only [cancel, query_bind, find, missing]

/-! ### What is reserved -/

/-- What a reservation holds of a counter at an address. -/
def heldAt (address : κ) (counter : String) (reservation : BudgetReservation κ) : Nat :=
  if reservation.active = true ∧ address ∈ reservation.ledger.path then
    reservation.amounts.getD counter 0
  else 0

/-- What each ledger has reserved is what the active reservations below it hold. -/
def Accounted (memory : Memory κ) : Prop :=
  ∀ address counter, (memory.charge address counter).reserved =
    memory.reservations.total fun _ => heldAt address counter

theorem Accounted.holds (accounted : memory.Accounted)
    (found : memory.reservations.get? reservationId = some reservation)
    (active : reservation.active = true) :
    memory.Holds reservation.ledger.path reservation.amounts := by
  intro address member counter _
  rw [accounted address counter]
  have part := Dict.le_total (fun _ => heldAt address counter) found
  simpa [heldAt, active, member] using part

theorem Accounted.holding (accounted : memory.Accounted)
    (fresh : memory.reservations.get? reservationId = none) (ledger : BudgetLedger κ)
    (amounts : Amounts) :
    Accounted { memory.holding ledger.path amounts with
      reservations := memory.reservations.set reservationId ⟨ledger, amounts, true⟩ } := by
  intro address counter
  have added := Dict.total_set_of_none (fun _ => heldAt address counter) ⟨ledger, amounts, true⟩
    fresh
  have charged := charge_holding memory ledger.path amounts address counter
  rw [added, ← accounted address counter]
  simpa [heldAt, charge] using congrArg Charge.reserved charged

theorem Accounted.settling (accounted : memory.Accounted)
    (found : memory.reservations.get? reservationId = some reservation)
    (active : reservation.active = true) (charged : Amounts) :
    Accounted (deactivate reservationId reservation
      (memory.settling reservation.ledger.path reservation.amounts charged)) := by
  intro address counter
  have replaced := Dict.total_set_of_some (fun _ => heldAt address counter)
    { reservation with active := false } found
  have settled := charge_settling memory reservation.ledger.path reservation.amounts charged
    address counter
  have remaining := congrArg Charge.reserved settled
  rw [accounted address counter] at remaining
  simp only [heldAt, active, Bool.false_eq_true, false_and, ↓reduceIte, true_and,
    Nat.add_zero] at replaced
  refine remaining.trans ?_
  simp only [deactivate, Memory.settling]
  omega

/-! ### Spending -/

/-- A held amount is charged without changing any total, so what was admitted stays so. -/
theorem checkCapacity_holding
    (admitted : memory.checkCapacity ledger.path ∅ requested = .ok ()) :
    checkCapacity { memory.holding ledger.path requested with
      reservations := memory.reservations.set reservationId ⟨ledger, requested, true⟩ }
      ledger.path requested requested = .ok () := by
  rw [checkCapacity, CapabilityHub.forM_eq_ok] at admitted ⊢
  intro address member
  apply checkScope_eq_ok.mpr
  intro counter amount limit asked limited
  have before := checkScope_eq_ok.mp (admitted address member) counter amount limit asked limited
  have held := memory.charge_holding ledger.path requested address counter
  rw [if_pos member] at held
  have same : charge { memory.holding ledger.path requested with
      reservations := memory.reservations.set reservationId ⟨ledger, requested, true⟩ }
      address counter = _ := held
  have amounts : requested.getD counter 0 = amount := by rw [Dict.getD, asked]; rfl
  have nothing : (∅ : Amounts).getD counter 0 = 0 := rfl
  rw [same, amounts]
  rw [nothing] at before
  simp only [requestedTotal] at before ⊢
  omega

/-- Once the reservation of a spending is admitted, its charge is too. -/
theorem spend_of_admitted (acyclic : ledger.path.Nodup) (accounted : memory.Accounted)
    (fresh : memory.reservations.get? reservationId = none)
    (valid : validateAmounts raw "amounts" true = .ok requested)
    (admitted : memory.checkCapacity ledger.path ∅ requested = .ok ()) :
    ∃ final, spend ledger raw reservationId memory = .ok () final := by
  have held := accounted.holding fresh ledger requested
  have found : (memory.reservations.set reservationId ⟨ledger, requested, true⟩).get?
      reservationId = some ⟨ledger, requested, true⟩ := Dict.get?_set_self
  rw [spend, bind_of_ok (reserve_of_admitted acyclic valid admitted)]
  exact ⟨_, reconcile_of_admitted found acyclic (validateAmounts_relabel valid "actual") rfl
    (checkCapacity_holding admitted) (held.holds found rfl)⟩

end Memory

end CapabilityHub.Budget
