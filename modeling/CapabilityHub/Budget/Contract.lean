import CapabilityHub.Budget.Ledger

/-! # The contract of a ledger

What a caller of a ledger may rely on: the amounts of a reservation that is still active can be
released, or replaced by a charge that they cover.
-/

namespace CapabilityHub.Budget

open Transaction

/-- What has become of a reservation. -/
inductive Holding where
  | active (amounts : Amounts)
  | settled (charge : Amounts)

/-- The amounts are at most the others. -/
def Covers (amounts charge : Amounts) : Prop :=
  ∀ counter, charge.getD counter 0 ≤ amounts.getD counter 0

/-- A ledger over `σ`, with what it promises of its reservations. -/
structure LedgerContract (σ ε : Type) where
  reserve : RawAmounts → Transaction σ ε String
  reconcile : String → RawAmounts → Transaction σ ε Unit
  cancel : String → Transaction σ ε Unit
  reservation : σ → String → Option Holding
  reserved : ∀ {raw state id final}, reserve raw state = .ok id final →
    reservation state id = none ∧ ∃ amounts, validateAmounts raw "amounts" true = .ok amounts ∧
      reservation final id = some (.active amounts)
  reconciled : ∀ {id raw amounts charge state}, reservation state id = some (.active amounts) →
    validateAmounts raw "actual" true = .ok charge → Covers amounts charge →
      ∃ final, reconcile id raw state = .ok () final ∧ reservation final id = some (.settled charge)
  cancelled : ∀ {id amounts state}, reservation state id = some (.active amounts) →
    ∃ final, cancel id state = .ok () final ∧ reservation final id = some (.settled ∅)

namespace LedgerContract

variable {σ ε : Type} (contract : LedgerContract σ ε)

/-- `reservation.active` -/
def active (state : σ) (id : String) : Bool :=
  match contract.reservation state id with
  | some (.active _) => true
  | _ => false

/-- The reservation is settled with this charge and no other. -/
def Charged (state : σ) (id : String) (charge : String → Nat) : Prop :=
  ∃ amounts, contract.reservation state id = some (.settled amounts) ∧
    ∀ counter, amounts.getD counter 0 = charge counter

end LedgerContract

/-! ## The ledger in memory keeps the contract -/

namespace Memory

variable {κ : Type} [DecidableEq κ] {memory final : Memory κ} {ledger : BudgetLedger κ}
  {raw : RawAmounts} {id : String} {reservation : BudgetReservation κ} {requested charged : Amounts}

/-- No ledger has used and reserved more than its limit. -/
def Within (memory : Memory κ) : Prop :=
  ∀ address counter limit, (memory.limits address).get? counter = some limit →
    (memory.charge address counter).used + (memory.charge address counter).reserved ≤ limit

omit [DecidableEq κ] in
theorem checkCapacity_eq_ok {chain : List κ} {replaced : Amounts} :
    memory.checkCapacity chain replaced requested = .ok () ↔
      ∀ address ∈ chain, ∀ counter amount limit, requested.get? counter = some amount →
        (memory.limits address).get? counter = some limit →
          requestedTotal (memory.charge address counter) (replaced.getD counter 0) amount ≤ limit := by
  rw [checkCapacity, CapabilityHub.forM_eq_ok]
  exact forall₂_congr fun address _ => checkScope_eq_ok

theorem reserve_eq_ok (acyclic : ledger.path.Nodup)
    (done : reserve ledger raw id memory = .ok () final) :
    ∃ requested, validateAmounts raw "amounts" true = .ok requested ∧
      memory.checkCapacity ledger.path ∅ requested = .ok () ∧
        final = { memory.holding ledger.path requested with
          reservations := memory.reservations.set id ⟨ledger, requested, true⟩ } := by
  cases valid : validateAmounts raw "amounts" true with
  | error error =>
      rw [reserve_of_invalid valid] at done
      cases done
  | ok requested =>
      cases admitted : memory.checkCapacity ledger.path ∅ requested with
      | error error =>
          rw [reserve_of_refused acyclic valid admitted] at done
          cases done
      | ok _ =>
          rw [reserve_of_admitted acyclic valid admitted] at done
          cases done
          exact ⟨requested, rfl, admitted, rfl⟩

theorem Within.holding (within : memory.Within)
    (admitted : memory.checkCapacity ledger.path ∅ requested = .ok ()) :
    Within { memory.holding ledger.path requested with
      reservations := memory.reservations.set id ⟨ledger, requested, true⟩ } := by
  intro address counter limit limited
  have held := memory.charge_holding ledger.path requested address counter
  have same : charge { memory.holding ledger.path requested with
      reservations := memory.reservations.set id ⟨ledger, requested, true⟩ } address counter = _ :=
    held
  rw [same]
  have before := within address counter limit limited
  by_cases member : address ∈ ledger.path
  · rw [if_pos member]
    cases asked : requested.get? counter with
    | none =>
        rw [Dict.getD, asked]
        exact before
    | some amount =>
        have total := checkCapacity_eq_ok.mp admitted address member counter amount limit asked limited
        have nothing : (∅ : Amounts).getD counter 0 = 0 := rfl
        rw [requestedTotal, nothing] at total
        rw [Dict.getD, asked, Option.getD_some]
        dsimp only
        omega
  · rw [if_neg member]
    exact before

omit [DecidableEq κ] in
/-- What covers a charge has room for it. -/
theorem checkCapacity_of_covers (within : memory.Within)
    (covers : Covers reservation.amounts charged) :
    memory.checkCapacity reservation.ledger.path reservation.amounts charged = .ok () := by
  refine checkCapacity_eq_ok.mpr fun address member counter amount limit asked limited => ?_
  have before := within address counter limit limited
  have less := covers counter
  rw [Dict.getD, asked, Option.getD_some] at less
  rw [requestedTotal]
  omega

theorem Within.settling (within : memory.Within) (accounted : memory.Accounted)
    (found : memory.reservations.get? id = some reservation) (active : reservation.active = true)
    (admitted : memory.checkCapacity reservation.ledger.path reservation.amounts charged = .ok ()) :
    Within (deactivate id reservation
      (memory.settling reservation.ledger.path reservation.amounts charged)) := by
  intro address counter limit limited
  have settled := memory.charge_settling reservation.ledger.path reservation.amounts charged address
    counter
  have same : charge (deactivate id reservation
      (memory.settling reservation.ledger.path reservation.amounts charged)) address counter = _ :=
    settled
  rw [same]
  have before := within address counter limit limited
  by_cases member : address ∈ reservation.ledger.path
  · have part := Dict.le_total (fun _ => heldAt address counter) found
    rw [← accounted address counter, heldAt, if_pos ⟨active, member⟩] at part
    rw [if_pos member, if_pos member]
    cases asked : charged.get? counter with
    | none =>
        rw [Dict.getD, asked, Option.getD_none]
        dsimp only
        omega
    | some amount =>
        have total := checkCapacity_eq_ok.mp admitted address member counter amount limit asked limited
        rw [requestedTotal] at total
        rw [Dict.getD, asked, Option.getD_some]
        dsimp only
        omega
  · rw [if_neg member, if_neg member]
    exact before

/-- The name of the next reservation object. -/
def nextName (count : Nat) : String := String.ofList (List.replicate count 'r')

/-- The invariant of a memory after so many reservations. -/
structure Sound (memory : Memory κ) (count : Nat) : Prop where
  accounted : memory.Accounted
  within : memory.Within
  acyclic : ∀ id reservation, memory.reservations.get? id = some reservation →
    reservation.ledger.path.Nodup
  numbered : ∀ id reservation, memory.reservations.get? id = some reservation → id.length < count

variable {count : Nat}

theorem Sound.fresh (sound : memory.Sound count) :
    memory.reservations.get? (nextName count) = none := by
  cases found : memory.reservations.get? (nextName count) with
  | none => rfl
  | some reservation =>
      have less := sound.numbered _ reservation found
      rw [nextName, String.length_ofList, List.length_replicate] at less
      exact absurd less (Nat.lt_irrefl count)

theorem Sound.reserve (sound : memory.Sound count) (acyclic : ledger.path.Nodup)
    (done : Memory.reserve ledger raw (nextName count) memory = .ok () final) :
    final.Sound (count + 1) := by
  obtain ⟨requested, valid, admitted, rfl⟩ := reserve_eq_ok acyclic done
  have found (id : String) (reservation : BudgetReservation κ)
      (held : (memory.reservations.set (nextName count) ⟨ledger, requested, true⟩).get? id =
        some reservation) :
      id = nextName count ∧ reservation.ledger = ledger ∨
        memory.reservations.get? id = some reservation := by
    rw [Dict.get?_set] at held
    split at held
    next same =>
      cases held
      exact .inl ⟨same, rfl⟩
    next => exact .inr held
  refine ⟨sound.accounted.holding sound.fresh ledger requested, sound.within.holding admitted,
    fun id reservation held => ?_, fun id reservation held => ?_⟩
  · rcases found id reservation held with ⟨_, same⟩ | old
    · exact same ▸ acyclic
    · exact sound.acyclic id reservation old
  · rcases found id reservation held with ⟨rfl, _⟩ | old
    · rw [nextName, String.length_ofList, List.length_replicate]
      exact Nat.lt_succ_self count
    · exact Nat.lt_succ_of_lt (sound.numbered id reservation old)

theorem Sound.settle (sound : memory.Sound count)
    (found : memory.reservations.get? id = some reservation) (active : reservation.active = true)
    (admitted : memory.checkCapacity reservation.ledger.path reservation.amounts charged = .ok ()) :
    (deactivate id reservation
      (memory.settling reservation.ledger.path reservation.amounts charged)).Sound count := by
  have old (other : String) (held : BudgetReservation κ)
      (stored : (memory.reservations.set id { reservation with active := false }).get? other =
        some held) :
      ∃ before, memory.reservations.get? other = some before ∧ before.ledger = held.ledger := by
    rw [Dict.get?_set] at stored
    split at stored
    next same =>
      cases stored
      exact ⟨reservation, same ▸ found, rfl⟩
    next => exact ⟨held, stored, rfl⟩
  refine ⟨sound.accounted.settling found active charged,
    sound.within.settling sound.accounted found active admitted,
    fun other held stored => ?_, fun other held stored => ?_⟩
  · obtain ⟨before, stored, same⟩ := old other held stored
    exact same ▸ sound.acyclic other before stored
  · obtain ⟨before, stored, _⟩ := old other held stored
    exact sound.numbered other before stored

/-- A reconciliation that returns has replaced what an active reservation holds. -/
theorem Sound.reconcile_eq_ok (sound : memory.Sound count)
    (done : Memory.reconcile id raw memory = .ok () final) :
    ∃ reservation charged, memory.reservations.get? id = some reservation ∧
      reservation.active = true ∧ validateAmounts raw "actual" true = .ok charged ∧
        memory.checkCapacity reservation.ledger.path reservation.amounts charged = .ok () ∧
          final = deactivate id reservation
            (memory.settling reservation.ledger.path reservation.amounts charged) := by
  cases found : memory.reservations.get? id with
  | none =>
      rw [reconcile_of_missing found] at done
      cases done
  | some reservation =>
      have acyclic := sound.acyclic id reservation found
      cases valid : validateAmounts raw "actual" true with
      | error error =>
          rw [reconcile_of_invalid found valid] at done
          cases done
      | ok charged =>
          cases active : reservation.active with
          | false =>
              rw [reconcile_of_inactive found acyclic valid active] at done
              cases done
          | true =>
              cases admitted : memory.checkCapacity reservation.ledger.path reservation.amounts
                  charged with
              | error error =>
                  rw [reconcile_of_refused found acyclic valid active admitted] at done
                  cases done
              | ok _ =>
                  rw [reconcile_of_admitted found acyclic valid active admitted
                    (sound.accounted.holds found active)] at done
                  cases done
                  exact ⟨reservation, charged, rfl, active, rfl, admitted, rfl⟩

theorem Sound.cancel_eq_ok (sound : memory.Sound count)
    (done : Memory.cancel id memory = .ok () final) :
    ∃ reservation, memory.reservations.get? id = some reservation ∧ reservation.active = true ∧
      final = deactivate id reservation
        (memory.settling reservation.ledger.path reservation.amounts ∅) := by
  cases found : memory.reservations.get? id with
  | none =>
      rw [cancel_of_missing found] at done
      cases done
  | some reservation =>
      have acyclic := sound.acyclic id reservation found
      cases active : reservation.active with
      | false =>
          rw [cancel_of_inactive found acyclic active] at done
          cases done
      | true =>
          rw [cancel_of_active found acyclic active (sound.accounted.holds found active)] at done
          cases done
          exact ⟨reservation, rfl, active, rfl⟩

theorem covers_empty (amounts : Amounts) : Covers amounts ∅ := fun _ => Nat.zero_le _

theorem Sound.reconcile (sound : memory.Sound count)
    (done : Memory.reconcile id raw memory = .ok () final) : final.Sound count := by
  obtain ⟨reservation, charged, found, active, _, admitted, rfl⟩ := sound.reconcile_eq_ok done
  exact sound.settle found active admitted

theorem Sound.cancel (sound : memory.Sound count)
    (done : Memory.cancel id memory = .ok () final) : final.Sound count := by
  obtain ⟨reservation, found, active, rfl⟩ := sound.cancel_eq_ok done
  exact sound.settle found active (checkCapacity_of_covers sound.within (covers_empty _))

end Memory

/-- A memory, with a record of what the settled reservations were charged. -/
structure Book (κ : Type) [DecidableEq κ] where
  memory : Memory κ
  charges : Dict String Amounts
  count : Nat
  sound : memory.Sound count

namespace Book

variable {κ : Type} [DecidableEq κ]

def reservation (book : Book κ) (id : String) : Option Holding :=
  (book.memory.reservations.get? id).map fun reservation =>
    if reservation.active then .active reservation.amounts
    else .settled ((book.charges.get? id).getD ∅)

def reserve (ledger : BudgetLedger κ) (acyclic : ledger.path.Nodup) (raw : RawAmounts) :
    Transaction (Book κ) BudgetError String := fun book =>
  match done : Memory.reserve ledger raw (Memory.nextName book.count) book.memory with
  | .ok _ memory => .ok (Memory.nextName book.count)
      ⟨memory, book.charges, book.count + 1, book.sound.reserve acyclic done⟩
  | .error error _ => .error error book

def reconcile (id : String) (raw : RawAmounts) : Transaction (Book κ) BudgetError Unit := fun book =>
  match done : Memory.reconcile id raw book.memory, validateAmounts raw "actual" true with
  | .ok _ memory, .ok charged => .ok ()
      ⟨memory, book.charges.set id charged, book.count, book.sound.reconcile done⟩
  | .ok _ memory, .error _ => .ok () ⟨memory, book.charges, book.count, book.sound.reconcile done⟩
  | .error error _, _ => .error error book

def cancel (id : String) : Transaction (Book κ) BudgetError Unit := fun book =>
  match done : Memory.cancel id book.memory with
  | .ok _ memory => .ok ()
      ⟨memory, book.charges.set id ∅, book.count, book.sound.cancel done⟩
  | .error error _ => .error error book

variable {book final : Book κ} {id : String} {raw : RawAmounts} {amounts charge : Amounts}

theorem exists_of_active (active : book.reservation id = some (.active amounts)) :
    ∃ reservation, book.memory.reservations.get? id = some reservation ∧ reservation.active = true ∧
      reservation.amounts = amounts := by
  obtain ⟨reservation, found, same⟩ := Option.map_eq_some_iff.mp active
  split at same
  next holds =>
    cases same
    exact ⟨reservation, found, holds, rfl⟩
  next => cases same

theorem reservation_of_settled {memory : Memory κ} {reservation : BudgetReservation κ} {count : Nat}
    {charges : Dict String Amounts} {sound : Memory.Sound (Memory.deactivate id reservation memory) count} :
    Book.reservation ⟨Memory.deactivate id reservation memory, charges.set id charge, count, sound⟩ id =
      some (.settled charge) := by
  have stored : (memory.reservations.set id { reservation with active := false }).get? id =
      some { reservation with active := false } := Dict.get?_set_self
  rw [Book.reservation, Dict.get?_set_self]
  change ((memory.reservations.set id { reservation with active := false }).get? id).map _ = _
  rw [stored]
  rfl

/-- The ledger in memory keeps the contract. -/
def contract (ledger : BudgetLedger κ) (acyclic : ledger.path.Nodup) :
    LedgerContract (Book κ) BudgetError where
  reserve := reserve ledger acyclic
  reconcile := reconcile
  cancel := cancel
  reservation := reservation
  reserved := by
    intro raw book id final done
    rw [reserve] at done
    split at done
    next memory held =>
      cases done
      obtain ⟨requested, valid, _, rfl⟩ := Memory.reserve_eq_ok acyclic held
      refine ⟨?_, requested, valid, ?_⟩
      · rw [reservation, book.sound.fresh]
        rfl
      · rw [reservation, Dict.get?_set_self]
        rfl
    next => cases done
  reconciled := by
    intro id raw amounts charge book active valid covers
    obtain ⟨reservation, found, holds, rfl⟩ := exists_of_active active
    have done := Memory.reconcile_of_admitted found (book.sound.acyclic id reservation found) valid
      holds (Memory.checkCapacity_of_covers book.sound.within covers)
      (book.sound.accounted.holds found holds)
    refine ⟨⟨_, book.charges.set id charge, book.count, book.sound.reconcile done⟩, ?_,
      reservation_of_settled⟩
    rw [reconcile]
    split
    next memory charged held same =>
      obtain ⟨-, rfl⟩ := EStateM.Result.ok.inj (held.symm.trans done)
      obtain rfl := Except.ok.inj (same.symm.trans valid)
      rfl
    next memory error held failed => cases failed.symm.trans valid
    next error memory other held => cases held.symm.trans done
  cancelled := by
    intro id amounts book active
    obtain ⟨reservation, found, holds, rfl⟩ := exists_of_active active
    have done := Memory.cancel_of_active found (book.sound.acyclic id reservation found) holds
      (book.sound.accounted.holds found holds)
    refine ⟨⟨_, book.charges.set id ∅, book.count, book.sound.cancel done⟩, ?_,
      reservation_of_settled⟩
    rw [cancel]
    split
    next memory held =>
      obtain ⟨-, rfl⟩ := EStateM.Result.ok.inj (held.symm.trans done)
      rfl
    next error memory held => cases held.symm.trans done

/-- Before anything is reserved, without limits. -/
def empty : Book κ where
  memory := .start
  charges := ∅
  count := 0
  sound := {
    accounted := fun _ _ => rfl
    within := fun _ _ _ limited => by cases limited
    acyclic := fun _ _ found => by cases found
    numbered := fun _ _ found => by cases found }

end Book

end CapabilityHub.Budget
