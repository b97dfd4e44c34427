import CapabilityHub.Budget.HierarchyAccounts

/-! # Conservation of budgets

Clients of one `SQLiteHierarchicalBudgetStore` in any interleaving of their transactions. A
`spend` is two of them, a reserve and then a reconcile, and others may come in between. In
every state that is reached the accounts of the tree are right
(`Journaled.accounted_of_reaches`), a transaction that raises has changed nothing, and neither
has a spend that raises without another transaction in between (`conserved`). With one in
between, a spend may raise and what it has reserved stays written.
-/

namespace CapabilityHub.Budget

open HierarchicalStore Transaction

namespace HierarchicalStore

/-- `spend`, as one client makes it alone. -/
def spend (integer : SqlInteger) (scope : HierarchicalBudgetScope) (amounts : RawAmounts)
    (reservationId : String) : Transaction HierarchicalStore BudgetError Unit := do
  reserve integer scope amounts reservationId
  finishReservation integer scope reservationId (some amounts)

end HierarchicalStore

/-- A `spend` that has made its reservation and has not reconciled it. -/
structure Spending where
  scope : HierarchicalBudgetScope
  amounts : RawAmounts
  reservationId : String

/-- The clients of a store: what the store holds, and the spends that are halfway. -/
structure Clients where
  journaled : Journaled
  spending : List Spending

namespace Clients

def initial : Clients := ⟨.empty, []⟩

/-- One transaction of some client. -/
inductive Step (integer : SqlInteger) (hmac : Bytes → String) : Clients → Clients → Prop
  | operates (clients : Clients) (operation : Operation) :
      Step integer hmac clients ⟨clients.journaled.step integer hmac operation, clients.spending⟩
  /-- A spend raises in its first transaction. -/
  | refuses (clients : Clients) (spending : Spending) :
      Step integer hmac clients ⟨clients.journaled.step integer hmac
        (.reserve spending.scope spending.amounts spending.reservationId), clients.spending⟩
  /-- A spend makes its reservation. -/
  | reserves (clients : Clients) (spending : Spending) (final : HierarchicalStore)
      (done : reserve integer spending.scope spending.amounts spending.reservationId clients.journaled.store =
        .ok () final) :
      Step integer hmac clients ⟨clients.journaled.step integer hmac
        (.reserve spending.scope spending.amounts spending.reservationId), spending :: clients.spending⟩
  /-- A spend reconciles its reservation, or raises in doing so. -/
  | reconciles (journaled : Journaled) (before after : List Spending) (spending : Spending) :
      Step integer hmac ⟨journaled, before ++ spending :: after⟩ ⟨journaled.step integer hmac
        (.reconcile spending.scope spending.reservationId spending.amounts), before ++ after⟩

/-- The states that the clients of a new store reach. -/
def Reaches (integer : SqlInteger) (hmac : Bytes → String) : Clients → Prop :=
  Relation.ReflTransGen (Step integer hmac) initial

variable {integer : SqlInteger} {hmac : Bytes → String} {clients next : Clients}

theorem Step.exists_operation (step : Step integer hmac clients next) :
    ∃ operation, next.journaled = clients.journaled.step integer hmac operation := by
  cases step <;> exact ⟨_, rfl⟩

/-- The accounts are right in every state that is reached. -/
theorem Reaches.accounted (reached : Reaches .unbounded hmac clients) : clients.journaled.Accounted := by
  induction reached with
  | refl => exact Journaled.accounted_empty
  | tail _ step ih =>
      obtain ⟨operation, after⟩ := step.exists_operation
      rw [after]
      exact ih.step (Journaled.exact_unbounded _ operation)

end Clients

/-! ## Spends -/

namespace Journaled

variable {integer : SqlInteger} {hmac : Bytes → String} {state : Journaled} {final : HierarchicalStore}

/-- What has just been reserved can be reconciled. -/
theorem Accounted.spend_atomic (accounted : Accounted state) {scope : HierarchicalBudgetScope}
    {amounts : RawAmounts} {reservationId : String} {error : BudgetError}
    (raised : spend .unbounded scope amounts reservationId state.store = .error error final) :
    final = state.store := by
  cases done : reserve .unbounded scope amounts reservationId state.store with
  | error error' final' =>
      rw [spend, bind_of_error done] at raised
      cases raised
      exact reserve_atomic state.store error final done
  | ok value middle =>
      rw [spend, bind_of_ok done] at raised
      have reserved := accounted.effect (effect_of_reserve done) (exact_unbounded _ _)
      obtain ⟨requested, path, valid, climbed, bounded, _, _, _, after⟩ := reserve_eq_ok.mp done
      have found : middle.activeRow scope reservationId =
          .ok ⟨scope.opaqueRoot, scope.scopeId, encodeAmounts requested, .active⟩ := by
        rw [← after]
        exact activeRow_eq_ok.mpr ⟨Dict.get?_set_self, rfl, rfl, rfl⟩
      have again : checkedActual (some amounts) = .ok (some requested) := by
        rw [checkedActual, checkedAmounts_relabel valid]
        rfl
      have within' (name : String) : requested.getD name 0 ≤ (ReservationRow.mk scope.opaqueRoot scope.scopeId
          (encodeAmounts requested) .active).amounts.getD name 0 :=
        le_of_eq (getD_amounts (positive_of_validateAmounts (checkedAmounts_eq_ok.mp valid).1) rfl).symm
      have few (node : String) (below : Descends middle.parentOf scope.scopeId node) :
          (middle.names node).card ≤ maxCounters := by
        rw [← after] at below ⊢
        have inside : node ∈ path := (accounted.formed.mem_chain climbed).mpr below
        have bound := ensureCounterBounds_eq_ok.mp bounded node inside
        refine (Finset.card_le_card fun name member => ?_).trans bound
        rw [Finset.mem_union, List.mem_toFinset]
        exact ((mem_names_rewrite (chain_nodup climbed) requested.keys_nodup).mp member).imp_right And.right
      have fits (node : String) (_ : Descends middle.parentOf scope.scopeId node) (name : String) :
          SqlInteger.unbounded.Fits ((middle.counter node name).used + (middle.counter node name).reserved) :=
        trivial
      obtain ⟨_, _, finished⟩ := reserved.exists_finish found again within' few fits
      rw [finished] at raised
      cases raised

end Journaled

/-- What holds in every state of the clients. -/
structure Conserved (hmac : Bytes → String) (clients : Clients) : Prop where
  reserved : ∀ scopeId name, (clients.journaled.store.counter scopeId name).reserved =
    clients.journaled.store.heldBelow scopeId name
  used : ∀ scopeId name, (clients.journaled.store.counter scopeId name).used =
    clients.journaled.store.chargedBelow clients.journaled.actuals scopeId name
  limited : ∀ scopeId name limit, clients.journaled.store.limits.get? (scopeId, name) = some limit →
    (clients.journaled.store.counter scopeId name).used + (clients.journaled.store.counter scopeId name).reserved ≤
      limit
  /-- A transaction that raises leaves every row unchanged. -/
  unchanged : ∀ operation error final,
    perform .unbounded hmac operation clients.journaled.store = .error error final →
      final = clients.journaled.store
  /-- So does a spend that raises without another transaction in between. -/
  unspent : ∀ scope amounts reservationId error final,
    spend .unbounded scope amounts reservationId clients.journaled.store = .error error final →
      final = clients.journaled.store

/-- **Budgets are conserved** in every state that the clients of a store reach. -/
theorem conserved (hmac : Bytes → String) (clients : Clients) (reached : Clients.Reaches .unbounded hmac clients) :
    Conserved hmac clients where
  reserved := reached.accounted.reserved
  used := reached.accounted.used
  limited := reached.accounted.limited
  unchanged operation error final raised := perform_atomic operation _ error final raised
  unspent _ _ _ _ _ raised := reached.accounted.spend_atomic raised

/-! ## A spend that another client cancels -/

def constantDigest (_ : Bytes) : String := "r"

def tenant : HierarchicalBudgetScope := ⟨"r", "r", none, 0⟩

def oneCall : Spending := ⟨tenant, [(.str "c", .int 1)], "i"⟩

def rooted : Journaled := Journaled.empty.step .unbounded constantDigest (.root "t" [(.str "c", .int 5)])

def halfway : Journaled :=
  rooted.step .unbounded constantDigest (.reserve oneCall.scope oneCall.amounts oneCall.reservationId)

def cancelled : Journaled := halfway.step .unbounded constantDigest (.cancel tenant "i")

theorem reaches_cancelled : Clients.Reaches .unbounded constantDigest ⟨cancelled, [oneCall]⟩ := by
  have reserves : outcome (reserve .unbounded oneCall.scope oneCall.amounts oneCall.reservationId)
      rooted.store = .ok () := by decide +kernel
  obtain ⟨final, done⟩ := exists_of_outcome_ok reserves
  refine Relation.ReflTransGen.tail (Relation.ReflTransGen.tail (Relation.ReflTransGen.tail .refl
    (.operates _ (.root "t" [(.str "c", .int 5)]))) (.reserves _ oneCall final done)) ?_
  exact .operates _ (.cancel tenant "i")

/-- A spend raises, and its reservation is among the rows. -/
theorem cancelled_spend : ∃ clients, Clients.Reaches .unbounded constantDigest clients ∧
    ∃ spending ∈ clients.spending, ∃ error final,
      perform .unbounded constantDigest (.reconcile spending.scope spending.reservationId spending.amounts)
        clients.journaled.store = .error error final ∧
      spending.reservationId ∈ final.reservations.keys := by
  have raises : outcome (perform .unbounded constantDigest (.reconcile tenant "i" oneCall.amounts))
      cancelled.store = .error inactiveReservation := by decide +kernel
  have written : "i" ∈ cancelled.store.reservations.keys := by decide +kernel
  refine ⟨_, reaches_cancelled, oneCall, List.mem_singleton.mpr rfl, inactiveReservation, cancelled.store, ?_,
    written⟩
  exact perform_of_outcome_error raises

theorem conserved_cancelled : Conserved constantDigest ⟨cancelled, [oneCall]⟩ :=
  conserved constantDigest ⟨cancelled, [oneCall]⟩ reaches_cancelled

end CapabilityHub.Budget
