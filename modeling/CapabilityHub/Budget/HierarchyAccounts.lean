import CapabilityHub.Budget.HierarchyForest

/-! # What the tree accounts for

A run of the tree with a journal of the actual use that each reconciled reservation was
charged. At every scope and for every counter the row holds what the active reservations at
or below the scope hold and what the reconciled ones were charged, within the hard limit
(`Journaled.Accounted`). Every transaction keeps it, where no sum leaves the integers of the
columns (`Journaled.Accounted.effect`), and then an active reservation can be finished
(`Journaled.Accounted.exists_finish`).
-/

namespace CapabilityHub.Budget

/-- The amounts of a reservation. -/
def ReservationRow.amounts (row : ReservationRow) : Amounts :=
  match decodeAmounts row.amountsJson with
  | .ok amounts => amounts
  | .error _ => ∅

namespace HierarchicalStore

variable {integer : SqlInteger} {hmac : Bytes → String} {store final : HierarchicalStore}
  {operation : Operation} {scopeId name reservationId : String} {requested reserved charged limits : Amounts}
  {path : List String}

theorem decodeStored_eq_ok {stored : RawAmounts} {amounts : Amounts}
    (decoded : decodeStored stored = .ok amounts) : decodeAmounts stored = .ok amounts := by
  rw [decodeStored] at decoded
  cases read : decodeAmounts stored with
  | ok amounts =>
      rw [read] at decoded
      exact decoded
  | error error =>
      rw [read] at decoded
      cases decoded

theorem amounts_of_decodeStored {row : ReservationRow} {amounts : Amounts}
    (decoded : decodeStored row.amountsJson = .ok amounts) : row.amounts = amounts := by
  rw [ReservationRow.amounts, decodeStored_eq_ok decoded]

/-- The amounts that a reservation is stored with are read back. -/
theorem Formed.decodeStored (formed : Formed store) {row : ReservationRow}
    (found : store.reservations.get? reservationId = some row) :
    decodeStored row.amountsJson = .ok row.amounts := by
  obtain ⟨_, amounts, positive, stored⟩ := formed.held reservationId row found
  obtain ⟨decoded, read, _⟩ := decodeAmounts_encodeAmounts positive
  rw [HierarchicalStore.decodeStored, ReservationRow.amounts, stored, read]

theorem Formed.positive_amounts (formed : Formed store) {row : ReservationRow}
    (found : store.reservations.get? reservationId = some row) : Positive row.amounts := by
  obtain ⟨_, amounts, positive, stored⟩ := formed.held reservationId row found
  obtain ⟨decoded, read, same⟩ := decodeAmounts_encodeAmounts positive
  intro counter value held
  rw [ReservationRow.amounts, stored, read, same] at held
  exact positive counter value held

theorem getD_amounts {amounts : Amounts} (positive : Positive amounts) {row : ReservationRow}
    (stored : row.amountsJson = encodeAmounts amounts) : row.amounts.getD name 0 = amounts.getD name 0 := by
  obtain ⟨decoded, read, same⟩ := decodeAmounts_encodeAmounts positive
  rw [ReservationRow.amounts, stored, read, Dict.getD, Dict.getD, same]

/-- What a reservation is charged has no zeros. -/
theorem positive_of_checkedActual {actual : Option RawAmounts} {charged : Option Amounts}
    (valid : checkedActual actual = .ok charged) (asked : name ∈ (charged.getD ∅).keys) :
    0 < (charged.getD ∅).getD name 0 := by
  obtain ⟨value, found⟩ := Dict.get?_isSome_iff.mpr asked
  rw [Dict.getD, found]
  cases actual with
  | none =>
      cases valid
      cases found
  | some actual =>
      rw [checkedActual] at valid
      cases checked : checkedAmounts actual "actual" with
      | error error =>
          rw [checked] at valid
          cases valid
      | ok amounts =>
          rw [checked] at valid
          cases valid
          exact (positive_of_validateAmounts (checkedAmounts_eq_ok.mp checked).1 name value found).2

theorem limits_le_names : (store.limits.row scopeId).size ≤ (store.names scopeId).card := by
  rw [← Dict.length_keys, ← List.toFinset_card_of_nodup (Dict.keys_nodup _)]
  exact Finset.card_le_card Finset.subset_union_left

theorem mem_names : name ∈ store.names scopeId ↔
    (∃ limit, store.limits.get? (scopeId, name) = some limit) ∨
      ∃ charge, store.counters.get? (scopeId, name) = some charge := by
  rw [names, Finset.mem_union, List.mem_toFinset, List.mem_toFinset, ← Dict.get?_isSome_iff,
    ← Dict.get?_isSome_iff]
  simp only [Dict.get?_row]

/-- A counter that is held at a scope has a row there. -/
theorem mem_names_of_pos (positive : 0 < (store.counter scopeId name).reserved) :
    name ∈ store.names scopeId := by
  rw [mem_names]
  right
  cases found : store.counters.get? (scopeId, name) with
  | none =>
      rw [counter, found] at positive
      cases positive
  | some charge => exact ⟨charge, rfl⟩

/-- Rows that are rewritten are of these counters at these scopes. -/
theorem mem_names_rewrite {counters : List String} {f : String → Option Charge → Charge} (nodup : path.Nodup)
    (distinct : counters.Nodup) : name ∈ (store.rewrite path counters f).names scopeId ↔
      name ∈ store.names scopeId ∨ scopeId ∈ path ∧ name ∈ counters := by
  rw [mem_names, mem_names, get?_rewrite nodup distinct, or_assoc]
  apply or_congr_right
  by_cases inside : scopeId ∈ path ∧ name ∈ counters
  · rw [if_pos inside]
    exact iff_of_true ⟨_, rfl⟩ (.inr inside)
  · rw [if_neg inside, or_iff_left inside]

/-- The counters of a scope, where limits are changed. -/
theorem mem_names_limiting {other : String} :
    name ∈ (store.limiting scopeId limits).names other ↔
      name ∈ store.names other ∨ other = scopeId ∧ name ∈ limits.keys := by
  rw [mem_names, mem_names, get?_limiting, or_right_comm]
  apply or_congr_left
  split
  next same =>
    rw [and_iff_right same, ← Dict.get?_isSome_iff]
    cases limits.get? name <;> simp
  next different =>
    rw [or_iff_left fun both => different both.1]

/-! ## The rows after a transaction -/

/-- The row of a counter after a reservation, where the sum is exact. -/
theorem counter_holding {row : ReservationRow} (nodup : path.Nodup)
    (exact' : ∀ node ∈ path, ∀ name ∈ requested.keys,
      integer.Fits ((store.counter node name).reserved + requested.getD name 0)) :
    (store.holding integer reservationId row path requested).counter scopeId name =
      ⟨(store.counter scopeId name).used,
        (store.counter scopeId name).reserved + if scopeId ∈ path then requested.getD name 0 else 0⟩ := by
  rw [counter, holding, get?_rewrite nodup requested.keys_nodup]
  by_cases inside : scopeId ∈ path
  · by_cases asked : name ∈ requested.keys
    · have fits := exact' scopeId inside name asked
      rw [if_pos ⟨inside, asked⟩, if_pos inside, Option.getD_some, addedRow_eq fits]
      rfl
    · rw [if_neg fun both => asked both.2, getD_of_notMem asked, ite_self]
      rfl
  · rw [if_neg fun both => inside both.1, if_neg inside]
    rfl

/-- The row of a counter after a reservation is finished. -/
theorem counter_settling {row : ReservationRow} (nodup : path.Nodup) :
    (store.settling reservationId row path reserved charged).counter scopeId name =
      ⟨(store.counter scopeId name).used + if scopeId ∈ path then charged.getD name 0 else 0,
        (store.counter scopeId name).reserved - if scopeId ∈ path then reserved.getD name 0 else 0⟩ := by
  rw [counter, settling, get?_rewrite nodup (unionKeys_nodup reserved charged)]
  by_cases inside : scopeId ∈ path
  · by_cases asked : name ∈ unionKeys reserved charged
    · rw [if_pos ⟨inside, asked⟩, if_pos inside, if_pos inside, Option.getD_some]
      rfl
    · obtain ⟨unheld, uncharged⟩ := not_or.mp fun either => asked (mem_unionKeys.mpr either)
      rw [if_neg fun both => asked both.2, getD_of_notMem unheld, getD_of_notMem uncharged, ite_self]
      rfl
  · rw [if_neg fun both => inside both.1, if_neg inside, if_neg inside]
    rfl

/-! ## Sums below a scope -/

open Classical in
/-- The sum of a counter over the reservations at or below a scope that have a status. -/
noncomputable def sumBelow (store : HierarchicalStore) (status : Status)
    (amounts : String → ReservationRow → Amounts) (scopeId name : String) : Nat :=
  store.reservations.total fun reservationId row =>
    if row.status = status ∧ Descends store.parentOf row.scopeId scopeId then
      (amounts reservationId row).getD name 0
    else 0

/-- What the active reservations at or below a scope hold of a counter. -/
noncomputable def heldBelow (store : HierarchicalStore) (scopeId name : String) : Nat :=
  store.sumBelow .active (fun _ row => row.amounts) scopeId name

/-- What the reconciled reservations at or below a scope were charged of a counter. -/
noncomputable def chargedBelow (store : HierarchicalStore) (actuals : Dict String Amounts)
    (scopeId name : String) : Nat :=
  store.sumBelow .reconciled (fun reservationId _ => actuals.getD reservationId ∅) scopeId name

section Sums

variable {status : Status} {amounts amounts' : String → ReservationRow → Amounts} {row old : ReservationRow}

theorem sumBelow_congr (rows : final.reservations = store.reservations)
    (same : ∀ reservationId row, store.reservations.get? reservationId = some row →
      (Descends final.parentOf row.scopeId scopeId ↔ Descends store.parentOf row.scopeId scopeId)) :
    final.sumBelow status amounts scopeId name = store.sumBelow status amounts scopeId name := by
  classical
  rw [sumBelow, sumBelow, rows]
  apply Dict.total_congr
  intro reservationId row found
  rw [same reservationId row found]

open Classical in
/-- One more reservation. -/
theorem sumBelow_set_of_none (scopes : final.scopes = store.scopes)
    (rows : final.reservations = store.reservations.set reservationId row)
    (fresh : store.reservations.get? reservationId = none)
    (same : ∀ other row, store.reservations.get? other = some row → amounts' other row = amounts other row) :
    final.sumBelow status amounts' scopeId name = store.sumBelow status amounts scopeId name +
      if row.status = status ∧ Descends store.parentOf row.scopeId scopeId then
        (amounts' reservationId row).getD name 0
      else 0 := by
  have parents : final.parentOf = store.parentOf := by
    funext node
    rw [parentOf, parentOf, scopes]
  rw [sumBelow, rows, Dict.total_set_of_none _ _ fresh, parents, sumBelow]
  congr 1
  apply Dict.total_congr
  intro other row found
  rw [same other row found]

open Classical in
/-- The row of one reservation replaced. -/
theorem sumBelow_set_of_some (scopes : final.scopes = store.scopes)
    (rows : final.reservations = store.reservations.set reservationId row)
    (found : store.reservations.get? reservationId = some old)
    (same : ∀ other row, other ≠ reservationId → store.reservations.get? other = some row →
      amounts' other row = amounts other row) :
    (final.sumBelow status amounts' scopeId name +
      if old.status = status ∧ Descends store.parentOf old.scopeId scopeId then
        (amounts reservationId old).getD name 0
      else 0) = store.sumBelow status amounts scopeId name +
      if row.status = status ∧ Descends store.parentOf row.scopeId scopeId then
        (amounts' reservationId row).getD name 0
      else 0 := by
  have parents : final.parentOf = store.parentOf := by
    funext node
    rw [parentOf, parentOf, scopes]
  rw [sumBelow, rows, parents, sumBelow]
  have written : (store.reservations.set reservationId row).get? reservationId = some row := Dict.get?_set_self
  rw [Dict.total_split _ written, Dict.total_split _ found]
  have others : (store.reservations.set reservationId row).total (fun other value =>
        if other = reservationId then 0 else
          if value.status = status ∧ Descends store.parentOf value.scopeId scopeId then
            (amounts' other value).getD name 0 else 0) =
      store.reservations.total (fun other value =>
        if other = reservationId then 0 else
          if value.status = status ∧ Descends store.parentOf value.scopeId scopeId then
            (amounts other value).getD name 0 else 0) := by
    have changed := Dict.total_set_of_some (fun other (value : ReservationRow) =>
        if other = reservationId then 0 else
          if value.status = status ∧ Descends store.parentOf value.scopeId scopeId then
            (amounts' other value).getD name 0 else 0) row found
    rw [if_pos rfl, if_pos rfl, Nat.add_zero, Nat.add_zero] at changed
    rw [changed]
    apply Dict.total_congr
    intro other value known
    by_cases here : other = reservationId
    · rw [if_pos here, if_pos here]
    · rw [if_neg here, if_neg here, same other value here known]
  rw [others]
  omega

end Sums

end HierarchicalStore

open HierarchicalStore

/-- The database, and what each reconciled reservation was charged. -/
structure Journaled where
  store : HierarchicalStore
  actuals : Dict String Amounts

/-- The journal after an operation that returned. -/
def Operation.record (actuals : Dict String Amounts) : Operation → Dict String Amounts
  | .finish _ reservationId actual =>
      match checkedActual actual with
      | .ok (some charged) => actuals.set reservationId charged
      | _ => actuals
  | _ => actuals

theorem Operation.getD_record_of_ne {scope : HierarchicalBudgetScope} {reservationId other : String}
    {actual : Option RawAmounts} {actuals : Dict String Amounts} (different : other ≠ reservationId) :
    ((Operation.finish scope reservationId actual).record actuals).getD other ∅ = actuals.getD other ∅ := by
  rw [Operation.record]
  split
  · rw [Dict.getD_set, if_neg different]
  · rfl

theorem Operation.record_of_creates {actuals : Dict String Amounts} {operation : Operation}
    (creates : operation.Creates) : operation.record actuals = actuals := by
  cases operation with
  | root name limits => rfl
  | createChild parent name limits => rfl
  | _ => cases creates

theorem finishedStatus_ne_active (charged : Option Amounts) : finishedStatus charged ≠ .active := by
  cases charged <;> simp [finishedStatus]

namespace Journaled

variable {integer : SqlInteger} {hmac : Bytes → String} {state : Journaled} {final : HierarchicalStore}
  {operation : Operation} {scopeId name reservationId : String}

def empty : Journaled := ⟨HierarchicalStore.empty, ∅⟩

/-- One transaction, returning or raising. -/
def step (integer : SqlInteger) (hmac : Bytes → String) (state : Journaled) (operation : Operation) :
    Journaled :=
  match perform integer hmac operation state.store with
  | .ok _ final => ⟨final, operation.record state.actuals⟩
  | .error _ final => ⟨final, state.actuals⟩

/-- What every effect of an operation keeps is kept by a step. -/
theorem step_of_effect {holds : Journaled → Prop} (start : holds state)
    (kept : ∀ final, Effect integer state.store operation final → holds ⟨final, operation.record state.actuals⟩) :
    holds (state.step integer hmac operation) := by
  rw [step]
  cases done : perform integer hmac operation state.store with
  | ok value final => exact kept final (effect_of_perform done)
  | error error final =>
      rw [perform_atomic operation state.store error final done]
      exact start

/-- **The accounts of a tree**: at every scope a row holds what the reservations at or below it hold and
were charged, and that is within its limit. -/
structure Accounted (state : Journaled) : Prop where
  formed : Formed state.store
  reserved : ∀ scopeId name, (state.store.counter scopeId name).reserved = state.store.heldBelow scopeId name
  used : ∀ scopeId name,
    (state.store.counter scopeId name).used = state.store.chargedBelow state.actuals scopeId name
  limited : ∀ scopeId name limit, state.store.limits.get? (scopeId, name) = some limit →
    (state.store.counter scopeId name).used + (state.store.counter scopeId name).reserved ≤ limit

theorem accounted_empty : Accounted empty where
  formed := formed_empty
  reserved _ _ := rfl
  used _ _ := rfl
  limited _ _ _ found := by cases found

/-- The sums that an operation makes are integers of the columns. -/
def Exact (integer : SqlInteger) (store : HierarchicalStore) : Operation → Prop
  | .reserve scope raw _ => ∀ requested path, checkedAmounts raw "amounts" = .ok requested →
      store.chain scope.opaqueRoot scope.scopeId = .ok path → ∀ node ∈ path, ∀ name ∈ requested.keys,
        integer.Fits ((store.counter node name).reserved + requested.getD name 0)
  | _ => True

theorem exact_unbounded (store : HierarchicalStore) (operation : Operation) :
    Exact .unbounded store operation := by
  cases operation with
  | reserve scope raw reservationId => exact fun _ _ _ _ _ _ _ _ => trivial
  | _ => trivial

namespace Accounted

variable (accounted : Accounted state)

include accounted

/-- A reservation that is active is held by every ancestor of its scope. -/
theorem amounts_le (name : String) {row : ReservationRow} (found : state.store.reservations.get? reservationId = some row)
    (active : row.status = .active) (below : Descends state.store.parentOf row.scopeId scopeId) :
    row.amounts.getD name 0 ≤ (state.store.counter scopeId name).reserved := by
  classical
  rw [accounted.reserved, heldBelow, sumBelow]
  have least := Dict.le_total (fun (_ : String) (row : ReservationRow) =>
    if row.status = .active ∧ Descends state.store.parentOf row.scopeId scopeId then row.amounts.getD name 0
    else 0) found
  rw [if_pos ⟨active, below⟩] at least
  exact least

/-- A new scope below or beside the others changes nothing about them. -/
theorem inserting {roots : List String} {row : ScopeRow} {limits : Amounts}
    (fresh : state.store.scopes.get? scopeId = none) (placed : state.store.Placed scopeId row) :
    Accounted ⟨state.store.inserting roots scopeId row limits, state.actuals⟩ := by
  have below (id : String) (held : ReservationRow) (node : String)
      (found : state.store.reservations.get? id = some held) :
      Descends (state.store.inserting roots scopeId row limits).parentOf held.scopeId node ↔
        Descends state.store.parentOf held.scopeId node := by
    apply Descends.congr_parent
    intro other descends
    obtain ⟨⟨scopeRow, known, _⟩, _⟩ := accounted.formed.held id held found
    exact accounted.formed.parentOf_inserting fresh descends known
  refine ⟨accounted.formed.inserting fresh placed, fun node counter => ?_, fun node counter => ?_,
    fun node counter limit found => ?_⟩
  · have held : (state.store.inserting roots scopeId row limits).heldBelow node counter =
        state.store.heldBelow node counter := sumBelow_congr rfl fun id held => below id held node
    exact (accounted.reserved node counter).trans held.symm
  · have charged : (state.store.inserting roots scopeId row limits).chargedBelow state.actuals node counter =
        state.store.chargedBelow state.actuals node counter := sumBelow_congr rfl fun id held => below id held node
    exact (accounted.used node counter).trans charged.symm
  · change (state.store.counter node counter).used + (state.store.counter node counter).reserved ≤ limit
    rw [HierarchicalStore.inserting, get?_limiting] at found
    split at found
    next same =>
      rw [HierarchicalStore.counter, accounted.formed.counter_of_unknown (same ▸ fresh)]
      exact Nat.zero_le _
    next => exact accounted.limited node counter limit found

/-- Limits that are changed leave room for what is held. -/
theorem limiting {changes : Amounts} (known : scopeId ∈ state.store.scopes.keys)
    (room : ∀ name limit, changes.get? name = some limit →
      state.store.checkChange integer scopeId (name, limit) = .ok ()) :
    Accounted ⟨state.store.limiting scopeId changes, state.actuals⟩ := by
  refine ⟨accounted.formed.limiting known, accounted.reserved, accounted.used, ?_⟩
  intro node counter limit found
  change (state.store.counter node counter).used + (state.store.counter node counter).reserved ≤ limit
  rw [get?_limiting] at found
  split at found
  next same =>
    rcases Option.or_eq_some_iff.mp found with changed | ⟨_, before⟩
    · rw [same]
      exact (checkChange_eq_ok.mp (room counter limit changed)).1
    · exact accounted.limited node counter limit before
  next => exact accounted.limited node counter limit found

/-- A reservation is held by its scope and the ancestors of it. -/
theorem holding {scope : HierarchicalBudgetScope} {raw : RawAmounts} {requested : Amounts}
    {path : List String} (valid : checkedAmounts raw "amounts" = .ok requested)
    (climbed : state.store.chain scope.opaqueRoot scope.scopeId = .ok path)
    (capable : state.store.checkCapacity path ∅ requested = .ok ())
    (fresh : reservationId ∉ state.store.reservations.keys)
    (exact' : Exact integer state.store (.reserve scope raw reservationId))
    (after : final = state.store.holding integer reservationId
      ⟨scope.opaqueRoot, scope.scopeId, encodeAmounts requested, .active⟩ path requested)
    (formed : Formed final) : Accounted ⟨final, state.actuals⟩ := by
  classical
  have positive := positive_of_validateAmounts (checkedAmounts_eq_ok.mp valid).1
  have unused := Dict.get?_eq_none_iff.mpr fresh
  have scopes : final.scopes = state.store.scopes := by
    rw [after]
    rfl
  have rows : final.reservations = state.store.reservations.set reservationId
      ⟨scope.opaqueRoot, scope.scopeId, encodeAmounts requested, .active⟩ := by
    rw [after]
    rfl
  have limits : final.limits = state.store.limits := by
    rw [after]
    rfl
  have charges (node counter : String) : final.counter node counter =
      ⟨(state.store.counter node counter).used, (state.store.counter node counter).reserved +
        if node ∈ path then requested.getD counter 0 else 0⟩ := by
    rw [after]
    exact counter_holding (chain_nodup climbed) (exact' requested path valid climbed)
  refine ⟨formed, fun node counter => ?_, fun node counter => ?_, fun node counter limit found => ?_⟩
  · rw [charges, heldBelow, sumBelow_set_of_none scopes rows unused fun _ _ _ => rfl, accounted.reserved,
      heldBelow]
    have stored : (ReservationRow.mk scope.opaqueRoot scope.scopeId (encodeAmounts requested)
        .active).amounts.getD counter 0 = requested.getD counter 0 := getD_amounts positive rfl
    simp only [true_and, accounted.formed.mem_chain climbed, stored]
  · rw [charges, chargedBelow, sumBelow_set_of_none scopes rows unused fun _ _ _ => rfl, accounted.used,
      chargedBelow, if_neg fun both => by cases both.1]
    rfl
  · dsimp only at found
    rw [limits] at found
    have before := accounted.limited node counter limit found
    rw [charges]
    by_cases inside : node ∈ path
    · rw [if_pos inside]
      cases asked : requested.get? counter with
      | none =>
          rw [Dict.getD, asked]
          exact before
      | some amount =>
          have enough := (checkCapacity_eq_ok.mp capable node inside).2 counter amount limit asked found
          rw [requestedTotal, Dict.getD, Dict.get?_empty, Option.getD_none] at enough
          rw [Dict.getD, asked, Option.getD_some]
          dsimp only
          omega
    · rw [if_neg inside]
      exact before

/-- A reservation that is finished is held no more, and what it is charged is used. -/
theorem settling {scope : HierarchicalBudgetScope} {actual : Option RawAmounts} {charged : Option Amounts}
    {row : ReservationRow} {reserved : Amounts} {path : List String} (valid : checkedActual actual = .ok charged)
    (found : state.store.activeRow scope reservationId = .ok row)
    (decoded : HierarchicalStore.decodeStored row.amountsJson = .ok reserved)
    (climbed : state.store.chain scope.opaqueRoot scope.scopeId = .ok path)
    (capable : state.store.checkCapacity path reserved (charged.getD ∅) = .ok ())
    (after : final = state.store.settling reservationId { row with status := finishedStatus charged } path reserved
      (charged.getD ∅))
    (formed : Formed final) :
    Accounted ⟨final, (Operation.finish scope reservationId actual).record state.actuals⟩ := by
  classical
  obtain ⟨at', _, placed, active⟩ := activeRow_eq_ok.mp found
  have amounts : row.amounts = reserved := amounts_of_decodeStored decoded
  have scopes : final.scopes = state.store.scopes := by
    rw [after]
    rfl
  have rows : final.reservations =
      state.store.reservations.set reservationId { row with status := finishedStatus charged } := by
    rw [after]
    rfl
  have limits : final.limits = state.store.limits := by
    rw [after]
    rfl
  have charges (node counter : String) : final.counter node counter =
      ⟨(state.store.counter node counter).used + if node ∈ path then (charged.getD ∅).getD counter 0 else 0,
        (state.store.counter node counter).reserved - if node ∈ path then reserved.getD counter 0 else 0⟩ := by
    rw [after]
    exact counter_settling (chain_nodup climbed)
  have inside (node : String) : node ∈ path ↔ Descends state.store.parentOf row.scopeId node := by
    rw [placed]
    exact accounted.formed.mem_chain climbed
  have enough (node counter : String) (member : node ∈ path) :
      reserved.getD counter 0 ≤ (state.store.counter node counter).reserved := by
    rw [← amounts]
    exact accounted.amounts_le counter at' active ((inside node).mp member)
  refine ⟨formed, fun node counter => ?_, fun node counter => ?_, fun node counter limit limited => ?_⟩
  · have sums : (final.heldBelow node counter +
        if row.status = .active ∧ Descends state.store.parentOf row.scopeId node then row.amounts.getD counter 0
        else 0) = state.store.heldBelow node counter +
        if finishedStatus charged = .active ∧ Descends state.store.parentOf row.scopeId node then
          ReservationRow.amounts { row with status := finishedStatus charged } |>.getD counter 0
        else 0 := sumBelow_set_of_some scopes rows at' fun _ _ _ _ => rfl
    have settled : ¬(finishedStatus charged = .active ∧ Descends state.store.parentOf row.scopeId node) :=
      fun both => finishedStatus_ne_active charged both.1
    rw [if_neg settled, Nat.add_zero, amounts] at sums
    simp only [active, true_and, ← inside] at sums
    rw [charges, accounted.reserved, ← sums]
    exact Nat.add_sub_cancel _ _
  · have sums : (final.chargedBelow ((Operation.finish scope reservationId actual).record state.actuals) node
        counter + if row.status = .reconciled ∧ Descends state.store.parentOf row.scopeId node then
          (state.actuals.getD reservationId ∅).getD counter 0
        else 0) = state.store.chargedBelow state.actuals node counter +
        if finishedStatus charged = .reconciled ∧ Descends state.store.parentOf row.scopeId node then
          (((Operation.finish scope reservationId actual).record state.actuals).getD reservationId ∅).getD counter 0
        else 0 := by
      apply sumBelow_set_of_some scopes rows at'
      intro other _ different _
      rw [Operation.getD_record_of_ne different]
    have unsettled : ¬(row.status = .reconciled ∧ Descends state.store.parentOf row.scopeId node) := by
      rw [active]
      exact fun both => Status.noConfusion both.1
    rw [if_neg unsettled, Nat.add_zero] at sums
    rw [charges, accounted.used]
    refine Eq.trans ?_ sums.symm
    dsimp only
    cases charged with
    | none =>
        have cancelled : ¬(finishedStatus none = .reconciled ∧ Descends state.store.parentOf row.scopeId node) :=
          fun both => Status.noConfusion both.1
        have nothing : ((none : Option Amounts).getD ∅).getD counter 0 = 0 := rfl
        rw [if_neg cancelled, nothing, ite_self]
    | some charge =>
        have recorded : (Operation.finish scope reservationId actual).record state.actuals =
            state.actuals.set reservationId charge := by
          rw [Operation.record, valid]
        have settled : finishedStatus (some charge) = .reconciled := rfl
        simp only [recorded, settled, true_and, ← inside, Dict.getD_set, ↓reduceIte, Option.getD_some]
  · dsimp only at limited
    rw [limits] at limited
    have before := accounted.limited node counter limit limited
    rw [charges]
    by_cases member : node ∈ path
    · rw [if_pos member, if_pos member]
      have least := enough node counter member
      cases asked : (charged.getD ∅).get? counter with
      | none =>
          rw [Dict.getD, asked]
          dsimp only [Option.getD_none]
          omega
      | some amount =>
          have room := (checkCapacity_eq_ok.mp capable node member).2 counter amount limit asked limited
          rw [requestedTotal] at room
          rw [Dict.getD, asked, Option.getD_some]
          dsimp only
          omega
    · rw [if_neg member, if_neg member]
      exact before

/-- **Every operation that returns keeps the accounts.** -/
theorem effect (effect : Effect integer state.store operation final)
    (exact' : Exact integer state.store operation) : Accounted ⟨final, operation.record state.actuals⟩ := by
  have formed := accounted.formed.effect effect
  cases effect with
  | kept creates =>
      rw [Operation.record_of_creates creates]
      exact accounted
  | inserted creates fresh placed =>
      rw [Operation.record_of_creates creates]
      exact accounted.inserting fresh placed
  | configured valid expects known read same few room allocated =>
      exact accounted.limiting (Dict.mem_keys_of_get? known) room
  | reserved valid climbed bounded capable fresh =>
      exact accounted.holding valid climbed capable fresh exact' rfl formed
  | finished valid found decoded climbed bounded capable admitted =>
      exact accounted.settling valid found decoded climbed capable rfl formed

theorem step (exact' : Exact integer state.store operation) : Accounted (state.step integer hmac operation) :=
  step_of_effect accounted fun _ effect => accounted.effect effect exact'

/-- **An active reservation can be finished** with a charge that is within it: at scopes without too many
counters, where what is used and held is an integer of the columns. -/
theorem exists_finish {scope : HierarchicalBudgetScope} {row : ReservationRow} {actual : Option RawAmounts}
    {charged : Option Amounts} (found : state.store.activeRow scope reservationId = .ok row)
    (valid : checkedActual actual = .ok charged)
    (within' : ∀ name, (charged.getD ∅).getD name 0 ≤ row.amounts.getD name 0)
    (few : ∀ node, Descends state.store.parentOf row.scopeId node →
      (state.store.names node).card ≤ maxCounters)
    (fits : ∀ node, Descends state.store.parentOf row.scopeId node → ∀ name,
      integer.Fits ((state.store.counter node name).used + (state.store.counter node name).reserved)) :
    ∃ path, state.store.chain scope.opaqueRoot scope.scopeId = .ok path ∧
      finishReservation integer scope reservationId actual state.store = .ok () (state.store.settling reservationId
        { row with status := finishedStatus charged } path row.amounts (charged.getD ∅)) := by
  obtain ⟨at', rooted, placed, active⟩ := activeRow_eq_ok.mp found
  obtain ⟨⟨scopeRow, known, same⟩, _⟩ := accounted.formed.held reservationId row at'
  obtain ⟨path, climbed, inside⟩ := accounted.formed.exists_chain known
  rw [same, rooted, placed] at climbed
  refine ⟨path, climbed, finishReservation_eq_ok.mpr ⟨charged, row, row.amounts, path, valid, found,
    accounted.formed.decodeStored at', climbed, ?_, ?_, ?_, rfl⟩⟩
  · apply ensureCounterBounds_eq_ok.mpr
    intro node member
    have below := (inside node).mp member
    have known : (charged.getD ∅).keys.toFinset ⊆ state.store.names node := by
      intro name asked
      have held := accounted.amounts_le name at' active below
      have positive := positive_of_checkedActual valid (List.mem_toFinset.mp asked)
      exact mem_names_of_pos (positive.trans_le ((within' name).trans held))
    rw [Finset.union_eq_left.mpr known]
    exact few node below
  · apply checkCapacity_eq_ok.mpr
    intro node member
    have below := (inside node).mp member
    refine ⟨limits_le_names.trans (few node below), fun name amount limit asked limited => ?_⟩
    have room := accounted.limited node name limit limited
    have held := accounted.amounts_le name at' active below
    have least := within' name
    rw [Dict.getD, asked, Option.getD_some] at least
    rw [requestedTotal]
    omega
  · intro node member name _
    have below := (inside node).mp member
    have held := accounted.amounts_le name at' active below
    have least := within' name
    have enough := fits node below name
    refine ⟨held, integer.fits_of_le _ _ ?_ enough, integer.fits_of_le _ _ ?_ enough⟩
    · exact Nat.add_le_add_left (least.trans held) _
    · exact (Nat.sub_le _ _).trans (Nat.le_add_left _ _)

end Accounted

end Journaled

end CapabilityHub.Budget
