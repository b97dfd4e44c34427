import CapabilityHub.Budget.HierarchyEffects

/-! # Runs of the tree

The transactions of `SQLiteHierarchicalBudgetStore` as steps of a state machine. What a
transaction that returns has done is said once (`HierarchicalStore.effect_of_perform`), and
one that raises has done nothing (`HierarchicalStore.perform_atomic`). The scopes of every
store that is reached form a forest, in which a chain is found for each scope: its ancestors
(`HierarchicalStore.Formed.exists_chain`).
-/

namespace CapabilityHub.Budget

/-- A transaction of a client. A reservation is reconciled with an actual use, and cancelled without. -/
inductive Operation where
  | root (name : String) (limits : RawAmounts)
  | createChild (parent : HierarchicalBudgetScope) (name : String) (limits : RawAmounts)
  | configure (scope : HierarchicalBudgetScope) (limits expectedLimits : RawAmounts)
  | reserve (scope : HierarchicalBudgetScope) (amounts : RawAmounts) (reservationId : String)
  | finish (scope : HierarchicalBudgetScope) (reservationId : String) (actual : Option RawAmounts)

namespace Operation

def reconcile (scope : HierarchicalBudgetScope) (reservationId : String) (actual : RawAmounts) : Operation :=
  finish scope reservationId (some actual)

def cancel (scope : HierarchicalBudgetScope) (reservationId : String) : Operation :=
  finish scope reservationId none

/-- Operations that find or insert a scope. -/
def Creates : Operation → Prop
  | root _ _ => True
  | createChild _ _ _ => True
  | _ => False

/-- A change of the limits of a scope. -/
def Configures (scopeId : String) : Operation → Prop
  | configure scope _ _ => scope.scopeId = scopeId
  | _ => False

end Operation

namespace HierarchicalStore

open Transaction

variable {integer : SqlInteger} {hmac : Bytes → String} {store final : HierarchicalStore}
  {operation : Operation} {scopeId name : String}

/-- An operation of a client. -/
def perform (integer : SqlInteger) (hmac : Bytes → String) :
    Operation → Transaction HierarchicalStore BudgetError Unit
  | .root name limits => do
      let _ ← root integer hmac name limits
      pure ()
  | .createChild parent name limits => do
      let _ ← createChild integer hmac parent name limits
      pure ()
  | .configure scope limits expectedLimits => configure integer scope limits expectedLimits
  | .reserve scope amounts reservationId => reserve integer scope amounts reservationId
  | .finish scope reservationId actual => finishReservation integer scope reservationId actual

theorem atomic_atomically {α : Type} (body : Transaction HierarchicalStore BudgetError α) :
    Atomic (atomically body) := fun _ _ _ raised => state_of_atomically_error raised

theorem reserve_atomic {scope : HierarchicalBudgetScope} {amounts : RawAmounts} {reservationId : String} :
    Atomic (reserve integer scope amounts reservationId) :=
  .query_bind fun _ => atomic_atomically _

/-- A transaction that raises leaves every row as it was. -/
theorem perform_atomic (operation : Operation) : Atomic (perform integer hmac operation) := by
  cases operation with
  | root name limits =>
      apply Atomic.bind_pure (f := fun _ => ())
      exact .query_bind fun _ => .query_bind fun _ => atomic_atomically _
  | createChild parent name limits =>
      apply Atomic.bind_pure (f := fun _ => ())
      exact .query_bind fun _ => .query_bind fun _ => .query_bind fun _ => .query_bind fun _ =>
        .query_bind fun _ => atomic_atomically _
  | configure scope limits expectedLimits =>
      exact .query_bind fun _ => .query_bind fun _ => atomic_atomically _
  | reserve scope amounts reservationId => exact reserve_atomic
  | finish scope reservationId actual => exact .query_bind fun _ => atomic_atomically _

theorem eq_ok_of_outcome {α : Type} {work : Transaction HierarchicalStore BudgetError α} {value : α}
    (returns : outcome work store = .ok value) : work store = .ok value (stateAfter work store) := by
  rw [outcome] at returns
  rw [stateAfter]
  cases done : work store with
  | ok value final =>
      rw [done] at returns
      cases returns
      rfl
  | error error final =>
      rw [done] at returns
      cases returns

theorem exists_of_outcome_ok {α : Type} {work : Transaction HierarchicalStore BudgetError α} {value : α}
    (returns : outcome work store = .ok value) : ∃ final, work store = .ok value final :=
  ⟨_, eq_ok_of_outcome returns⟩

/-- What an operation raises, with the database as it was. -/
theorem perform_of_outcome_error {error : BudgetError}
    (raises : outcome (perform integer hmac operation) store = .error error) :
    perform integer hmac operation store = .error error store := by
  rw [outcome] at raises
  cases done : perform integer hmac operation store with
  | ok value final =>
      rw [done] at raises
      cases raises
  | error error final =>
      rw [done] at raises
      cases raises
      rw [perform_atomic operation store error final done]

/-! ## The forest -/

/-- A row that is a root, or is right below a scope of the same root. -/
def Placed (store : HierarchicalStore) (scopeId : String) (row : ScopeRow) : Prop :=
  match row.parentScopeId with
  | none => row.rootId = scopeId ∧ row.depth = 0
  | some parent => ∃ upper, store.scopes.get? parent = some upper ∧ upper.rootId = row.rootId ∧
      row.depth = upper.depth + 1 ∧ row.depth ≤ maxDepth

/-- The parent of a scope. -/
def parentOf (store : HierarchicalStore) (scopeId : String) : Option String :=
  (store.scopes.get? scopeId).bind ScopeRow.parentScopeId

/-- **Stores whose scopes form a forest**, in which the other rows are about scopes that exist. -/
structure Formed (store : HierarchicalStore) : Prop where
  placed : ∀ scopeId row, store.scopes.get? scopeId = some row → store.Placed scopeId row
  limited : ∀ scopeId name limit, store.limits.get? (scopeId, name) = some limit →
    scopeId ∈ store.scopes.keys
  charged : ∀ scopeId name charge, store.counters.get? (scopeId, name) = some charge →
    scopeId ∈ store.scopes.keys
  held : ∀ reservationId row, store.reservations.get? reservationId = some row →
    (∃ scopeRow, store.scopes.get? row.scopeId = some scopeRow ∧ scopeRow.rootId = row.rootId) ∧
      ∃ amounts, Positive amounts ∧ row.amountsJson = encodeAmounts amounts

/-- The depth that is written in the row of a scope. -/
def depthOf (store : HierarchicalStore) (scopeId : String) : Nat :=
  ((store.scopes.get? scopeId).map ScopeRow.depth).getD 0

theorem parentRow_eq_some {opaqueRoot : String} {parent : Option String} :
    store.parentRow opaqueRoot scopeId = some parent ↔ ∃ row, store.scopes.get? scopeId = some row ∧
      row.rootId = opaqueRoot ∧ row.parentScopeId = parent := by
  rw [parentRow, Option.bind_eq_some_iff]
  apply exists_congr
  intro row
  by_cases same : row.rootId = opaqueRoot
  · simp [same]
  · simp [same]

theorem parentOf_of_parentRow {opaqueRoot : String} {parent : Option String}
    (at' : store.parentRow opaqueRoot scopeId = some parent) : store.parentOf scopeId = parent := by
  obtain ⟨row, found, _, rfl⟩ := parentRow_eq_some.mp at'
  rw [parentOf, found, Option.bind_some]

/-- A chain that is found is the line of the ancestors of its scope. -/
theorem lineage_of_chain {opaqueRoot : String} {path : List String}
    (climbed : store.chain opaqueRoot scopeId = .ok path) : Lineage store.parentOf scopeId path := by
  rw [chain, CapabilityHub.bind_eq_ok] at climbed
  obtain ⟨whole, climbed, checked⟩ := climbed
  obtain ⟨line, same, ancestors⟩ := Lineage.of_climb (fun _ _ => parentOf_of_parentRow) climbed
  rw [List.append_nil] at same
  obtain ⟨_, _, ended⟩ := CapabilityHub.bind_eq_ok.mp checked
  obtain rfl := CapabilityHub.pure_eq_ok.mp ended
  rw [same]
  exact ancestors

namespace Formed

variable (formed : Formed store)

include formed

theorem above {row : ScopeRow} {parent : String} (found : store.scopes.get? scopeId = some row)
    (below : row.parentScopeId = some parent) : ∃ upper, store.scopes.get? parent = some upper ∧
      upper.rootId = row.rootId ∧ row.depth = upper.depth + 1 ∧ row.depth ≤ maxDepth := by
  have placed := formed.placed scopeId row found
  rw [Placed, below] at placed
  exact placed

theorem top {row : ScopeRow} (found : store.scopes.get? scopeId = some row)
    (highest : row.parentScopeId = none) : row.rootId = scopeId ∧ row.depth = 0 := by
  have placed := formed.placed scopeId row found
  rw [Placed, highest] at placed
  exact placed

theorem depth_le {row : ScopeRow} (found : store.scopes.get? scopeId = some row) : row.depth ≤ maxDepth := by
  cases below : row.parentScopeId with
  | none =>
      rw [(formed.top found below).2]
      exact Nat.zero_le _
  | some parent =>
      obtain ⟨_, _, _, _, shallow⟩ := formed.above found below
      exact shallow

/-- The chain of a scope is found, and consists of the scope and its ancestors. -/
theorem exists_chain {row : ScopeRow} (found : store.scopes.get? scopeId = some row) :
    ∃ path, store.chain row.rootId scopeId = .ok path ∧
      ∀ node, node ∈ path ↔ Descends store.parentOf scopeId node := by
  have climbs : ∃ path, climb (store.parentRow row.rootId) corrupt unknownScope (maxDepth + 1) [] scopeId =
      .ok (path ++ []) ∧ AncestorPath (store.parentRow row.rootId) store.parentOf store.depthOf scopeId path := by
    apply climb_eq_ok (fun _ _ => parentOf_of_parentRow)
    · intro node atTop
      obtain ⟨upper, found, _, highest⟩ := parentRow_eq_some.mp atTop
      rw [depthOf, found]
      exact (formed.top found highest).2
    · intro node parent atNode
      obtain ⟨lower, found, same, below⟩ := parentRow_eq_some.mp atNode
      obtain ⟨upper, foundUpper, rooted, deep, _⟩ := formed.above found below
      refine ⟨⟨upper.parentScopeId, parentRow_eq_some.mpr ⟨upper, foundUpper, rooted.trans same, rfl⟩⟩, ?_⟩
      rw [depthOf, depthOf, found, foundUpper]
      exact deep
    · exact ⟨row.parentScopeId, parentRow_eq_some.mpr ⟨row, found, rfl, rfl⟩⟩
    · rw [depthOf, found]
      exact Nat.lt_succ_of_le (formed.depth_le found)
    · intro node none
      cases none
  obtain ⟨path, climbed, ancestors⟩ := climbs
  refine ⟨path, ?_, ancestors.mem_iff⟩
  obtain ⟨root, first, atTop⟩ := ancestors.top
  obtain ⟨upper, foundRoot, same, highest⟩ := parentRow_eq_some.mp atTop
  have named : root = row.rootId := (formed.top foundRoot highest).1.symm.trans same
  rw [List.append_nil] at climbed
  rw [chain, climbed, CapabilityHub.ok_bind, raiseIf, if_neg (by simp [first, named])]
  rfl

end Formed

/-- Only the chain of a scope of the root is found. -/
theorem known_of_chain {opaqueRoot : String} {path : List String}
    (climbed : store.chain opaqueRoot scopeId = .ok path) :
    ∃ row, store.scopes.get? scopeId = some row ∧ row.rootId = opaqueRoot := by
  rw [chain, CapabilityHub.bind_eq_ok] at climbed
  obtain ⟨whole, climbed, _⟩ := climbed
  rw [climb, if_neg List.not_mem_nil] at climbed
  cases at' : store.parentRow opaqueRoot scopeId with
  | none =>
      rw [at'] at climbed
      cases climbed
  | some parent =>
      obtain ⟨row, found, same, _⟩ := parentRow_eq_some.mp at'
      exact ⟨row, found, same⟩

theorem Formed.mem_chain (formed : Formed store) {opaqueRoot node : String} {path : List String}
    (climbed : store.chain opaqueRoot scopeId = .ok path) :
    node ∈ path ↔ Descends store.parentOf scopeId node := by
  obtain ⟨row, found, rfl⟩ := known_of_chain climbed
  obtain ⟨other, climbed', ancestors⟩ := formed.exists_chain found
  rw [climbed] at climbed'
  rw [Except.ok.inj climbed', ancestors]

/-- The ancestors of a scope that exists do. -/
theorem Formed.mem_of_descends (formed : Formed store) {leaf above : String}
    (descends : Descends store.parentOf leaf above) (known : leaf ∈ store.scopes.keys) :
    above ∈ store.scopes.keys := by
  induction descends with
  | refl => exact known
  | tail _ up ih =>
      obtain ⟨row, found, below⟩ := Option.bind_eq_some_iff.mp up
      obtain ⟨upper, foundUpper, _⟩ := formed.above found below
      exact Dict.mem_keys_of_get? foundUpper

/-! ## What a transaction that returns has done -/

/-- The database after an operation that returns. -/
inductive Effect (integer : SqlInteger) (store : HierarchicalStore) : Operation → HierarchicalStore → Prop
  /-- The scope was there. -/
  | kept {operation : Operation} (creates : operation.Creates) : Effect integer store operation store
  | inserted {operation : Operation} {roots : List String} {scopeId : String} {row : ScopeRow}
      {limits : Amounts} (creates : operation.Creates) (fresh : store.scopes.get? scopeId = none)
      (placed : store.Placed scopeId row) (few : limits.size ≤ maxCounters)
      (allocated : ∀ parent, row.parentScopeId = some parent →
        store.checkParentAllocation integer parent limits none = .ok ()) :
      Effect integer store operation (store.inserting roots scopeId row limits)
  | configured {scope : HierarchicalBudgetScope} {raw rawExpected : RawAmounts}
      {changes expected current : Amounts} (valid : checkedLimits raw = .ok changes)
      (expects : checkedLimits rawExpected = .ok expected)
      (known : store.scopes.get? scope.scopeId = some ⟨scope.opaqueRoot, scope.parentScopeId, scope.depth⟩)
      (read : store.readLimits scope.scopeId = .ok current) (same : current.Same expected)
      (few : (current.merge changes).size ≤ maxCounters)
      (room : ∀ name limit, changes.get? name = some limit →
        store.checkChange integer scope.scopeId (name, limit) = .ok ())
      (allocated : ∀ parent, scope.parentScopeId = some parent →
        store.checkParentAllocation integer parent (current.merge changes) (some scope.scopeId) = .ok ()) :
      Effect integer store (.configure scope raw rawExpected) (store.limiting scope.scopeId changes)
  | reserved {scope : HierarchicalBudgetScope} {raw : RawAmounts} {reservationId : String}
      {requested : Amounts} {path : List String} (valid : checkedAmounts raw "amounts" = .ok requested)
      (climbed : store.chain scope.opaqueRoot scope.scopeId = .ok path)
      (bounded : store.ensureCounterBounds path requested = .ok ())
      (capable : store.checkCapacity path ∅ requested = .ok ())
      (fresh : reservationId ∉ store.reservations.keys) :
      Effect integer store (.reserve scope raw reservationId) (store.holding integer reservationId
        ⟨scope.opaqueRoot, scope.scopeId, encodeAmounts requested, .active⟩ path requested)
  | finished {scope : HierarchicalBudgetScope} {reservationId : String} {actual : Option RawAmounts}
      {charged : Option Amounts} {row : ReservationRow} {reserved : Amounts} {path : List String}
      (valid : checkedActual actual = .ok charged) (found : store.activeRow scope reservationId = .ok row)
      (decoded : decodeStored row.amountsJson = .ok reserved)
      (climbed : store.chain scope.opaqueRoot scope.scopeId = .ok path)
      (bounded : store.ensureCounterBounds path (charged.getD ∅) = .ok ())
      (capable : store.checkCapacity path reserved (charged.getD ∅) = .ok ())
      (admitted : ∀ scopeId ∈ path, ∀ name ∈ unionKeys reserved (charged.getD ∅),
        FinishAdmits integer reserved (charged.getD ∅) name (store.counters.get? (scopeId, name))) :
      Effect integer store (.finish scope reservationId actual) (store.settling reservationId
        { row with status := finishedStatus charged } path reserved (charged.getD ∅))

theorem effect_of_configure {scope : HierarchicalBudgetScope} {raw rawExpected : RawAmounts}
    (done : configure integer scope raw rawExpected store = .ok () final) :
    Effect integer store (.configure scope raw rawExpected) final := by
  obtain ⟨changes, expected, current, valid, expects, known, read, same, few, room, allocated, _, rfl⟩ :=
    configure_eq_ok done
  exact .configured valid expects known read same few room allocated

theorem effect_of_reserve {scope : HierarchicalBudgetScope} {raw : RawAmounts} {reservationId : String}
    (done : reserve integer scope raw reservationId store = .ok () final) :
    Effect integer store (.reserve scope raw reservationId) final := by
  obtain ⟨requested, path, valid, climbed, bounded, capable, fresh, _, rfl⟩ := reserve_eq_ok.mp done
  exact .reserved valid climbed bounded capable fresh

theorem effect_of_finish {scope : HierarchicalBudgetScope} {reservationId : String} {actual : Option RawAmounts}
    (done : finishReservation integer scope reservationId actual store = .ok () final) :
    Effect integer store (.finish scope reservationId actual) final := by
  obtain ⟨charged, row, reserved, path, valid, found, decoded, climbed, bounded, capable, admitted, rfl⟩ :=
    finishReservation_eq_ok.mp done
  exact .finished valid found decoded climbed bounded capable admitted

/-- **What an operation that returns has done.** -/
theorem effect_of_perform (done : perform integer hmac operation store = .ok () final) :
    Effect integer store operation final := by
  cases operation with
  | root name raw =>
      obtain ⟨scope, middle, found, ended⟩ := Transaction.bind_eq_ok.mp done
      obtain ⟨_, rfl⟩ := Transaction.pure_eq_ok.mp ended
      obtain ⟨limits, valid, _, ⟨_, rfl⟩ | ⟨fresh, _, rfl⟩⟩ := root_eq_ok found
      · exact .kept trivial
      · refine .inserted trivial fresh ⟨rfl, rfl⟩ (checkedLimits_eq_ok.mp valid).2.2 fun parent below => ?_
        cases below
  | createChild parent name raw =>
      obtain ⟨scope, middle, found, ended⟩ := Transaction.bind_eq_ok.mp done
      obtain ⟨_, rfl⟩ := Transaction.pure_eq_ok.mp ended
      obtain ⟨limits, depth, valid, known, shallow, _, ⟨_, rfl⟩ | ⟨fresh, _, allocated, rfl⟩⟩ :=
        createChild_eq_ok found
      · exact .kept trivial
      · refine .inserted trivial fresh ⟨_, known, rfl, rfl, shallow⟩ (checkedLimits_eq_ok.mp valid).2.2
          fun above below => ?_
        obtain rfl := Option.some.inj below
        exact allocated
  | configure scope raw rawExpected => exact effect_of_configure done
  | reserve scope raw reservationId => exact effect_of_reserve done
  | finish scope reservationId actual => exact effect_of_finish done

/-- An operation has an effect, or raises and has none. -/
theorem effect_or_eq (integer : SqlInteger) (hmac : Bytes → String) (store : HierarchicalStore)
    (operation : Operation) : Effect integer store operation (stateAfter (perform integer hmac operation) store) ∨
    stateAfter (perform integer hmac operation) store = store := by
  rw [stateAfter]
  cases done : perform integer hmac operation store with
  | ok value final => exact .inl (effect_of_perform done)
  | error error final => exact .inr (perform_atomic operation store error final done)

/-- The store after a run of transactions, each of which returns or raises. -/
def runFrom (integer : SqlInteger) (hmac : Bytes → String) (store : HierarchicalStore)
    (operations : List Operation) : HierarchicalStore :=
  operations.foldl (fun store operation => stateAfter (perform integer hmac operation) store) store

/-! ## The forest is kept -/

theorem Placed.mono {row : ScopeRow} (placed : store.Placed scopeId row)
    (kept : ∀ other row, store.scopes.get? other = some row → final.scopes.get? other = some row) :
    final.Placed scopeId row := by
  rw [Placed] at placed ⊢
  cases below : row.parentScopeId with
  | none =>
      rw [below] at placed
      exact placed
  | some parent =>
      rw [below] at placed
      obtain ⟨upper, found, above⟩ := placed
      exact ⟨upper, kept parent upper found, above⟩

theorem formed_empty : Formed empty where
  placed _ _ found := by cases found
  limited _ _ _ found := by cases found
  charged _ _ _ found := by cases found
  held _ _ found := by cases found

section Writes

variable {limits amounts reserved charged : Amounts} {path : List String} {reservationId : String}

/-- Where a new scope is entered, the others stay. -/
theorem scopes_inserting {roots : List String} {row found : ScopeRow} {other : String}
    (fresh : store.scopes.get? scopeId = none) (known : store.scopes.get? other = some found) :
    (store.inserting roots scopeId row limits).scopes.get? other = some found := by
  change (store.scopes.set scopeId row).get? other = some found
  rw [Dict.get?_set_of_ne, known]
  rintro rfl
  rw [fresh] at known
  cases known

/-- Above a scope that was there, the parents are those there were. -/
theorem Formed.parentOf_inserting {roots : List String} {row found : ScopeRow} {leaf above : String}
    (formed : Formed store) (fresh : store.scopes.get? scopeId = none)
    (descends : Descends store.parentOf leaf above) (known : store.scopes.get? leaf = some found) :
    (store.inserting roots scopeId row limits).parentOf above = store.parentOf above := by
  have inside := formed.mem_of_descends descends (Dict.mem_keys_of_get? known)
  obtain ⟨aboveRow, foundRow⟩ := Dict.get?_isSome_iff.mpr inside
  rw [parentOf, parentOf, scopes_inserting fresh foundRow, foundRow]

theorem mem_keys_inserting {roots : List String} {row : ScopeRow} {other : String} :
    other ∈ (store.inserting roots scopeId row limits).scopes.keys ↔
      other = scopeId ∨ other ∈ store.scopes.keys :=
  Dict.mem_keys_set

theorem Formed.limits_of_unknown (formed : Formed store) (unknown : store.scopes.get? scopeId = none) :
    store.limits.get? (scopeId, name) = none := by
  cases found : store.limits.get? (scopeId, name) with
  | none => rfl
  | some limit => exact absurd (formed.limited scopeId name limit found) (Dict.get?_eq_none_iff.mp unknown)

theorem Formed.counter_of_unknown (formed : Formed store) (unknown : store.scopes.get? scopeId = none) :
    store.counters.get? (scopeId, name) = none := by
  cases found : store.counters.get? (scopeId, name) with
  | none => rfl
  | some charge => exact absurd (formed.charged scopeId name charge found) (Dict.get?_eq_none_iff.mp unknown)

theorem Formed.inserting {roots : List String} {row : ScopeRow} (formed : Formed store)
    (fresh : store.scopes.get? scopeId = none) (placed : store.Placed scopeId row) :
    Formed (store.inserting roots scopeId row limits) where
  placed other found at' := by
    apply Placed.mono _ fun _ _ known => scopes_inserting fresh known
    change (store.scopes.set scopeId row).get? other = some found at at'
    rw [Dict.get?_set] at at'
    split at at'
    next same =>
      obtain rfl := Option.some.inj at'
      rw [same]
      exact placed
    next => exact formed.placed other found at'
  limited other name limit found := by
    rw [mem_keys_inserting]
    rw [HierarchicalStore.inserting, get?_limiting] at found
    split at found
    next same => exact .inl same
    next => exact .inr (formed.limited other name limit found)
  charged other name charge found := mem_keys_inserting.mpr (.inr (formed.charged other name charge found))
  held reservationId row found := by
    obtain ⟨⟨scopeRow, known, same⟩, amounts⟩ := formed.held reservationId row found
    exact ⟨⟨scopeRow, scopes_inserting fresh known, same⟩, amounts⟩

theorem Formed.limiting (formed : Formed store) (known : scopeId ∈ store.scopes.keys) :
    Formed (store.limiting scopeId limits) where
  placed := formed.placed
  limited other name limit found := by
    rw [get?_limiting] at found
    split at found
    next same => exact same ▸ known
    next => exact formed.limited other name limit found
  charged := formed.charged
  held := formed.held

theorem Formed.mem_scopes_of_chain (formed : Formed store) {opaqueRoot : String}
    (climbed : store.chain opaqueRoot scopeId = .ok path) : ∀ node ∈ path, node ∈ store.scopes.keys := by
  intro node member
  obtain ⟨row, found, _⟩ := known_of_chain climbed
  exact formed.mem_of_descends ((formed.mem_chain climbed).mp member) (Dict.mem_keys_of_get? found)

/-- The forest and its reservations where one reservation is written and counters along a chain are. -/
theorem Formed.writing (formed : Formed store) {opaqueRoot : String} {row : ReservationRow}
    {names : List String} {f : String → Option Charge → Charge} (counters : names.Nodup)
    (climbed : store.chain opaqueRoot scopeId = .ok path)
    (known : ∃ scopeRow, store.scopes.get? row.scopeId = some scopeRow ∧ scopeRow.rootId = row.rootId)
    (stored : ∃ amounts, Positive amounts ∧ row.amountsJson = encodeAmounts amounts) :
    Formed ({ store with reservations := store.reservations.set reservationId row }.rewrite path names f) where
  placed := formed.placed
  limited := formed.limited
  charged other name charge found := by
    rw [get?_rewrite (chain_nodup climbed) counters] at found
    split at found
    next inside => exact formed.mem_scopes_of_chain climbed other inside.1
    next => exact formed.charged other name charge found
  held other found at' := by
    change (store.reservations.set reservationId row).get? other = some found at at'
    rw [Dict.get?_set] at at'
    split at at'
    next =>
      obtain rfl := Option.some.inj at'
      exact ⟨known, stored⟩
    next => exact formed.held other found at'

end Writes

/-- Every operation that returns leaves a forest. -/
theorem Formed.effect (formed : Formed store) (effect : Effect integer store operation final) : Formed final := by
  cases effect with
  | kept => exact formed
  | inserted creates fresh placed few allocated => exact formed.inserting fresh placed
  | configured valid expects known => exact formed.limiting (Dict.mem_keys_of_get? known)
  | reserved valid climbed =>
      obtain ⟨row, found, same⟩ := known_of_chain climbed
      exact formed.writing (Dict.keys_nodup _) climbed ⟨row, found, same⟩
        ⟨_, positive_of_validateAmounts (checkedAmounts_eq_ok.mp valid).1, rfl⟩
  | finished valid found decoded climbed =>
      obtain ⟨at', _, _, _⟩ := activeRow_eq_ok.mp found
      obtain ⟨known, stored⟩ := formed.held _ _ at'
      exact formed.writing (unionKeys_nodup _ _) climbed known stored

theorem formed_stateAfter (formed : Formed store) (operation : Operation) :
    Formed (stateAfter (perform integer hmac operation) store) := by
  rcases effect_or_eq integer hmac store operation with effect | same
  · exact formed.effect effect
  · rw [same]
    exact formed

theorem formed_runFrom (operations : List Operation) (formed : Formed store) :
    Formed (runFrom integer hmac store operations) := by
  induction operations generalizing store with
  | nil => exact formed
  | cons operation rest ih => exact ih (formed_stateAfter formed operation)

end HierarchicalStore

end CapabilityHub.Budget
