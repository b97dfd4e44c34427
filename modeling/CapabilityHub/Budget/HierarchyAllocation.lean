import CapabilityHub.Budget.HierarchyConservation

/-! # Limits of children

In every state that is reached the limits of the children of a scope add up to no more than
its own (`allocated_of_runFrom`), whoever was limited first. A change of limits names the
limits that it expects, and one of two that expect the same limits finds others as soon as
the first has changed them (`unchanged_of_both`).
-/

namespace CapabilityHub.Budget

open HierarchicalStore Transaction

namespace HierarchicalStore

variable {integer : SqlInteger} {hmac : Bytes → String} {store final : HierarchicalStore}
  {hmac : Bytes → String} {operation : Operation} {scopeId parent name : String} {limits changes : Amounts}

/-- **The limits of children are within that of their parent.** -/
def Allocated (store : HierarchicalStore) : Prop :=
  ∀ parent name limit, store.limits.get? (parent, name) = some limit → store.childTotal parent name none ≤ limit

/-- What a scope has of the limit of a parent. -/
def share (store : HierarchicalStore) (parent name scopeId : String) (row : ScopeRow) : Nat :=
  if row.parentScopeId = some parent then (store.limits.get? (scopeId, name)).getD 0 else 0

/-- The children of a scope, one of them apart. -/
theorem childTotal_split {row : ScopeRow} (found : store.scopes.get? scopeId = some row) :
    store.childTotal parent name none =
      store.childTotal parent name (some scopeId) + store.share parent name scopeId row := by
  rw [childTotal, childTotal, Dict.total_split _ found, share]
  congr 1
  · apply Dict.total_congr
    intro other row' _
    by_cases here : other = scopeId
    · rw [if_pos here, if_neg fun both => both.2 (congrArg some here.symm)]
    · simp [here, Ne.symm here]
  · simp

/-- Children whose limits are the same have the same total. -/
theorem childTotal_congr {excluding : Option String} (scopes : final.scopes = store.scopes)
    (same : ∀ scopeId row, store.scopes.get? scopeId = some row → row.parentScopeId = some parent →
      excluding ≠ some scopeId → final.limits.get? (scopeId, name) = store.limits.get? (scopeId, name)) :
    final.childTotal parent name excluding = store.childTotal parent name excluding := by
  rw [childTotal, childTotal, scopes]
  apply Dict.total_congr
  intro scopeId row found
  by_cases child : row.parentScopeId = some parent ∧ excluding ≠ some scopeId
  · rw [if_pos child, if_pos child, same scopeId row found child.1 child.2]
  · rw [if_neg child, if_neg child]

namespace Formed

variable (formed : Formed store)

include formed

theorem ne_parent {row : ScopeRow} (found : store.scopes.get? scopeId = some row) :
    row.parentScopeId ≠ some scopeId := by
  intro below
  obtain ⟨upper, found', _, deep, _⟩ := formed.above found below
  rw [found] at found'
  obtain rfl := Option.some.inj found'
  omega

/-- A new scope takes its share of its parent, and has no children. -/
theorem childTotal_inserting {roots : List String} {row : ScopeRow}
    (fresh : store.scopes.get? scopeId = none) :
    (store.inserting roots scopeId row limits).childTotal parent name none =
      store.childTotal parent name none + if row.parentScopeId = some parent then limits.getD name 0 else 0 := by
  have added : (store.inserting roots scopeId row limits).childTotal parent name none =
      store.scopes.total (fun other found => if found.parentScopeId = some parent ∧ none ≠ some other then
        ((store.inserting roots scopeId row limits).limits.get? (other, name)).getD 0 else 0) +
      if row.parentScopeId = some parent ∧ none ≠ some scopeId then
        ((store.inserting roots scopeId row limits).limits.get? (scopeId, name)).getD 0 else 0 :=
    Dict.total_set_of_none _ _ fresh
  rw [added, childTotal]
  congr 1
  · apply Dict.total_congr
    intro other found known
    have different : other ≠ scopeId := by
      rintro rfl
      rw [fresh] at known
      cases known
    have same : (store.inserting roots scopeId row limits).limits.get? (other, name) =
        store.limits.get? (other, name) := by
      rw [HierarchicalStore.inserting, get?_limiting, if_neg different]
    rw [same]
  · have own : (store.inserting roots scopeId row limits).limits.get? (scopeId, name) = limits.get? name := by
      rw [HierarchicalStore.inserting, get?_limiting, if_pos rfl]
      change (limits.get? name).or (store.limits.get? (scopeId, name)) = limits.get? name
      rw [formed.limits_of_unknown fresh, Option.or_none]
    simp only [own, ne_eq, reduceCtorEq, not_false_eq_true, and_true]
    rfl

theorem allocated_inserting {roots : List String} {row : ScopeRow} (allocated : Allocated store)
    (fresh : store.scopes.get? scopeId = none) (placed : store.Placed scopeId row)
    (admitted : ∀ parent, row.parentScopeId = some parent →
      store.checkParentAllocation integer parent limits none = .ok ()) :
    Allocated (store.inserting roots scopeId row limits) := by
  intro parent name limit limited
  rw [formed.childTotal_inserting fresh]
  rw [HierarchicalStore.inserting, get?_limiting] at limited
  split at limited
  next same =>
    have childless (other : String) (found : ScopeRow) (known : store.scopes.get? other = some found) :
        found.parentScopeId ≠ some scopeId := by
      intro below
      obtain ⟨upper, known', _⟩ := formed.above known below
      rw [fresh] at known'
      cases known'
    have own : row.parentScopeId ≠ some scopeId := by
      intro below
      rw [Placed, below] at placed
      obtain ⟨upper, known, _⟩ := placed
      rw [fresh] at known
      cases known
    rw [same, if_neg own, childTotal, Dict.total_eq_zero]
    · exact Nat.zero_le _
    · intro other found known
      rw [if_neg fun both => childless other found known both.1]
  next different =>
    change store.limits.get? (parent, name) = some limit at limited
    have before := allocated parent name limit limited
    by_cases below : row.parentScopeId = some parent
    · rw [if_pos below]
      cases asked : limits.get? name with
      | none =>
          rw [Dict.getD, asked]
          exact before
      | some requested =>
          rw [Dict.getD, asked]
          exact ((checkParentAllocation_eq_ok.mp (admitted parent below)).2 name requested limit asked limited).2
    · rw [if_neg below]
      exact before

theorem allocated_limiting {scope : HierarchicalBudgetScope} {current : Amounts} (allocated : Allocated store)
    (known : store.scopes.get? scope.scopeId = some ⟨scope.opaqueRoot, scope.parentScopeId, scope.depth⟩)
    (read : store.readLimits scope.scopeId = .ok current)
    (room : ∀ name limit, changes.get? name = some limit →
      store.checkChange integer scope.scopeId (name, limit) = .ok ())
    (admitted : ∀ parent, scope.parentScopeId = some parent →
      store.checkParentAllocation integer parent (current.merge changes) (some scope.scopeId) = .ok ()) :
    Allocated (store.limiting scope.scopeId changes) := by
  intro parent name limit limited
  have others : (store.limiting scope.scopeId changes).childTotal parent name (some scope.scopeId) =
      store.childTotal parent name (some scope.scopeId) := by
    refine childTotal_congr (show (store.limiting scope.scopeId changes).scopes = store.scopes from rfl) ?_
    intro other _ _ _ different
    rw [get?_limiting, if_neg fun here => different (congrArg some here.symm)]
  have after : (store.limiting scope.scopeId changes).childTotal parent name none =
      store.childTotal parent name (some scope.scopeId) + (store.limiting scope.scopeId changes).share parent name
        scope.scopeId ⟨scope.opaqueRoot, scope.parentScopeId, scope.depth⟩ := by
    rw [← others]
    exact childTotal_split known
  have before : store.childTotal parent name none = store.childTotal parent name (some scope.scopeId) +
      store.share parent name scope.scopeId ⟨scope.opaqueRoot, scope.parentScopeId, scope.depth⟩ :=
    childTotal_split known
  rw [after, share]
  dsimp only
  rw [get?_limiting] at limited ⊢
  by_cases here : parent = scope.scopeId
  · -- The scope itself: it is no child of its own.
    have apart : scope.parentScopeId ≠ some parent := by
      rw [here]
      exact formed.ne_parent known
    rw [if_neg apart, Nat.add_zero]
    rw [share, if_neg apart, Nat.add_zero] at before
    rw [← before]
    rw [if_pos here] at limited
    rcases Option.or_eq_some_iff.mp limited with changed | ⟨_, unchanged⟩
    · rw [here]
      exact (checkChange_eq_ok.mp (room name limit changed)).2.2
    · exact allocated parent name limit unchanged
  · rw [if_neg here] at limited
    by_cases below : scope.parentScopeId = some parent
    · rw [if_pos below, if_pos rfl, ← get?_readLimits read, ← Dict.get?_merge]
      cases asked : (current.merge changes).get? name with
      | none =>
          rw [Option.getD_none, Nat.add_zero]
          exact (before ▸ Nat.le_add_right _ _ : _ ≤ _).trans (allocated parent name limit limited)
      | some requested =>
          exact ((checkParentAllocation_eq_ok.mp (admitted parent below)).2 name requested limit asked limited).2
    · rw [if_neg below, Nat.add_zero]
      exact (before ▸ Nat.le_add_right _ _ : _ ≤ _).trans (allocated parent name limit limited)

end Formed

theorem Allocated.effect (allocated : Allocated store) (formed : Formed store)
    (effect : Effect integer store operation final) : Allocated final := by
  cases effect with
  | kept => exact allocated
  | inserted creates fresh placed few admitted => exact formed.allocated_inserting allocated fresh placed admitted
  | configured valid expects known read same few room admitted =>
      exact formed.allocated_limiting allocated known read room admitted
  | reserved => exact allocated
  | finished => exact allocated

theorem allocated_stateAfter (allocated : Allocated store) (formed : Formed store) :
    Allocated (stateAfter (perform integer hmac operation) store) := by
  rcases effect_or_eq integer hmac store operation with effect | same
  · exact allocated.effect formed effect
  · rw [same]
    exact allocated

theorem allocated_runFrom (operations : List Operation) (allocated : Allocated store) (formed : Formed store) :
    Allocated (runFrom integer hmac store operations) := by
  induction operations generalizing store with
  | nil => exact allocated
  | cons operation rest ih =>
      exact ih (allocated_stateAfter allocated formed) (formed_stateAfter formed operation)

/-! ## Changes of limits -/

/-- The limits of a scope that is there change where it is configured. -/
theorem limits_of_effect (known : scopeId ∈ store.scopes.keys)
    (other : ¬operation.Configures scopeId) (effect : Effect integer store operation final) :
    scopeId ∈ final.scopes.keys ∧ ∀ name, final.limits.get? (scopeId, name) = store.limits.get? (scopeId, name) := by
  cases effect with
  | kept => exact ⟨known, fun _ => rfl⟩
  | inserted creates fresh =>
      refine ⟨mem_keys_inserting.mpr (.inr known), fun name => ?_⟩
      rw [inserting, get?_limiting, if_neg]
      rintro rfl
      exact Dict.get?_eq_none_iff.mp fresh known
  | configured =>
      refine ⟨known, fun name => ?_⟩
      rw [get?_limiting, if_neg fun here => other here.symm]
  | reserved => exact ⟨known, fun _ => rfl⟩
  | finished => exact ⟨known, fun _ => rfl⟩

theorem limits_runFrom (operations : List Operation) (formed : Formed store) (known : scopeId ∈ store.scopes.keys)
    (others : ∀ operation ∈ operations, ¬operation.Configures scopeId) :
    (runFrom integer hmac store operations).limits.get? (scopeId, name) = store.limits.get? (scopeId, name) := by
  induction operations generalizing store with
  | nil => rfl
  | cons operation rest ih =>
      obtain ⟨first, rest'⟩ := List.forall_mem_cons.mp others
      have kept : scopeId ∈ (stateAfter (perform integer hmac operation) store).scopes.keys ∧
          ∀ name, (stateAfter (perform integer hmac operation) store).limits.get? (scopeId, name) =
            store.limits.get? (scopeId, name) := by
        rcases effect_or_eq integer hmac store operation with effect | same
        · exact limits_of_effect known first effect
        · rw [same]
          exact ⟨known, fun _ => rfl⟩
      exact (ih (formed_stateAfter formed operation) kept.1 rest').trans (kept.2 name)

/-- A change of limits finds the limits that it expects. -/
theorem limits_of_configure {scope : HierarchicalBudgetScope} {raw rawExpected : RawAmounts}
    {expected : Amounts} (valid : checkedLimits rawExpected = .ok expected)
    (done : configure integer scope raw rawExpected store = .ok () final) :
    store.limits.get? (scope.scopeId, name) = expected.get? name := by
  obtain ⟨_, _, current, _, expects, _, read, same, _⟩ := configure_eq_ok done
  rw [valid] at expects
  obtain rfl := Except.ok.inj expects
  rw [← Dict.same_iff.mp same, get?_readLimits read]

/-- Of two changes that expect the same limits, the first has changed nothing where both succeed. -/
theorem unchanged_of_both (formed : Formed store) {scope scope' : HierarchicalBudgetScope}
    {raw raw' expected : RawAmounts} {between : List Operation} (same : scope'.scopeId = scope.scopeId)
    (first : configure integer scope raw expected store = .ok () final)
    (others : ∀ operation ∈ between, ¬operation.Configures scope.scopeId) {last : HierarchicalStore}
    (second : configure integer scope' raw' expected (runFrom integer hmac final between) = .ok () last) :
    final.limits.get? (scope.scopeId, name) = store.limits.get? (scope.scopeId, name) := by
  obtain ⟨changes, expects, _, _, valid, known, _, _, _, _, _, _, after⟩ := configure_eq_ok first
  have kept : scope.scopeId ∈ final.scopes.keys := by
    rw [← after]
    exact Dict.mem_keys_of_get? known
  have found : _ = expects.get? name := limits_of_configure valid second
  rw [same, limits_runFrom between (formed.effect (effect_of_configure first)) kept others] at found
  rw [found, limits_of_configure valid first]

end HierarchicalStore

/-- **What the limits of a tree keep to**, where clients change them. -/
structure Suballocated (integer : SqlInteger) (hmac : Bytes → String) (store : HierarchicalStore) : Prop where
  allocated : Allocated store
  /-- Of two changes of one scope that expect the same limits, with others but no change of this scope in
  between, both succeed only where the first leaves the limits as they were. -/
  raced : ∀ scope scope' raw raw' expected first between last, scope'.scopeId = scope.scopeId →
    configure integer scope raw expected store = .ok () first →
    (∀ operation ∈ between, ¬operation.Configures scope.scopeId) →
    configure integer scope' raw' expected (runFrom integer hmac first between) = .ok () last →
    ∀ name, first.limits.get? (scope.scopeId, name) = store.limits.get? (scope.scopeId, name)

/-- **Sub-allocation**: in every state that is reached. -/
theorem suballocated (integer : SqlInteger) (hmac : Bytes → String) (operations : List Operation) :
    Suballocated integer hmac (runFrom integer hmac .empty operations) := by
  have formed : Formed (runFrom integer hmac .empty operations) := formed_runFrom operations formed_empty
  refine ⟨allocated_runFrom operations (fun _ _ _ found => by cases found) formed_empty, ?_⟩
  intro scope scope' raw raw' expected first between last same done others done' name
  exact unchanged_of_both formed same done others done'

/-! ## Two changes that succeed -/

/-- Both changes expect a limit of five; one leaves it, and the other makes it six. -/
theorem both_configured :
    outcome (perform .unbounded constantDigest (.configure tenant [(.str "c", .int 5)] [(.str "c", .int 5)]))
        rooted.store = .ok () ∧
      outcome (perform .unbounded constantDigest (.configure tenant [(.str "c", .int 6)] [(.str "c", .int 5)]))
        (runFrom .unbounded constantDigest rooted.store
          [.configure tenant [(.str "c", .int 5)] [(.str "c", .int 5)]]) = .ok () ∧
      (runFrom .unbounded constantDigest rooted.store
        [.configure tenant [(.str "c", .int 5)] [(.str "c", .int 5)]]).limits.get? ("r", "c") = some 5 ∧
      (runFrom .unbounded constantDigest rooted.store
        [.configure tenant [(.str "c", .int 5)] [(.str "c", .int 5)],
          .configure tenant [(.str "c", .int 6)] [(.str "c", .int 5)]]).limits.get? ("r", "c") = some 6 := by
  decide +kernel

end CapabilityHub.Budget
