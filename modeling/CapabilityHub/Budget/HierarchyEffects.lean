import CapabilityHub.Budget.Hierarchy

/-! # What the transactions of the tree do

For each transaction of `SQLiteHierarchicalBudgetStore` when it succeeds and what it then
has written (`root_eq_ok`, `createChild_eq_ok`, `configure_eq_ok`, `reserve_eq_ok`,
`finishReservation_eq_ok`). Everything later is derived from these.
-/

namespace CapabilityHub.Budget.HierarchicalStore

open Transaction

variable {integer : SqlInteger} {hmac : Bytes → String} {store final : HierarchicalStore}
  {scopeId name reservationId : String} {amounts limits reserved charged : Amounts}

/-! ## Loops -/

/-- The rows of some counters at some scopes. -/
def rowKeys (chain names : List String) : List (String × String) :=
  chain.flatMap fun scopeId => names.map fun name => (scopeId, name)

theorem mem_rowKeys {chain names : List String} {key : String × String} :
    key ∈ rowKeys chain names ↔ key.1 ∈ chain ∧ key.2 ∈ names := by
  obtain ⟨scopeId, name⟩ := key
  simp [rowKeys]

theorem rowKeys_nodup {chain names : List String} (scopes : chain.Nodup) (counters : names.Nodup) :
    (rowKeys chain names).Nodup := by
  apply List.nodup_flatMap.mpr
  refine ⟨fun scopeId _ => counters.map fun _ _ same => congrArg Prod.snd same, ?_⟩
  apply scopes.imp
  intro first second different key left right
  obtain ⟨_, _, rfl⟩ := List.mem_map.mp left
  obtain ⟨_, _, same⟩ := List.mem_map.mp right
  exact different (congrArg Prod.fst same).symm

/-- The rows of some counters at some scopes rewritten. -/
def rewrite (store : HierarchicalStore) (chain names : List String)
    (f : String → Option Charge → Charge) : HierarchicalStore :=
  { store with
    counters := store.counters.alterEach (fun key row => some (f key.2 row)) (rowKeys chain names) }

theorem get?_rewrite {chain names : List String} (scopes : chain.Nodup) (counters : names.Nodup)
    (f : String → Option Charge → Charge) (scopeId name : String) :
    (store.rewrite chain names f).counters.get? (scopeId, name) =
      if scopeId ∈ chain ∧ name ∈ names then some (f name (store.counters.get? (scopeId, name)))
      else store.counters.get? (scopeId, name) := by
  rw [rewrite, Dict.get?_alterEach _ (rowKeys_nodup scopes counters)]
  simp only [mem_rowKeys]

/-- A loop over scopes and counters, each turn of which rewrites its own row under a
condition on it. -/
theorem forM_counters {statement : String → String → Transaction HierarchicalStore BudgetError Unit}
    (admits : String → Option Charge → Prop) (f : String → Option Charge → Charge)
    (spec : ∀ scopeId name store final, statement scopeId name store = .ok () final ↔
      admits name (store.counters.get? (scopeId, name)) ∧
        { store with
          counters := store.counters.alter (fun row => some (f name row)) (scopeId, name) } =
          final)
    {chain names : List String} (scopes : chain.Nodup) (counters : names.Nodup) :
    (forM chain fun scopeId => forM names (statement scopeId)) store = .ok () final ↔
      (∀ scopeId ∈ chain, ∀ name ∈ names, admits name (store.counters.get? (scopeId, name))) ∧
        store.rewrite chain names f = final := by
  have flat : (forM chain fun scopeId => forM names (statement scopeId)) =
      forM (rowKeys chain names) fun key => statement key.1 key.2 := by
    rw [rowKeys, forM_flatMap]
    congr 1
    funext scopeId
    rw [List.forM_map]
  have stable : ∀ key other (store : HierarchicalStore), key ≠ other →
      (admits key.2 ((store.counters.alter (fun row => some (f other.2 row)) other).get?
        (key.1, key.2)) ↔ admits key.2 (store.counters.get? (key.1, key.2))) := by
    intro key other store different
    simp [different]
  have written : ∀ (keys : List (String × String)) (store : HierarchicalStore),
      keys.foldl (fun store key =>
        { store with
          counters := store.counters.alter (fun row => some (f key.2 row)) (key.1, key.2) }) store =
        { store with
          counters := store.counters.alterEach (fun key row => some (f key.2 row)) keys } := by
    intro keys
    induction keys with
    | nil => exact fun _ => rfl
    | cons key keys ih =>
        intro store
        rw [List.foldl_cons, ih]
        rfl
  rw [flat, Transaction.forM_eq_ok (fun key => spec key.1 key.2) stable
    (rowKeys_nodup scopes counters), written, rewrite]
  apply and_congr_left
  intro _
  constructor
  · exact fun admitted scopeId member name counter =>
      admitted (scopeId, name) (mem_rowKeys.mpr ⟨member, counter⟩)
  · exact fun admitted key member =>
      admitted key.1 (mem_rowKeys.mp member).1 key.2 (mem_rowKeys.mp member).2

theorem addCounter_eq_ok : addCounter integer amounts scopeId name store = .ok () final ↔
    integer.Fits (amounts.getD name 0) ∧
      { store with
        counters := store.counters.alter
          (fun row => some (addedRow integer (amounts.getD name 0) row)) (scopeId, name) } =
        final := by
  simp only [addCounter, Transaction.bind_eq_ok, exists_unit, query_eq_ok, SqlInteger.bind_eq_ok,
    write_eq_ok]
  constructor
  · rintro ⟨middle, ⟨fits, rfl⟩, written⟩
    exact ⟨fits, written⟩
  · rintro ⟨fits, written⟩
    exact ⟨store, ⟨fits, rfl⟩, written⟩

theorem replaceCounter_eq_ok :
    replaceCounter integer reserved charged scopeId name store = .ok () final ↔
      FinishAdmits integer reserved charged name (store.counters.get? (scopeId, name)) ∧
        { store with
          counters := store.counters.alter
            (fun row => some (finishedRow reserved charged name row)) (scopeId, name) } = final := by
  simp only [replaceCounter, Transaction.bind_eq_ok, exists_unit, query_eq_ok, raiseIf_eq_ok,
    SqlInteger.bind_eq_ok, write_eq_ok, Nat.not_lt, Except.ok.injEq]
  constructor
  · rintro ⟨held, middle, ⟨rfl, rfl⟩, middle, ⟨enough, rfl⟩, middle, ⟨used, rfl⟩, middle,
      ⟨remaining, rfl⟩, written⟩
    exact ⟨⟨enough, used, remaining⟩, written⟩
  · rintro ⟨⟨enough, used, remaining⟩, written⟩
    exact ⟨_, store, ⟨rfl, rfl⟩, store, ⟨enough, rfl⟩, store, ⟨used, rfl⟩, store,
      ⟨remaining, rfl⟩, written⟩

theorem addReserved_loop {chain : List String} (scopes : chain.Nodup) :
    forM chain (addReserved integer amounts) store = .ok () final ↔
      (∀ _scopeId ∈ chain, ∀ name ∈ amounts.keys, integer.Fits (amounts.getD name 0)) ∧
        store.rewrite chain amounts.keys
          (fun name => addedRow integer (amounts.getD name 0)) = final :=
  forM_counters (fun name _ => integer.Fits (amounts.getD name 0)) _
    (fun _ _ _ _ => addCounter_eq_ok) scopes amounts.keys_nodup

theorem replaceReserved_loop {chain : List String} (scopes : chain.Nodup) :
    forM chain (replaceReserved integer reserved charged) store = .ok () final ↔
      (∀ scopeId ∈ chain, ∀ name ∈ unionKeys reserved charged,
        FinishAdmits integer reserved charged name (store.counters.get? (scopeId, name))) ∧
        store.rewrite chain (unionKeys reserved charged) (finishedRow reserved charged) = final :=
  forM_counters (FinishAdmits integer reserved charged) _ (fun _ _ _ _ => replaceCounter_eq_ok)
    scopes (unionKeys_nodup reserved charged)

/-- The limits of a scope merged with new ones. -/
def limiting (store : HierarchicalStore) (scopeId : String) (limits : Amounts) :
    HierarchicalStore :=
  { store with
    limits := store.limits.alterEach (fun key _ => some (limits.getD key.2 0))
      (rowKeys [scopeId] limits.keys) }

theorem get?_limiting (scopeId other : String) (limits : Amounts) (name : String) :
    (store.limiting scopeId limits).limits.get? (other, name) =
      if other = scopeId then (limits.get? name).or (store.limits.get? (other, name))
      else store.limits.get? (other, name) := by
  rw [limiting, Dict.get?_alterEach _ (rowKeys_nodup (List.nodup_singleton _) limits.keys_nodup)]
  simp only [mem_rowKeys, List.mem_singleton]
  by_cases same : other = scopeId
  · by_cases member : name ∈ limits.keys
    · obtain ⟨limit, found⟩ := Dict.get?_isSome_iff.mpr member
      simp [same, member, Dict.getD, found]
    · simp [same, member, Dict.get?_eq_none_iff.mpr member]
  · simp [same]

theorem writeLimits_eq_ok : writeLimits integer scopeId limits store = .ok () final ↔
    (∀ name ∈ limits.keys, integer.Fits (limits.getD name 0)) ∧
      store.limiting scopeId limits = final := by
  have spec : ∀ name (store final : HierarchicalStore),
      writeLimit integer scopeId limits name store = .ok () final ↔
        integer.Fits (limits.getD name 0) ∧
          { store with limits := store.limits.set (scopeId, name) (limits.getD name 0) } =
            final := by
    intro name store final
    simp only [writeLimit, Transaction.bind_eq_ok, exists_unit, query_eq_ok,
      SqlInteger.bind_eq_ok, write_eq_ok]
    constructor
    · rintro ⟨middle, ⟨fits, rfl⟩, written⟩
      exact ⟨fits, written⟩
    · rintro ⟨fits, written⟩
      exact ⟨store, ⟨fits, rfl⟩, written⟩
  have written : ∀ (names : List String) (store : HierarchicalStore),
      names.foldl (fun store name =>
        { store with limits := store.limits.set (scopeId, name) (limits.getD name 0) }) store =
        { store with
          limits := store.limits.alterEach (fun key _ => some (limits.getD key.2 0))
            (rowKeys [scopeId] names) } := by
    intro names
    induction names with
    | nil => exact fun _ => rfl
    | cons name names ih =>
        intro store
        rw [List.foldl_cons, ih]
        rfl
  rw [writeLimits, Transaction.forM_eq_ok spec (fun _ _ _ _ => Iff.rfl) limits.keys_nodup, written,
    limiting]

/-! ## Queries -/

theorem chain_nodup {opaqueRoot leaf : String} {path : List String}
    (climbed : store.chain opaqueRoot leaf = .ok path) : path.Nodup := by
  simp only [chain, CapabilityHub.bind_eq_ok, exists_unit, raiseIf_eq_ok,
    CapabilityHub.pure_eq_ok] at climbed
  obtain ⟨path, climbed, _, rfl⟩ := climbed
  exact climb_nodup climbed List.nodup_nil

theorem validatedMetadata_eq_ok {scope : HierarchicalBudgetScope}
    {metadata : Option String × Nat} : store.validatedMetadata scope = .ok metadata ↔
      store.scopes.get? scope.scopeId = some ⟨scope.opaqueRoot, metadata.1, metadata.2⟩ := by
  rw [validatedMetadata]
  cases found : store.scopes.get? scope.scopeId with
  | none => simp
  | some row =>
      obtain ⟨rootId, parent, depth⟩ := row
      by_cases same : rootId = scope.opaqueRoot
      · simp [same, Prod.ext_iff]
      · simp [same]

theorem readLimits_eq_ok : store.readLimits scopeId = .ok limits ↔
    (store.limits.row scopeId).size ≤ maxCounters ∧
      ((store.limits.row scopeId).sorted fun first second => first ≤ second) = limits := by
  rw [readLimits]
  simp only [CapabilityHub.bind_eq_ok, exists_unit, raiseIf_eq_ok, CapabilityHub.pure_eq_ok,
    Nat.not_lt]

theorem get?_readLimits (read : store.readLimits scopeId = .ok limits) (name : String) :
    limits.get? name = store.limits.get? (scopeId, name) := by
  rw [← (readLimits_eq_ok.mp read).2, Dict.get?_sorted, Dict.get?_row]

theorem ensureCounterBounds_eq_ok {chain : List String} :
    store.ensureCounterBounds chain amounts = .ok () ↔
      ∀ scopeId ∈ chain, (store.names scopeId ∪ amounts.keys.toFinset).card ≤ maxCounters := by
  simp [ensureCounterBounds, CapabilityHub.forM_eq_ok]

theorem checkCapacity_eq_ok {chain : List String} {replaced : Amounts} :
    store.checkCapacity chain replaced amounts = .ok () ↔
      ∀ scopeId ∈ chain, (store.limits.row scopeId).size ≤ maxCounters ∧
        ∀ name amount limit, amounts.get? name = some amount →
          store.limits.get? (scopeId, name) = some limit →
            requestedTotal (store.counter scopeId name) (replaced.getD name 0) amount ≤ limit := by
  rw [checkCapacity, CapabilityHub.forM_eq_ok]
  apply forall₂_congr
  intro scopeId _
  rw [CapabilityHub.bind_eq_ok]
  constructor
  · rintro ⟨limits, read, checked⟩
    refine ⟨(readLimits_eq_ok.mp read).1, fun name amount limit asked limited => ?_⟩
    exact checkScope_eq_ok.mp checked name amount limit asked
      ((get?_readLimits read name).trans limited)
  · rintro ⟨bounded, checked⟩
    have read := readLimits_eq_ok.mpr ⟨bounded, rfl⟩
    refine ⟨_, read, checkScope_eq_ok.mpr fun name amount limit asked limited => ?_⟩
    exact checked name amount limit asked ((get?_readLimits read name).symm.trans limited)

theorem childAllocation_eq_ok {parent : String} {excluding : Option String} {total : Nat} :
    store.childAllocation integer parent name excluding = .ok total ↔
      integer.Fits (store.childTotal parent name excluding) ∧
        store.childTotal parent name excluding = total := by
  rw [childAllocation]
  simp only [CapabilityHub.bind_eq_ok, exists_unit, SqlInteger.bind_eq_ok, CapabilityHub.pure_eq_ok]

theorem checkParentAllocation_eq_ok {parent : String} {excluding : Option String} :
    store.checkParentAllocation integer parent limits excluding = .ok () ↔
      (store.limits.row parent).size ≤ maxCounters ∧
        ∀ name requested limit, limits.get? name = some requested →
          store.limits.get? (parent, name) = some limit →
            integer.Fits (store.childTotal parent name excluding) ∧
              store.childTotal parent name excluding + requested ≤ limit := by
  rw [checkParentAllocation, CapabilityHub.bind_eq_ok]
  constructor
  · rintro ⟨parentLimits, read, checked⟩
    refine ⟨(readLimits_eq_ok.mp read).1, fun name requested limit asked limited => ?_⟩
    have admitted := CapabilityHub.forM_eq_ok.mp checked (name, requested)
      (Dict.mem_entries_iff.mpr asked)
    rw [get?_readLimits read, limited] at admitted
    simpa [CapabilityHub.bind_eq_ok, childAllocation_eq_ok, and_assoc] using admitted
  · rintro ⟨bounded, checked⟩
    have read := readLimits_eq_ok.mpr ⟨bounded, rfl⟩
    refine ⟨_, read, CapabilityHub.forM_eq_ok.mpr ?_⟩
    rintro ⟨name, requested⟩ member
    rw [get?_readLimits read]
    cases limited : store.limits.get? (parent, name) with
    | none => rfl
    | some limit =>
        have enough := checked name requested limit (Dict.mem_entries_iff.mp member) limited
        simpa [CapabilityHub.bind_eq_ok, childAllocation_eq_ok, and_assoc] using enough

theorem checkChange_eq_ok {limit : Nat} :
    store.checkChange integer scopeId (name, limit) = .ok () ↔
      (store.counter scopeId name).used + (store.counter scopeId name).reserved ≤ limit ∧
        integer.Fits (store.childTotal scopeId name none) ∧
          store.childTotal scopeId name none ≤ limit := by
  simp [checkChange, CapabilityHub.bind_eq_ok, exists_unit, childAllocation_eq_ok, and_assoc]

theorem activeRow_eq_ok {scope : HierarchicalBudgetScope} {row : ReservationRow} :
    store.activeRow scope reservationId = .ok row ↔
      store.reservations.get? reservationId = some row ∧ row.rootId = scope.opaqueRoot ∧
        row.scopeId = scope.scopeId ∧ row.status = .active := by
  rw [activeRow]
  cases found : store.reservations.get? reservationId with
  | none => simp
  | some other =>
      simp only [CapabilityHub.bind_eq_ok, exists_unit, raiseIf_eq_ok, CapabilityHub.pure_eq_ok,
        not_or, not_not, Option.some.injEq]
      constructor
      · rintro ⟨⟨root, scope⟩, active, rfl⟩
        exact ⟨rfl, root, scope, active⟩
      · rintro ⟨rfl, root, scope, active⟩
        exact ⟨⟨root, scope⟩, active, rfl⟩

/-! ## Operations -/

/-- A new scope with its limits, and the roots there then are. -/
def inserting (store : HierarchicalStore) (roots : List String) (scopeId : String) (row : ScopeRow)
    (limits : Amounts) : HierarchicalStore :=
  { store with roots := roots, scopes := store.scopes.set scopeId row }.limiting scopeId limits

/-- The amounts of a new reservation held by the scopes of a chain. -/
def holding (integer : SqlInteger) (store : HierarchicalStore) (reservationId : String)
    (row : ReservationRow) (chain : List String) (amounts : Amounts) : HierarchicalStore :=
  { store with reservations := store.reservations.set reservationId row }.rewrite chain amounts.keys
    fun name => addedRow integer (amounts.getD name 0)

/-- What a reservation held replaced by a charge at the scopes of a chain. -/
def settling (store : HierarchicalStore) (reservationId : String) (row : ReservationRow)
    (chain : List String) (reserved charged : Amounts) : HierarchicalStore :=
  { store with reservations := store.reservations.set reservationId row }.rewrite chain
    (unionKeys reserved charged) (finishedRow reserved charged)

theorem checkedLimits_eq_ok {raw : RawAmounts} : checkedLimits raw = .ok limits ↔
    validateAmounts raw "limits" false = .ok limits ∧ limits.keys ≠ [] ∧ limits.size ≤ maxCounters := by
  rw [checkedLimits, CapabilityHub.bind_eq_ok]
  simp only [CapabilityHub.bind_eq_ok, exists_unit, raiseIf_eq_ok, CapabilityHub.pure_eq_ok, Nat.not_lt]
  constructor
  · rintro ⟨validated, valid, some, few, rfl⟩
    exact ⟨valid, some, few⟩
  · rintro ⟨valid, some, few⟩
    exact ⟨limits, valid, some, few, rfl⟩

theorem checkedAmounts_eq_ok {raw : RawAmounts} {label : String} : checkedAmounts raw label = .ok amounts ↔
    validateAmounts raw label true = .ok amounts ∧ amounts.size ≤ maxCounters := by
  rw [checkedAmounts, CapabilityHub.bind_eq_ok]
  simp only [CapabilityHub.bind_eq_ok, exists_unit, raiseIf_eq_ok, CapabilityHub.pure_eq_ok, Nat.not_lt]
  constructor
  · rintro ⟨validated, valid, few, rfl⟩
    exact ⟨valid, few⟩
  · rintro ⟨valid, few⟩
    exact ⟨amounts, valid, few, rfl⟩

theorem checkedAmounts_relabel {raw : RawAmounts} {label other : String}
    (valid : checkedAmounts raw label = .ok amounts) : checkedAmounts raw other = .ok amounts := by
  rw [checkedAmounts_eq_ok] at valid ⊢
  exact ⟨validateAmounts_relabel valid.1 other, valid.2⟩

/-- A scope is entered anew, or is there already with the same row and the same limits. -/
theorem enter_eq_ok {row : ScopeRow} {admission : Transaction HierarchicalStore BudgetError Unit} :
    enter integer scopeId row limits admission (store.scopes.get? scopeId) store = .ok () final ↔
      (store.scopes.get? scopeId = some row ∧ (store.limits.row scopeId).size ≤ maxCounters ∧
        (∀ name, store.limits.get? (scopeId, name) = limits.get? name) ∧ store = final) ∨
      (store.scopes.get? scopeId = none ∧ (∀ name ∈ limits.keys, integer.Fits (limits.getD name 0)) ∧
        ∃ middle, admission store = .ok () middle ∧
          { middle with scopes := middle.scopes.set scopeId row }.limiting scopeId limits = final) := by
  cases found : store.scopes.get? scopeId with
  | none =>
      simp only [enter, Transaction.bind_eq_ok, exists_unit, write_eq_ok, writeLimits_eq_ok, reduceCtorEq,
        false_and, false_or, true_and]
      constructor
      · rintro ⟨middle, admitted, entered, rfl, fits, written⟩
        exact ⟨fits, middle, admitted, written⟩
      · rintro ⟨fits, middle, admitted, written⟩
        exact ⟨middle, admitted, _, rfl, fits, written⟩
  | some existing =>
      simp only [enter, Transaction.bind_eq_ok, exists_unit, query_eq_ok, raiseIf_eq_ok, not_not,
        Option.some.injEq, reduceCtorEq, false_and, or_false, readLimits_eq_ok, Dict.same_iff]
      constructor
      · rintro ⟨middle, ⟨rfl, rfl⟩, current, middle, ⟨⟨few, rfl⟩, rfl⟩, same, rfl⟩
        refine ⟨rfl, few, fun name => ?_, rfl⟩
        rw [← same name, Dict.get?_sorted, Dict.get?_row]
      · rintro ⟨rfl, few, same, rfl⟩
        refine ⟨store, ⟨rfl, rfl⟩, _, store, ⟨⟨few, rfl⟩, rfl⟩, fun name => ?_, rfl⟩
        rw [← same name, Dict.get?_sorted, Dict.get?_row]

theorem insertRoot_eq_ok {rootId : String} : insertRoot rootId store = .ok () final ↔
    rootId ∉ store.roots ∧ { store with roots := store.roots ++ [rootId] } = final := by
  simp only [insertRoot, Transaction.bind_eq_ok, exists_unit, query_eq_ok, raiseIf_eq_ok, write_eq_ok]
  constructor
  · rintro ⟨middle, ⟨fresh, rfl⟩, written⟩
    exact ⟨fresh, written⟩
  · rintro ⟨fresh, written⟩
    exact ⟨store, ⟨fresh, rfl⟩, written⟩

/-- A root that is returned was there with these limits, or is there from now on. -/
theorem root_eq_ok {raw : RawAmounts} {scope : HierarchicalBudgetScope}
    (done : root integer hmac name raw store = .ok scope final) : ∃ limits,
      checkedLimits raw = .ok limits ∧ scope = ⟨scope.scopeId, scope.scopeId, none, 0⟩ ∧
      (store.scopes.get? scope.scopeId = some ⟨scope.scopeId, none, 0⟩ ∧ store = final ∨
        store.scopes.get? scope.scopeId = none ∧ (∀ name ∈ limits.keys, integer.Fits (limits.getD name 0)) ∧
          store.inserting (store.roots ++ [scope.scopeId]) scope.scopeId ⟨scope.scopeId, none, 0⟩ limits =
            final) := by
  simp only [root, Transaction.bind_eq_ok, exists_unit, query_eq_ok, atomically_eq_ok,
    Transaction.pure_eq_ok, Except.ok.injEq] at done
  obtain ⟨middle, ⟨_, rfl⟩, limits, middle, ⟨valid, rfl⟩, existing, middle, ⟨rfl, rfl⟩, middle, entered, rfl,
    rfl⟩ := done
  refine ⟨limits, valid, rfl, ?_⟩
  rcases enter_eq_ok.mp entered with ⟨known, _, _, rfl⟩ | ⟨fresh, fits, middle, admitted, rfl⟩
  · exact .inl ⟨known, rfl⟩
  · obtain ⟨_, rfl⟩ := insertRoot_eq_ok.mp admitted
    exact .inr ⟨fresh, fits, rfl⟩

/-- A child that is returned was there with these limits, or is there from now on. -/
theorem createChild_eq_ok {parent scope : HierarchicalBudgetScope} {raw : RawAmounts}
    (done : createChild integer hmac parent name raw store = .ok scope final) : ∃ limits depth,
      checkedLimits raw = .ok limits ∧
      store.scopes.get? parent.scopeId = some ⟨parent.opaqueRoot, parent.parentScopeId, depth⟩ ∧
      depth < maxDepth ∧ scope = ⟨parent.opaqueRoot, scope.scopeId, some parent.scopeId, depth + 1⟩ ∧
      (store.scopes.get? scope.scopeId = some ⟨parent.opaqueRoot, some parent.scopeId, depth + 1⟩ ∧ store = final ∨
        store.scopes.get? scope.scopeId = none ∧ (∀ name ∈ limits.keys, integer.Fits (limits.getD name 0)) ∧
          store.checkParentAllocation integer parent.scopeId limits none = .ok () ∧
          store.inserting store.roots scope.scopeId ⟨parent.opaqueRoot, some parent.scopeId, depth + 1⟩ limits =
            final) := by
  simp only [createChild, Transaction.bind_eq_ok, exists_unit, query_eq_ok, atomically_eq_ok, raiseIf_eq_ok,
    Transaction.pure_eq_ok, Except.ok.injEq, validatedMetadata_eq_ok] at done
  obtain ⟨middle, ⟨_, rfl⟩, limits, middle, ⟨valid, rfl⟩, middle, ⟨_, rfl⟩, rootPart, middle, ⟨_, rfl⟩,
    scopePart, middle, ⟨_, rfl⟩, metadata, middle, ⟨known, rfl⟩, middle, ⟨same, rfl⟩, path, middle,
    ⟨_, rfl⟩, middle, ⟨_, rfl⟩, middle, ⟨shallow, rfl⟩, existing, middle, ⟨rfl, rfl⟩, middle, entered, rfl,
    rfl⟩ := done
  rw [not_not.mp same] at known
  refine ⟨limits, metadata.2, valid, known, Nat.not_le.mp shallow, rfl, ?_⟩
  rcases enter_eq_ok.mp entered with ⟨there, _, _, rfl⟩ | ⟨fresh, fits, middle, admitted, rfl⟩
  · exact .inl ⟨there, rfl⟩
  · obtain ⟨allocated, rfl⟩ := query_eq_ok.mp admitted
    exact .inr ⟨fresh, fits, allocated, rfl⟩

/-- Limits that are changed were the expected ones, and leave room for what is held and for the children. -/
theorem configure_eq_ok {scope : HierarchicalBudgetScope} {raw rawExpected : RawAmounts}
    (done : configure integer scope raw rawExpected store = .ok () final) : ∃ changes expected current,
      checkedLimits raw = .ok changes ∧ checkedLimits rawExpected = .ok expected ∧
      store.scopes.get? scope.scopeId = some ⟨scope.opaqueRoot, scope.parentScopeId, scope.depth⟩ ∧
      store.readLimits scope.scopeId = .ok current ∧ current.Same expected ∧
      (current.merge changes).size ≤ maxCounters ∧
      (∀ name limit, changes.get? name = some limit →
        store.checkChange integer scope.scopeId (name, limit) = .ok ()) ∧
      (∀ parent, scope.parentScopeId = some parent →
        store.checkParentAllocation integer parent (current.merge changes) (some scope.scopeId) = .ok ()) ∧
      (∀ name ∈ changes.keys, integer.Fits (changes.getD name 0)) ∧
      store.limiting scope.scopeId changes = final := by
  simp only [configure, Transaction.bind_eq_ok, exists_unit, query_eq_ok, atomically_eq_ok, raiseIf_eq_ok,
    validatedMetadata_eq_ok, writeLimits_eq_ok, CapabilityHub.forM_eq_ok] at done
  obtain ⟨changes, middle, ⟨valid, rfl⟩, expected, middle, ⟨expects, rfl⟩, metadata, middle, ⟨known, rfl⟩,
    middle, ⟨same, rfl⟩, path, middle, ⟨_, rfl⟩, middle, ⟨_, rfl⟩, current, middle, ⟨read, rfl⟩, middle,
    ⟨agrees, rfl⟩, middle, ⟨few, rfl⟩, middle, ⟨room, rfl⟩, middle, ⟨allocated, rfl⟩, fits, rfl⟩ := done
  obtain ⟨placed, deep⟩ := not_or.mp same
  rw [not_not.mp placed, not_not.mp deep] at known
  refine ⟨changes, expected, current, valid, expects, known, read, not_not.mp agrees, Nat.not_lt.mp few,
    fun name limit changed => ?_, fun parent below => ?_, fits, rfl⟩
  · exact room (name, limit) (Dict.mem_entries_iff.mpr changed)
  · rw [not_not.mp placed, below] at allocated
    exact allocated

/-- A reservation is made where all scopes of its chain can hold it. -/
theorem reserve_eq_ok {scope : HierarchicalBudgetScope} {raw : RawAmounts} :
    reserve integer scope raw reservationId store = .ok () final ↔ ∃ requested path,
      checkedAmounts raw "amounts" = .ok requested ∧ store.chain scope.opaqueRoot scope.scopeId = .ok path ∧
      store.ensureCounterBounds path requested = .ok () ∧ store.checkCapacity path ∅ requested = .ok () ∧
      reservationId ∉ store.reservations.keys ∧
      (∀ _scopeId ∈ path, ∀ name ∈ requested.keys, integer.Fits (requested.getD name 0)) ∧
      store.holding integer reservationId
        ⟨scope.opaqueRoot, scope.scopeId, encodeAmounts requested, .active⟩ path requested = final := by
  simp only [reserve, Transaction.bind_eq_ok, exists_unit, query_eq_ok, atomically_eq_ok, raiseIf_eq_ok,
    write_eq_ok]
  constructor
  · rintro ⟨requested, middle, ⟨valid, rfl⟩, path, middle, ⟨climbed, rfl⟩, middle, ⟨bounded, rfl⟩, middle,
      ⟨capable, rfl⟩, middle, ⟨fresh, rfl⟩, middle, rfl, added⟩
    obtain ⟨fits, written⟩ := (addReserved_loop (chain_nodup climbed)).mp added
    exact ⟨requested, path, valid, climbed, bounded, capable, fresh, fits, written⟩
  · rintro ⟨requested, path, valid, climbed, bounded, capable, fresh, fits, written⟩
    exact ⟨requested, store, ⟨valid, rfl⟩, path, store, ⟨climbed, rfl⟩, store, ⟨bounded, rfl⟩, store,
      ⟨capable, rfl⟩, store, ⟨fresh, rfl⟩, _, rfl, (addReserved_loop (chain_nodup climbed)).mpr ⟨fits, written⟩⟩

/-- What a reservation that is finished is charged: nothing when it is cancelled. -/
def checkedActual : Option RawAmounts → Except BudgetError (Option Amounts)
  | none => .ok none
  | some actual => (checkedAmounts actual "actual").map some

/-- The status of a reservation that is finished. -/
def finishedStatus (charged : Option Amounts) : Status :=
  if charged.isSome then .reconciled else .cancelled

/-- A reservation is finished where all scopes of its chain can take the charge in its place. -/
theorem finishReservation_eq_ok {scope : HierarchicalBudgetScope} {actual : Option RawAmounts} :
    finishReservation integer scope reservationId actual store = .ok () final ↔ ∃ charged row reserved path,
      checkedActual actual = .ok charged ∧ store.activeRow scope reservationId = .ok row ∧
      decodeStored row.amountsJson = .ok reserved ∧ store.chain scope.opaqueRoot scope.scopeId = .ok path ∧
      store.ensureCounterBounds path (charged.getD ∅) = .ok () ∧
      store.checkCapacity path reserved (charged.getD ∅) = .ok () ∧
      (∀ scopeId ∈ path, ∀ name ∈ unionKeys reserved (charged.getD ∅),
        FinishAdmits integer reserved (charged.getD ∅) name (store.counters.get? (scopeId, name))) ∧
      store.settling reservationId { row with status := finishedStatus charged } path reserved
        (charged.getD ∅) = final := by
  unfold finishReservation
  simp only [Transaction.bind_eq_ok, exists_unit, query_eq_ok, atomically_eq_ok, write_eq_ok]
  constructor
  · rintro ⟨charged, middle, ⟨valid, rfl⟩, row, middle, ⟨found, rfl⟩, reserved, middle, ⟨decoded, rfl⟩, path,
      middle, ⟨climbed, rfl⟩, middle, ⟨bounded, rfl⟩, middle, ⟨capable, rfl⟩, middle, replaced, written⟩
    obtain ⟨admitted, rfl⟩ := (replaceReserved_loop (chain_nodup climbed)).mp replaced
    refine ⟨charged, row, reserved, path, ?_, found, decoded, climbed, bounded, capable, admitted, written⟩
    cases actual <;> exact valid
  · rintro ⟨charged, row, reserved, path, valid, found, decoded, climbed, bounded, capable, admitted, written⟩
    refine ⟨charged, store, ⟨?_, rfl⟩, row, store, ⟨found, rfl⟩, reserved, store, ⟨decoded, rfl⟩, path,
      store, ⟨climbed, rfl⟩, store, ⟨bounded, rfl⟩, store, ⟨capable, rfl⟩, _,
      (replaceReserved_loop (chain_nodup climbed)).mpr ⟨admitted, rfl⟩, written⟩
    cases actual <;> exact valid

/-! ## Refusals -/

section Refusals

variable {scope : HierarchicalBudgetScope} {raw : RawAmounts} {path : List String} {error : BudgetError}
  {actual : Option RawAmounts} {row : ReservationRow}

end Refusals

end CapabilityHub.Budget.HierarchicalStore
