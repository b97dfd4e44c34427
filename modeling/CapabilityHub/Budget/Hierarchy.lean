import CapabilityHub.Budget.Counters
import CapabilityHub.Data.Ancestry
import CapabilityHub.Data.Json
import CapabilityHub.Database.Transaction
import Mathlib.Data.Finset.Card
import Mathlib.Data.Finset.Dedup

/-! # The durable tree of budgets

`SQLiteHierarchicalBudgetStore` of `hierarchical_budget.py`. Scopes are rows under opaque
identifiers, with a root, a parent and a depth. A reservation is held by its scope and by
all ancestors of it. The keyed hash that makes identifiers and the range of the columns'
integers are parameters.
-/

namespace CapabilityHub.Budget

open Transaction

/-- A row of `hierarchical_budget_scopes`. -/
structure ScopeRow where
  rootId : String
  parentScopeId : Option String
  depth : Nat
  deriving DecidableEq, Repr

/-- A row of `hierarchical_budget_reservations`. -/
structure ReservationRow where
  rootId : String
  scopeId : String
  amountsJson : RawAmounts
  status : Status
  deriving DecidableEq

/-- `HierarchicalBudgetScope`, which a client may have made up. -/
structure HierarchicalBudgetScope where
  opaqueRoot : String
  scopeId : String
  parentScopeId : Option String
  depth : Nat
  deriving DecidableEq, Repr

/-- The database of `SQLiteHierarchicalBudgetStore`. -/
structure HierarchicalStore where
  roots : List String
  scopes : Dict String ScopeRow
  limits : Dict (String × String) Nat
  counters : Dict (String × String) Charge
  reservations : Dict String ReservationRow

namespace HierarchicalStore

def empty : HierarchicalStore := ⟨[], ∅, ∅, ∅, ∅⟩

def maxCounters : Nat := 100

def maxDepth : Nat := 64

def unknownScope : BudgetError :=
  .hierarchicalBudgetError "unknown_budget_scope"
    "The opaque budget scope is unknown or belongs to another root." .reference

def unknownReservation : BudgetError :=
  .hierarchicalBudgetError "unknown_budget_reservation"
    "The opaque budget reservation is unknown for this scope." .reference

def inactiveReservation : BudgetError :=
  .hierarchicalBudgetError "budget_reservation_inactive"
    "The budget reservation is no longer active." .budget

def conflict (code message : String) : BudgetError :=
  .hierarchicalBudgetError code message .conflict

def corrupt : BudgetError :=
  .hierarchicalBudgetError "budget_state_invalid" "The persisted budget state is invalid." .internal

def counterLimit : BudgetError :=
  .hierarchicalBudgetError "budget_counter_limit"
    "The budget scope contains too many counters." .budget

def tooManyCounters : BudgetError := .valueError "at most 100 counters are allowed"

def scopeExists : BudgetError :=
  conflict "budget_scope_exists" "The opaque budget scope already exists with different limits."

def tooDeep : BudgetError := conflict "budget_depth_exceeded" "The budget hierarchy is too deep."

/-! ## Arguments -/

/-- `_scope_name`. -/
def scopeName (value : String) : Except BudgetError Unit :=
  raiseIf (value = "" ∨ 4096 < value.length)
    (.valueError "scope name must be non-empty and at most 4096 characters")

/-- `_limits`. -/
def checkedLimits (limits : RawAmounts) : Except BudgetError Amounts := do
  let normalized ← validateAmounts limits "limits" false
  raiseIf (normalized.keys = []) (.valueError "at least one hard limit is required")
  raiseIf (maxCounters < normalized.size) tooManyCounters
  pure normalized

/-- `_amounts`. -/
def checkedAmounts (amounts : RawAmounts) (label : String) : Except BudgetError Amounts := do
  let normalized ← validateAmounts amounts label true
  raiseIf (maxCounters < normalized.size) tooManyCounters
  pure normalized

/-- `text.encode("ascii")`. -/
def encodeAscii (text : String) : Except BudgetError Bytes := do
  raiseIf (text.toList.all (·.toNat < 128) = false) .unicodeEncodeError
  pure (encodeUtf8 text)

/-- `len(part).to_bytes(8, "big")`. -/
def lengthBytes (part : Bytes) : Bytes :=
  (List.range 8).map fun index => UInt8.ofNat (part.length / 256 ^ (7 - index))

/-- `_digest`, over the keyed hash of a message. -/
def digest (hmac : Bytes → String) (label : String) (parts : List Bytes) : String :=
  hmac (encodeUtf8 label ++ parts.flatMap fun part => lengthBytes part ++ part)

/-! ## Queries -/

/-- The parent of a scope of a root. -/
def parentRow (store : HierarchicalStore) (opaqueRoot scopeId : String) : Option (Option String) :=
  (store.scopes.get? scopeId).bind fun row =>
    if row.rootId = opaqueRoot then some row.parentScopeId else none

/-- `_chain`. -/
def chain (store : HierarchicalStore) (opaqueRoot leafScopeId : String) :
    Except BudgetError (List String) := do
  let path ← climb (store.parentRow opaqueRoot) corrupt unknownScope (maxDepth + 1) [] leafScopeId
  raiseIf (path.head? ≠ some opaqueRoot) corrupt
  pure path

/-- `_validated_metadata`. -/
def validatedMetadata (store : HierarchicalStore) (scope : HierarchicalBudgetScope) :
    Except BudgetError (Option String × Nat) :=
  match store.scopes.get? scope.scopeId with
  | none => .error unknownScope
  | some row =>
      if row.rootId = scope.opaqueRoot then .ok (row.parentScopeId, row.depth)
      else .error unknownScope

/-- `_read_limits`. -/
def readLimits (store : HierarchicalStore) (scopeId : String) : Except BudgetError Amounts := do
  raiseIf (maxCounters < (store.limits.row scopeId).size) corrupt
  pure ((store.limits.row scopeId).sorted fun first second => first ≤ second)

/-- `_counter`. -/
def counter (store : HierarchicalStore) (scopeId name : String) : Charge :=
  (store.counters.get? (scopeId, name)).getD ⟨0, 0⟩

/-- The counters that have a limit or a row at a scope. -/
def names (store : HierarchicalStore) (scopeId : String) : Finset String :=
  (store.limits.row scopeId).keys.toFinset ∪ (store.counters.row scopeId).keys.toFinset

/-- `_ensure_counter_bounds`. -/
def ensureCounterBounds (store : HierarchicalStore) (chain : List String) (amounts : Amounts) :
    Except BudgetError Unit :=
  forM chain fun scopeId =>
    raiseIf (maxCounters < (store.names scopeId ∪ amounts.keys.toFinset).card) counterLimit

/-- `_check_capacity`. -/
def checkCapacity (store : HierarchicalStore) (chain : List String) (replaced amounts : Amounts) :
    Except BudgetError Unit :=
  forM chain fun scopeId => do
    let limits ← store.readLimits scopeId
    checkScope scopeId limits.get? (store.counter scopeId) replaced amounts

/-- The hard limits for a counter over the children of a scope, but for one of them. -/
def childTotal (store : HierarchicalStore) (parentScopeId name : String)
    (excludingScope : Option String) : Nat :=
  store.scopes.total fun scopeId row =>
    if row.parentScopeId = some parentScopeId ∧ excludingScope ≠ some scopeId then
      (store.limits.get? (scopeId, name)).getD 0
    else 0

variable (integer : SqlInteger)

/-- `_child_allocation`: a sum out of range is an error of the database. -/
def childAllocation (store : HierarchicalStore) (parentScopeId name : String)
    (excludingScope : Option String) : Except BudgetError Nat := do
  integer.bind .overflowError (store.childTotal parentScopeId name excludingScope)
  pure (store.childTotal parentScopeId name excludingScope)

/-- `_check_parent_allocation`. -/
def checkParentAllocation (store : HierarchicalStore) (parentScopeId : String)
    (childLimits : Amounts) (excludingScope : Option String) : Except BudgetError Unit := do
  let parentLimits ← store.readLimits parentScopeId
  forM childLimits.entries fun entry =>
    match parentLimits.get? entry.1 with
    | none => .ok ()
    | some limit => do
        let allocated ← store.childAllocation integer parentScopeId entry.1 excludingScope
        raiseIf (limit < allocated + entry.2)
          (.budgetExceeded parentScopeId entry.1 limit (allocated + entry.2 : Nat))

/-! ## Statements -/

/-- One row of `_write_limits`. -/
def writeLimit (scopeId : String) (limits : Amounts) (name : String) :
    Transaction HierarchicalStore BudgetError Unit := do
  query fun _ => integer.bind .overflowError (limits.getD name 0)
  write fun store => { store with limits := store.limits.set (scopeId, name) (limits.getD name 0) }

/-- `_write_limits`. -/
def writeLimits (scopeId : String) (limits : Amounts) :
    Transaction HierarchicalStore BudgetError Unit :=
  forM limits.keys (writeLimit integer scopeId limits)

/-- One row of `_add_reserved`. -/
def addCounter (amounts : Amounts) (scopeId name : String) :
    Transaction HierarchicalStore BudgetError Unit := do
  query fun _ => integer.bind .overflowError (amounts.getD name 0)
  write fun store =>
    { store with
      counters := store.counters.alter
        (fun row => some (addedRow integer (amounts.getD name 0) row)) (scopeId, name) }

/-- `_add_reserved`. -/
def addReserved (amounts : Amounts) (scopeId : String) :
    Transaction HierarchicalStore BudgetError Unit :=
  forM amounts.keys (addCounter integer amounts scopeId)

/-- One turn of the loop of `_replace_reserved`. -/
def replaceCounter (reserved charged : Amounts) (scopeId name : String) :
    Transaction HierarchicalStore BudgetError Unit := do
  let held ← query fun store => .ok (store.counter scopeId name)
  query fun _ => raiseIf (held.reserved < reserved.getD name 0) corrupt
  query fun _ => integer.bind .overflowError (held.used + charged.getD name 0)
  query fun _ => integer.bind .overflowError (held.reserved - reserved.getD name 0)
  write fun store =>
    { store with
      counters := store.counters.set (scopeId, name)
        ⟨held.used + charged.getD name 0, held.reserved - reserved.getD name 0⟩ }

/-- `_replace_reserved`. -/
def replaceReserved (reserved charged : Amounts) (scopeId : String) :
    Transaction HierarchicalStore BudgetError Unit :=
  forM (unionKeys reserved charged) (replaceCounter integer reserved charged scopeId)

/-- Insert a scope after the `admission` test, or find the existing row to be the same with the same
limits. -/
def enter (scopeId : String) (row : ScopeRow) (limits : Amounts)
    (admission : Transaction HierarchicalStore BudgetError Unit) :
    Option ScopeRow → Transaction HierarchicalStore BudgetError Unit
  | none => do
      admission
      write fun store => { store with scopes := store.scopes.set scopeId row }
      writeLimits integer scopeId limits
  | some existing => do
      query fun _ => raiseIf (existing ≠ row) scopeExists
      let current ← query fun store => store.readLimits scopeId
      query fun _ => raiseIf (¬current.Same limits) scopeExists

/-! ## Operations -/

variable (hmac : Bytes → String)

/-- `INSERT INTO hierarchical_budget_roots`. -/
def insertRoot (rootId : String) : Transaction HierarchicalStore BudgetError Unit := do
  query fun store => raiseIf (rootId ∈ store.roots) .integrityError
  write fun store => { store with roots := store.roots ++ [rootId] }

/-- `root`. -/
def root (name : String) (limits : RawAmounts) :
    Transaction HierarchicalStore BudgetError HierarchicalBudgetScope := do
  query fun _ => scopeName name
  let normalized ← query fun _ => checkedLimits limits
  let rootId := digest hmac "root" [encodeUtf8 name]
  atomically do
    let existing ← query fun store => .ok (store.scopes.get? rootId)
    enter integer rootId ⟨rootId, none, 0⟩ normalized (insertRoot rootId) existing
    pure ⟨rootId, rootId, none, 0⟩

/-- `_create_child`. -/
def createChild (parent : HierarchicalBudgetScope) (name : String) (limits : RawAmounts) :
    Transaction HierarchicalStore BudgetError HierarchicalBudgetScope := do
  query fun _ => scopeName name
  let normalized ← query fun _ => checkedLimits limits
  query fun _ => raiseIf (maxDepth ≤ parent.depth) tooDeep
  let rootPart ← query fun _ => encodeAscii parent.opaqueRoot
  let scopePart ← query fun _ => encodeAscii parent.scopeId
  let scopeId := digest hmac "scope" [rootPart, scopePart, encodeUtf8 name]
  atomically do
    let metadata ← query fun store => store.validatedMetadata parent
    query fun _ => raiseIf (metadata.1 ≠ parent.parentScopeId) corrupt
    let parentChain ← query fun store => store.chain parent.opaqueRoot parent.scopeId
    query fun _ => raiseIf (parentChain.length - 1 ≠ metadata.2) corrupt
    query fun _ => raiseIf (maxDepth ≤ metadata.2) tooDeep
    let existing ← query fun store => .ok (store.scopes.get? scopeId)
    enter integer scopeId ⟨parent.opaqueRoot, some parent.scopeId, metadata.2 + 1⟩ normalized
      (query fun store => store.checkParentAllocation integer parent.scopeId normalized none)
      existing
    pure ⟨parent.opaqueRoot, scopeId, some parent.scopeId, metadata.2 + 1⟩

/-- The checks that `_configure` makes of one changed limit. -/
def checkChange (store : HierarchicalStore) (scopeId : String) (entry : String × Nat) :
    Except BudgetError Unit := do
  raiseIf (entry.2 < (store.counter scopeId entry.1).used + (store.counter scopeId entry.1).reserved)
    (.budgetExceeded scopeId entry.1 entry.2
      ((store.counter scopeId entry.1).used + (store.counter scopeId entry.1).reserved : Nat))
  let allocated ← store.childAllocation integer scopeId entry.1 none
  raiseIf (entry.2 < allocated) (.budgetExceeded scopeId entry.1 entry.2 (allocated : Nat))

/-- `_configure`. -/
def configure (scope : HierarchicalBudgetScope) (limits expectedLimits : RawAmounts) :
    Transaction HierarchicalStore BudgetError Unit := do
  let changes ← query fun _ => checkedLimits limits
  let expected ← query fun _ => checkedLimits expectedLimits
  atomically do
    let metadata ← query fun store => store.validatedMetadata scope
    query fun _ => raiseIf (metadata.1 ≠ scope.parentScopeId ∨ metadata.2 ≠ scope.depth) corrupt
    let chain ← query fun store => store.chain scope.opaqueRoot scope.scopeId
    query fun _ => raiseIf (chain.length - 1 ≠ metadata.2) corrupt
    let current ← query fun store => store.readLimits scope.scopeId
    query fun _ => raiseIf (¬current.Same expected)
      (conflict "budget_limits_changed" "The budget limits changed before this update.")
    query fun _ => raiseIf (maxCounters < (current.merge changes).size) tooManyCounters
    query fun store => forM changes.entries (store.checkChange integer scope.scopeId)
    query fun store =>
      match metadata.1 with
      | none => .ok ()
      | some parentScopeId =>
          store.checkParentAllocation integer parentScopeId (current.merge changes)
            (some scope.scopeId)
    writeLimits integer scope.scopeId changes

/-- `_reserve`, with the new identifier of the reservation. -/
def reserve (scope : HierarchicalBudgetScope) (amounts : RawAmounts) (reservationId : String) :
    Transaction HierarchicalStore BudgetError Unit := do
  let requested ← query fun _ => checkedAmounts amounts "amounts"
  atomically do
    let chain ← query fun store => store.chain scope.opaqueRoot scope.scopeId
    query fun store => store.ensureCounterBounds chain requested
    query fun store => store.checkCapacity chain ∅ requested
    query fun store => raiseIf (reservationId ∈ store.reservations.keys) .integrityError
    write fun store =>
      { store with
        reservations := store.reservations.set reservationId
          ⟨scope.opaqueRoot, scope.scopeId, encodeAmounts requested, .active⟩ }
    forM chain (addReserved integer requested)

/-- The active row of a reservation. -/
def activeRow (store : HierarchicalStore) (scope : HierarchicalBudgetScope)
    (reservationId : String) : Except BudgetError ReservationRow :=
  match store.reservations.get? reservationId with
  | none => .error unknownReservation
  | some row => do
      raiseIf (row.rootId ≠ scope.opaqueRoot ∨ row.scopeId ≠ scope.scopeId) unknownReservation
      raiseIf (row.status ≠ .active) inactiveReservation
      pure row

/-- `_decode_amounts`. -/
def decodeStored (stored : RawAmounts) : Except BudgetError Amounts :=
  match decodeAmounts stored with
  | .ok amounts => .ok amounts
  | .error _ => .error corrupt

/-- `_finish_reservation`: `actual` is missing when the reservation is cancelled. -/
def finishReservation (scope : HierarchicalBudgetScope) (reservationId : String)
    (actual : Option RawAmounts) : Transaction HierarchicalStore BudgetError Unit := do
  let charged ← query fun _ =>
    match actual with
    | none => .ok none
    | some actual => (checkedAmounts actual "actual").map some
  atomically do
    let row ← query fun store => store.activeRow scope reservationId
    let reserved ← query fun _ => decodeStored row.amountsJson
    let chain ← query fun store => store.chain scope.opaqueRoot scope.scopeId
    let final := charged.getD ∅
    query fun store => store.ensureCounterBounds chain final
    query fun store => store.checkCapacity chain reserved final
    forM chain (replaceReserved integer reserved final)
    write fun store =>
      { store with
        reservations := store.reservations.set reservationId
          { row with status := if charged.isSome then .reconciled else .cancelled } }

/-- `_snapshot`. -/
def snapshot (store : HierarchicalStore) (scopeId : String) : Except BudgetError BudgetSnapshot := do
  let limits ← store.readLimits scopeId
  raiseIf (maxCounters < (store.counters.row scopeId).size) corrupt
  pure (snapshotOf scopeId limits (limits.keys ++ (store.counters.row scopeId).keys)
    (store.counter scopeId))

end HierarchicalStore

end CapabilityHub.Budget
