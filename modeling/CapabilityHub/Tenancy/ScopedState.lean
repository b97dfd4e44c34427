import CapabilityHub.Data.Dict
import CapabilityHub.Data.Order
import CapabilityHub.Errors
import Mathlib.Algebra.Order.Ring.Rat

/-! # Tenant-scoped state

`SqliteScopedState`. A row keeps its JSON value as it is, and the digests of scopes and keys are
given. A call is one transaction: it gives its result and the next state, or raises.
-/

namespace CapabilityHub.Tenancy

structure TenantScope where
  tenant : String
  principal : String
  session : String
  task : String
  deriving DecidableEq

/-- The keyed digests of a store, and what the Unicode character database says. -/
structure Keying where
  /-- `TenantScope.digest` -/
  scope : TenantScope → String
  /-- The digest of a key, in a namespace of the scope that a digest stands for. -/
  key : String → String → String → String
  /-- `str.isalnum` of a character. -/
  alnum : Char → Bool
  /-- Whether the category of a character starts with a `C`. -/
  control : Char → Bool

variable {ν ρ : Type}

structure ScopedEntry (ν : Type) where
  value : ν
  updatedAt : ℚ
  expiresAt : Option ℚ

structure ScopedEvent (ν : Type) where
  eventId : String
  sequence : Nat
  value : ν
  createdAt : ℚ
  expiresAt : Option ℚ
  deriving DecidableEq

/-- A row of `scoped_events`. -/
structure EventRow (ν : Type) where
  scopeDigest : String
  stream : String
  event : ScopedEvent ν
  deriving DecidableEq

/-- The primary key of a row. -/
def EventRow.place (row : EventRow ν) : String × String × Nat :=
  (row.scopeDigest, row.stream, row.event.sequence)

structure CleanupResult where
  entriesDeleted : Nat
  eventsDeleted : Nat
  deriving DecidableEq

/-- The two tables. -/
structure ScopedState (ν : Type) where
  /-- By the digest of the scope, the namespace and the digest of the key. -/
  entries : Dict (String × String × String) (ScopedEntry ν) := ∅
  events : List (EventRow ν) := []

/-- The order in which the database visits the rows that a statement selects without an
`ORDER BY`. -/
structure VisitOrder (α : Type) where
  visit : List α → List α
  perm : ∀ rows, (visit rows).Perm rows

/-- `_store_error`. -/
def storeError (code message : String) : Raised :=
  .hub { code := code, category := .internal, safeMessage := message }

def writeFailed : Raised :=
  storeError "tenant_state_write_failed" "Scoped state could not be saved."

/-- `_identifier`. -/
def identifier (keying : Keying) (value : String) : Except Raised Unit :=
  raiseIf (value = "" ∨ 256 < value.length ∨ 1024 < value.utf8ByteSize ∨
    value.toList.any keying.control) .valueError

/-- `_name`. -/
def checkName (keying : Keying) (value : String) : Except Raised Unit := do
  identifier keying value
  raiseIf (value.toList.any fun character =>
    !(keying.alnum character || character ∈ ['.', '_', ':', '-'])) .valueError

/-- `_timestamp`. -/
def checkTimestamp (value : ℚ) : Except Raised Unit := raiseIf (value < 0) .valueError

/-- The end of a lifetime; `_ttl` checks the seconds. -/
def expiry (current : ℚ) : Option ℚ → Except Raised (Option ℚ)
  | none => .ok none
  | some seconds => do
      raiseIf (seconds ≤ 0) .valueError
      .ok (some (current + seconds))

/-- `_limit`. -/
def checkLimit (value maximum : Nat) : Except Raised Unit :=
  raiseIf (¬(1 ≤ value ∧ value ≤ maximum)) .valueError

/-- `expires_at IS NOT NULL AND expires_at <= now`. -/
def Expired (expiresAt : Option ℚ) (now : ℚ) : Prop := ∃ moment ∈ expiresAt, moment ≤ now

instance {expiresAt : Option ℚ} {now : ℚ} : Decidable (Expired expiresAt now) :=
  inferInstanceAs (Decidable (∃ moment ∈ expiresAt, moment ≤ now))

namespace ScopedState

variable (keying : Keying) (state : ScopedState ν)

/-- The rows of a stream. -/
def stream (digest stream : String) : List (EventRow ν) :=
  state.events.filter fun row => row.scopeDigest = digest ∧ row.stream = stream

/-- `COALESCE(MAX(sequence), 0)`. -/
def lastSequence (digest stream : String) : Nat :=
  ((state.stream digest stream).map (·.event.sequence)).foldr max 0

/-- `set`, and `set_cache` with a lifetime. -/
def setEntry (scope : TenantScope) (key : String) (value : ν) (namespaceName : String)
    (ttlSeconds : Option ℚ) (now : ℚ) : Except Raised (ScopedState ν) := do
  checkTimestamp now
  let expiresAt ← expiry now ttlSeconds
  let digest := keying.scope scope
  checkName keying namespaceName
  identifier keying key
  .ok { state with
    entries := state.entries.set (digest, namespaceName, keying.key digest namespaceName key)
      ⟨value, now, expiresAt⟩ }

/-- The value of an entry that has not expired. -/
def entry (place : String × String × String) (now : ℚ) : Option ν :=
  match state.entries.get? place with
  | some row => if Expired row.expiresAt now then none else some row.value
  | none => none

/-- `get`. -/
def getEntry (scope : TenantScope) (key namespaceName : String) (now : ℚ) :
    Except Raised (Option ν) := do
  let digest := keying.scope scope
  checkName keying namespaceName
  identifier keying key
  checkTimestamp now
  .ok (state.entry (digest, namespaceName, keying.key digest namespaceName key) now)

/-- What a caller of `transact_entry` sees of an error of its update. -/
def transactError : Raised → Raised
  | .hub error => .hub error
  | _ => writeFailed

/-- `transact_entry`. -/
def transactEntry (scope : TenantScope) (key : String)
    (update : Option ν → Except Raised (Option ν × ρ)) (namespaceName : String) (now : ℚ) :
    Except Raised (ρ × ScopedState ν) := do
  let digest := keying.scope scope
  checkName keying namespaceName
  identifier keying key
  checkTimestamp now
  let place := (digest, namespaceName, keying.key digest namespaceName key)
  let (replacement, result) ← (update (state.entry place now)).mapError transactError
  match replacement with
  | none => .ok (result, { state with entries := state.entries.erase place })
  | some value =>
      .ok (result, { state with entries := state.entries.set place ⟨value, now, none⟩ })

/-- `delete`, and whether there was an entry. -/
def deleteEntry (scope : TenantScope) (key namespaceName : String) :
    Except Raised (Bool × ScopedState ν) := do
  let digest := keying.scope scope
  checkName keying namespaceName
  identifier keying key
  let place := (digest, namespaceName, keying.key digest namespaceName key)
  .ok ((state.entries.get? place).isSome, { state with entries := state.entries.erase place })

/-- `append_event`; the identifier is a digest of fresh random bytes. -/
def appendEvent (scope : TenantScope) (value : ν) (stream : String) (ttlSeconds : Option ℚ)
    (now : ℚ) (eventId : String) : Except Raised (ScopedEvent ν × ScopedState ν) := do
  let digest := keying.scope scope
  checkName keying stream
  checkTimestamp now
  let expiresAt ← expiry now ttlSeconds
  let sequence := state.lastSequence digest stream + 1
  raiseIf (∃ row ∈ state.events, row.place = (digest, stream, sequence) ∨
    row.scopeDigest = digest ∧ row.event.eventId = eventId) writeFailed
  let event : ScopedEvent ν := ⟨eventId, sequence, value, now, expiresAt⟩
  .ok (event, { state with events := state.events ++ [⟨digest, stream, event⟩] })

/-- The rows that `list_events` selects, in their order. -/
def selected (digest stream : String) (afterSequence : Nat) (now : ℚ) : List (EventRow ν) :=
  sortedBy (·.event.sequence) ((state.stream digest stream).filter fun row =>
    afterSequence < row.event.sequence ∧ ¬Expired row.event.expiresAt now)

/-- `list_events`. -/
def listEvents (scope : TenantScope) (stream : String) (afterSequence limit : Nat) (now : ℚ) :
    Except Raised (List (ScopedEvent ν)) := do
  let digest := keying.scope scope
  checkName keying stream
  checkTimestamp now
  checkLimit limit 500
  .ok (((state.selected digest stream afterSequence now).take limit).map (·.event))

/-- The expired events of a scope that `cleanup_expired` picks. -/
def pickedEvents (order : VisitOrder (String × String × Nat)) (digest : String) (now : ℚ)
    (limit : Nat) : List (String × String × Nat) :=
  (order.visit ((state.events.filter fun row =>
    row.scopeDigest = digest ∧ Expired row.event.expiresAt now).map EventRow.place)).take limit

/-- The expired entries of a scope that `cleanup_expired` picks. -/
def pickedEntries (order : VisitOrder (String × String × String)) (digest : String) (now : ℚ)
    (limit : Nat) : List (String × String × String) :=
  (order.visit ((state.entries.entries.filter fun entry =>
    entry.1.1 = digest ∧ Expired entry.2.expiresAt now).map Prod.fst)).take limit

/-- `cleanup_expired`. -/
def cleanupExpired (scope : TenantScope) (now : ℚ) (limit : Nat)
    (entryOrder : VisitOrder (String × String × String))
    (eventOrder : VisitOrder (String × String × Nat)) :
    Except Raised (CleanupResult × ScopedState ν) := do
  let digest := keying.scope scope
  checkTimestamp now
  checkLimit limit 10000
  let entries := state.pickedEntries entryOrder digest now limit
  let events := state.pickedEvents eventOrder digest now limit
  .ok (⟨entries.length, events.length⟩,
    { entries := state.entries.filterKeys (· ∉ entries)
      events := state.events.filter (·.place ∉ events) })

/-- The state without the rows at some places. -/
def remove (state : ScopedState ν) (entries : List (String × String × String))
    (events : List (String × String × Nat)) : ScopedState ν where
  entries := state.entries.filterKeys (· ∉ entries)
  events := state.events.filter (·.place ∉ events)

variable {keying state} {update : Option ν → Except Raised (Option ν × ρ)} {scope : TenantScope}
  {key namespaceName : String} {now : ℚ} {result : ρ} {next : ScopedState ν}

/-- A transaction that returns has written what its update gave for the entry. -/
theorem transactEntry_eq_ok (named : checkName keying namespaceName = .ok ())
    (identified : identifier keying key = .ok ()) {place : String × String × String}
    (placed : (keying.scope scope, namespaceName,
      keying.key (keying.scope scope) namespaceName key) = place) :
    state.transactEntry keying scope key update namespaceName now = .ok (result, next) ↔
      0 ≤ now ∧ ∃ replacement, update (state.entry place now) = .ok (replacement, result) ∧
        next = { state with
          entries := (replacement.map fun value =>
            state.entries.set place ⟨value, now, none⟩).getD (state.entries.erase place) } := by
  subst placed
  constructor
  · intro done
    obtain ⟨_, _, done⟩ := bind_eq_ok.mp done
    obtain ⟨_, _, done⟩ := bind_eq_ok.mp done
    obtain ⟨_, timed, done⟩ := bind_eq_ok.mp done
    obtain ⟨⟨replacement, answer⟩, updated, done⟩ := bind_eq_ok.mp done
    refine ⟨not_lt.mp (raiseIf_eq_ok.mp timed), replacement, ?_⟩
    cases replacement with
    | none =>
        obtain ⟨rfl, rfl⟩ := Prod.mk.inj (Except.ok.inj done)
        exact ⟨mapError_eq_ok.mp updated, rfl⟩
    | some value =>
        obtain ⟨rfl, rfl⟩ := Prod.mk.inj (Except.ok.inj done)
        exact ⟨mapError_eq_ok.mp updated, rfl⟩
  · rintro ⟨natural, replacement, updated, rfl⟩
    refine bind_eq_ok.mpr ⟨(), named, bind_eq_ok.mpr ⟨(), identified, ?_⟩⟩
    refine bind_eq_ok.mpr ⟨(), raiseIf_eq_ok.mpr (not_lt.mpr natural), ?_⟩
    refine bind_eq_ok.mpr ⟨_, mapError_eq_ok.mpr updated, ?_⟩
    cases replacement <;> rfl

/-- What is written can be read at any time. -/
theorem entry_set (value : ν) (place other : String × String × String) (moment now : ℚ) :
    ({ state with entries := state.entries.set place ⟨value, moment, none⟩ }).entry other now =
      if other = place then some value else state.entry other now := by
  rw [entry, Dict.get?_set]
  by_cases same : other = place
  · rw [if_pos same, if_pos same]
    exact if_neg (by simp [Expired])
  · rw [if_neg same, if_neg same, entry]

theorem entry_erase (place other : String × String × String) (now : ℚ) :
    ({ state with entries := state.entries.erase place }).entry other now =
      if other = place then none else state.entry other now := by
  rw [entry, Dict.get?_erase]
  by_cases same : other = place
  · rw [if_pos same, if_pos same]
  · rw [if_neg same, if_neg same, entry]

end ScopedState

end CapabilityHub.Tenancy
