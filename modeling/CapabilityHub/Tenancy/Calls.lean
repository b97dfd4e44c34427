import CapabilityHub.Approval.Records
import CapabilityHub.Data.Purge
import CapabilityHub.Tenancy.ScopedState
import Mathlib.Data.Prod.Lex
import Mathlib.Data.String.Basic

/-! # Calls of the tenant-scoped state

What the operations of `SqliteScopedState` answer, one call after the other, and the digests that its
key gives to scopes and keys.
-/

namespace CapabilityHub.Tenancy

variable {ν ρ : Type}

/-- The digests under a key; `mac` is HMAC-SHA256 with that key. -/
def hmacKeying (mac : Bytes → Bytes) (alnum control : Char → Bool) : Keying where
  scope := Approval.scopeDigest mac
  key := fun digest namespaceName key =>
    hex (mac (encodeUtf8 "capabilityhub-scoped-key-v1\x00" ++
      encodeUtf8 (canonicalJson (.arr [.str digest, .str namespaceName, .str key]))))
  alnum := alnum
  control := control

/-- A `ScopedEntry` of a page. -/
structure ListedEntry (ν : Type) where
  keyDigest : String
  entry : ScopedEntry ν

namespace ScopedState

variable (keying : Keying) (state : ScopedState ν)

/-- The rows that `list_entries` selects, in their order. -/
def selectedEntries (digest namespaceName : String) (now : ℚ) : List (ListedEntry ν) :=
  sortedBy (fun listed => toLex (-listed.entry.updatedAt, listed.keyDigest))
    ((state.entries.entries.filter fun row =>
      row.1.1 = digest ∧ row.1.2.1 = namespaceName ∧ ¬Expired row.2.expiresAt now).map fun row =>
        ⟨row.1.2.2, row.2⟩)

/-- `list_entries`. -/
def listEntries (scope : TenantScope) (namespaceName : String) (limit : Nat) (now : ℚ) :
    Except Raised (List (ListedEntry ν)) := do
  let digest := keying.scope scope
  checkName keying namespaceName
  checkLimit limit 500
  checkTimestamp now
  .ok ((state.selectedEntries digest namespaceName now).take limit)

end ScopedState

/-- A call, with the time, the random identifier and the order of rows that it meets. -/
inductive Call (ν ρ : Type) where
  | setEntry (scope : TenantScope) (key : String) (value : ν) (namespaceName : String)
      (ttlSeconds : Option ℚ) (now : ℚ)
  | getEntry (scope : TenantScope) (key namespaceName : String) (now : ℚ)
  | transactEntry (scope : TenantScope) (key : String)
      (update : Option ν → Except Raised (Option ν × ρ)) (namespaceName : String) (now : ℚ)
  | deleteEntry (scope : TenantScope) (key namespaceName : String)
  | listEntries (scope : TenantScope) (namespaceName : String) (limit : Nat) (now : ℚ)
  | appendEvent (scope : TenantScope) (value : ν) (stream : String) (ttlSeconds : Option ℚ) (now : ℚ)
      (eventId : String)
  | listEvents (scope : TenantScope) (stream : String) (afterSequence limit : Nat) (now : ℚ)
  | cleanupExpired (scope : TenantScope) (now : ℚ) (limit : Nat)
      (entryOrder : VisitOrder (String × String × String))
      (eventOrder : VisitOrder (String × String × Nat))

inductive Answer (ν ρ : Type) where
  | none
  | value (found : Option ν)
  | result (given : ρ)
  | deleted (existed : Bool)
  | entries (page : List (ListedEntry ν))
  | event (appended : ScopedEvent ν)
  | events (page : List (ScopedEvent ν))
  | cleaned (counts : CleanupResult)

namespace Call

def scope : Call ν ρ → TenantScope
  | .setEntry scope _ _ _ _ _ => scope
  | .getEntry scope _ _ _ => scope
  | .transactEntry scope _ _ _ _ => scope
  | .deleteEntry scope _ _ => scope
  | .listEntries scope _ _ _ => scope
  | .appendEvent scope _ _ _ _ _ => scope
  | .listEvents scope _ _ _ _ => scope
  | .cleanupExpired scope _ _ _ _ => scope

/-- Whether a call is on one of some namespaces or streams, or on all of its scope. -/
def On (namespaces streams : String → Bool) : Call ν ρ → Prop
  | .setEntry _ _ _ namespaceName _ _ => namespaces namespaceName
  | .getEntry _ _ namespaceName _ => namespaces namespaceName
  | .transactEntry _ _ _ namespaceName _ => namespaces namespaceName
  | .deleteEntry _ _ namespaceName => namespaces namespaceName
  | .listEntries _ namespaceName _ _ => namespaces namespaceName
  | .appendEvent _ _ stream _ _ _ => streams stream
  | .listEvents _ stream _ _ _ => streams stream
  | .cleanupExpired _ _ _ _ _ => True

/-- Whether a call is `cleanup_expired`. -/
def Cleans : Call ν ρ → Prop
  | .cleanupExpired _ _ _ _ _ => True
  | _ => False

/-- The random identifier that a call draws. -/
def eventId? : Call ν ρ → Option String
  | .appendEvent _ _ _ _ _ eventId => some eventId
  | _ => none

end Call

instance (namespaces streams : String → Bool) :
    DecidablePred (Call.On namespaces streams : Call ν ρ → Prop) := fun call => by
  cases call <;> unfold Call.On <;> infer_instance

instance : DecidablePred (Call.Cleans : Call ν ρ → Prop) := fun call => by
  cases call <;> unfold Call.Cleans <;> infer_instance

/-- What a call answers and leaves. -/
def perform (keying : Keying) (state : ScopedState ν) :
    Call ν ρ → Except Raised (Answer ν ρ × ScopedState ν)
  | .setEntry scope key value namespaceName ttlSeconds now =>
      (state.setEntry keying scope key value namespaceName ttlSeconds now).map fun next => (.none, next)
  | .getEntry scope key namespaceName now =>
      (state.getEntry keying scope key namespaceName now).map fun found => (.value found, state)
  | .transactEntry scope key update namespaceName now =>
      (state.transactEntry keying scope key update namespaceName now).map fun done =>
        (.result done.1, done.2)
  | .deleteEntry scope key namespaceName =>
      (state.deleteEntry keying scope key namespaceName).map fun done => (.deleted done.1, done.2)
  | .listEntries scope namespaceName limit now =>
      (state.listEntries keying scope namespaceName limit now).map fun page => (.entries page, state)
  | .appendEvent scope value stream ttlSeconds now eventId =>
      (state.appendEvent keying scope value stream ttlSeconds now eventId).map fun done =>
        (.event done.1, done.2)
  | .listEvents scope stream afterSequence limit now =>
      (state.listEvents keying scope stream afterSequence limit now).map fun page =>
        (.events page, state)
  | .cleanupExpired scope now limit entryOrder eventOrder =>
      (state.cleanupExpired keying scope now limit entryOrder eventOrder).map fun done =>
        (.cleaned done.1, done.2)

/-- One call; one that raises leaves the state as it is. -/
def callStep (keying : Keying) (state : ScopedState ν) (call : Call ν ρ) :
    ScopedState ν × Except Raised (Answer ν ρ) :=
  match perform keying state call with
  | .ok (answer, next) => (next, .ok answer)
  | .error error => (state, .error error)

end CapabilityHub.Tenancy
