import CapabilityHub.Residency.Records
import CapabilityHub.Tenancy.ScopedState
import Mathlib.Data.List.DropRight

/-! # The residency of a tenant's task session

`ScopedContextState`, on the JSON value that the scoped state keeps under one key.
-/

namespace CapabilityHub.Residency

open Tenancy

variable {ω ρ : Type} [LinearOrder ω] (value : EvictionValue ω) (settings : ContextSettings)
  (keying : Keying) (scope : TenantScope)

namespace Errors

def scopedContextStateInvalid : Raised :=
  .hub { code := "scoped_context_state_invalid", category := .internal,
         safeMessage := "The scoped context residency state is invalid." }

def contextEntryNotFound : Raised :=
  .hub { code := "context_entry_not_found", category := .reference,
         safeMessage := "The scoped context entry does not exist." }

end Errors

namespace ScopedContextState

/-- `_decode_entry`. -/
def decodeEntry (entry : Json) : Except Raised ResidentSection := do
  let fields ← objectFields .typeError entry
  decodeFields .typeError fields

def encodeEviction (eviction : Eviction) : Json :=
  .obj [("key", .str eviction.key), ("portable_tokens", .int eviction.portableTokens),
    ("reason", .str eviction.reason)]

/-- `_encode_event`. -/
def encodeEvent (event : ContextStateEvent) : Json :=
  .obj [("action", .str event.action), ("evictions", .arr (event.evictions.map encodeEviction)),
    ("key", .str event.key), ("sequence", .int event.sequence),
    ("used_portable_tokens", .int event.usedPortableTokens)]

def decodeEviction (eviction : Json) : Except Raised Eviction := do
  let fields ← objectFields .typeError eviction
  let portableTokens ← naturalField .typeError fields "portable_tokens"
  let victim ← anyTextField .typeError fields "key"
  let reason ← anyTextField .typeError fields "reason"
  .ok ⟨victim, portableTokens, reason⟩

/-- `_decode_event`. -/
def decodeEvent (event : Json) : Except Raised ContextStateEvent := do
  let fields ← objectFields .typeError event
  let sequence ← naturalField .typeError fields "sequence"
  let used ← naturalField .typeError fields "used_portable_tokens"
  let action ← anyTextField .typeError fields "action"
  let key ← anyTextField .typeError fields "key"
  let rawEvictions ← listField .typeError fields "evictions"
  let evictions ← rawEvictions.mapM decodeEviction
  .ok ⟨sequence, action, key, used, evictions⟩

/-- `_encode`. -/
def encode (generation : Int) (inventory : ContextInventory) (events : List ContextStateEvent) :
    Json :=
  .obj [("entries", .arr (inventory.sections.map encodeEntry)),
    ("events", .arr (events.map encodeEvent)), ("generation", .int generation),
    ("max_portable_tokens", .int inventory.maxPortableTokens), ("schema_version", .int 1)]

/-- What `_decode` makes of an error. -/
def decodeError : Raised → Raised
  | .hub error => .hub error
  | _ => Errors.scopedContextStateInvalid

/-- `_decode`, of a value that is there. -/
def decodeValue (raw : Json) : Except Raised (Int × ContextInventory × List ContextStateEvent) := do
  let fields ← objectFields .typeError raw
  schemaField .typeError fields
  let generation ← naturalField .typeError fields "generation"
  let limit ← positiveField .typeError fields "max_portable_tokens"
  raiseIf (limit ≠ settings.maxPortableTokens) .typeError
  let rawEntries ← listField .typeError fields "entries"
  let rawEvents ← listField .typeError fields "events"
  let entries ← rawEntries.mapM decodeEntry
  raiseIf (¬(entries.map (·.key)).Nodup) .typeError
  let inventory ← ContextInventory.rebuild value settings.maxPortableTokens entries
  let events ← rawEvents.mapM decodeEvent
  .ok (generation, inventory, events)

/-- `_decode`. -/
def decode : Option Json → Except Raised (Int × ContextInventory × List ContextStateEvent)
  | none => .ok (0, { maxPortableTokens := settings.maxPortableTokens }, [])
  | some raw => (decodeValue value settings raw).mapError decodeError

variable (state : ScopedState Json) (now : ℚ)

/-- `_read`. -/
def read : Except Raised (Int × ContextInventory × List ContextStateEvent) := do
  let raw ← state.getEntry keying scope "inventory" "context-residency" now
  decode value settings raw

def snapshot : Except Raised ContextStateSnapshot := do
  let (generation, inventory, _) ← read value settings keying scope state now
  .ok ⟨generation, settings.maxPortableTokens, inventory.usedPortableTokens, inventory.sections⟩

/-- The update of `_mutate`. -/
def update (action key : String)
    (operation : ContextInventory → Except Raised (ρ × ContextInventory))
    (evictions : ρ → List Eviction) (raw : Option Json) : Except Raised (Option Json × ρ) := do
  let (generation, inventory, events) ← decode value settings raw
  let (result, left) ← operation inventory
  let event : ContextStateEvent :=
    ⟨generation + 1, action, key, left.usedPortableTokens, evictions result⟩
  let retained := (events ++ [event]).rtake settings.eventLimit
  .ok (some (encode (generation + 1) left retained), result)

/-- `_mutate`. -/
def mutate (action key : String)
    (operation : ContextInventory → Except Raised (ρ × ContextInventory))
    (evictions : ρ → List Eviction) : Except Raised (ρ × ScopedState Json) :=
  state.transactEntry keying scope "inventory" (update value settings action key operation evictions)
    "context-residency" now

/-- What an operation that raises `KeyError` does inside of `_mutate`. -/
def found (operation : ContextInventory → Option (ρ × ContextInventory))
    (inventory : ContextInventory) : Except Raised (ρ × ContextInventory) :=
  match operation inventory with
  | none => .error Errors.contextEntryNotFound
  | some done => .ok done

def add (entry : ResidentSection) : Except Raised (List Eviction × ScopedState Json) := do
  let selected ← decodeEntry (encodeEntry entry)
  mutate value settings keying scope state now "add" selected.key (fun inventory =>
    let added := inventory.add value selected
    added.1.map fun evictions => (evictions, added.2)) id

def access (key : String) : Except Raised (ResidentSection × ScopedState Json) :=
  mutate value settings keying scope state now "access" key (found (·.access key)) fun _ => []

def pin (key : String) (pinned : Bool) : Except Raised (Unit × ScopedState Json) :=
  mutate value settings keying scope state now (if pinned then "pin" else "unpin") key
    (found fun inventory => (inventory.pin key pinned).map ((), ·)) fun _ => []

def remove (key : String) : Except Raised (Eviction × ScopedState Json) :=
  mutate value settings keying scope state now "remove" key (found (·.remove key)) ([·])

/-! ## What the changes do to the list of sections -/

variable {value} {settings} {state} {entry result : ResidentSection} {sections after : List Section}
  {generation : Int} {inventory : ContextInventory} {events : List ContextStateEvent}

theorem decodeEntry_eq_ok :
    decodeEntry (encodeEntry entry) = .ok result ↔ entry.Stored ∧ entry = result := by
  refine ⟨fun done => ?_, fun both => ?_⟩
  · obtain ⟨fields, encoded, done⟩ := bind_eq_ok.mp done
    cases encoded
    exact (decodeFields_eq_ok rfl).mp done
  · exact bind_eq_ok.mpr ⟨_, rfl, (decodeFields_eq_ok rfl).mpr both⟩

/-- What an event has to be to be read again. -/
structure Readable (event : ContextStateEvent) : Prop where
  sequence : 0 ≤ event.sequence
  used : 0 ≤ event.usedPortableTokens
  evictions : ∀ eviction ∈ event.evictions, 0 ≤ eviction.portableTokens

theorem decodeEvent_encodeEvent {event : ContextStateEvent} (readable : Readable event) :
    decodeEvent (encodeEvent event) = .ok event := by
  have evictions : (event.evictions.map encodeEviction).mapM decodeEviction =
      .ok event.evictions := by
    refine mapM_encoded fun eviction member => ?_
    refine bind_eq_ok.mpr ⟨_, rfl, bind_eq_ok.mpr ⟨_, (naturalField_eq_ok rfl).mpr
      ⟨readable.evictions eviction member, rfl⟩, ?_⟩⟩
    exact bind_eq_ok.mpr ⟨_, (anyTextField_eq_ok rfl).mpr rfl,
      bind_eq_ok.mpr ⟨_, (anyTextField_eq_ok rfl).mpr rfl, rfl⟩⟩
  refine bind_eq_ok.mpr ⟨_, rfl, ?_⟩
  refine bind_eq_ok.mpr ⟨_, (naturalField_eq_ok rfl).mpr ⟨readable.sequence, rfl⟩, ?_⟩
  refine bind_eq_ok.mpr ⟨_, (naturalField_eq_ok rfl).mpr ⟨readable.used, rfl⟩, ?_⟩
  refine bind_eq_ok.mpr ⟨_, (anyTextField_eq_ok rfl).mpr rfl, ?_⟩
  refine bind_eq_ok.mpr ⟨_, (anyTextField_eq_ok rfl).mpr rfl, ?_⟩
  refine bind_eq_ok.mpr ⟨_, (listField_eq_ok rfl).mpr rfl, ?_⟩
  exact bind_eq_ok.mpr ⟨_, evictions, rfl⟩

/-- The value holds the sections at a generation. -/
def Holds (settings : ContextSettings) (raw : Option Json) (sections : List Section)
    (generation : Int) : Prop :=
  (raw = none ∧ sections = [] ∧ generation = 0) ∨
    ∃ (inventory : ContextInventory) (events : List ContextStateEvent),
      inventory.Holds settings.maxPortableTokens sections ∧ (∀ event ∈ events, Readable event) ∧
        raw = some (encode generation inventory events)

theorem Holds.decode {raw : Option Json} (holds : Holds settings raw sections generation)
    (fits : Recency.Fits settings.maxPortableTokens sections) (natural : 0 ≤ generation)
    (value : EvictionValue ω) : ∃ (inventory : ContextInventory) (events : List ContextStateEvent),
      decode value settings raw = .ok (generation, inventory, events) ∧
        inventory.Holds settings.maxPortableTokens sections ∧ ∀ event ∈ events, Readable event := by
  rcases holds with ⟨rfl, rfl, rfl⟩ | ⟨inventory, events, held, readable, rfl⟩
  · exact ⟨_, [], rfl, ContextInventory.holds_empty, nofun⟩
  · obtain ⟨stored, keys, perm⟩ := held.stored fits
    obtain ⟨rebuilt, done, held'⟩ := held.rebuild fits perm value
    refine ⟨rebuilt, events, ?_, held', readable⟩
    have decoded : decodeValue value settings (encode generation inventory events) =
        .ok (generation, rebuilt, events) := by
      refine bind_eq_ok.mpr ⟨_, rfl, bind_eq_ok.mpr ⟨(), schemaField_eq_ok rfl, ?_⟩⟩
      refine bind_eq_ok.mpr ⟨_, (naturalField_eq_ok rfl).mpr ⟨natural, rfl⟩, ?_⟩
      refine bind_eq_ok.mpr ⟨_, (positiveField_eq_ok rfl).mpr
        ⟨held.1 ▸ settings.positive, rfl⟩, ?_⟩
      refine bind_eq_ok.mpr ⟨(), raiseIf_eq_ok.mpr (not_not.mpr held.1), ?_⟩
      refine bind_eq_ok.mpr ⟨_, (listField_eq_ok rfl).mpr rfl, ?_⟩
      refine bind_eq_ok.mpr ⟨_, (listField_eq_ok rfl).mpr rfl, ?_⟩
      refine bind_eq_ok.mpr ⟨_, mapM_encoded fun entry member =>
        decodeEntry_eq_ok.mpr ⟨stored entry member, rfl⟩, ?_⟩
      refine bind_eq_ok.mpr ⟨(), raiseIf_eq_ok.mpr (not_not.mpr keys), ?_⟩
      refine bind_eq_ok.mpr ⟨rebuilt, done, ?_⟩
      exact bind_eq_ok.mpr ⟨events, mapM_encoded fun event member =>
        decodeEvent_encodeEvent (readable event member), rfl⟩
    rw [ScopedContextState.decode, decoded]
    rfl

variable {raw : Option Json} {action key : String} {evictions : ρ → List Eviction}
  {operation : ContextInventory → Except Raised (ρ × ContextInventory)}

/-- An update fails where its operation fails on what the value holds. -/
theorem Holds.update_error (holds : Holds settings raw sections generation)
    (fits : Recency.Fits settings.maxPortableTokens sections) (natural : 0 ≤ generation)
    (failed : ∀ inventory : ContextInventory,
      inventory.Holds settings.maxPortableTokens sections → ∃ raised, operation inventory = .error raised) :
    ∃ raised, update value settings action key operation evictions raw = .error raised := by
  obtain ⟨inventory, events, done, held, readable⟩ := holds.decode fits natural value
  obtain ⟨raised, failed⟩ := failed inventory held
  refine ⟨raised, ?_⟩
  rw [update, done]
  change operation inventory >>= _ = _
  rw [failed]
  rfl

theorem Holds.update_ok {expected : ρ → Prop} (holds : Holds settings raw sections generation)
    (fits : Recency.Fits settings.maxPortableTokens sections) (natural : 0 ≤ generation)
    (fits' : Recency.Fits settings.maxPortableTokens after)
    (succeeded : ∀ inventory : ContextInventory,
      inventory.Holds settings.maxPortableTokens sections → ∃ result left,
        operation inventory = .ok (result, left) ∧ expected result ∧
          left.Holds settings.maxPortableTokens after)
    (tokens : ∀ result, expected result → ∀ eviction ∈ evictions result,
      0 ≤ eviction.portableTokens) :
    ∃ result written, update value settings action key operation evictions raw =
        .ok (some written, result) ∧ expected result ∧
      Holds settings (some written) after (generation + 1) := by
  obtain ⟨inventory, events, done, held, readable⟩ := holds.decode fits natural value
  obtain ⟨result, left, succeeded, expects, held'⟩ := succeeded inventory held
  let event : ContextStateEvent :=
    ⟨generation + 1, action, key, left.usedPortableTokens, evictions result⟩
  let retained := (events ++ [event]).rtake settings.eventLimit
  have readable' : Readable event := by
    refine ⟨Int.add_nonneg natural Int.one_nonneg, ?_, tokens result expects⟩
    change 0 ≤ left.usedPortableTokens
    rw [held'.used]
    refine List.sum_nonneg fun count member => ?_
    obtain ⟨entry, among, rfl⟩ := List.mem_map.mp member
    exact (fits'.valid entry among).portableTokens
  refine ⟨result, encode (generation + 1) left retained, ?_, expects,
    .inr ⟨left, retained, held', fun other member => ?_, rfl⟩⟩
  · rw [update, done]
    change operation inventory >>= _ = _
    rw [succeeded]
    rfl
  · rcases List.mem_append.mp (List.mem_of_mem_drop member) with old | new
    · exact readable other old
    · exact List.mem_singleton.mp new ▸ readable'

end ScopedContextState

end CapabilityHub.Residency
