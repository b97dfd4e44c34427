import CapabilityHub.Residency.Records
import Mathlib.Data.List.DropRight

/-! # The residency of one process

`LocalContextState`. Its file is the JSON value that was written last.
-/

namespace CapabilityHub.Residency

variable {ω ρ : Type} [LinearOrder ω] (value : EvictionValue ω) (settings : ContextSettings)

/-- An exception of a store: `KeyError`, or another. -/
inductive ContextError where
  | keyError
  | raised (error : Raised)
  deriving DecidableEq

namespace Errors

def contextStateInvalid : Raised :=
  .hub { code := "context_state_invalid", category := .input,
         safeMessage := "The persisted context state is invalid or incompatible." }

end Errors

structure LocalContextState where
  inventory : ContextInventory
  generation : Int := 0
  events : List ContextStateEvent := []
  file : Option Json := none

namespace LocalContextState

/-- `_decode_entry`. -/
def decodeEntry (entry : Json) : Except Raised ResidentSection := do
  let fields ← objectFields .valueError entry
  let decoded ← decodeFields .valueError fields
  raiseIf (¬fields.all fun field => field.1 ∈ entryFields) .typeError
  .ok decoded

/-- What `_save` writes. -/
def payload (inventory : ContextInventory) (generation : Int) : Json :=
  .obj [("entries", .arr (inventory.sections.map encodeEntry)), ("generation", .int generation),
    ("max_portable_tokens", .int inventory.maxPortableTokens), ("schema_version", .int 1)]

/-- `_decode`. -/
def decode (payload : Json) : Except Raised (Int × Int × List ResidentSection) := do
  let fields ← objectFields .valueError payload
  schemaField .valueError fields
  let generation ← naturalField .valueError fields "generation"
  let limit ← positiveField .valueError fields "max_portable_tokens"
  let rawEntries ← listField .valueError fields "entries"
  let entries ← rawEntries.mapM decodeEntry
  raiseIf (¬(entries.map (·.key)).Nodup) .valueError
  .ok (generation, limit, entries)

/-- What `_load` makes of an error. -/
def loadError : Raised → Raised
  | .hub error => .hub error
  | _ => Errors.contextStateInvalid

/-- `_load`. -/
def load (payload : Json) : Except Raised (Int × ContextInventory) := do
  let (generation, limit, entries) ← decode payload
  raiseIf (limit ≠ settings.maxPortableTokens) .valueError
  let inventory ← ContextInventory.rebuild value settings.maxPortableTokens entries
  .ok (generation, inventory)

/-- The constructor, on the file that is there. -/
def openFile (file : Option Json) : Except Raised LocalContextState :=
  match file with
  | none => .ok { inventory := { maxPortableTokens := settings.maxPortableTokens } }
  | some payload =>
      ((load value settings payload).mapError loadError).map fun (generation, inventory) =>
        { inventory := inventory, generation := generation, file := some payload }

variable (state : LocalContextState)

def snapshot : ContextStateSnapshot :=
  ⟨state.generation, state.inventory.maxPortableTokens, state.inventory.usedPortableTokens,
    state.inventory.sections⟩

/-- `_record`. -/
def record (action key : String) (evictions : List Eviction) : LocalContextState :=
  let event : ContextStateEvent :=
    ⟨state.generation, action, key, state.inventory.usedPortableTokens, evictions⟩
  { state with events := (state.events ++ [event]).rtake settings.eventLimit }

/-- What the four changes have in common: a change that raises is taken back from the sections as
they were. -/
def change (action key : String)
    (operation : ContextInventory → Except ContextError ρ × ContextInventory)
    (evictions : ρ → List Eviction) : Except ContextError ρ × LocalContextState :=
  let backup := state.inventory.sections
  match operation state.inventory with
  | (.error raised, left) =>
      match ContextInventory.rebuild value left.maxPortableTokens backup with
      | .ok restored => (.error raised, { state with inventory := restored })
      | .error again => (.error (.raised again), { state with inventory := left })
  | (.ok result, left) =>
      let saved : LocalContextState :=
        { state with
          inventory := left
          generation := state.generation + 1
          file := some (payload left (state.generation + 1)) }
      (.ok result, saved.record settings action key (evictions result))

/-- An operation that raises `KeyError` leaves the inventory as it is. -/
def keyed (operation : ContextInventory → Option (ρ × ContextInventory))
    (inventory : ContextInventory) : Except ContextError ρ × ContextInventory :=
  match operation inventory with
  | none => (.error .keyError, inventory)
  | some (result, left) => (.ok result, left)

def add (entry : ResidentSection) : Except ContextError (List Eviction) × LocalContextState :=
  state.change value settings "add" entry.key (fun inventory =>
    match decodeEntry (encodeEntry entry) with
    | .error raised => (.error (.raised raised), inventory)
    | .ok selected =>
        let added := inventory.add value selected
        (added.1.mapError .raised, added.2)) id

def access (key : String) : Except ContextError ResidentSection × LocalContextState :=
  state.change value settings "access" key (keyed (·.access key)) fun _ => []

def pin (key : String) (pinned : Bool) : Except ContextError Unit × LocalContextState :=
  state.change value settings (if pinned then "pin" else "unpin") key
    (keyed fun inventory => (inventory.pin key pinned).map ((), ·)) fun _ => []

def remove (key : String) : Except ContextError Eviction × LocalContextState :=
  state.change value settings "remove" key (keyed (·.remove key)) ([·])

/-! ## What the changes do to the list of sections -/

variable {value} {settings} {state} {entry result : ResidentSection} {sections after : List Section}
  {generation : Int} {inventory : ContextInventory}

theorem decodeEntry_eq_ok :
    decodeEntry (encodeEntry entry) = .ok result ↔ entry.Stored ∧ entry = result := by
  refine ⟨fun done => ?_, fun both => ?_⟩
  · obtain ⟨fields, encoded, done⟩ := bind_eq_ok.mp done
    obtain ⟨decoded, done', done⟩ := bind_eq_ok.mp done
    obtain ⟨_, _, done⟩ := bind_eq_ok.mp done
    cases encoded
    cases done
    exact (decodeFields_eq_ok rfl).mp done'
  · refine bind_eq_ok.mpr ⟨_, rfl, bind_eq_ok.mpr ⟨result, (decodeFields_eq_ok rfl).mpr both, ?_⟩⟩
    exact bind_eq_ok.mpr ⟨(), raiseIf_eq_ok.mpr (not_not.mpr rfl), rfl⟩

theorem decode_payload (stored : ∀ entry ∈ inventory.sections, entry.Stored)
    (keys : (inventory.sections.map (·.key)).Nodup) (natural : 0 ≤ generation)
    (positive : 0 < inventory.maxPortableTokens) :
    decode (payload inventory generation) =
      .ok (generation, inventory.maxPortableTokens, inventory.sections) := by
  refine bind_eq_ok.mpr ⟨_, rfl, bind_eq_ok.mpr ⟨(), schemaField_eq_ok rfl, ?_⟩⟩
  refine bind_eq_ok.mpr ⟨_, (naturalField_eq_ok rfl).mpr ⟨natural, rfl⟩, ?_⟩
  refine bind_eq_ok.mpr ⟨_, (positiveField_eq_ok rfl).mpr ⟨positive, rfl⟩, ?_⟩
  refine bind_eq_ok.mpr ⟨_, (listField_eq_ok rfl).mpr rfl, ?_⟩
  refine bind_eq_ok.mpr ⟨_, mapM_encoded fun entry member =>
    decodeEntry_eq_ok.mpr ⟨stored entry member, rfl⟩, ?_⟩
  exact bind_eq_ok.mpr ⟨(), raiseIf_eq_ok.mpr (not_not.mpr keys), rfl⟩

/-- The store holds the sections at a generation, and its file says the same. -/
structure Holds (settings : ContextSettings) (state : LocalContextState) (sections : List Section)
    (generation : Int) : Prop where
  held : state.inventory.Holds settings.maxPortableTokens sections
  counted : state.generation = generation
  file : (state.file = none ∧ sections = [] ∧ generation = 0) ∨
    ∃ written : ContextInventory, written.Holds settings.maxPortableTokens sections ∧
      state.file = some (payload written generation)

/-- A store that is opened again holds what it held. -/
theorem Holds.openFile (holds : state.Holds settings sections generation)
    (fits : Recency.Fits settings.maxPortableTokens sections) (natural : 0 ≤ generation)
    (value : EvictionValue ω) : ∃ opened, openFile value settings state.file = .ok opened ∧
      opened.Holds settings sections generation := by
  rcases holds.file with ⟨absent, rfl, rfl⟩ | ⟨written, held, present⟩
  · rw [absent]
    exact ⟨_, rfl, ContextInventory.holds_empty, rfl, .inl ⟨rfl, rfl, rfl⟩⟩
  · rw [present]
    obtain ⟨stored, keys, perm⟩ := held.stored fits
    obtain ⟨rebuilt, done, held'⟩ := held.rebuild fits perm value
    have decoded := decode_payload stored keys natural (held.1 ▸ settings.positive)
    have loaded : load value settings (payload written generation) = .ok (generation, rebuilt) := by
      refine bind_eq_ok.mpr ⟨_, decoded, ?_⟩
      refine bind_eq_ok.mpr ⟨(), raiseIf_eq_ok.mpr (not_not.mpr held.1), ?_⟩
      exact bind_eq_ok.mpr ⟨rebuilt, done, rfl⟩
    refine ⟨_, by rw [LocalContextState.openFile, loaded]; rfl, held', rfl, ?_⟩
    exact .inr ⟨written, held, rfl⟩

variable {action key : String} {evictions : ρ → List Eviction}
  {operation : ContextInventory → Except ContextError ρ × ContextInventory}

/-- A change that raises is taken back. -/
theorem Holds.change_error {raised : ContextError} (holds : state.Holds settings sections generation)
    (fits : Recency.Fits settings.maxPortableTokens sections)
    (failed : (operation state.inventory).1 = .error raised)
    (limited : (operation state.inventory).2.maxPortableTokens = settings.maxPortableTokens) :
    (state.change value settings action key operation evictions).1 = .error raised ∧
      (state.change value settings action key operation evictions).2.Holds settings sections
        generation := by
  obtain ⟨stored, keys, perm⟩ := holds.held.stored fits
  obtain ⟨rebuilt, done, held⟩ := holds.held.rebuild fits perm value
  unfold change
  dsimp only
  generalize operation state.inventory = outcome at failed limited
  obtain ⟨result, left⟩ := outcome
  cases failed
  have limited : left.maxPortableTokens = settings.maxPortableTokens := limited
  dsimp only
  rw [limited, done]
  exact ⟨rfl, held, holds.counted, holds.file⟩

theorem Holds.change_ok {result : ρ} (holds : state.Holds settings sections generation)
    (succeeded : (operation state.inventory).1 = .ok result)
    (held : (operation state.inventory).2.Holds settings.maxPortableTokens after) :
    (state.change value settings action key operation evictions).1 = .ok result ∧
      (state.change value settings action key operation evictions).2.Holds settings after
        (generation + 1) := by
  unfold change
  dsimp only
  generalize operation state.inventory = outcome at succeeded held
  obtain ⟨result', left⟩ := outcome
  cases succeeded
  refine ⟨rfl, held, congrArg (· + 1) holds.counted, .inr ⟨left, held, ?_⟩⟩
  exact congrArg (fun generation => some (payload left (generation + 1))) holds.counted

end LocalContextState

end CapabilityHub.Residency
