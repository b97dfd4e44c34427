import CapabilityHub.Data.Dict
import CapabilityHub.Data.Order
import CapabilityHub.Errors
import Mathlib

/-! # The inventory of disclosed sections

`ContextInventory`. An operation gives its result together with the inventory that it leaves, which
it also does where it raises. The value that an eviction goes by is a parameter.
-/

namespace CapabilityHub.Residency

/-- What a resident section is, apart from when it was used. -/
structure Section where
  key : String
  revision : String
  «section» : String
  portableTokens : Int
  reloadCost : Int := 1
  reuseScore : Int := 1
  sensitive : Bool := false
  pinned : Bool := false
  deriving DecidableEq

structure ResidentSection extends Section where
  lastAccess : Int := 0
  deriving DecidableEq

structure Eviction where
  key : String
  portableTokens : Int
  reason : String
  deriving DecidableEq

/-- The value of a section, by its tokens, its cost to reload, its reuse and whether it is
sensitive. -/
abbrev EvictionValue (ω : Type) := Int → Int → Int → Bool → ω

theorem keyed_empty (key : String) (entry : ResidentSection)
    (found : (∅ : Dict String ResidentSection).get? key = some entry) : entry.key = key := by
  cases found

structure ContextInventory where
  maxPortableTokens : Int
  entries : Dict String ResidentSection := ∅
  clock : Nat := 0
  /-- A section is stored under its key. -/
  keyed : ∀ key entry, entries.get? key = some entry → entry.key = key := by
    exact keyed_empty

namespace Errors

def budgetExhausted : Raised :=
  .hub { code := "context_budget_exhausted", category := .budget,
         safeMessage := "The context budget cannot fit all pinned sections." }

end Errors

def Section.value {ω : Type} (value : EvictionValue ω) (entry : Section) : ω :=
  value entry.portableTokens entry.reloadCost entry.reuseScore entry.sensitive

variable {ω : Type} [LinearOrder ω] (value : EvictionValue ω)

-- the order of the integers as such, without any instance that classical logic gives
local instance integerOrder : Preorder Int := Int.instLinearOrder.toPreorder

/-- `_eviction_order`. -/
def evictionOrder (entry : ResidentSection) : ω ×ₗ Int ×ₗ String :=
  toLex (entry.toSection.value value, toLex (entry.lastAccess, entry.key))

namespace ContextInventory

variable (inventory : ContextInventory)

/-- The sections, in the order of the dictionary. -/
def values : List ResidentSection := inventory.entries.entries.map Prod.snd

/-- `used_portable_tokens`. -/
def usedPortableTokens : Int := (inventory.values.map (·.portableTokens)).sum

/-- `entries`, in the order of their keys. -/
def sections : List ResidentSection := sortedBy (·.key) inventory.values

/-- `_entries.pop`. -/
def pop (key : String) : ContextInventory where
  maxPortableTokens := inventory.maxPortableTokens
  entries := inventory.entries.erase key
  clock := inventory.clock
  keyed := fun other entry found => by
    rw [Dict.get?_erase] at found
    split at found
    · cases found
    · exact inventory.keyed other entry found

/-- `_entries[entry.key] = entry`. -/
def store (entry : ResidentSection) : ContextInventory where
  maxPortableTokens := inventory.maxPortableTokens
  entries := inventory.entries.set entry.key entry
  clock := inventory.clock
  keyed := fun other stored found => by
    rw [Dict.get?_set] at found
    split at found
    next same =>
      cases found
      exact same.symm
    next => exact inventory.keyed other stored found

/-- `_touch`, of a section that is stored. -/
def touch (entry : ResidentSection) : ContextInventory :=
  { inventory with clock := inventory.clock + 1 }.store
    { entry with lastAccess := inventory.clock + 1 }

def candidates (exclude : String) : List ResidentSection :=
  inventory.values.filter fun entry => ¬entry.pinned ∧ entry.key ≠ exclude

variable {inventory} {entry : ResidentSection} {key exclude : String}

theorem mem_values : entry ∈ inventory.values ↔ inventory.entries.get? entry.key = some entry := by
  refine ⟨fun member => ?_, fun found => ?_⟩
  · obtain ⟨⟨key, _⟩, among, rfl⟩ := List.mem_map.mp member
    have found := Dict.mem_entries_iff.mp among
    rw [inventory.keyed key _ found]
    exact found
  · exact List.mem_map.mpr ⟨(entry.key, entry), Dict.mem_entries_iff.mpr found, rfl⟩

theorem mem_candidates : entry ∈ inventory.candidates exclude ↔
    entry ∈ inventory.values ∧ ¬entry.pinned ∧ entry.key ≠ exclude := by
  rw [candidates, List.mem_filter, decide_eq_true_eq]

theorem size_pop (member : entry ∈ inventory.values) :
    (inventory.pop entry.key).entries.size < inventory.entries.size := by
  have shrinks := Dict.size_erase_add_one (Dict.mem_keys_of_get? (mem_values.mp member))
  exact Nat.lt_of_succ_le (Nat.le_of_eq shrinks)

/-- `_evict_to_limit`. -/
def evictToLimit (exclude : String) (inventory : ContextInventory) :
    Except Raised (List Eviction) × ContextInventory :=
  if inventory.usedPortableTokens ≤ inventory.maxPortableTokens then (.ok [], inventory)
  else
    match found : (inventory.candidates exclude).argmin (evictionOrder value) with
    | none => (.error Errors.budgetExhausted, inventory)
    | some victim =>
        let rest := evictToLimit exclude (inventory.pop victim.key)
        (rest.1.map (⟨victim.key, victim.portableTokens, "budget_pressure"⟩ :: ·), rest.2)
termination_by inventory.entries.size
decreasing_by exact size_pop (mem_candidates.mp (List.argmin_mem found)).1

variable (inventory) (entry) (key)

/-- `add`. -/
def add : Except Raised (List Eviction) × ContextInventory :=
  if entry.key = "" ∨ entry.portableTokens < 0 then (.error .valueError, inventory)
  else
    let previous := inventory.entries.get? entry.key
    match evictToLimit value entry.key ((inventory.pop entry.key).touch entry) with
    | (.ok evictions, left) => (.ok evictions, left)
    | (.error raised, left) =>
        (.error raised, match previous with
          | none => left.pop entry.key
          | some previous => (left.pop entry.key).store previous)

/-- `access`; `none` where it raises `KeyError`. -/
def access : Option (ResidentSection × ContextInventory) :=
  (inventory.entries.get? key).map fun entry =>
    ({ entry with lastAccess := inventory.clock + 1 }, inventory.touch entry)

/-- `pin`; `none` where it raises `KeyError`. -/
def pin (pinned : Bool) : Option ContextInventory :=
  (inventory.access key).map fun (entry, accessed) =>
    accessed.store { entry with pinned := pinned }

/-- `remove`; `none` where it raises `KeyError`. -/
def remove : Option (Eviction × ContextInventory) :=
  (inventory.entries.get? key).map fun entry =>
    (⟨key, entry.portableTokens, "explicit"⟩, inventory.pop key)

/-- One round of `rebuild`. -/
def readd (inventory : ContextInventory) (entry : ResidentSection) :
    Except Raised ContextInventory :=
  match inventory.add value entry with
  | (.ok _, left) => .ok left
  | (.error raised, _) => .error raised

/-- The loop by which both stores take up sections again, in the order of their last use. -/
def rebuild (limit : Int) (entries : List ResidentSection) : Except Raised ContextInventory :=
  (sortedBy (·.lastAccess) entries).foldlM (readd value) { maxPortableTokens := limit }

end ContextInventory

end CapabilityHub.Residency
