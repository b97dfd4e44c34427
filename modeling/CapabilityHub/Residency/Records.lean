import CapabilityHub.Data.Checks
import CapabilityHub.Data.Json
import CapabilityHub.Residency.Recency

/-! # The records that the residency stores write -/

namespace CapabilityHub.Residency

structure ContextStateEvent where
  sequence : Int
  action : String
  key : String
  usedPortableTokens : Int
  evictions : List Eviction := []
  deriving DecidableEq

/-- What bounds a store. -/
structure ContextSettings where
  maxPortableTokens : Int
  eventLimit : Nat := 100
  positive : 0 < maxPortableTokens
  bounded : 1 ≤ eventLimit ∧ eventLimit ≤ 10000

structure ContextStateSnapshot where
  generation : Int
  maxPortableTokens : Int
  usedPortableTokens : Int
  entries : List ResidentSection

/-- `asdict(entry)`. -/
def encodeEntry (entry : ResidentSection) : Json :=
  .obj [("key", .str entry.key), ("revision", .str entry.revision), ("section", .str entry.section),
    ("portable_tokens", .int entry.portableTokens), ("reload_cost", .int entry.reloadCost),
    ("reuse_score", .int entry.reuseScore), ("sensitive", .bool entry.sensitive),
    ("pinned", .bool entry.pinned), ("last_access", .int entry.lastAccess)]

/-- The fields of an encoded section. -/
def entryFields : List String :=
  ["key", "revision", "section", "portable_tokens", "reload_cost", "reuse_score", "sensitive",
    "pinned", "last_access"]

section Fields

variable (raised : Raised) (fields : List (String × Json)) (name : String)

/-- A member that has to be text, and not empty. -/
def textField : Except Raised String :=
  match mappingGet fields name with
  | some (.str text) => if text = "" then .error raised else .ok text
  | _ => .error raised

/-- `_natural`. -/
def naturalField : Except Raised Int :=
  match mappingGet fields name with
  | some (.int number) => if number < 0 then .error raised else .ok number
  | _ => .error raised

/-- `_positive`. -/
def positiveField : Except Raised Int :=
  match mappingGet fields name with
  | some (.int number) => if number ≤ 0 then .error raised else .ok number
  | _ => .error raised

def truthField : Except Raised Bool :=
  match mappingGet fields name with
  | some (.bool truth) => .ok truth
  | _ => .error raised

def listField : Except Raised (List Json) :=
  match mappingGet fields name with
  | some (.arr items) => .ok items
  | _ => .error raised

/-- A member that has to be text. -/
def anyTextField : Except Raised String :=
  match mappingGet fields name with
  | some (.str text) => .ok text
  | _ => .error raised

/-- `value.get("schema_version") != _SCHEMA_VERSION` raises. -/
def schemaField : Except Raised Unit :=
  raiseIf (¬∃ version ∈ mappingGet fields "schema_version", version.same (.int 1)) raised

end Fields

/-- The members of an object. -/
def objectFields (raised : Raised) : Json → Except Raised (List (String × Json))
  | .obj fields => .ok fields
  | _ => .error raised

/-- The checks of both `_decode_entry`, which differ in what they raise. -/
def decodeFields (raised : Raised) (fields : List (String × Json)) :
    Except Raised ResidentSection := do
  let key ← textField raised fields "key"
  let revision ← textField raised fields "revision"
  let selected ← textField raised fields "section"
  let portableTokens ← naturalField raised fields "portable_tokens"
  let reloadCost ← positiveField raised fields "reload_cost"
  let reuseScore ← positiveField raised fields "reuse_score"
  let sensitive ← truthField raised fields "sensitive"
  let pinned ← truthField raised fields "pinned"
  let lastAccess ← naturalField raised fields "last_access"
  .ok ⟨⟨key, revision, selected, portableTokens, reloadCost, reuseScore, sensitive, pinned⟩,
    lastAccess⟩

/-- What a store can take up again. -/
def ResidentSection.Stored (entry : ResidentSection) : Prop :=
  entry.toSection.Valid ∧ 0 ≤ entry.lastAccess

section

variable {raised : Raised} {fields : List (String × Json)} {name : String}

theorem textField_eq_ok {value result : String}
    (found : mappingGet fields name = some (.str value)) :
    textField raised fields name = .ok result ↔ value ≠ "" ∧ value = result := by
  rw [textField, found]
  dsimp only
  split
  next empty => exact ⟨nofun, fun both => absurd empty both.1⟩
  next full => exact ⟨fun same => ⟨full, Except.ok.inj same⟩, fun both => congrArg _ both.2⟩

theorem naturalField_eq_ok {value result : Int}
    (found : mappingGet fields name = some (.int value)) :
    naturalField raised fields name = .ok result ↔ 0 ≤ value ∧ value = result := by
  rw [naturalField, found]
  dsimp only
  split
  next less => exact ⟨nofun, fun both => absurd less (not_lt.mpr both.1)⟩
  next natural =>
    exact ⟨fun same => ⟨not_lt.mp natural, Except.ok.inj same⟩, fun both => congrArg _ both.2⟩

theorem positiveField_eq_ok {value result : Int}
    (found : mappingGet fields name = some (.int value)) :
    positiveField raised fields name = .ok result ↔ 0 < value ∧ value = result := by
  rw [positiveField, found]
  dsimp only
  split
  next less => exact ⟨nofun, fun both => absurd less (not_le.mpr both.1)⟩
  next positive =>
    exact ⟨fun same => ⟨not_le.mp positive, Except.ok.inj same⟩, fun both => congrArg _ both.2⟩

theorem truthField_eq_ok {value result : Bool}
    (found : mappingGet fields name = some (.bool value)) :
    truthField raised fields name = .ok result ↔ value = result := by
  rw [truthField, found]
  exact ⟨Except.ok.inj, congrArg _⟩

theorem listField_eq_ok {value result : List Json}
    (found : mappingGet fields name = some (.arr value)) :
    listField raised fields name = .ok result ↔ value = result := by
  rw [listField, found]
  exact ⟨Except.ok.inj, congrArg _⟩

theorem anyTextField_eq_ok {value result : String}
    (found : mappingGet fields name = some (.str value)) :
    anyTextField raised fields name = .ok result ↔ value = result := by
  rw [anyTextField, found]
  exact ⟨Except.ok.inj, congrArg _⟩

theorem schemaField_eq_ok (found : mappingGet fields "schema_version" = some (.int 1)) :
    schemaField raised fields = .ok () := by
  refine raiseIf_eq_ok.mpr (not_not.mpr ⟨.int 1, found, ?_⟩)
  rfl

end

/-- A section is taken where it is one that can be stored, and comes through unchanged. -/
theorem decodeFields_eq_ok {raised : Raised} {fields : List (String × Json)}
    {entry result : ResidentSection} (encoded : encodeEntry entry = .obj fields) :
    decodeFields raised fields = .ok result ↔ entry.Stored ∧ entry = result := by
  cases encoded
  refine ⟨fun done => ?_, fun both => ?_⟩
  · obtain ⟨key, done₁, done⟩ := bind_eq_ok.mp done
    obtain ⟨revision, done₂, done⟩ := bind_eq_ok.mp done
    obtain ⟨selected, done₃, done⟩ := bind_eq_ok.mp done
    obtain ⟨portableTokens, done₄, done⟩ := bind_eq_ok.mp done
    obtain ⟨reloadCost, done₅, done⟩ := bind_eq_ok.mp done
    obtain ⟨reuseScore, done₆, done⟩ := bind_eq_ok.mp done
    obtain ⟨sensitive, done₇, done⟩ := bind_eq_ok.mp done
    obtain ⟨pinned, done₈, done⟩ := bind_eq_ok.mp done
    obtain ⟨lastAccess, done₉, done⟩ := bind_eq_ok.mp done
    obtain ⟨keyed, rfl⟩ := (textField_eq_ok rfl).mp done₁
    obtain ⟨revised, rfl⟩ := (textField_eq_ok rfl).mp done₂
    obtain ⟨sectioned, rfl⟩ := (textField_eq_ok rfl).mp done₃
    obtain ⟨natural, rfl⟩ := (naturalField_eq_ok rfl).mp done₄
    obtain ⟨costs, rfl⟩ := (positiveField_eq_ok rfl).mp done₅
    obtain ⟨scores, rfl⟩ := (positiveField_eq_ok rfl).mp done₆
    obtain rfl := (truthField_eq_ok rfl).mp done₇
    obtain rfl := (truthField_eq_ok rfl).mp done₈
    obtain ⟨used, rfl⟩ := (naturalField_eq_ok rfl).mp done₉
    exact ⟨⟨⟨keyed, revised, sectioned, natural, costs, scores⟩, used⟩, Except.ok.inj done⟩
  · obtain ⟨⟨valid, used⟩, rfl⟩ := both
    refine bind_eq_ok.mpr ⟨_, (textField_eq_ok rfl).mpr ⟨valid.key, rfl⟩, ?_⟩
    refine bind_eq_ok.mpr ⟨_, (textField_eq_ok rfl).mpr ⟨valid.revision, rfl⟩, ?_⟩
    refine bind_eq_ok.mpr ⟨_, (textField_eq_ok rfl).mpr ⟨valid.section, rfl⟩, ?_⟩
    refine bind_eq_ok.mpr ⟨_, (naturalField_eq_ok rfl).mpr ⟨valid.portableTokens, rfl⟩, ?_⟩
    refine bind_eq_ok.mpr ⟨_, (positiveField_eq_ok rfl).mpr ⟨valid.reloadCost, rfl⟩, ?_⟩
    refine bind_eq_ok.mpr ⟨_, (positiveField_eq_ok rfl).mpr ⟨valid.reuseScore, rfl⟩, ?_⟩
    refine bind_eq_ok.mpr ⟨_, (truthField_eq_ok rfl).mpr rfl, ?_⟩
    refine bind_eq_ok.mpr ⟨_, (truthField_eq_ok rfl).mpr rfl, ?_⟩
    exact bind_eq_ok.mpr ⟨_, (naturalField_eq_ok rfl).mpr ⟨used, rfl⟩, rfl⟩

/-- Items that decode to what was encoded come back as the list. -/
theorem mapM_encoded {α : Type} {encode : α → Json} {decode : Json → Except Raised α}
    {items : List α} (each : ∀ item ∈ items, decode (encode item) = .ok item) :
    (items.map encode).mapM decode = .ok items := by
  induction items with
  | nil => rfl
  | cons first rest ih =>
      rw [List.map_cons]
      exact mapM_cons_eq_ok.mpr ⟨first, rest, each first List.mem_cons_self,
        ih fun item member => each item (List.mem_cons_of_mem _ member), rfl⟩

namespace ContextInventory

variable {ω : Type} [LinearOrder ω] {inventory : ContextInventory} {limit : Int}
  {sections : List Section}

/-- The sections of an inventory can be taken up again. -/
theorem Holds.stored (holds : inventory.Holds limit sections) (fits : Recency.Fits limit sections) :
    (∀ entry ∈ inventory.sections, entry.Stored) ∧ (inventory.sections.map (·.key)).Nodup ∧
      inventory.sections.Perm inventory.values := by
  obtain ⟨_, listed, lists, rfl⟩ := holds
  have perm : inventory.sections.Perm inventory.values := perm_sortedBy _ _
  refine ⟨fun entry member => ?_, ?_, perm⟩
  · have among := (lists.mem entry).mpr (perm.mem_iff.mp member)
    exact ⟨fits.valid _ (List.mem_map_of_mem among), (lists.past entry among).1⟩
  · have keys := fits.keys
    rw [List.map_map] at keys
    exact ((perm.trans lists.perm.symm).map _).nodup_iff.mpr keys

theorem Holds.used (holds : inventory.Holds limit sections) :
    inventory.usedPortableTokens = Recency.used sections := by
  obtain ⟨_, listed, lists, rfl⟩ := holds
  exact lists.used

/-- The sections in the order of their last use. -/
def recency (entries : List ResidentSection) : List Section :=
  (sortedBy (·.lastAccess) entries).map (·.toSection)

theorem Holds.recency (holds : inventory.Holds limit sections) :
    recency inventory.sections = sections := by
  obtain ⟨_, listed, lists, rfl⟩ := holds
  have perm : inventory.sections.Perm listed := (perm_sortedBy _ _).trans lists.perm.symm
  exact congrArg _ (sortedBy_of_perm _ lists.ordered perm)

theorem maxPortableTokens_evictToLimit (value : EvictionValue ω) (exclude : String) :
    (evictToLimit value exclude inventory).2.maxPortableTokens = inventory.maxPortableTokens := by
  induction inventory using evictToLimit.induct value exclude with
  | case1 inventory fits =>
      rw [evictToLimit, if_pos fits]
  | case2 inventory full none =>
      rw [evictToLimit, if_neg full]
      split
      · rfl
      next found => cases none.symm.trans found
  | case3 inventory full victim found ih =>
      rw [evictToLimit, if_neg full]
      split
      · rfl
      next same =>
        cases found.symm.trans same
        exact ih

/-- The bound of an inventory stays as it is. -/
theorem maxPortableTokens_add (value : EvictionValue ω) (entry : ResidentSection) :
    (inventory.add value entry).2.maxPortableTokens = inventory.maxPortableTokens := by
  have kept : (evictToLimit value entry.key ((inventory.pop entry.key).touch entry)).2.maxPortableTokens =
      inventory.maxPortableTokens := maxPortableTokens_evictToLimit value entry.key
  unfold ContextInventory.add
  split
  · rfl
  · generalize evictToLimit value entry.key ((inventory.pop entry.key).touch entry) = outcome at kept
    obtain ⟨result, left⟩ := outcome
    cases result with
    | ok evictions => exact kept
    | error raised =>
        dsimp only
        split <;> exact kept

end ContextInventory

end CapabilityHub.Residency
