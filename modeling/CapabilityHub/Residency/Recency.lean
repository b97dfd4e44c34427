import CapabilityHub.Residency.Inventory
import Mathlib.Algebra.Order.BigOperators.Group.List
import Mathlib.Algebra.Order.Ring.Int

/-! # Sections in the order of their last use

What an inventory is for, without its counter: a list of sections, the one whose last use is the
oldest first. `Lists` says that an inventory holds such a list, and each operation of an inventory
does to it what the operation of the same name does to the list.
-/

namespace CapabilityHub.Residency

variable {ω : Type} [LinearOrder ω] (value : EvictionValue ω)

/-- What both stores ask of a section. -/
structure Section.Valid (entry : Section) : Prop where
  key : entry.key ≠ ""
  revision : entry.revision ≠ ""
  «section» : entry.section ≠ ""
  portableTokens : 0 ≤ entry.portableTokens
  reloadCost : 0 < entry.reloadCost
  reuseScore : 0 < entry.reuseScore

namespace Recency

def used (sections : List Section) : Int := (sections.map (·.portableTokens)).sum

def without (key : String) (sections : List Section) : List Section :=
  sections.filter (·.key ≠ key)

def candidates (exclude : String) (sections : List Section) : List Section :=
  sections.filter fun entry => ¬entry.pinned ∧ entry.key ≠ exclude

variable {sections : List Section} {entry : Section} {key exclude : String}

theorem mem_without : entry ∈ without key sections ↔ entry ∈ sections ∧ entry.key ≠ key := by
  rw [without, List.mem_filter, decide_eq_true_eq]

theorem length_without (member : entry ∈ sections) :
    (without entry.key sections).length < sections.length := by
  refine Nat.lt_of_le_of_ne (List.length_filter_le _ _) fun same => ?_
  have kept := List.length_filter_eq_length_iff.mp same entry member
  exact of_decide_eq_true kept rfl

/-- Evict the least valuable, and of those the one whose last use is the oldest, until the rest
fits. -/
def evict (limit : Int) (exclude : String) (sections : List Section) :
    Option (List Eviction × List Section) :=
  if used sections ≤ limit then some ([], sections)
  else
    match found : (candidates exclude sections).argmin (·.value value) with
    | none => none
    | some victim =>
        (evict limit exclude (without victim.key sections)).map fun rest =>
          (⟨victim.key, victim.portableTokens, "budget_pressure"⟩ :: rest.1, rest.2)
termination_by sections.length
decreasing_by exact length_without (List.mem_filter.mp (List.argmin_mem found)).1

variable (entry) (key) (sections)

def add (limit : Int) : Option (List Eviction × List Section) :=
  evict value limit entry.key (without entry.key sections ++ [entry])

def find (key : String) (sections : List Section) : Option Section :=
  sections.find? (·.key = key)

def access : Option (Section × List Section) :=
  (find key sections).map fun entry => (entry, without key sections ++ [entry])

def pin (pinned : Bool) : Option (List Section) :=
  (find key sections).map fun entry => without key sections ++ [{ entry with pinned := pinned }]

def remove : Option (Eviction × List Section) :=
  (find key sections).map fun entry =>
    (⟨key, entry.portableTokens, "explicit"⟩, without key sections)

/-! ## Lists that fit -/

/-- The sections that a store may hold. -/
structure Fits (limit : Int) (sections : List Section) : Prop where
  valid : ∀ entry ∈ sections, entry.Valid
  keys : (sections.map (·.key)).Nodup
  within : used sections ≤ limit

variable {value} {sections} {entry} {key} {limit : Int} {evictions : List Eviction}
  {after : List Section}

theorem fits_nil (positive : 0 < limit) : Fits limit [] :=
  ⟨fun _ member => absurd member List.not_mem_nil, List.nodup_nil, positive.le⟩

theorem used_append {first second : List Section} :
    used (first ++ second) = used first + used second := by
  rw [used, List.map_append, List.sum_append]
  rfl

theorem used_le_of_sublist (valid : ∀ entry ∈ sections, entry.Valid)
    (sublist : after.Sublist sections) : used after ≤ used sections := by
  refine (sublist.map _).sum_le_sum fun tokens member => ?_
  obtain ⟨entry, among, rfl⟩ := List.mem_map.mp member
  exact (valid entry among).portableTokens

/-- What an eviction leaves. -/
theorem evict_eq_some (evicted : evict value limit exclude sections = some (evictions, after)) :
    after.Sublist sections ∧ used after ≤ limit ∧
      ∀ eviction ∈ evictions, ∃ entry ∈ sections, entry.portableTokens = eviction.portableTokens := by
  induction sections using evict.induct value limit exclude generalizing evictions with
  | case1 sections fits =>
      rw [evict, if_pos fits] at evicted
      cases evicted
      exact ⟨.refl _, fits, fun _ member => absurd member List.not_mem_nil⟩
  | case2 sections full none =>
      rw [evict, if_neg full] at evicted
      split at evicted
      · cases evicted
      next found => exact nomatch none.symm.trans found
  | case3 sections full victim found ih =>
      rw [evict, if_neg full] at evicted
      split at evicted
      · cases evicted
      next same =>
        cases found.symm.trans same
        obtain ⟨⟨others, left⟩, rest, joined⟩ := Option.map_eq_some_iff.mp evicted
        cases joined
        obtain ⟨sublist, within, tokens⟩ := ih rest
        refine ⟨sublist.trans List.filter_sublist, within, fun eviction member => ?_⟩
        rcases List.mem_cons.mp member with rfl | later
        · exact ⟨victim, (List.mem_filter.mp (List.argmin_mem found)).1, rfl⟩
        · obtain ⟨entry, among, same⟩ := tokens eviction later
          exact ⟨entry, (mem_without.mp among).1, same⟩

theorem Fits.sublist (fits : Fits limit sections) (sublist : after.Sublist sections) :
    Fits limit after where
  valid := fun entry member => fits.valid entry (sublist.subset member)
  keys := fits.keys.sublist (sublist.map _)
  within := (used_le_of_sublist fits.valid sublist).trans fits.within

/-- A section with a key of its own keeps the keys apart. -/
theorem keys_append (keys : (sections.map (·.key)).Nodup) :
    ((Recency.without entry.key sections ++ [entry]).map (·.key)).Nodup := by
  rw [List.map_append]
  refine List.nodup_append.mpr ⟨keys.sublist (List.filter_sublist.map _),
    List.nodup_singleton _, fun name member other same => ?_⟩
  obtain ⟨stored, among, rfl⟩ := List.mem_map.mp member
  rw [List.mem_singleton.mp same]
  exact (mem_without.mp among).2

theorem Fits.add (fits : Fits limit sections) (valid : entry.Valid)
    (added : Recency.add value sections entry limit = some (evictions, after)) :
    Fits limit after ∧ ∀ eviction ∈ evictions, 0 ≤ eviction.portableTokens := by
  obtain ⟨sublist, within, tokens⟩ := evict_eq_some added
  have all : ∀ other ∈ Recency.without entry.key sections ++ [entry], other.Valid := by
    intro other member
    rcases List.mem_append.mp member with old | new
    · exact fits.valid other (mem_without.mp old).1
    · exact List.mem_singleton.mp new ▸ valid
  refine ⟨⟨fun other member => all other (sublist.subset member),
    (keys_append fits.keys).sublist (sublist.map _), within⟩, fun eviction member => ?_⟩
  obtain ⟨victim, among, same⟩ := tokens eviction member
  exact same ▸ (all victim among).portableTokens

theorem find_eq_some (found : find key sections = some entry) :
    entry ∈ sections ∧ entry.key = key :=
  ⟨List.mem_of_find?_eq_some found, of_decide_eq_true (List.find?_some found :)⟩

/-- A section that is used is moved to the end. -/
theorem perm_of_find (keys : (sections.map (·.key)).Nodup) (found : find key sections = some entry) :
    (Recency.without key sections ++ [entry]).Perm sections := by
  obtain ⟨member, rfl⟩ := find_eq_some found
  have nodup := List.Nodup.of_map _ keys
  refine (List.perm_ext_iff_of_nodup (List.Nodup.of_map _ (keys_append keys)) nodup).mpr fun other => ?_
  rw [List.mem_append, List.mem_singleton, mem_without]
  refine ⟨fun either => ?_, fun inside => ?_⟩
  · rcases either with both | rfl
    · exact both.1
    · exact member
  · by_cases same : other.key = entry.key
    · exact .inr (List.inj_on_of_nodup_map keys inside member same)
    · exact .inl ⟨inside, same⟩

theorem Fits.perm (fits : Fits limit sections) (perm : after.Perm sections) : Fits limit after where
  valid := fun entry member => fits.valid entry (perm.mem_iff.mp member)
  keys := (perm.map _).nodup_iff.mpr fits.keys
  within := ((perm.map _).sum_eq).trans_le fits.within

theorem Fits.access (fits : Fits limit sections)
    (accessed : Recency.access sections key = some (entry, after)) : Fits limit after := by
  obtain ⟨_, found, same⟩ := Option.map_eq_some_iff.mp accessed
  cases same
  exact fits.perm (perm_of_find fits.keys found)

theorem Fits.pin {pinned : Bool} (fits : Fits limit sections)
    (done : Recency.pin sections key pinned = some after) : Fits limit after := by
  obtain ⟨entry, found, rfl⟩ := Option.map_eq_some_iff.mp done
  have moved := fits.perm (perm_of_find fits.keys found)
  refine ⟨fun other member => ?_, ?_, ?_⟩
  · rcases List.mem_append.mp member with old | new
    · exact fits.valid other (mem_without.mp old).1
    · rw [List.mem_singleton.mp new]
      have valid := fits.valid entry (find_eq_some found).1
      exact ⟨valid.key, valid.revision, valid.section, valid.portableTokens, valid.reloadCost,
        valid.reuseScore⟩
  · have keys := moved.keys
    rwa [List.map_append] at keys ⊢
  · have within := moved.within
    rwa [used_append] at within ⊢

theorem Fits.remove {eviction : Eviction} (fits : Fits limit sections)
    (removed : Recency.remove sections key = some (eviction, after)) :
    Fits limit after ∧ 0 ≤ eviction.portableTokens := by
  obtain ⟨entry, found, same⟩ := Option.map_eq_some_iff.mp removed
  cases same
  exact ⟨fits.sublist List.filter_sublist, (fits.valid entry (find_eq_some found).1).portableTokens⟩

end Recency

namespace ContextInventory

variable {inventory : ContextInventory} {entry : ResidentSection} {key exclude : String}
  {listed : List ResidentSection}

/-- The inventory holds the listed sections, and has used them in this order. -/
structure Lists (inventory : ContextInventory) (listed : List ResidentSection) : Prop where
  mem : ∀ entry, entry ∈ listed ↔ entry ∈ inventory.values
  ordered : listed.Pairwise fun first second => first.lastAccess < second.lastAccess
  past : ∀ entry ∈ listed, 0 ≤ entry.lastAccess ∧ entry.lastAccess ≤ inventory.clock

theorem values_nodup : inventory.values.Nodup := by
  refine List.Nodup.of_map (·.key) ?_
  have keys : inventory.values.map (·.key) = inventory.entries.keys := by
    rw [values, List.map_map]
    refine List.map_congr_left fun stored member => ?_
    exact inventory.keyed stored.1 stored.2 (Dict.mem_entries_iff.mp member)
  exact keys ▸ inventory.entries.keys_nodup

theorem Lists.nodup (lists : inventory.Lists listed) : listed.Nodup :=
  lists.ordered.imp fun before same => absurd (same ▸ before) (lt_irrefl _)

theorem Lists.perm (lists : inventory.Lists listed) : listed.Perm inventory.values :=
  (List.perm_ext_iff_of_nodup lists.nodup values_nodup).mpr lists.mem

/-- Sections of one key are one section. -/
theorem Lists.eq_of_key {other : ResidentSection} (lists : inventory.Lists listed)
    (member : entry ∈ listed) (member' : other ∈ listed) (same : entry.key = other.key) :
    entry = other := by
  have found := mem_values.mp ((lists.mem entry).mp member)
  have found' := mem_values.mp ((lists.mem other).mp member')
  exact Option.some.inj (found.symm.trans (same ▸ found'))

theorem Lists.used (lists : inventory.Lists listed) :
    inventory.usedPortableTokens = Recency.used (listed.map (·.toSection)) := by
  rw [usedPortableTokens, Recency.used, List.map_map]
  exact (lists.perm.map _).sum_eq.symm

theorem mem_values_pop : entry ∈ (inventory.pop key).values ↔
    entry ∈ inventory.values ∧ entry.key ≠ key := by
  rw [mem_values, mem_values]
  change (inventory.entries.erase key).get? entry.key = some entry ↔ _
  rw [Dict.get?_erase]
  split
  next same => exact ⟨nofun, fun both => absurd same both.2⟩
  next apart => exact ⟨fun found => ⟨found, apart⟩, And.left⟩

theorem mem_values_store {stored : ResidentSection} : entry ∈ (inventory.store stored).values ↔
    entry = stored ∨ entry ∈ inventory.values ∧ entry.key ≠ stored.key := by
  rw [mem_values, mem_values]
  change (inventory.entries.set stored.key stored).get? entry.key = some entry ↔ _
  rw [Dict.get?_set]
  split
  next same =>
    refine ⟨fun found => .inl (Option.some.inj found).symm, fun either => ?_⟩
    rcases either with rfl | other
    · rfl
    · exact absurd same other.2
  next apart =>
    refine ⟨fun found => .inr ⟨found, apart⟩, fun either => ?_⟩
    rcases either with rfl | other
    · exact absurd rfl apart
    · exact other.1

theorem Lists.pop (lists : inventory.Lists listed) :
    (inventory.pop key).Lists (listed.filter (·.key ≠ key)) where
  mem := fun entry => by
    rw [List.mem_filter, decide_eq_true_eq, mem_values_pop, lists.mem]
  ordered := lists.ordered.filter _
  past := fun entry member => lists.past entry (List.mem_filter.mp member).1

/-- A section that is used goes to the end. -/
theorem Lists.uses {left : ContextInventory} (lists : inventory.Lists listed)
    (last : ResidentSection) (clocked : left.clock = inventory.clock + 1)
    (used : last.lastAccess = inventory.clock + 1)
    (mem : ∀ entry, entry ∈ left.values ↔
      entry = last ∨ entry ∈ inventory.values ∧ entry.key ≠ last.key) :
    left.Lists (listed.filter (·.key ≠ last.key) ++ [last]) where
  mem := fun other => by
    rw [List.mem_append, List.mem_singleton, List.mem_filter, decide_eq_true_eq, or_comm, lists.mem]
    exact (mem other).symm
  ordered := by
    refine List.pairwise_append.mpr ⟨lists.ordered.filter _, List.pairwise_singleton _ _,
      fun first member other same => ?_⟩
    obtain rfl := List.mem_singleton.mp same
    rw [used]
    exact Int.lt_add_one_of_le (lists.past first (List.mem_filter.mp member).1).2
  past := fun other member => by
    rw [clocked]
    rcases List.mem_append.mp member with old | new
    · have past := lists.past other (List.mem_filter.mp old).1
      omega
    · obtain rfl := List.mem_singleton.mp new
      omega

theorem Lists.touch (lists : inventory.Lists listed) :
    (inventory.touch entry).Lists (listed.filter (·.key ≠ entry.key) ++
      [{ entry with lastAccess := inventory.clock + 1 }]) :=
  lists.uses { entry with lastAccess := inventory.clock + 1 } rfl rfl fun _ => mem_values_store

/-! ## Victims -/

variable {value}

theorem evictionOrder_lt {first second : ResidentSection}
    (before : first.lastAccess < second.lastAccess) :
    evictionOrder value second < evictionOrder value first ↔
      second.toSection.value value < first.toSection.value value := by
  rw [evictionOrder, evictionOrder, Prod.Lex.toLex_lt_toLex, Prod.Lex.toLex_lt_toLex]
  refine ⟨fun less => ?_, .inl⟩
  rcases less with less | ⟨_, less | ⟨same, _⟩⟩
  · exact less
  · exact absurd less before.asymm
  · exact absurd same before.ne'

/-- Of the least valuable sections it is the one that was used first. -/
theorem argmin_toSection
    (ordered : listed.Pairwise fun first second => first.lastAccess < second.lastAccess) :
    (listed.argmin (evictionOrder value)).map (·.toSection) =
      (listed.map (·.toSection)).argmin (·.value value) := by
  induction listed with
  | nil => rfl
  | cons first rest ih =>
      obtain ⟨before, ordered⟩ := List.pairwise_cons.mp ordered
      rw [List.map_cons, List.argmin_cons, List.argmin_cons, ← ih ordered]
      cases least : rest.argmin (evictionOrder value) with
      | none => rfl
      | some victim =>
          have order : evictionOrder value victim < evictionOrder value first ↔ _ :=
            evictionOrder_lt (before victim (List.argmin_mem least))
          simp only [Option.map_some, order]
          split <;> rfl

omit [LinearOrder ω] in
theorem evictionOrder_key {first second : ResidentSection}
    (same : evictionOrder value first = evictionOrder value second) : first.key = second.key :=
  congrArg (fun order => (ofLex (ofLex order).2).2) same

/-- The victim does not depend on the order in which the candidates are gone through. -/
theorem argmin_perm {first second : List ResidentSection} (perm : first.Perm second)
    (distinct : ∀ entry ∈ first, ∀ other ∈ first, entry.key = other.key → entry = other) :
    first.argmin (evictionOrder value) = second.argmin (evictionOrder value) := by
  cases least : first.argmin (evictionOrder value) with
  | none =>
      rw [List.argmin_eq_none] at least
      rw [least] at perm
      rw [perm.nil_eq.symm, List.argmin_nil]
  | some victim =>
      cases least' : second.argmin (evictionOrder value) with
      | none =>
          rw [List.argmin_eq_none] at least'
          rw [least'] at perm
          rw [perm.eq_nil] at least
          cases least
      | some victim' =>
          have among := List.argmin_mem least
          have among' := perm.mem_iff.mpr (List.argmin_mem least')
          have le := List.le_of_mem_argmin among' least
          have le' := List.le_of_mem_argmin (perm.mem_iff.mp among) least'
          exact congrArg some (distinct victim among victim' among'
            (evictionOrder_key (le_antisymm le le')))

theorem Lists.candidates (lists : inventory.Lists listed) (value : EvictionValue ω)
    (exclude : String) :
    ((inventory.candidates exclude).argmin (evictionOrder value)).map (·.toSection) =
      (Recency.candidates exclude (listed.map (·.toSection))).argmin (·.value value) := by
  have perm : (listed.filter fun entry => ¬entry.pinned ∧ entry.key ≠ exclude).Perm
      (inventory.candidates exclude) := lists.perm.filter _
  rw [Recency.candidates, List.filter_map, ← argmin_perm perm]
  · exact argmin_toSection (lists.ordered.filter _)
  · intro entry member other member'
    exact lists.eq_of_key (List.mem_filter.mp member).1 (List.mem_filter.mp member').1

theorem without_toSection : Recency.without key (listed.map (·.toSection)) =
    (listed.filter (·.key ≠ key)).map (·.toSection) := by
  rw [Recency.without, List.filter_map]
  rfl

/-- What an inventory leaves holds the list. -/
def Holds (inventory : ContextInventory) (limit : Int) (sections : List Section) : Prop :=
  inventory.maxPortableTokens = limit ∧
    ∃ listed, inventory.Lists listed ∧ listed.map (·.toSection) = sections

/-- The outcome of an eviction on an inventory is the one on the list. -/
def Evicts (limit : Int) (outcome : Except Raised (List Eviction) × ContextInventory) :
    Option (List Eviction × List Section) → Prop
  | none => outcome.1 = .error Errors.budgetExhausted
  | some (evictions, sections) => outcome.1 = .ok evictions ∧ outcome.2.Holds limit sections

theorem evicts_map {limit : Int} {outcome : Except Raised (List Eviction) × ContextInventory}
    {eviction : Eviction} {evicted : Option (List Eviction × List Section)}
    (evicts : Evicts limit outcome evicted) :
    Evicts limit (outcome.1.map (eviction :: ·), outcome.2)
      (evicted.map fun rest => (eviction :: rest.1, rest.2)) := by
  cases evicted with
  | none => exact congrArg (Except.map _) evicts
  | some rest => exact ⟨congrArg (Except.map _) evicts.1, evicts.2⟩

theorem Lists.evict (lists : inventory.Lists listed) :
    Evicts inventory.maxPortableTokens (evictToLimit value exclude inventory)
      (Recency.evict value inventory.maxPortableTokens exclude (listed.map (·.toSection))) := by
  induction inventory using evictToLimit.induct value exclude generalizing listed with
  | case1 inventory fits =>
      rw [evictToLimit, if_pos fits, Recency.evict, if_pos (lists.used ▸ fits)]
      exact ⟨rfl, rfl, listed, lists, rfl⟩
  | case2 inventory full none =>
      rw [evictToLimit, if_neg full, Recency.evict, if_neg (lists.used ▸ full)]
      have least := lists.candidates value exclude
      rw [none] at least
      split
      · split
        · rfl
        next found => exact nomatch least.trans found
      next found => exact nomatch none.symm.trans found
  | case3 inventory full victim found ih =>
      rw [evictToLimit, if_neg full, Recency.evict, if_neg (lists.used ▸ full)]
      have least := lists.candidates value exclude
      rw [found] at least
      split
      next none => exact nomatch found.symm.trans none
      next same =>
        cases found.symm.trans same
        split
        next none => exact nomatch least.trans none
        next found' =>
          cases least.trans found'
          have evicts := ih lists.pop
          rw [← without_toSection] at evicts
          exact evicts_map evicts

/-! ## The operations -/

variable {limit : Int} {sections : List Section}

theorem Holds.pop (holds : inventory.Holds limit sections) :
    (inventory.pop key).Holds limit (Recency.without key sections) := by
  obtain ⟨limited, listed, lists, rfl⟩ := holds
  exact ⟨limited, _, lists.pop, without_toSection.symm⟩

theorem Holds.touch (holds : inventory.Holds limit sections) :
    (inventory.touch entry).Holds limit
      (Recency.without entry.key sections ++ [entry.toSection]) := by
  obtain ⟨limited, listed, lists, rfl⟩ := holds
  refine ⟨limited, _, lists.touch, ?_⟩
  rw [List.map_append, ← without_toSection]
  rfl

theorem Holds.evict (holds : inventory.Holds limit sections) (exclude : String)
    (value : EvictionValue ω) :
    Evicts limit (evictToLimit value exclude inventory)
      (Recency.evict value limit exclude sections) := by
  obtain ⟨rfl, listed, lists, rfl⟩ := holds
  exact lists.evict

/-- A section that an inventory takes is added to its list. -/
theorem Holds.add (holds : inventory.Holds limit sections)
    (valid : ¬(entry.key = "" ∨ entry.portableTokens < 0)) (value : EvictionValue ω) :
    Evicts limit (inventory.add value entry)
      (Recency.add value sections entry.toSection limit) := by
  have placed : ((inventory.pop entry.key).touch entry).Holds limit
      (Recency.without entry.key (Recency.without entry.key sections) ++ [entry.toSection]) :=
    holds.pop.touch
  have again : Recency.without entry.key (Recency.without entry.key sections) =
      Recency.without entry.key sections := by
    rw [Recency.without, Recency.without, List.filter_filter]
    simp only [Bool.and_self]
  rw [again] at placed
  have evicts := placed.evict entry.key value
  rw [ContextInventory.add, if_neg valid, Recency.add]
  generalize evictToLimit value entry.key ((inventory.pop entry.key).touch entry) = outcome at evicts
  obtain ⟨result, left⟩ := outcome
  cases evicted : Recency.evict value limit entry.key
      (Recency.without entry.key sections ++ [entry.toSection]) with
  | none =>
      rw [evicted] at evicts
      cases evicts
      rfl
  | some rest =>
      rw [evicted] at evicts
      obtain ⟨rfl, holds⟩ := evicts
      exact ⟨rfl, holds⟩

theorem Holds.find (holds : inventory.Holds limit sections) (key : String) :
    (inventory.entries.get? key).map (·.toSection) = Recency.find key sections := by
  obtain ⟨_, listed, lists, rfl⟩ := holds
  rw [Recency.find, List.find?_map]
  cases found : inventory.entries.get? key with
  | none =>
      have absent : listed.find? ((fun entry : Section => decide (entry.key = key)) ∘
          (·.toSection)) = none := by
        refine List.find?_eq_none.mpr fun entry member named => ?_
        have stored := mem_values.mp ((lists.mem entry).mp member)
        have named : entry.key = key := of_decide_eq_true named
        rw [named, found] at stored
        cases stored
      rw [absent]
  | some entry =>
      have named := inventory.keyed key entry found
      have member := (lists.mem entry).mpr (mem_values.mpr (named.symm ▸ found))
      have present : listed.find? ((fun entry : Section => decide (entry.key = key)) ∘
          (·.toSection)) = some entry := by
        cases search : listed.find? ((fun entry : Section => decide (entry.key = key)) ∘
            (·.toSection)) with
        | none => exact absurd (decide_eq_true named) (List.find?_eq_none.mp search entry member)
        | some other =>
            have named' : other.key = key := of_decide_eq_true (List.find?_some search :)
            exact congrArg some (lists.eq_of_key (List.mem_of_find?_eq_some search) member
              (named'.trans named.symm))
      rw [present]

theorem Holds.access (holds : inventory.Holds limit sections) :
    Option.Rel (fun done after => done.1.toSection = after.1 ∧ done.2.Holds limit after.2)
      (inventory.access key) (Recency.access sections key) := by
  rw [ContextInventory.access, Recency.access, ← holds.find key]
  cases present : inventory.entries.get? key with
  | none => exact .none
  | some entry =>
      have named := inventory.keyed key entry present
      exact .some ⟨rfl, named ▸ holds.touch⟩

theorem Holds.remove (holds : inventory.Holds limit sections) :
    Option.Rel (fun done after => done.1 = after.1 ∧ done.2.Holds limit after.2)
      (inventory.remove key) (Recency.remove sections key) := by
  rw [ContextInventory.remove, Recency.remove, ← holds.find key]
  cases present : inventory.entries.get? key with
  | none => exact .none
  | some entry => exact .some ⟨rfl, holds.pop⟩

theorem Holds.pin {pinned : Bool} (holds : inventory.Holds limit sections) :
    Option.Rel (·.Holds limit ·) (inventory.pin key pinned)
      (Recency.pin sections key pinned) := by
  rw [ContextInventory.pin, ContextInventory.access, Recency.pin, ← holds.find key]
  cases present : inventory.entries.get? key with
  | none => exact .none
  | some entry =>
      refine .some ?_
      obtain rfl := inventory.keyed key entry present
      obtain ⟨limited, listed, lists, rfl⟩ := holds
      refine ⟨limited, _, lists.uses
        { entry with lastAccess := inventory.clock + 1, pinned := pinned } rfl rfl fun other => ?_, ?_⟩
      · -- The section is stored twice, which is what storing it once does.
        refine mem_values_store.trans (or_congr_right ?_)
        refine ⟨fun both => ?_, fun both => ⟨mem_values_store.mpr (.inr both), both.2⟩⟩
        rcases mem_values_store.mp both.1 with rfl | stored
        · exact absurd rfl both.2
        · exact stored
      · rw [List.map_append, without_toSection]
        rfl

/-! ## Taking sections up again -/

/-- A section that is new and fits is put at the end. -/
theorem Holds.readd (holds : inventory.Holds limit sections)
    (fits : Recency.Fits limit (sections ++ [entry.toSection])) (value : EvictionValue ω) :
    ∃ left, readd value inventory entry = .ok left ∧
      left.Holds limit (sections ++ [entry.toSection]) := by
  have valid := fits.valid entry.toSection (List.mem_append_right _ List.mem_cons_self)
  have absent : Recency.without entry.key sections = sections := by
    refine List.filter_eq_self.mpr fun other member => decide_eq_true fun same => ?_
    have keys := fits.keys
    rw [List.map_append] at keys
    exact (List.nodup_append.mp keys).2.2 other.key (List.mem_map_of_mem member) entry.key
      List.mem_cons_self same
  have evicts : Evicts limit (inventory.add value entry) _ :=
    holds.add (not_or.mpr ⟨valid.key, not_lt.mpr valid.portableTokens⟩) value
  rw [Recency.add, absent, Recency.evict, if_pos fits.within] at evicts
  obtain ⟨done, held⟩ := evicts
  unfold ContextInventory.readd
  generalize inventory.add value entry = outcome at done held
  obtain ⟨result, left⟩ := outcome
  cases done
  exact ⟨left, rfl, held⟩

theorem holds_empty : Holds { maxPortableTokens := limit } limit [] :=
  ⟨rfl, [], ⟨fun _ => ⟨nofun, nofun⟩, .nil, nofun⟩, rfl⟩

theorem foldlM_readd (rest : List ResidentSection) (holds : inventory.Holds limit sections)
    (fits : Recency.Fits limit (sections ++ rest.map (·.toSection))) (value : EvictionValue ω) :
    ∃ left, rest.foldlM (ContextInventory.readd value) inventory = .ok left ∧
      left.Holds limit (sections ++ rest.map (·.toSection)) := by
  induction rest generalizing inventory sections with
  | nil =>
      rw [List.map_nil, List.append_nil]
      exact ⟨inventory, rfl, holds⟩
  | cons first rest ih =>
      rw [List.map_cons, List.append_cons] at fits ⊢
      have fits' : Recency.Fits limit (sections ++ [first.toSection]) :=
        fits.sublist (List.sublist_append_left _ _)
      obtain ⟨left, done, held⟩ := holds.readd fits' value
      obtain ⟨last, done', held'⟩ := ih held fits
      refine ⟨last, ?_, held'⟩
      rw [List.foldlM_cons, done]
      exact done'

/-- Sections that are taken up again keep the order of their last use. -/
theorem Holds.rebuild {entries : List ResidentSection} (holds : inventory.Holds limit sections)
    (fits : Recency.Fits limit sections) (perm : entries.Perm inventory.values)
    (value : EvictionValue ω) :
    ∃ rebuilt, rebuild value limit entries = .ok rebuilt ∧ rebuilt.Holds limit sections := by
  obtain ⟨_, listed, lists, rfl⟩ := holds
  rw [ContextInventory.rebuild, sortedBy_of_perm _ lists.ordered (perm.trans lists.perm.symm)]
  exact foldlM_readd listed holds_empty fits value

end ContextInventory

end CapabilityHub.Residency
