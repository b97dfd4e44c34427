import CapabilityHub.Residency.Recency

/-! # What an admission leaves in the inventory

`add` takes victims out one at a time. Where they do not suffice it puts back the section that the
new one replaced, and none of the victims.
-/

namespace CapabilityHub.Residency

/-- An exception of an admission: `OverflowError`, where no float holds a quotient, or another. -/
inductive AdmissionError where
  | overflow
  | raised (error : Raised)
  deriving DecidableEq

def ResidentSection.evicted (victim : ResidentSection) : Eviction :=
  ⟨victim.key, victim.portableTokens, "budget_pressure"⟩

namespace ContextInventory

variable {ω : Type} [LinearOrder ω] (value : EvictionValue ω)
  {inventory : ContextInventory} {entry victim : ResidentSection} {key exclude : String}
  {victims rest : List ResidentSection}

def discard (inventory : ContextInventory) (victims : List ResidentSection) : ContextInventory :=
  victims.foldl (fun left victim => left.pop victim.key) inventory

theorem discard_cons : inventory.discard (victim :: rest) = (inventory.pop victim.key).discard rest :=
  rfl

@[simp] theorem maxPortableTokens_discard :
    (inventory.discard victims).maxPortableTokens = inventory.maxPortableTokens := by
  induction victims generalizing inventory with
  | nil => rfl
  | cons victim rest ih => exact ih

theorem mem_values_discard : entry ∈ (inventory.discard victims).values ↔
    entry ∈ inventory.values ∧ entry.key ∉ victims.map (·.key) := by
  induction victims generalizing inventory with
  | nil => simp [discard]
  | cons victim rest ih =>
      rw [discard_cons, ih, mem_values_pop, List.map_cons, List.mem_cons, not_or, and_assoc]

/-! ## Victims in their order -/

/-- Sections of one key are one section. -/
theorem eq_of_key (member : entry ∈ inventory.values) (member' : victim ∈ inventory.values)
    (same : entry.key = victim.key) : entry = victim := by
  have found := mem_values.mp member
  rw [same, mem_values.mp member'] at found
  exact (Option.some.inj found).symm

theorem candidates_nodup : (inventory.candidates exclude).Nodup :=
  List.Nodup.filter _ values_nodup

theorem eq_of_candidates (member : entry ∈ inventory.candidates exclude)
    (member' : victim ∈ inventory.candidates exclude) (same : entry.key = victim.key) :
    entry = victim :=
  eq_of_key (mem_candidates.mp member).1 (mem_candidates.mp member').1 same

theorem victims_pairwise : (sortedBy (evictionOrder value) (inventory.candidates exclude)).Pairwise
    fun first second => evictionOrder value first < evictionOrder value second := by
  have apart : (sortedBy (evictionOrder value) (inventory.candidates exclude)).Nodup :=
    (perm_sortedBy _ _).nodup_iff.mpr candidates_nodup
  have ordered : (sortedBy (evictionOrder value) (inventory.candidates exclude)).Pairwise
      fun first second => evictionOrder value first ≤ evictionOrder value second :=
    List.pairwise_insertionSort _ _
  refine (ordered.and apart).imp_of_mem fun {first second} member member' both => ?_
  refine lt_of_le_of_ne both.1 fun same => both.2 ?_
  exact eq_of_candidates ((mem_sortedBy _).mp member) ((mem_sortedBy _).mp member')
    (evictionOrder_key same)

/-- `min` takes the first in the order. -/
theorem argmin_of_sorted
    (sorted : sortedBy (evictionOrder value) (inventory.candidates exclude) = victim :: rest) :
    (inventory.candidates exclude).argmin (evictionOrder value) = some victim := by
  have among : victim ∈ inventory.candidates exclude := by
    rw [← mem_sortedBy (evictionOrder value), sorted]
    exact List.mem_cons_self
  cases least : (inventory.candidates exclude).argmin (evictionOrder value) with
  | none =>
      rw [List.argmin_eq_none.mp least] at among
      exact absurd among List.not_mem_nil
  | some least' =>
      have among' := List.argmin_mem least
      have inside := (mem_sortedBy (evictionOrder value)).mpr among'
      have ordered := @victims_pairwise _ _ value inventory exclude
      rw [sorted] at inside ordered
      rcases List.mem_cons.mp inside with same | later
      · rw [same]
      · have before := (List.pairwise_cons.mp ordered).1 least' later
        exact absurd before (List.le_of_mem_argmin among least).not_gt

theorem sorted_pop
    (sorted : sortedBy (evictionOrder value) (inventory.candidates exclude) = victim :: rest) :
    sortedBy (evictionOrder value) ((inventory.pop victim.key).candidates exclude) = rest := by
  have ordered := @victims_pairwise _ _ value inventory exclude
  rw [sorted] at ordered
  have apart := List.nodup_cons.mp (ordered.imp fun less => ne_of_apply_ne _ less.ne)
  refine sortedBy_of_perm _ (List.pairwise_cons.mp ordered).2 ?_
  refine (List.perm_ext_iff_of_nodup candidates_nodup apart.2).mpr fun other => ?_
  have inside : other ∈ inventory.candidates exclude ↔ other = victim ∨ other ∈ rest := by
    rw [← mem_sortedBy (evictionOrder value), sorted, List.mem_cons]
  have among : victim ∈ inventory.candidates exclude := by
    rw [← mem_sortedBy (evictionOrder value), sorted]
    exact List.mem_cons_self
  rw [mem_candidates, mem_values_pop, and_assoc, and_comm (a := other.key ≠ victim.key),
    ← and_assoc, ← mem_candidates, inside]
  refine ⟨fun both => both.1.resolve_left fun same => both.2 (congrArg (·.key) same), fun later => ?_⟩
  refine ⟨.inr later, fun same => apart.1 ?_⟩
  rw [← eq_of_candidates (inside.mpr (.inr later)) among same]
  exact later

/-- What is left without the first of the victims fits the limit. -/
def FitsWithout (inventory : ContextInventory) (order : List ResidentSection) (count : Nat) : Prop :=
  (inventory.discard (order.take count)).usedPortableTokens ≤ inventory.maxPortableTokens

/-- The victims are the fewest that suffice, taken from the front of the order; or all of them were
taken and did not suffice. -/
inductive EvictsInOrder (inventory : ContextInventory) (order : List ResidentSection) :
    Except Raised (List Eviction) × ContextInventory → Prop where
  | fewest (count : Nat) (fits : inventory.FitsWithout order count)
      (least : ∀ fewer < count, ¬inventory.FitsWithout order fewer) :
      EvictsInOrder inventory order
        (.ok ((order.take count).map (·.evicted)), inventory.discard (order.take count))
  | exhausted (never : ∀ count, ¬inventory.FitsWithout order count) :
      EvictsInOrder inventory order (.error Errors.budgetExhausted, inventory.discard order)

theorem evicts_order (order : List ResidentSection)
    (sorted : sortedBy (evictionOrder value) (inventory.candidates exclude) = order) :
    inventory.EvictsInOrder order (evictToLimit value exclude inventory) := by
  induction order generalizing inventory with
  | nil =>
      have empty : inventory.candidates exclude = [] :=
        ((perm_sortedBy (evictionOrder value) _).symm.trans (.of_eq sorted)).eq_nil
      unfold evictToLimit
      split
      next fits => exact .fewest 0 fits fun fewer less => absurd less (Nat.not_lt_zero fewer)
      next above =>
        split
        next => exact .exhausted fun count fits => above (by simpa [FitsWithout, discard] using fits)
        next least =>
          rw [empty] at least
          cases least
  | cons victim rest ih =>
      have tail := ih (sorted_pop value sorted)
      unfold evictToLimit
      split
      next fits => exact .fewest 0 fits fun fewer less => absurd less (Nat.not_lt_zero fewer)
      next above =>
        split
        next none =>
          rw [argmin_of_sorted value sorted] at none
          cases none
        next least =>
          rw [argmin_of_sorted value sorted] at least
          cases least
          generalize evictToLimit value exclude (inventory.pop victim.key) = outcome at tail
          cases tail with
          | fewest count fits least =>
              refine .fewest (count + 1) fits fun fewer less => ?_
              cases fewer with
              | zero => exact above
              | succ fewer => exact least fewer (Nat.lt_of_succ_lt_succ less)
          | exhausted never =>
              refine .exhausted fun count => ?_
              cases count with
              | zero => exact above
              | succ count => exact never count

/-! ## Quotients that no float holds -/

-- the order of the integers that the eviction order is over
local instance admissionOrder : Preorder Int := Int.instLinearOrder.toPreorder

variable (value : EvictionValue (WithTop ω))

/-- `_evict_to_limit`, in which `⊤` stands for a quotient that no float holds. -/
def evictToLimitChecked (exclude : String) (inventory : ContextInventory) :
    Except AdmissionError (List Eviction) × ContextInventory :=
  if inventory.usedPortableTokens ≤ inventory.maxPortableTokens then (.ok [], inventory)
  else if ∃ entry ∈ inventory.candidates exclude, entry.toSection.value value = ⊤ then
    (.error .overflow, inventory)
  else
    match _found : (inventory.candidates exclude).argmin (evictionOrder value) with
    | none => (.error (.raised Errors.budgetExhausted), inventory)
    | some victim =>
        let rest := evictToLimitChecked exclude (inventory.pop victim.key)
        (rest.1.map (victim.evicted :: ·), rest.2)
termination_by inventory.entries.size
decreasing_by exact size_pop (mem_candidates.mp (List.argmin_mem _found)).1

/-- `add`. Only an error of the hub is caught. -/
def addChecked (inventory : ContextInventory) (entry : ResidentSection) :
    Except AdmissionError (List Eviction) × ContextInventory :=
  if entry.key = "" ∨ entry.portableTokens < 0 then (.error (.raised .valueError), inventory)
  else
    let previous := inventory.entries.get? entry.key
    match evictToLimitChecked value entry.key ((inventory.pop entry.key).touch entry) with
    | (.ok evictions, left) => (.ok evictions, left)
    | (.error .overflow, left) => (.error .overflow, left)
    | (.error (.raised raised), left) =>
        (.error (.raised raised), match previous with
          | none => left.pop entry.key
          | some previous => (left.pop entry.key).store previous)

theorem map_mapError {outcome : Except Raised (List Eviction)} {f : List Eviction → List Eviction} :
    (outcome.mapError AdmissionError.raised).map f = (outcome.map f).mapError AdmissionError.raised := by
  cases outcome <;> rfl

theorem evictToLimitChecked_of_ne_top
    (total : ∀ entry ∈ inventory.candidates exclude, entry.toSection.value value ≠ ⊤) :
    evictToLimitChecked value exclude inventory =
      ((evictToLimit value exclude inventory).1.mapError .raised,
        (evictToLimit value exclude inventory).2) := by
  fun_induction evictToLimit value exclude inventory with
  | case1 inventory fits =>
      unfold evictToLimitChecked
      rw [if_pos fits]
      rfl
  | case2 inventory above none =>
      unfold evictToLimitChecked
      rw [if_neg above, if_neg (by simpa using total)]
      split
      next => rfl
      next least =>
        rw [none] at least
        cases least
  | case3 inventory above victim least rest ih =>
      unfold evictToLimitChecked
      rw [if_neg above, if_neg (by simpa using total)]
      split
      next none =>
        rw [least] at none
        cases none
      next other least' =>
        rw [least] at least'
        cases least'
        have fewer := ih fun entry member => by
          obtain ⟨inside, unpinned⟩ := mem_candidates.mp member
          exact total entry (mem_candidates.mpr ⟨(mem_values_pop.mp inside).1, unpinned⟩)
        rw [fewer]
        exact Prod.ext map_mapError rfl

/-- The inventory with the new section in it, before any section is evicted. -/
def offered (inventory : ContextInventory) (entry : ResidentSection) : ContextInventory :=
  (inventory.pop entry.key).touch entry

theorem mem_values_offered {other : ResidentSection} : other ∈ (inventory.offered entry).values ↔
    other = { entry with lastAccess := inventory.clock + 1 } ∨
      other ∈ inventory.values ∧ other.key ≠ entry.key := by
  have stored : other ∈ (inventory.offered entry).values ↔
      other = { entry with lastAccess := inventory.clock + 1 } ∨
        other ∈ (inventory.pop entry.key).values ∧ other.key ≠ entry.key := mem_values_store
  rw [stored, mem_values_pop, and_assoc, and_self]

theorem mem_candidates_offered {other : ResidentSection} :
    other ∈ (inventory.offered entry).candidates entry.key ↔
      other ∈ inventory.candidates entry.key := by
  rw [mem_candidates, mem_candidates, mem_values_offered]
  refine ⟨fun both => ⟨?_, both.2⟩, fun both => ⟨.inr ⟨both.1, both.2.2⟩, both.2⟩⟩
  rcases both.1 with rfl | old
  · exact absurd rfl both.2.2
  · exact old.1

/-- Where no quotient overflows, `add` is what it is over values that are total. -/
theorem addChecked_of_ne_top
    (total : ∀ other ∈ inventory.candidates entry.key, other.toSection.value value ≠ ⊤) :
    inventory.addChecked value entry =
      ((inventory.add value entry).1.mapError .raised, (inventory.add value entry).2) := by
  unfold addChecked add
  split
  next => rfl
  next =>
    have same := @evictToLimitChecked_of_ne_top _ _ (inventory.offered entry) entry.key value
      fun other member => total other (mem_candidates_offered.mp member)
    change evictToLimitChecked value entry.key ((inventory.pop entry.key).touch entry) = _ at same
    rw [same]
    cases outcome : evictToLimit value entry.key ((inventory.pop entry.key).touch entry) with
    | mk result left =>
        have ended : evictToLimit value entry.key (inventory.offered entry) = (result, left) := outcome
        rw [ended]
        cases result <;> rfl

/-! ## Atomicity -/

/-- What may be evicted for a section, in the order in which it is. -/
def victimsFor (inventory : ContextInventory) (entry : ResidentSection) : List ResidentSection :=
  sortedBy (evictionOrder value) (inventory.candidates entry.key)

/-- The new section is in the inventory, the limit is kept, and the fewest sections that suffice
were taken from the front of the order. -/
structure Admitted (inventory : ContextInventory) (entry : ResidentSection)
    (evictions : List Eviction) (left : ContextInventory) : Prop where
  fits : left.usedPortableTokens ≤ left.maxPortableTokens
  limit : left.maxPortableTokens = inventory.maxPortableTokens
  pinned : ∀ kept ∈ inventory.values, kept.pinned → kept.key ≠ entry.key → kept ∈ left.values
  present : { entry with lastAccess := inventory.clock + 1 } ∈ left.values
  fewest : ∃ count, (inventory.offered entry).FitsWithout (inventory.victimsFor value entry) count ∧
    (∀ fewer < count,
      ¬(inventory.offered entry).FitsWithout (inventory.victimsFor value entry) fewer) ∧
    evictions = ((inventory.victimsFor value entry).take count).map (·.evicted) ∧
    left = (inventory.offered entry).discard ((inventory.victimsFor value entry).take count)

/-- An admission succeeds, or raises `context_budget_exhausted` and leaves every section. -/
def Atomic (inventory : ContextInventory) (entry : ResidentSection) :
    Except AdmissionError (List Eviction) × ContextInventory → Prop
  | (.ok evictions, left) => inventory.Admitted value entry evictions left
  | (.error error, left) => error = .raised Errors.budgetExhausted ∧
      ∀ other, other ∈ left.values ↔ other ∈ inventory.values

/-- The section is valid, and it fits as it is, or no quotient overflows and there is nothing to
evict or enough. -/
def Admissible (inventory : ContextInventory) (entry : ResidentSection) : Prop :=
  entry.key ≠ "" ∧ 0 ≤ entry.portableTokens ∧
    ((inventory.offered entry).FitsWithout (inventory.victimsFor value entry) 0 ∨
      (∀ other ∈ inventory.candidates entry.key, other.toSection.value value ≠ ⊤) ∧
        (inventory.candidates entry.key = [] ∨
          ∃ count, (inventory.offered entry).FitsWithout (inventory.victimsFor value entry) count))

theorem mem_victimsFor {other : ResidentSection} :
    other ∈ inventory.victimsFor value entry ↔ other ∈ inventory.candidates entry.key :=
  mem_sortedBy _

theorem victimsFor_offered :
    sortedBy (evictionOrder value) ((inventory.offered entry).candidates entry.key) =
      inventory.victimsFor value entry := by
  refine sortedBy_congr _ ?_ fun first member second member' same =>
    eq_of_candidates member member' (evictionOrder_key same)
  exact (List.perm_ext_iff_of_nodup candidates_nodup candidates_nodup).mpr fun other =>
    mem_candidates_offered

theorem admitted_of_fewest {count : Nat}
    (fits : (inventory.offered entry).FitsWithout (inventory.victimsFor value entry) count)
    (least : ∀ fewer < count,
      ¬(inventory.offered entry).FitsWithout (inventory.victimsFor value entry) fewer) :
    inventory.Admitted value entry (((inventory.victimsFor value entry).take count).map (·.evicted))
      ((inventory.offered entry).discard ((inventory.victimsFor value entry).take count)) where
  fits := by
    rw [maxPortableTokens_discard]
    exact fits
  limit := maxPortableTokens_discard
  pinned := fun kept member pinned apart => by
    refine mem_values_discard.mpr ⟨mem_values_offered.mpr (.inr ⟨member, apart⟩), fun among => ?_⟩
    obtain ⟨victim, taken, same⟩ := List.mem_map.mp among
    have candidate := mem_candidates.mp ((mem_victimsFor value).mp (List.mem_of_mem_take taken))
    rw [eq_of_key candidate.1 member same] at candidate
    exact candidate.2.1 pinned
  present := by
    refine mem_values_discard.mpr ⟨mem_values_offered.mpr (.inl rfl), fun among => ?_⟩
    obtain ⟨victim, taken, same⟩ := List.mem_map.mp among
    have candidate := mem_candidates.mp ((mem_victimsFor value).mp (List.mem_of_mem_take taken))
    exact candidate.2.2 same
  fewest := ⟨count, fits, least, rfl, rfl⟩

/-- What `add` leaves where the victims did not suffice. -/
def exhausted (inventory : ContextInventory) (entry : ResidentSection) : ContextInventory :=
  match inventory.entries.get? entry.key with
  | none => ((inventory.offered entry).discard (inventory.victimsFor value entry)).pop entry.key
  | some previous => (((inventory.offered entry).discard
      (inventory.victimsFor value entry)).pop entry.key).store previous

/-- What `add` puts back where nothing was evicted is all that there was. -/
theorem mem_values_exhausted {other : ResidentSection}
    (empty : inventory.victimsFor value entry = []) :
    other ∈ (inventory.exhausted value entry).values ↔ other ∈ inventory.values := by
  rw [exhausted, empty]
  change other ∈ (match inventory.entries.get? entry.key with
    | none => (inventory.offered entry).pop entry.key
    | some previous => ((inventory.offered entry).pop entry.key).store previous).values ↔ _
  have kept : other ∈ ((inventory.offered entry).pop entry.key).values ↔
      other ∈ inventory.values ∧ other.key ≠ entry.key := by
    rw [mem_values_pop, mem_values_offered]
    refine ⟨fun both => ⟨?_, both.2⟩, fun both => ⟨.inr both, both.2⟩⟩
    rcases both.1 with rfl | old
    · exact absurd rfl both.2
    · exact old.1
  split
  next absent =>
    rw [kept]
    refine ⟨And.left, fun member => ⟨member, fun same => ?_⟩⟩
    have found := mem_values.mp member
    rw [same, absent] at found
    cases found
  next previous found =>
    have keyed := inventory.keyed entry.key previous found
    rw [mem_values_store, kept, keyed]
    refine ⟨fun either => ?_, fun member => ?_⟩
    · rcases either with rfl | old
      · exact mem_values.mpr (keyed ▸ found)
      · exact old.1.1
    · by_cases same : other.key = entry.key
      · refine .inl (eq_of_key member (mem_values.mpr (keyed ▸ found)) ?_)
        rw [same, keyed]
      · exact .inr ⟨⟨member, same⟩, same⟩

/-- Where `add` gives up, what it evicted is gone. -/
theorem not_mem_exhausted (among : victim ∈ inventory.candidates entry.key) :
    victim ∉ (inventory.exhausted value entry).values := by
  have gone : victim ∉ ((inventory.offered entry).discard
      (inventory.victimsFor value entry)).values := fun member =>
    (mem_values_discard.mp member).2 (List.mem_map_of_mem ((mem_victimsFor value).mpr among))
  have apart := (mem_candidates.mp among).2.2
  rw [exhausted]
  split
  next => exact fun member => gone (mem_values_pop.mp member).1
  next previous found =>
    intro member
    rcases mem_values_store.mp member with rfl | old
    · exact apart (inventory.keyed entry.key victim found)
    · exact gone (mem_values_pop.mp old.1).1

variable (inventory) (entry)

theorem addChecked_invalid (invalid : entry.key = "" ∨ entry.portableTokens < 0) :
    inventory.addChecked value entry = (.error (.raised .valueError), inventory) :=
  if_pos invalid

theorem addChecked_fits (valid : ¬(entry.key = "" ∨ entry.portableTokens < 0))
    (fits : (inventory.offered entry).FitsWithout (inventory.victimsFor value entry) 0) :
    inventory.addChecked value entry = (.ok [], inventory.offered entry) := by
  have kept : evictToLimitChecked value entry.key ((inventory.pop entry.key).touch entry) =
      (.ok [], inventory.offered entry) := by
    unfold evictToLimitChecked
    exact if_pos fits
  rw [addChecked, if_neg valid, kept]

theorem addChecked_overflow (valid : ¬(entry.key = "" ∨ entry.portableTokens < 0))
    (above : ¬(inventory.offered entry).FitsWithout (inventory.victimsFor value entry) 0)
    (overflows : ∃ other ∈ inventory.candidates entry.key, other.toSection.value value = ⊤) :
    inventory.addChecked value entry = (.error .overflow, inventory.offered entry) := by
  obtain ⟨other, member, top⟩ := overflows
  have raised : evictToLimitChecked value entry.key ((inventory.pop entry.key).touch entry) =
      (.error .overflow, inventory.offered entry) := by
    unfold evictToLimitChecked
    refine (if_neg above).trans ?_
    exact if_pos ⟨other, mem_candidates_offered.mpr member, top⟩
  rw [addChecked, if_neg valid, raised]

/-- Without an overflow, `add` evicts in the order until the limit is kept or nothing is left. -/
theorem addChecked_cases (valid : ¬(entry.key = "" ∨ entry.portableTokens < 0))
    (total : ∀ other ∈ inventory.candidates entry.key, other.toSection.value value ≠ ⊤) :
    (∃ count, (inventory.offered entry).FitsWithout (inventory.victimsFor value entry) count ∧
      (∀ fewer < count,
        ¬(inventory.offered entry).FitsWithout (inventory.victimsFor value entry) fewer) ∧
      inventory.addChecked value entry =
        (.ok (((inventory.victimsFor value entry).take count).map (·.evicted)),
          (inventory.offered entry).discard ((inventory.victimsFor value entry).take count))) ∨
    (∀ count, ¬(inventory.offered entry).FitsWithout (inventory.victimsFor value entry) count) ∧
      inventory.addChecked value entry =
        (.error (.raised Errors.budgetExhausted), inventory.exhausted value entry) := by
  have evicts := evicts_order value (inventory.victimsFor value entry)
    (@victimsFor_offered _ _ inventory entry value)
  rw [addChecked_of_ne_top value total, add, if_neg valid]
  change EvictsInOrder _ _ (evictToLimit value entry.key ((inventory.pop entry.key).touch entry)) at evicts
  generalize evictToLimit value entry.key ((inventory.pop entry.key).touch entry) = outcome at evicts
  cases evicts with
  | fewest count fits least => exact .inl ⟨count, fits, least, rfl⟩
  | exhausted never => exact .inr ⟨never, rfl⟩

theorem not_atomic_of_exhausted
    (added : inventory.addChecked value entry =
      (.error (.raised Errors.budgetExhausted), inventory.exhausted value entry))
    (among : victim ∈ inventory.candidates entry.key) :
    ¬inventory.Atomic value entry (inventory.addChecked value entry) := by
  rw [added]
  intro atomic
  exact not_mem_exhausted value among ((atomic.2 victim).mpr (mem_candidates.mp among).1)

/-- An admission is atomic exactly where the section is admissible. -/
theorem addChecked_atomic_iff :
    inventory.Atomic value entry (inventory.addChecked value entry) ↔
      inventory.Admissible value entry := by
  by_cases valid : entry.key = "" ∨ entry.portableTokens < 0
  · rw [addChecked_invalid inventory entry value valid]
    refine ⟨fun atomic => absurd atomic.1 (by decide), fun admissible => ?_⟩
    rcases valid with empty | negative
    · exact absurd empty admissible.1
    · exact absurd admissible.2.1 negative.not_ge
  have valid' : entry.key ≠ "" ∧ 0 ≤ entry.portableTokens := by
    rw [not_or, not_lt] at valid
    exact valid
  by_cases fits : (inventory.offered entry).FitsWithout (inventory.victimsFor value entry) 0
  · rw [addChecked_fits inventory entry value valid fits]
    refine ⟨fun _ => ⟨valid'.1, valid'.2, .inl fits⟩, fun _ => ?_⟩
    exact admitted_of_fewest value fits fun fewer less => absurd less (Nat.not_lt_zero fewer)
  by_cases overflows : ∃ other ∈ inventory.candidates entry.key, other.toSection.value value = ⊤
  · rw [addChecked_overflow inventory entry value valid fits overflows]
    refine ⟨fun atomic => absurd atomic.1 (by decide), fun admissible => ?_⟩
    obtain ⟨other, member, top⟩ := overflows
    exact absurd top ((admissible.2.2.resolve_left fits).1 other member)
  have total : ∀ other ∈ inventory.candidates entry.key, other.toSection.value value ≠ ⊤ :=
    fun other member top => overflows ⟨other, member, top⟩
  rcases addChecked_cases inventory entry value valid total with
    ⟨count, enough, least, added⟩ | ⟨never, added⟩
  · rw [added]
    refine ⟨fun _ => ⟨valid'.1, valid'.2, .inr ⟨total, .inr ⟨count, enough⟩⟩⟩, fun _ => ?_⟩
    exact admitted_of_fewest value enough least
  · refine ⟨fun atomic => ?_, fun admissible => ?_⟩
    · refine ⟨valid'.1, valid'.2, .inr ⟨total, .inl (List.eq_nil_iff_forall_not_mem.mpr ?_)⟩⟩
      exact fun victim among => not_atomic_of_exhausted inventory entry value added among atomic
    · have empty : inventory.victimsFor value entry = [] := by
        rcases (admissible.2.2.resolve_left fits).2 with no | ⟨count, enough⟩
        · rw [victimsFor, no]
          rfl
        · exact absurd enough (never count)
      rw [added]
      exact ⟨rfl, fun other => mem_values_exhausted value empty⟩

/-- A pinned section of eight tokens and one of two, in an inventory for ten. -/
def crowded : ContextInventory :=
  (ContextInventory.store { maxPortableTokens := 10 }
      { key := "a", revision := "1", «section» := "s", portableTokens := 8, pinned := true }).store
    { key := "b", revision := "1", «section» := "s", portableTokens := 2 }

/-- The quotient of `_eviction_order`, without the rounding. -/
def quotient : EvictionValue (WithTop ℚ) := fun tokens reload reuse sensitive =>
  ((reuse * reload : ℚ) / max 1 (tokens * if sensitive then 2 else 1) : ℚ)

theorem crowded_victims (portableTokens : Int) : crowded.victimsFor quotient
    { key := "c", revision := "1", «section» := "s", portableTokens } =
      [{ key := "b", revision := "1", «section» := "s", portableTokens := 2, lastAccess := 0 }] := rfl

/-- A section of five does not fit, and the section of two is lost. -/
theorem crowded_not_atomic :
    ¬crowded.Atomic quotient { key := "c", revision := "1", «section» := "s", portableTokens := 5 }
      (crowded.addChecked quotient
        { key := "c", revision := "1", «section» := "s", portableTokens := 5 }) := by
  rcases addChecked_cases crowded
      { key := "c", revision := "1", «section» := "s", portableTokens := 5 } quotient (by decide)
      fun _ _ => WithTop.coe_ne_top with ⟨count, enough, _⟩ | ⟨_, added⟩
  · rw [crowded_victims, FitsWithout] at enough
    cases count with
    | zero => exact absurd enough (by decide)
    | succ count =>
        rw [List.take_succ_cons, List.take_nil] at enough
        exact absurd enough (by decide)
  · have among : { key := "b", revision := "1", «section» := "s", portableTokens := 2 } ∈
        crowded.candidates "c" := by decide
    exact not_atomic_of_exhausted crowded _ quotient added among

end ContextInventory

end CapabilityHub.Residency
