import CapabilityHub.Metering
import CapabilityHub.Data.Order
import Mathlib.Data.String.Basic

/-! # The members of JSON objects

An object is given by what its keys lead to. `Json.sorted` puts the members of every object in the
order of their keys, which keeps what each key leads to (`CapabilityHub.mappingGet_sortedMembers`) and
forgets nothing else (`CapabilityHub.sortedMembers_congr`).
-/

namespace CapabilityHub

/-- The members of an object in the order of their keys. -/
def sortedMembers (fields : List (String × Json)) : List (String × Json) :=
  sortedBy Prod.fst (sortedFields fields)

variable {fields fields' : List (String × Json)} {items : List Json} {value : Json} {key other : String}

theorem Json.sorted_obj (fields : List (String × Json)) :
    (Json.obj fields).sorted = .obj (sortedMembers fields) := by
  rw [Json.sorted]
  rfl

theorem Json.sorted_arr (items : List Json) : (Json.arr items).sorted = .arr (items.map Json.sorted) := by
  rw [Json.sorted]
  congr 1
  induction items with
  | nil => rfl
  | cons item items ih => rw [sortedItems, ih, List.map_cons]

theorem sortedFields_eq_map (fields : List (String × Json)) :
    sortedFields fields = fields.map fun field => (field.1, field.2.sorted) := by
  induction fields with
  | nil => rfl
  | cons field fields ih => rw [sortedFields, ih, List.map_cons]

/-! ## Lookups -/

theorem mappingGet_cons (field : String × Json) (fields : List (String × Json)) :
    mappingGet (field :: fields) key = if key = field.1 then some field.2 else mappingGet fields key :=
  lookup_cons_ite key field fields

theorem mappingGet_eq_none_iff : mappingGet fields key = none ↔ key ∉ fields.map Prod.fst :=
  lookup_eq_none_iff_notMem

theorem mappingGet_assign : mappingGet (assign key value fields) other =
    if other = key then some value else mappingGet fields other :=
  lookup_assign key other value fields

theorem nodup_assign (nodup : (fields.map Prod.fst).Nodup) :
    ((assign key value fields).map Prod.fst).Nodup :=
  (Dict.set ⟨fields, nodup⟩ key value).nodup

theorem mem_of_mappingGet (found : mappingGet fields key = some value) : (key, value) ∈ fields := by
  induction fields with
  | nil => cases found
  | cons field fields ih =>
      rw [mappingGet_cons] at found
      split at found
      next same =>
        rw [same, ← Option.some.inj found]
        exact List.mem_cons_self
      · exact List.mem_cons_of_mem _ (ih found)

theorem mem_iff_mappingGet (nodup : (fields.map Prod.fst).Nodup) :
    (key, value) ∈ fields ↔ mappingGet fields key = some value :=
  Dict.mem_entries_iff (d := ⟨fields, nodup⟩)

theorem mappingGet_perm (nodup : (fields.map Prod.fst).Nodup) (perm : fields.Perm fields') :
    mappingGet fields' key = mappingGet fields key := by
  apply Option.ext
  intro value
  rw [← mem_iff_mappingGet nodup, ← mem_iff_mappingGet ((perm.map Prod.fst).nodup_iff.mp nodup),
    perm.mem_iff]

theorem mappingGet_sortedFields :
    mappingGet (sortedFields fields) key = (mappingGet fields key).map Json.sorted := by
  induction fields with
  | nil => rfl
  | cons field fields ih =>
      obtain ⟨name, value⟩ := field
      rw [sortedFields, mappingGet_cons, mappingGet_cons, ih]
      split <;> rfl

theorem nodup_sortedFields (nodup : (fields.map Prod.fst).Nodup) :
    ((sortedFields fields).map Prod.fst).Nodup := by
  rwa [keys_sortedFields]

theorem nodup_sortedMembers (nodup : (fields.map Prod.fst).Nodup) :
    ((sortedMembers fields).map Prod.fst).Nodup :=
  ((perm_sortedBy Prod.fst _).map Prod.fst).nodup_iff.mpr (nodup_sortedFields nodup)

theorem mappingGet_sortedMembers (nodup : (fields.map Prod.fst).Nodup) :
    mappingGet (sortedMembers fields) key = (mappingGet fields key).map Json.sorted := by
  rw [← mappingGet_sortedFields, sortedMembers,
    mappingGet_perm (nodup_sortedFields nodup) (perm_sortedBy Prod.fst _).symm]

theorem mappingGet_filter (keep : String → Bool) :
    mappingGet (fields.filter fun field => keep field.1) key =
      if keep key then mappingGet fields key else none := by
  induction fields with
  | nil => simp [mappingGet]
  | cons field fields ih =>
      rw [List.filter_cons, mappingGet_cons]
      by_cases same : key = field.1
      · by_cases kept : keep field.1 = true
        · rw [if_pos kept, mappingGet_cons, if_pos same, same, if_pos kept, if_pos rfl]
        · rw [if_neg kept, ih, same, if_neg kept, if_neg kept]
      · rw [if_neg same, ← ih]
        split
        · rw [mappingGet_cons, if_neg same]
        · rfl

theorem mappingGet_append : mappingGet (fields ++ fields') key =
    (mappingGet fields key).or (mappingGet fields' key) := by
  induction fields with
  | nil => rfl
  | cons field fields ih =>
      rw [List.cons_append, mappingGet_cons, mappingGet_cons, ih]
      split <;> rfl

theorem nodup_filter {keep : String × Json → Bool} (nodup : (fields.map Prod.fst).Nodup) :
    ((fields.filter keep).map Prod.fst).Nodup :=
  nodup.sublist (List.filter_sublist.map _)

/-! ## Sorting -/

/-- Objects whose keys lead to the same values, in any order, have the same sorted members. -/
theorem sortedMembers_congr (nodup : (fields.map Prod.fst).Nodup)
    (nodup' : (fields'.map Prod.fst).Nodup)
    (same : ∀ key, (mappingGet fields key).map Json.sorted = (mappingGet fields' key).map Json.sorted) :
    sortedMembers fields = sortedMembers fields' := by
  have entries : (sortedFields fields).Perm (sortedFields fields') := by
    refine Dict.entries_perm (d := ⟨_, nodup_sortedFields nodup⟩)
      (e := ⟨_, nodup_sortedFields nodup'⟩) fun key => ?_
    have lookups := same key
    rwa [← mappingGet_sortedFields, ← mappingGet_sortedFields] at lookups
  refine sortedBy_congr Prod.fst entries fun first member second member' equal => ?_
  exact List.inj_on_of_nodup_map (nodup_sortedFields nodup) member member' equal

theorem sortedMembers_inj (nodup : (fields.map Prod.fst).Nodup)
    (nodup' : (fields'.map Prod.fst).Nodup) (same : sortedMembers fields = sortedMembers fields')
    (key : String) :
    (mappingGet fields key).map Json.sorted = (mappingGet fields' key).map Json.sorted := by
  rw [← mappingGet_sortedMembers nodup, ← mappingGet_sortedMembers nodup', same]

/-- Members whose values are sorted only have to be put in order. -/
theorem sortedMembers_of_sorted (sorted : ∀ field ∈ fields, field.2.sorted = field.2) :
    sortedMembers fields = sortedBy Prod.fst fields := by
  have fixed : ∀ field ∈ fields, (field.1, field.2.sorted) = field := by
    intro field member
    rw [sorted field member]
  rw [sortedMembers, sortedFields_eq_map, List.map_congr_left fixed, List.map_id']

mutual

/-- Sorting a second time changes nothing. -/
theorem Json.sorted_sorted : ∀ value : Json, value.sorted.sorted = value.sorted
  | .arr items => by
      rw [Json.sorted_arr, Json.sorted_arr, List.map_map]
      exact congrArg Json.arr (sortedItems_sorted items)
  | .obj fields => by
      have inside : ∀ field ∈ sortedMembers fields, field.2.sorted = field.2 := fun field member =>
        sortedFields_sorted fields field ((mem_sortedBy Prod.fst).mp member)
      rw [Json.sorted_obj, Json.sorted_obj, sortedMembers_of_sorted inside]
      exact congrArg Json.obj (List.Pairwise.insertionSort_eq (List.pairwise_insertionSort _ _))
  | .null => rfl
  | .bool _ => rfl
  | .int _ => rfl
  | .str _ => rfl

theorem sortedItems_sorted : ∀ items : List Json,
    items.map (Json.sorted ∘ Json.sorted) = items.map Json.sorted
  | [] => rfl
  | item :: rest => by
      rw [List.map_cons, List.map_cons, sortedItems_sorted rest, Function.comp_apply,
        Json.sorted_sorted item]

theorem sortedFields_sorted : ∀ fields : List (String × Json),
    ∀ field ∈ sortedFields fields, field.2.sorted = field.2
  | [], field, member => by cases member
  | (key, value) :: rest, field, member => by
      rcases List.mem_cons.mp member with rfl | later
      · exact Json.sorted_sorted value
      · exact sortedFields_sorted rest field later

end

theorem sortedMembers_sorted (fields : List (String × Json)) :
    sortedMembers (sortedMembers fields) = sortedMembers fields := by
  have sorted := Json.sorted_sorted (.obj fields)
  rw [Json.sorted_obj, Json.sorted_obj] at sorted
  exact Json.obj.inj sorted

/-! ## Equality -/

mutual

@[simp] theorem Json.same_self : ∀ value : Json, value.same value = true
  | .null => rfl
  | .bool value => by simp [Json.same, Json.number?]
  | .int value => by simp [Json.same, Json.number?]
  | .str text => by simp [Json.same]
  | .arr items => by rw [Json.same, sameItems_self items]
  | .obj fields => by rw [Json.same, sameFields_self fields]

@[simp] theorem sameItems_self : ∀ items : List Json, sameItems items items = true
  | [] => rfl
  | item :: rest => by rw [sameItems, Json.same_self item, sameItems_self rest, Bool.and_self]

@[simp] theorem sameFields_self : ∀ fields : List (String × Json), sameFields fields fields = true
  | [] => rfl
  | (key, value) :: rest => by
      rw [sameFields, Json.same_self value, sameFields_self rest]
      simp

end

/-! ## Decoded values -/

/-- A value that `json.loads` returns: no object has a key twice, and no integer has more digits than
it reads. -/
structure Json.Loaded (value : Json) : Prop where
  distinct : value.Distinct
  printable : value.printable = true

theorem printableFields_iff :
    printableFields fields = true ↔ ∀ field ∈ fields, field.2.printable = true := by
  induction fields with
  | nil => simp [printableFields]
  | cons field fields ih =>
      obtain ⟨key, value⟩ := field
      simp [printableFields, ih]

theorem distinctItems_iff : DistinctItems items ↔ ∀ item ∈ items, item.Distinct := by
  induction items with
  | nil => simp [DistinctItems]
  | cons item items ih => simp [DistinctItems, ih]

namespace Json

theorem loaded_obj : (Json.obj fields).Loaded ↔
    (fields.map Prod.fst).Nodup ∧ ∀ field ∈ fields, field.2.Loaded := by
  constructor
  · rintro ⟨distinct, printable⟩
    rw [Json.Distinct, distinctFields_iff] at distinct
    rw [Json.printable, printableFields_iff] at printable
    exact ⟨distinct.1, fun field member => ⟨distinct.2 field member, printable field member⟩⟩
  · rintro ⟨nodup, loaded⟩
    constructor
    · rw [Json.Distinct, distinctFields_iff]
      exact ⟨nodup, fun field member => (loaded field member).distinct⟩
    · rw [Json.printable, printableFields_iff]
      exact fun field member => (loaded field member).printable

@[simp] theorem loaded_null : Json.null.Loaded := ⟨trivial, rfl⟩

@[simp] theorem loaded_str (text : String) : (Json.str text).Loaded := ⟨trivial, rfl⟩

@[simp] theorem loaded_zero : (Json.int 0).Loaded := by
  refine ⟨trivial, ?_⟩
  rw [Json.printable, decide_eq_true_eq, Int.natAbs_zero]
  exact Nat.pow_pos (Nat.succ_pos 9)

@[simp] theorem loaded_nil : (Json.arr []).Loaded := ⟨trivial, rfl⟩

mutual

theorem printable_sorted : ∀ value : Json, value.sorted.printable = value.printable
  | .arr items => by
      rw [Json.sorted, Json.printable, Json.printable, printable_sortedItems items]
  | .obj fields => by
      have ordered : printableFields (sortedMembers fields) = printableFields (sortedFields fields) := by
        rw [Bool.eq_iff_iff, printableFields_iff, printableFields_iff, sortedMembers]
        simp only [mem_sortedBy]
      rw [Json.sorted_obj, Json.printable, Json.printable, ordered, printable_sortedFields fields]
  | .null => rfl
  | .bool _ => rfl
  | .int _ => rfl
  | .str _ => rfl

theorem printable_sortedItems : ∀ items : List Json,
    printableItems (sortedItems items) = printableItems items
  | [] => rfl
  | item :: rest => by
      rw [sortedItems, printableItems, printableItems, printable_sorted item,
        printable_sortedItems rest]

theorem printable_sortedFields : ∀ fields : List (String × Json),
    printableFields (sortedFields fields) = printableFields fields
  | [] => rfl
  | (key, value) :: rest => by
      rw [sortedFields, printableFields, printableFields, printable_sorted value,
        printable_sortedFields rest]

end

theorem Loaded.sorted (loaded : value.Loaded) : value.sorted.Loaded :=
  ⟨loaded.distinct.sorted, (printable_sorted value).trans loaded.printable⟩

end Json

/-! ## What is loaded -/

theorem distinct_assign (whole : (Json.obj fields).Distinct) (given : value.Distinct) :
    (Json.obj (assign key value fields)).Distinct := by
  rw [Json.Distinct, distinctFields_iff] at whole ⊢
  refine ⟨nodup_assign whole.1, fun field member => ?_⟩
  have found := (mem_iff_mappingGet (nodup_assign whole.1)).mp member
  rw [mappingGet_assign] at found
  split at found
  next =>
    rw [← Option.some.inj found]
    exact given
  next => exact whole.2 _ (mem_of_mappingGet found)

theorem distinct_foldl_assign {members : List (String × Json)} (given : DistinctFields members)
    (whole : (Json.obj fields).Distinct) :
    (Json.obj (members.foldl (fun fields field => assign field.1 field.2 fields) fields)).Distinct := by
  induction members generalizing fields with
  | nil => exact whole
  | cons member rest ih => exact ih given.2 (distinct_assign whole given.1)

/-- A value that is read has no key twice in an object: a later member takes the place of an earlier
one. -/
theorem distinct_parse (fuel : Nat) :
    (∀ chars value rest, parseValue fuel chars = some (value, rest) → value.Distinct) ∧
    (∀ chars items rest, parseItems fuel chars = some (items, rest) → DistinctItems items) ∧
    ∀ chars members rest, parseMembers fuel chars = some (members, rest) → DistinctFields members := by
  induction fuel with
  | zero =>
      refine ⟨fun _ _ _ parsed => ?_, fun _ _ _ parsed => ?_, fun _ _ _ parsed => ?_⟩
      · rw [parseValue] at parsed
        cases parsed
      · rw [parseItems] at parsed
        cases parsed
      · rw [parseMembers] at parsed
        cases parsed
  | succ fuel ih =>
      obtain ⟨values, items, members⟩ := ih
      refine ⟨fun chars value rest parsed => ?_, fun chars list rest parsed => ?_,
        fun chars list rest parsed => ?_⟩
      · cases chars with
        | nil =>
            rw [parseValue] at parsed
            cases parsed
        | cons first chars =>
            rw [parseValue] at parsed
            split at parsed
            next =>
              obtain ⟨read, _, same⟩ := Option.map_eq_some_iff.mp parsed
              cases same
              trivial
            split at parsed
            next =>
              split at parsed
              next =>
                cases parsed
                exact ⟨List.nodup_nil, trivial⟩
              next =>
                obtain ⟨read, below, same⟩ := Option.map_eq_some_iff.mp parsed
                cases same
                exact distinct_foldl_assign (members _ _ _ below) ⟨List.nodup_nil, trivial⟩
            split at parsed
            next =>
              split at parsed
              next =>
                cases parsed
                trivial
              next =>
                obtain ⟨read, below, same⟩ := Option.map_eq_some_iff.mp parsed
                cases same
                exact items _ _ _ below
            repeat
              split at parsed
              next =>
                cases parsed
                trivial
            obtain ⟨read, _, same⟩ := Option.map_eq_some_iff.mp parsed
            cases same
            trivial
      · rw [parseItems] at parsed
        simp only [Option.bind_eq_bind, Option.bind_eq_some_iff] at parsed
        obtain ⟨⟨item, rest'⟩, here, parsed⟩ := parsed
        have front := values _ _ _ here
        split at parsed
        next =>
          rw [Option.bind_eq_some_iff] at parsed
          obtain ⟨⟨list', rest''⟩, below, same⟩ := parsed
          cases same
          exact ⟨front, items _ _ _ below⟩
        split at parsed
        next =>
          cases parsed
          exact ⟨front, trivial⟩
        next => cases parsed
      · cases chars with
        | nil =>
            rw [parseMembers] at parsed
            cases parsed
        | cons first chars =>
            rw [parseMembers] at parsed
            split at parsed
            next => cases parsed
            simp only [Option.bind_eq_bind, Option.bind_eq_some_iff] at parsed
            obtain ⟨⟨key, rest₁⟩, _, parsed⟩ := parsed
            split at parsed
            next => cases parsed
            rw [Option.bind_eq_some_iff] at parsed
            obtain ⟨⟨value, rest₂⟩, given, parsed⟩ := parsed
            have front := values _ _ _ given
            split at parsed
            next =>
              rw [Option.bind_eq_some_iff] at parsed
              obtain ⟨⟨list', rest₃⟩, below, same⟩ := parsed
              cases same
              exact ⟨front, members _ _ _ below⟩
            split at parsed
            next =>
              cases parsed
              exact ⟨front, trivial⟩
            next => cases parsed

theorem distinct_loads {chars : List Char} (loaded : loads chars = some value) : value.Distinct := by
  rw [loads] at loaded
  split at loaded
  next => cases loaded
  next value' rest parsed =>
    split at loaded
    next =>
      obtain rfl := Option.some.inj loaded
      exact (distinct_parse _).1 _ _ _ parsed
    next => cases loaded

end CapabilityHub
