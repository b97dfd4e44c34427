import CapabilityHub.Data.Checks
import Mathlib.Algebra.BigOperators.Group.List.Basic
import Mathlib.Algebra.GroupWithZero.Nat
import Mathlib.Data.List.Dedup
import Mathlib.Data.List.Perm.Subperm

/-! # Dictionaries

A dictionary keeps its keys in the order in which they were first written. It stands
for a `dict`, and for a table whose rows are addressed by their primary key.

Two observations of a dictionary matter: what a key maps to (`Dict.get?`) and sums over
the entries (`Dict.total`). Each operation has one lemma about the first, and the two
ways of writing an entry have one about the second.
-/

namespace CapabilityHub

variable {κ ν : Type}

section Entries

variable [DecidableEq κ]

/-- Write `value` under `key`: in place where the key exists, at the end otherwise. -/
def assign (key : κ) (value : ν) : List (κ × ν) → List (κ × ν)
  | [] => [(key, value)]
  | entry :: entries =>
      if entry.1 = key then (key, value) :: entries else entry :: assign key value entries

theorem lookup_cons_ite (key : κ) (entry : κ × ν) (entries : List (κ × ν)) :
    (entry :: entries).lookup key = if key = entry.1 then some entry.2 else entries.lookup key := by
  obtain ⟨first, value⟩ := entry
  by_cases same : key = first
  · simp [same]
  · simp only [List.lookup_cons, same, ↓reduceIte]
    rw [beq_false_of_ne same]

theorem lookup_eq_none_iff_notMem {key : κ} {entries : List (κ × ν)} :
    entries.lookup key = none ↔ key ∉ entries.map Prod.fst := by
  induction entries with
  | nil => simp
  | cons entry entries ih =>
      rw [lookup_cons_ite, List.map_cons, List.mem_cons]
      by_cases same : key = entry.1
      · simp [same]
      · simp [same, ih]

theorem lookup_map_key {μ : Type} [DecidableEq μ] {f : κ → μ} (injective : Function.Injective f)
    (key : κ) (entries : List (κ × ν)) :
    (entries.map fun entry => (f entry.1, entry.2)).lookup (f key) = entries.lookup key := by
  induction entries with
  | nil => rfl
  | cons entry entries ih =>
      rw [List.map_cons, lookup_cons_ite, lookup_cons_ite, ih]
      exact if_congr injective.eq_iff rfl rfl

theorem keys_assign (key : κ) (value : ν) (entries : List (κ × ν)) :
    (assign key value entries).map Prod.fst =
      if key ∈ entries.map Prod.fst then entries.map Prod.fst
      else entries.map Prod.fst ++ [key] := by
  induction entries with
  | nil => rfl
  | cons entry entries ih =>
      by_cases same : entry.1 = key
      · simp [assign, same]
      · have other : ¬key = entry.1 := fun equal => same equal.symm
        simp only [assign, same, ↓reduceIte, List.map_cons, ih, List.mem_cons, other, false_or]
        split <;> rfl

theorem lookup_assign (key other : κ) (value : ν) (entries : List (κ × ν)) :
    (assign key value entries).lookup other =
      if other = key then some value else entries.lookup other := by
  induction entries with
  | nil => simp only [assign, lookup_cons_ite]
  | cons entry entries ih =>
      by_cases head : entry.1 = key
      · simp only [assign, head, ↓reduceIte, lookup_cons_ite]
        split <;> rfl
      · simp only [assign, head, ↓reduceIte, lookup_cons_ite, ih]
        by_cases same : other = key
        · have distinct : ¬key = entry.1 := fun equal => head equal.symm
          simp only [same, distinct, ↓reduceIte]
        · simp only [same, ↓reduceIte]

theorem sum_assign (f : κ → ν → Nat) (key : κ) (value : ν) (entries : List (κ × ν)) :
    ((assign key value entries).map fun entry => f entry.1 entry.2).sum +
        ((entries.lookup key).map (f key)).getD 0 =
      (entries.map fun entry => f entry.1 entry.2).sum + f key value := by
  induction entries with
  | nil => simp [assign]
  | cons entry entries ih =>
      by_cases head : entry.1 = key
      · subst head
        simp only [assign, ↓reduceIte, List.map_cons, List.sum_cons, lookup_cons_ite,
          Option.map_some, Option.getD_some]
        omega
      · have distinct : ¬key = entry.1 := fun equal => head equal.symm
        simp only [assign, head, distinct, ↓reduceIte, List.map_cons, List.sum_cons,
          lookup_cons_ite]
        omega

theorem sum_lookup (f : κ → ν → Nat) (key : κ) (entries : List (κ × ν))
    (nodup : (entries.map Prod.fst).Nodup) :
    (entries.map fun entry => if entry.1 = key then f entry.1 entry.2 else 0).sum =
      ((entries.lookup key).map (f key)).getD 0 := by
  induction entries with
  | nil => rfl
  | cons entry entries ih =>
      obtain ⟨fresh, nodup⟩ := List.nodup_cons.mp nodup
      rw [List.map_cons, List.sum_cons, ih nodup, lookup_cons_ite]
      by_cases head : entry.1 = key
      · subst head
        simp [lookup_eq_none_iff_notMem.mpr fresh]
      · have distinct : ¬key = entry.1 := fun equal => head equal.symm
        simp [head, distinct]

end Entries

/-- **A dictionary**: entries in insertion order, each key once. -/
structure Dict (κ ν : Type) where
  entries : List (κ × ν)
  nodup : (entries.map Prod.fst).Nodup
  deriving DecidableEq

namespace Dict

variable {d e : Dict κ ν} {key other : κ} {value : ν}

def empty : Dict κ ν := ⟨[], List.nodup_nil⟩

instance : EmptyCollection (Dict κ ν) := ⟨empty⟩

def keys (d : Dict κ ν) : List κ := d.entries.map Prod.fst

def size (d : Dict κ ν) : Nat := d.entries.length

theorem length_keys (d : Dict κ ν) : d.keys.length = d.size := by
  simp [keys, size]

theorem keys_nodup (d : Dict κ ν) : d.keys.Nodup := d.nodup

theorem entries_nodup (d : Dict κ ν) : d.entries.Nodup :=
  List.Nodup.of_map _ d.nodup

@[simp] theorem keys_empty : (∅ : Dict κ ν).keys = [] := rfl

variable [DecidableEq κ]

def get? (d : Dict κ ν) (key : κ) : Option ν := d.entries.lookup key

def getD (d : Dict κ ν) (key : κ) (default : ν) : ν := (d.get? key).getD default

@[simp] theorem get?_empty : (∅ : Dict κ ν).get? key = none := rfl

theorem get?_eq_none_iff : d.get? key = none ↔ key ∉ d.keys :=
  lookup_eq_none_iff_notMem

theorem get?_isSome_iff : (∃ value, d.get? key = some value) ↔ key ∈ d.keys := by
  rw [← Option.isSome_iff_exists, ← not_iff_not, ← get?_eq_none_iff]
  simp

theorem mem_keys_of_get? (found : d.get? key = some value) : key ∈ d.keys :=
  get?_isSome_iff.mp ⟨value, found⟩

theorem mem_entries_iff : (key, value) ∈ d.entries ↔ d.get? key = some value := by
  obtain ⟨entries, nodup⟩ := d
  rw [get?]
  induction entries with
  | nil => simp
  | cons entry entries ih =>
      obtain ⟨fresh, nodup⟩ := List.nodup_cons.mp nodup
      by_cases same : key = entry.1
      · subst same
        have absent : (entry.1, value) ∉ entries := fun member =>
          fresh (List.mem_map.mpr ⟨_, member, rfl⟩)
        simp only [List.mem_cons, absent, or_false, lookup_cons_ite, ↓reduceIte,
          Option.some.injEq]
        exact ⟨fun equal => congrArg Prod.snd equal.symm, fun equal => by rw [← equal]⟩
      · have different : (key, value) ≠ entry := fun equal => same (congrArg Prod.fst equal)
        simp only [List.mem_cons, different, false_or, ih nodup, lookup_cons_ite, same,
          ↓reduceIte]

/-- `d[key] = value`. -/
def set (d : Dict κ ν) (key : κ) (value : ν) : Dict κ ν where
  entries := assign key value d.entries
  nodup := by
    rw [keys_assign]
    split
    · exact d.nodup
    next fresh =>
      exact List.nodup_append.mpr ⟨d.nodup, List.nodup_singleton key, fun first member second last =>
        fun equal => fresh (List.mem_singleton.mp last ▸ equal ▸ member)⟩

theorem assign_of_notMem {entries : List (κ × ν)} (fresh : key ∉ entries.map Prod.fst) :
    assign key value entries = entries ++ [(key, value)] := by
  induction entries with
  | nil => rfl
  | cons entry entries ih =>
      obtain ⟨different, fresh⟩ := not_or.mp (List.mem_cons.not.mp fresh)
      have distinct : ¬entry.1 = key := fun equal => different equal.symm
      rw [assign, if_neg distinct, ih fresh, List.cons_append]

/-- A new key comes last. -/
theorem entries_set_of_notMem (value : ν) (fresh : key ∉ d.keys) :
    (d.set key value).entries = d.entries ++ [(key, value)] :=
  assign_of_notMem fresh

omit [DecidableEq κ] in
theorem ext_entries (same : d.entries = e.entries) : d = e := by
  cases d
  cases e
  cases same
  rfl

@[simp] theorem get?_set : (d.set key value).get? other =
    if other = key then some value else d.get? other :=
  lookup_assign key other value d.entries

theorem get?_set_self : (d.set key value).get? key = some value := by
  simp

theorem getD_set {default : ν} : (d.set key value).getD other default =
    if other = key then value else d.getD other default := by
  rw [getD, get?_set]
  split <;> rfl

theorem get?_set_of_ne (different : other ≠ key) : (d.set key value).get? other = d.get? other := by
  simp [different]

theorem mem_keys_set : other ∈ (d.set key value).keys ↔ other = key ∨ other ∈ d.keys := by
  rw [← get?_isSome_iff, ← get?_isSome_iff, get?_set]
  by_cases same : other = key <;> simp [same]

/-- `d.pop(key, None)`. -/
def erase (d : Dict κ ν) (key : κ) : Dict κ ν where
  entries := d.entries.filter (·.1 ≠ key)
  nodup := d.nodup.sublist (List.filter_sublist.map _)

theorem get?_erase : (d.erase key).get? other = if other = key then none else d.get? other := by
  apply Option.ext
  intro value
  rw [← mem_entries_iff]
  by_cases same : other = key
  · simp [erase, same]
  · simp [erase, same, mem_entries_iff]

theorem getD_erase {default : ν} : (d.erase key).getD other default =
    if other = key then default else d.getD other default := by
  rw [getD, get?_erase]
  split <;> rfl

theorem size_set : (d.set key value).size = if key ∈ d.keys then d.size else d.size + 1 := by
  rw [← length_keys, ← length_keys]
  change ((assign key value d.entries).map Prod.fst).length = _
  rw [keys_assign]
  split
  next member => exact (if_pos member).symm
  next fresh =>
    rw [List.length_append]
    exact (if_neg fresh).symm

theorem size_erase_add_one (member : key ∈ d.keys) : (d.erase key).size + 1 = d.size := by
  have split : (d.keys.erase key).length + 1 = d.keys.length := by
    rw [List.length_erase_of_mem member]
    exact Nat.sub_add_cancel (List.length_pos_of_mem member)
  have rest : (d.erase key).keys = d.keys.erase key := by
    rw [d.keys_nodup.erase_eq_filter]
    simp only [keys, erase, List.filter_map, Function.comp_def, ne_eq, decide_not, bne,
      beq_eq_decide]
  rw [← length_keys, rest, split, length_keys]

/-- `d.move_to_end(key)`. -/
def moveToEnd (d : Dict κ ν) (key : κ) : Dict κ ν :=
  match d.get? key with
  | none => d
  | some value => (d.erase key).set key value

@[simp] theorem get?_moveToEnd : (d.moveToEnd key).get? other = d.get? other := by
  unfold moveToEnd
  cases found : d.get? key with
  | none => rfl
  | some value =>
      rw [get?_set, get?_erase]
      split
      next same => rw [same, found]
      next => rfl

@[simp] theorem size_moveToEnd : (d.moveToEnd key).size = d.size := by
  unfold moveToEnd
  cases found : d.get? key with
  | none => rfl
  | some value =>
      have absent : key ∉ (d.erase key).keys := by
        rw [← get?_eq_none_iff, get?_erase, if_pos rfl]
      rw [size_set, if_neg absent, size_erase_add_one (mem_keys_of_get? found)]

/-- `{**d, **e}`. -/
def merge (d e : Dict κ ν) : Dict κ ν :=
  e.entries.foldl (fun merged entry => merged.set entry.1 entry.2) d

theorem get?_foldl_set (entries : List (κ × ν)) (nodup : (entries.map Prod.fst).Nodup)
    (d : Dict κ ν) :
    (entries.foldl (fun merged entry => merged.set entry.1 entry.2) d).get? key =
      (entries.lookup key).or (d.get? key) := by
  induction entries generalizing d with
  | nil => rfl
  | cons entry entries ih =>
      obtain ⟨fresh, nodup⟩ := List.nodup_cons.mp nodup
      rw [List.foldl_cons, ih nodup, get?_set, lookup_cons_ite]
      by_cases same : key = entry.1
      · simp [same, lookup_eq_none_iff_notMem.mpr fresh]
      · simp [same]

theorem get?_merge : (d.merge e).get? key = (e.get? key).or (d.get? key) :=
  get?_foldl_set e.entries e.nodup d

/-- `dict(entries)`. -/
def ofEntries (entries : List (κ × ν)) : Dict κ ν :=
  entries.foldl (fun written entry => written.set entry.1 entry.2) ∅

theorem get?_ofEntries (entries : List (κ × ν)) (nodup : (entries.map Prod.fst).Nodup) :
    (ofEntries entries).get? key = (⟨entries, nodup⟩ : Dict κ ν).get? key := by
  rw [ofEntries, get?_foldl_set entries nodup, get?_empty, Option.or_none]
  rfl

/-- The entries whose key is kept. -/
def filterKeys (keep : κ → Bool) (d : Dict κ ν) : Dict κ ν where
  entries := d.entries.filter fun entry => keep entry.1
  nodup := d.nodup.sublist (List.filter_sublist.map _)

theorem get?_filterKeys (keep : κ → Bool) :
    (d.filterKeys keep).get? key = if keep key then d.get? key else none := by
  apply Option.ext
  intro value
  rw [← mem_entries_iff]
  by_cases kept : keep key
  · simp [filterKeys, kept, mem_entries_iff]
  · simp [filterKeys, kept]

theorem filterKeys_set : (d.set key value).filterKeys keep =
    if keep key then (d.filterKeys keep).set key value else d.filterKeys keep := by
  have entries : (assign key value d.entries).filter (fun entry => keep entry.1) =
      if keep key then assign key value (d.entries.filter fun entry => keep entry.1)
      else d.entries.filter fun entry => keep entry.1 := by
    induction d.entries with
    | nil => cases kept : keep key <;> simp [assign, kept]
    | cons entry entries ih =>
        rw [assign]
        by_cases same : entry.1 = key
        · rw [if_pos same, List.filter_cons, List.filter_cons, same]
          split <;> simp [assign, same]
        · rw [if_neg same, List.filter_cons, List.filter_cons, ih]
          split
          · split <;> simp [assign, same]
          · rfl
  apply ext_entries
  rw [filterKeys, set]
  dsimp only
  rw [entries]
  split <;> rfl

omit [DecidableEq κ] in
theorem filterKeys_comm {keep' : κ → Bool} :
    (d.filterKeys keep).filterKeys keep' = (d.filterKeys keep').filterKeys keep := by
  apply ext_entries
  simp only [filterKeys, List.filter_filter, Bool.and_comm]

omit [DecidableEq κ] in
theorem filterKeys_eq_self (every : ∀ key ∈ d.keys, keep key = true) : d.filterKeys keep = d := by
  apply ext_entries
  exact List.filter_eq_self.mpr fun entry member => every entry.1 (List.mem_map_of_mem member)

theorem erase_eq_filterKeys : d.erase key = d.filterKeys (fun other => decide (other ≠ key)) := rfl

/-- `{key: f(value) for key, value in d.items()}`, without the entries that `f` leaves out. -/
def filterMapValues {μ : Type} (f : ν → Option μ) (d : Dict κ ν) : Dict κ μ where
  entries := d.entries.filterMap fun entry => (f entry.2).map (entry.1, ·)
  nodup := by
    refine d.nodup.sublist ?_
    induction d.entries with
    | nil => exact List.Sublist.slnil
    | cons entry entries ih =>
        rw [List.filterMap_cons, List.map_cons]
        cases f entry.2 with
        | none => exact ih.cons _
        | some value => exact ih.cons_cons _

theorem get?_filterMapValues {μ : Type} (f : ν → Option μ) :
    (d.filterMapValues f).get? key = (d.get? key).bind f := by
  apply Option.ext
  intro value
  rw [← mem_entries_iff, Option.bind_eq_some_iff]
  simp only [filterMapValues, List.mem_filterMap, Option.map_eq_some_iff, Prod.mk.injEq]
  constructor
  · rintro ⟨entry, member, found, kept, rfl, rfl⟩
    exact ⟨entry.2, mem_entries_iff.mp member, kept⟩
  · rintro ⟨stored, found, kept⟩
    exact ⟨(key, stored), mem_entries_iff.mpr found, value, kept, rfl, rfl⟩

theorem filterMap_assign {μ : Type} {f : ν → Option μ} {entries : List (κ × ν)}
    (same : f value = (entries.lookup key).bind f) :
    (assign key value entries).filterMap (fun entry => (f entry.2).map (entry.1, ·)) =
      entries.filterMap fun entry => (f entry.2).map (entry.1, ·) := by
  induction entries with
  | nil => simp [assign, same]
  | cons entry entries ih =>
      rw [lookup_cons_ite] at same
      rw [assign]
      by_cases head : entry.1 = key
      · rw [if_pos head.symm, Option.bind_some] at same
        rw [if_pos head, List.filterMap_cons, List.filterMap_cons, same, head]
      · have other : ¬key = entry.1 := fun equal => head equal.symm
        rw [if_neg other] at same
        rw [if_neg head, List.filterMap_cons, List.filterMap_cons, ih same]

/-- Writing a value that `f` makes the same of changes nothing. -/
theorem filterMapValues_set {μ : Type} {f : ν → Option μ} (same : f value = (d.get? key).bind f) :
    (d.set key value).filterMapValues f = d.filterMapValues f :=
  ext_entries (filterMap_assign same)

section Traverse

variable {ε μ : Type} {f : ν → Except ε μ} {result : Dict κ μ} {found : μ}

/-- `{key: f(value) for key, value in d.items()}` with an `f` that may raise. -/
def traverse (f : ν → Except ε μ) (d : Dict κ ν) : Except ε (Dict κ μ) := do
  let entries ← d.entries.mapM fun entry => do
    let value ← f entry.2
    pure (entry.1, value)
  pure (ofEntries entries)

omit [DecidableEq κ] in
theorem keys_of_mapM {entries : List (κ × ν)} {results : List (κ × μ)}
    (done : (entries.mapM fun entry => do
      let value ← f entry.2
      pure (entry.1, value)) = .ok results) : results.map Prod.fst = entries.map Prod.fst := by
  induction entries generalizing results with
  | nil =>
      obtain rfl := pure_eq_ok.mp done
      rfl
  | cons entry entries ih =>
      obtain ⟨first, rest, here, below, rfl⟩ := mapM_cons_eq_ok.mp done
      obtain ⟨value, _, last⟩ := bind_eq_ok.mp here
      obtain rfl := pure_eq_ok.mp last
      rw [List.map_cons, List.map_cons, ih below]

theorem exists_traverse_eq_ok : (∃ result, d.traverse f = .ok result) ↔
    ∀ key value, d.get? key = some value → ∃ found, f value = .ok found := by
  have rounds : (∃ result, d.traverse f = .ok result) ↔
      ∃ entries, (d.entries.mapM fun entry => do
        let value ← f entry.2
        pure (entry.1, value)) = .ok entries := by
    simp only [traverse, CapabilityHub.bind_eq_ok, CapabilityHub.pure_eq_ok]
    exact ⟨fun ⟨_, entries, done, _⟩ => ⟨entries, done⟩,
      fun ⟨entries, done⟩ => ⟨_, entries, done, rfl⟩⟩
  rw [rounds, exists_mapM_eq_ok]
  constructor
  · intro each key value member
    obtain ⟨_, done⟩ := each (key, value) (mem_entries_iff.mpr member)
    obtain ⟨found, done, _⟩ := bind_eq_ok.mp done
    exact ⟨found, done⟩
  · rintro each ⟨key, value⟩ member
    obtain ⟨found, done⟩ := each key value (mem_entries_iff.mp member)
    exact ⟨(key, found), bind_eq_ok.mpr ⟨found, done, rfl⟩⟩

theorem get?_traverse (done : d.traverse f = .ok result) :
    result.get? key = some found ↔ ∃ value, d.get? key = some value ∧ f value = .ok found := by
  obtain ⟨entries, collected, last⟩ := bind_eq_ok.mp done
  obtain rfl := pure_eq_ok.mp last
  have nodup : (entries.map Prod.fst).Nodup := keys_of_mapM collected ▸ d.nodup
  rw [get?_ofEntries entries nodup, ← mem_entries_iff, mem_of_mapM collected]
  constructor
  · rintro ⟨⟨other, value⟩, member, here⟩
    obtain ⟨result, here, last⟩ := bind_eq_ok.mp here
    cases pure_eq_ok.mp last
    exact ⟨value, mem_entries_iff.mp member, here⟩
  · rintro ⟨value, member, here⟩
    exact ⟨(key, value), mem_entries_iff.mpr member, bind_eq_ok.mpr ⟨found, here, rfl⟩⟩

end Traverse

/-- The same keys with what `f` makes of their values. -/
def mapValues {μ : Type} (f : ν → μ) (d : Dict κ ν) : Dict κ μ where
  entries := d.entries.map fun entry => (entry.1, f entry.2)
  nodup := by
    rw [List.map_map]
    exact d.nodup

@[simp] theorem get?_mapValues {μ : Type} (f : ν → μ) :
    (d.mapValues f).get? key = (d.get? key).map f := by
  apply Option.ext
  intro value
  rw [← mem_entries_iff, Option.map_eq_some_iff]
  simp only [← mem_entries_iff, mapValues, List.mem_map, Prod.mk.injEq]
  constructor
  · intro found
    obtain ⟨entry, member, rfl, same⟩ := found
    exact ⟨entry.2, member, same⟩
  · intro found
    obtain ⟨old, member, same⟩ := found
    exact ⟨(key, old), member, rfl, same⟩

/-- Change the entries that are selected. -/
def updateWhere (selected : κ → ν → Prop) [∀ key value, Decidable (selected key value)]
    (change : ν → ν) (d : Dict κ ν) : Dict κ ν where
  entries := d.entries.map fun entry =>
    (entry.1, if selected entry.1 entry.2 then change entry.2 else entry.2)
  nodup := by
    rw [List.map_map]
    exact d.nodup

@[simp] theorem get?_updateWhere (selected : κ → ν → Prop)
    [∀ key value, Decidable (selected key value)] (change : ν → ν) :
    (d.updateWhere selected change).get? key =
      (d.get? key).map fun value => if selected key value then change value else value := by
  apply Option.ext
  intro value
  rw [← mem_entries_iff, Option.map_eq_some_iff]
  simp only [← mem_entries_iff, updateWhere, List.mem_map, Prod.mk.injEq]
  constructor
  · intro found
    obtain ⟨entry, member, rfl, same⟩ := found
    exact ⟨entry.2, member, same⟩
  · intro found
    obtain ⟨old, member, same⟩ := found
    exact ⟨(key, old), member, rfl, same⟩

theorem updateWhere_of_forall_not (selected : κ → ν → Prop)
    [∀ key value, Decidable (selected key value)] (change : ν → ν)
    (unselected : ∀ key value, d.get? key = some value → ¬selected key value) :
    d.updateWhere selected change = d := by
  apply ext_entries
  rw [updateWhere]
  dsimp only
  rw [List.map_congr_left (g := id), List.map_id]
  intro entry member
  rw [if_neg (unselected entry.1 entry.2 (mem_entries_iff.mp member)), id]

/-- The number of entries that are selected. -/
def countWhere (selected : κ → ν → Prop) [∀ key value, Decidable (selected key value)]
    (d : Dict κ ν) : Nat :=
  d.entries.countP fun entry => selected entry.1 entry.2

/-- A key selects one entry at most. -/
theorem countWhere_key (selected : κ → ν → Prop) [∀ key value, Decidable (selected key value)]
    (found : d.get? key = some value) (only : ∀ other value, selected other value → other = key)
    (chosen : selected key value) : d.countWhere selected = 1 := by
  have kept : (d.entries.filter fun entry => decide (selected entry.1 entry.2)) = [(key, value)] := by
    have nodup := d.entries_nodup.filter fun entry => decide (selected entry.1 entry.2)
    refine List.perm_singleton.mp ((List.perm_ext_iff_of_nodup nodup (List.nodup_singleton _)).mpr
      fun entry => ?_)
    rw [List.mem_filter, List.mem_singleton, decide_eq_true_iff]
    constructor
    · intro ⟨member, holds⟩
      obtain ⟨other, value'⟩ := entry
      obtain rfl := only other value' holds
      rw [mem_entries_iff, found, Option.some.injEq] at member
      rw [member]
    · intro same
      subst same
      exact ⟨mem_entries_iff.mpr found, chosen⟩
  rw [countWhere, List.countP_eq_length_filter, kept, List.length_singleton]

/-- The same entries in the order of `before`. -/
def sorted (before : κ → κ → Bool) (d : Dict κ ν) : Dict κ ν where
  entries := d.entries.mergeSort fun first second => before first.1 second.1
  nodup := ((List.mergeSort_perm d.entries _).map Prod.fst).nodup_iff.mpr d.nodup

@[simp] theorem get?_sorted (before : κ → κ → Bool) : (d.sorted before).get? key = d.get? key := by
  apply Option.ext
  intro value
  rw [← mem_entries_iff, ← mem_entries_iff]
  exact (List.mergeSort_perm d.entries _).mem_iff

/-- Write what `f` makes of the entry of `key`, or drop the entry. -/
def alter (f : Option ν → Option ν) (key : κ) (d : Dict κ ν) : Dict κ ν :=
  match f (d.get? key) with
  | some value => d.set key value
  | none => d.erase key

@[simp] theorem get?_alter (f : Option ν → Option ν) :
    (d.alter f key).get? other = if other = key then f (d.get? key) else d.get? other := by
  rw [alter]
  cases altered : f (d.get? key) with
  | none => exact get?_erase
  | some value => exact get?_set

/-- Rewrite the entries of `keys`, one after the other. -/
def alterEach (f : κ → Option ν → Option ν) (keys : List κ) (d : Dict κ ν) : Dict κ ν :=
  keys.foldl (fun altered key => altered.alter (f key) key) d

theorem get?_alterEach (f : κ → Option ν → Option ν) {keys : List κ} (nodup : keys.Nodup)
    (d : Dict κ ν) : (d.alterEach f keys).get? key =
      if key ∈ keys then f key (d.get? key) else d.get? key := by
  induction keys generalizing d with
  | nil => rfl
  | cons first keys ih =>
      obtain ⟨fresh, nodup⟩ := List.nodup_cons.mp nodup
      rw [alterEach, List.foldl_cons, ← alterEach, ih nodup, get?_alter]
      by_cases same : key = first
      · simp [same, fresh]
      · simp [same]

/-- The rows of a table whose first key column is `first`, under the second one. -/
def row {μ : Type} (table : Dict (μ × κ) ν) [DecidableEq μ] (first : μ) : Dict κ ν where
  entries := (table.entries.filter (·.1.1 = first)).map fun entry => (entry.1.2, entry.2)
  nodup := by
    rw [List.map_map]
    apply List.Nodup.map_on
    · rintro ⟨⟨left, second⟩, value⟩ member ⟨⟨left', second'⟩, value'⟩ member' same
      obtain ⟨found, atLeft⟩ := List.mem_filter.mp member
      obtain ⟨found', atLeft'⟩ := List.mem_filter.mp member'
      have equal : left = left' :=
        (of_decide_eq_true atLeft).trans (of_decide_eq_true atLeft').symm
      obtain rfl : second = second' := same
      subst equal
      have values := (mem_entries_iff.mp found).symm.trans (mem_entries_iff.mp found')
      rw [Option.some.inj values]
    · exact table.entries_nodup.filter _

@[simp] theorem get?_row {μ : Type} [DecidableEq μ] (table : Dict (μ × κ) ν) (first : μ) :
    (table.row first).get? key = table.get? (first, key) := by
  apply Option.ext
  intro value
  rw [← mem_entries_iff, ← mem_entries_iff]
  simp [row]

/-- `{key: f(key) for key in keys}`. -/
def tabulate (keys : List κ) (f : κ → ν) : Dict κ ν where
  entries := keys.dedup.map fun key => (key, f key)
  nodup := by simpa [Function.comp_def] using List.nodup_dedup keys

theorem get?_tabulate (keys : List κ) (f : κ → ν) :
    (tabulate keys f).get? key = if key ∈ keys then some (f key) else none := by
  apply Option.ext
  intro value
  rw [← mem_entries_iff]
  by_cases member : key ∈ keys
  · simp [tabulate, member, eq_comm]
  · simp [tabulate, member]

/-- Equality of two `dict`s, which does not look at their order. -/
def Same (d e : Dict κ ν) : Prop :=
  d.size = e.size ∧ ∀ entry ∈ d.entries, e.get? entry.1 = some entry.2

instance [DecidableEq ν] : Decidable (d.Same e) :=
  inferInstanceAs (Decidable (_ ∧ _))

/-- Two dictionaries that map every key alike have the same entries. -/
theorem entries_perm (same : ∀ key, d.get? key = e.get? key) : d.entries.Perm e.entries := by
  rw [List.perm_ext_iff_of_nodup d.entries_nodup e.entries_nodup]
  rintro ⟨key, value⟩
  rw [mem_entries_iff, mem_entries_iff, same]

theorem same_iff : d.Same e ↔ ∀ key, d.get? key = e.get? key := by
  constructor
  · rintro ⟨size, found⟩ key
    have subset : d.entries ⊆ e.entries := fun entry member =>
      mem_entries_iff.mpr (found entry member)
    have permutation : d.entries.Perm e.entries :=
      (List.subperm_of_subset d.entries_nodup subset).perm_of_length_le (Nat.le_of_eq size.symm)
    apply Option.ext
    intro value
    rw [← mem_entries_iff, ← mem_entries_iff]
    exact permutation.mem_iff
  · intro same
    refine ⟨(entries_perm same).length_eq, ?_⟩
    rintro ⟨key, value⟩ member
    rw [← same]
    exact mem_entries_iff.mp member

/-! ## Sums over the entries -/

/-- The sum of `f` over the entries. -/
def total (f : κ → ν → Nat) (d : Dict κ ν) : Nat :=
  (d.entries.map fun entry => f entry.1 entry.2).sum

variable {f g : κ → ν → Nat}

theorem total_set_of_none (f : κ → ν → Nat) (value : ν) (fresh : d.get? key = none) :
    (d.set key value).total f = d.total f + f key value := by
  have sum := sum_assign f key value d.entries
  rw [get?] at fresh
  simpa [total, set, fresh] using sum

theorem total_set_of_some (f : κ → ν → Nat) (value : ν) {old : ν} (found : d.get? key = some old) :
    (d.set key value).total f + f key old = d.total f + f key value := by
  have sum := sum_assign f key value d.entries
  rw [get?] at found
  simpa [total, set, found] using sum

theorem total_congr (same : ∀ key value, d.get? key = some value → f key value = g key value) :
    d.total f = d.total g := by
  rw [total, total]
  congr 1
  apply List.map_congr_left
  rintro ⟨key, value⟩ member
  exact same key value (mem_entries_iff.mp member)

theorem total_eq_zero (zero : ∀ key value, d.get? key = some value → f key value = 0) :
    d.total f = 0 := by
  rw [total_congr (g := fun _ _ => 0) zero]
  simp [total]

omit [DecidableEq κ] in
theorem total_add : d.total (fun key value => f key value + g key value) =
    d.total f + d.total g :=
  List.sum_map_add

/-- One entry apart, and then the rest. -/
theorem total_split (f : κ → ν → Nat) (found : d.get? key = some value) :
    d.total f = d.total (fun other value => if other = key then 0 else f other value) +
      f key value := by
  have single : d.total (fun other value => if other = key then f other value else 0) =
      f key value := by
    rw [total, sum_lookup f key d.entries d.nodup, ← get?, found]
    rfl
  rw [← single, ← total_add]
  apply total_congr
  intro other value _
  split <;> simp

theorem le_total (f : κ → ν → Nat) (found : d.get? key = some value) :
    f key value ≤ d.total f := by
  rw [total_split f found]
  exact Nat.le_add_left _ _

end Dict

end CapabilityHub
