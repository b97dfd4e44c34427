import Mathlib.Data.List.Sort
import Mathlib.Data.List.Dedup

/-! # Sorting and choosing by a key -/

namespace CapabilityHub

variable {α κ : Type} [LinearOrder κ] (key : α → κ) {items : List α} {item : α}

/-- `sorted(items, key=key)`. -/
def sortedBy (items : List α) : List α :=
  items.insertionSort fun first second => key first ≤ key second

/-- `sorted(set(items))`. -/
def sortedSet (items : List κ) : List κ := sortedBy id items.dedup

/-- `max(first, *rest, key=key)`: the first of the greatest. -/
def maxBy (first : α) (rest : List α) : α :=
  rest.foldl (fun best item => if key best < key item then item else best) first

theorem perm_sortedBy (items : List α) : (sortedBy key items).Perm items :=
  List.perm_insertionSort _ items

@[simp] theorem mem_sortedBy : item ∈ sortedBy key items ↔ item ∈ items :=
  (perm_sortedBy key items).mem_iff

@[simp] theorem mem_sortedSet {items : List κ} {item : κ} : item ∈ sortedSet items ↔ item ∈ items := by
  rw [sortedSet, mem_sortedBy, List.mem_dedup]

theorem nodup_sortedSet (items : List κ) : (sortedSet items).Nodup :=
  (perm_sortedBy id _).nodup_iff.mpr (List.nodup_dedup items)

theorem maxBy_cons (first second : α) (rest : List α) : maxBy key first (second :: rest) =
    maxBy key (if key first < key second then second else first) rest := rfl

theorem maxBy_mem (first : α) (rest : List α) : maxBy key first rest ∈ first :: rest := by
  induction rest generalizing first with
  | nil => exact List.mem_singleton_self first
  | cons second rest ih =>
      rw [maxBy_cons]
      split
      · exact List.mem_cons_of_mem _ (ih second)
      · rcases List.mem_cons.mp (ih first) with same | later
        · simp [same]
        · exact List.mem_cons_of_mem _ (List.mem_cons_of_mem _ later)

theorem first_le_maxBy (first : α) (rest : List α) : key first ≤ key (maxBy key first rest) := by
  induction rest generalizing first with
  | nil => exact le_rfl
  | cons second rest ih =>
      rw [maxBy_cons]
      split
      next less => exact less.le.trans (ih second)
      next => exact ih first

theorem le_maxBy {first : α} {rest : List α} (member : item ∈ first :: rest) :
    key item ≤ key (maxBy key first rest) := by
  induction rest generalizing first with
  | nil =>
      rw [List.mem_singleton.mp member]
      exact le_rfl
  | cons second rest ih =>
      rw [maxBy_cons]
      rw [List.mem_cons, List.mem_cons] at member
      rcases member with same | same | later
      · rw [same]
        split
        next less => exact less.le.trans (first_le_maxBy key second rest)
        next => exact first_le_maxBy key first rest
      · rw [same]
        split
        next => exact first_le_maxBy key second rest
        next least => exact (not_lt.mp least).trans (first_le_maxBy key first rest)
      · exact ih (List.mem_cons_of_mem _ later)

/-- What a sorted page leaves out comes after all that is on it, and then the page is full. -/
theorem mem_take_sortedBy {limit : Nat} (member : item ∈ items) :
    item ∈ (sortedBy key items).take limit ∨
      ((sortedBy key items).take limit).length = limit ∧
        ∀ earlier ∈ (sortedBy key items).take limit, key earlier ≤ key item := by
  have sorted : (sortedBy key items).Pairwise fun first second => key first ≤ key second :=
    List.pairwise_insertionSort _ items
  have inside := (mem_sortedBy key).mpr member
  rw [← List.take_append_drop limit (sortedBy key items)] at sorted inside
  rcases List.mem_append.mp inside with onPage | left
  · exact .inl onPage
  · refine .inr ⟨?_, fun earlier onPage => (List.pairwise_append.mp sorted).2.2 earlier onPage item left⟩
    have longer : limit ≤ (sortedBy key items).length := by
      by_contra short
      rw [List.drop_eq_nil_of_le (Nat.le_of_not_le short)] at left
      exact List.not_mem_nil left
    rw [List.length_take, Nat.min_eq_left longer]

/-- Items with keys of their own have one order. -/
theorem sortedBy_of_perm {sorted : List α}
    (ordered : sorted.Pairwise fun first second => key first < key second)
    (perm : items.Perm sorted) : sortedBy key items = sorted := by
  have keys : (sorted.map key).Nodup := List.pairwise_map.mpr (ordered.imp ne_of_lt)
  refine List.Perm.eq_of_pairwise (fun first second member member' le le' => ?_)
    (List.pairwise_insertionSort _ items) (ordered.imp le_of_lt) ((perm_sortedBy key items).trans perm)
  have inside := perm.mem_iff.mp ((mem_sortedBy key).mp member)
  exact List.inj_on_of_nodup_map keys inside member'
    (le_antisymm le le')

/-- Items with keys of their own are filtered before or after sorting. -/
theorem filter_sortedBy {keep : α → Bool} (nodup : (items.map key).Nodup) :
    (sortedBy key items).filter keep = sortedBy key (items.filter keep) := by
  have perm := (perm_sortedBy key items)
  have ordered : (sortedBy key items).Pairwise fun first second => key first < key second := by
    refine List.Pairwise.imp₂ (fun _ _ le different => lt_of_le_of_ne le different)
      (List.pairwise_insertionSort _ items) ?_
    exact List.pairwise_map.mp ((perm.map key).nodup_iff.mpr nodup)
  exact (sortedBy_of_perm key (ordered.filter _) (perm.symm.filter _)).symm

/-- Items that their keys tell apart are sorted the same way from any order. -/
theorem sortedBy_congr {items' : List α} (perm : items.Perm items')
    (apart : ∀ first ∈ items, ∀ second ∈ items, key first = key second → first = second) :
    sortedBy key items = sortedBy key items' := by
  refine List.Perm.eq_of_pairwise (fun first second member member' le le' => ?_)
    (List.pairwise_insertionSort _ items) (List.pairwise_insertionSort _ items')
    ((perm_sortedBy key items).trans (perm.trans (perm_sortedBy key items').symm))
  exact apart first ((mem_sortedBy key).mp member) second
    (perm.mem_iff.mpr ((mem_sortedBy key).mp member')) (le_antisymm le le')

/-- A sorted set is given by its elements. -/
theorem sortedSet_congr {items items' : List κ} (same : ∀ item, item ∈ items ↔ item ∈ items') :
    sortedSet items = sortedSet items' := by
  have perm : items.dedup.Perm (sortedSet items') :=
    (List.perm_ext_iff_of_nodup (List.nodup_dedup _) (nodup_sortedSet _)).mpr fun item => by
      rw [List.mem_dedup, mem_sortedSet, same]
  have ordered : (sortedSet items').Pairwise fun first second => id first < id second :=
    (List.pairwise_insertionSort _ items'.dedup).imp₂ (fun _ _ le different => lt_of_le_of_ne le different)
      (nodup_sortedSet items')
  exact sortedBy_of_perm id ordered perm

theorem foldr_max_lt {numbers : List Nat} {bound : Nat} (positive : 0 < bound) :
    numbers.foldr max 0 < bound ↔ ∀ number ∈ numbers, number < bound := by
  induction numbers with
  | nil => simpa using positive
  | cons first rest ih => rw [List.foldr_cons, Nat.max_lt, ih, List.forall_mem_cons]

end CapabilityHub
