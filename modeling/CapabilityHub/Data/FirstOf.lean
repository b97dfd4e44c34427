import Mathlib.Data.List.Induction
import Mathlib.Data.List.Perm.Subperm

/-! # The first item that serves a need

An order of the items has for each need a first item that serves it. Whether some order has good
first items for all the needs is decided without going through the orders: an item may come as soon
as the needs that it is no good for have been served.
-/

namespace CapabilityHub

variable {α π : Type} [DecidableEq π] (serves : α → List π) (good : π → α → Prop)

/-- The first item that serves the need. -/
def firstOf (items : List α) (need : π) : Option α := items.find? fun item => need ∈ serves item

/-- The first item that serves a need is a good one for it, whatever the need. -/
def GoodFirst (items : List α) : Prop :=
  ∀ need item, firstOf serves items need = some item → good need item

/-- Some of the items can come so that the first to serve the need is good for it. -/
inductive Openable (items : List α) : π → Prop where
  | opened {need : π} (item : α) (among : item ∈ items) (here : need ∈ serves item)
      (others : ∀ other ∈ serves item, ¬good other item → Openable items other) :
      Openable items need

variable {serves good} {items front rest : List α} {need : π} {item : α}

theorem firstOf_eq_some (found : firstOf serves items need = some item) :
    item ∈ items ∧ need ∈ serves item :=
  ⟨List.mem_of_find?_eq_some found, by simpa using List.find?_some found⟩

theorem exists_firstOf (served : ∃ item ∈ items, need ∈ serves item) :
    ∃ item, firstOf serves items need = some item := by
  obtain ⟨item, among, here⟩ := served
  refine Option.isSome_iff_exists.mp (List.find?_isSome.mpr ⟨item, among, ?_⟩)
  exact decide_eq_true here

theorem firstOf_append_of_served (served : ∃ item ∈ front, need ∈ serves item) :
    firstOf serves (front ++ rest) need = firstOf serves front need := by
  obtain ⟨item, found⟩ := exists_firstOf served
  have found' : front.find? (fun item => decide (need ∈ serves item)) = some item := found
  rw [found, firstOf, List.find?_append, found', Option.some_or]

theorem firstOf_append_of_unserved (unserved : ¬∃ item ∈ front, need ∈ serves item) :
    firstOf serves (front ++ rest) need = firstOf serves rest need := by
  have none : front.find? (fun item => decide (need ∈ serves item)) = none :=
    List.find?_eq_none.mpr fun item among here => unserved ⟨item, among, of_decide_eq_true here⟩
  rw [firstOf, List.find?_append, none, Option.none_or]
  rfl

theorem firstOf_cons (here : need ∈ serves item) :
    firstOf serves (item :: rest) need = some item := by
  rw [firstOf, List.find?_cons, decide_eq_true here]

/-- What is served in an order whose first items are good can be opened. -/
theorem GoodFirst.openable (goodFirst : GoodFirst serves good items)
    (served : ∃ item ∈ items, need ∈ serves item) : Openable serves good items need := by
  -- over the front of the order up to the first item that serves the need
  have upto : ∀ front rest, items = front ++ rest → ∀ need, (∃ item ∈ front, need ∈ serves item) →
      Openable serves good items need := by
    intro front
    induction front using List.reverseRecOn with
    | nil =>
        intro rest split need found
        obtain ⟨item, among, _⟩ := found
        exact absurd among List.not_mem_nil
    | append_singleton front item ih =>
        intro rest split need found
        rw [List.append_assoc, List.singleton_append] at split
        by_cases before : ∃ item ∈ front, need ∈ serves item
        · exact ih (item :: rest) split need before
        · have here : need ∈ serves item := by
            obtain ⟨other, among, here⟩ := found
            rcases List.mem_append.mp among with earlier | last
            · exact absurd ⟨other, earlier, here⟩ before
            · exact List.mem_singleton.mp last ▸ here
          have member : item ∈ items := by
            rw [split]
            exact List.mem_append_right _ List.mem_cons_self
          refine .opened item member here fun other serves' bad => ?_
          by_cases earlier : ∃ item ∈ front, other ∈ serves item
          · exact ih (item :: rest) split other earlier
          · refine absurd (goodFirst other item ?_) bad
            rw [split, firstOf_append_of_unserved earlier, firstOf_cons serves']
  exact upto items [] (List.append_nil items).symm need served

theorem GoodFirst.append_singleton (goodFirst : GoodFirst serves good front)
    (others : ∀ need ∈ serves item, good need item ∨ ∃ item ∈ front, need ∈ serves item) :
    GoodFirst serves good (front ++ [item]) := by
  intro need first found
  by_cases before : ∃ item ∈ front, need ∈ serves item
  · rw [firstOf_append_of_served before] at found
    exact goodFirst need first found
  · rw [firstOf_append_of_unserved before] at found
    obtain ⟨last, here⟩ := firstOf_eq_some found
    obtain rfl := List.mem_singleton.mp last
    exact (others need here).resolve_right before

/-- A front whose first items are good, and that has an item at most once. -/
structure Front (serves : α → List π) (good : π → α → Prop) (items front : List α) : Prop where
  goodFirst : GoodFirst serves good front
  among : front ⊆ items
  nodup : front.Nodup

/-- A front that serves a need can be reached from any. -/
def Reachable (serves : α → List π) (good : π → α → Prop) (items : List α) (need : π) : Prop :=
  ∀ front, Front serves good items front → ∃ longer, Front serves good items longer ∧
    front ⊆ longer ∧ ∃ item ∈ longer, need ∈ serves item

theorem reachable_all {needs : List π} (each : ∀ need ∈ needs, Reachable serves good items need) :
    ∀ front, Front serves good items front → ∃ longer, Front serves good items longer ∧
      front ⊆ longer ∧ ∀ need ∈ needs, ∃ item ∈ longer, need ∈ serves item := by
  induction needs with
  | nil => exact fun front begun => ⟨front, begun, List.Subset.refl front, by simp⟩
  | cons need rest ih =>
      intro front begun
      obtain ⟨longer, continued, grown, served⟩ :=
        ih (fun other member => each other (List.mem_cons_of_mem _ member)) front begun
      obtain ⟨longest, continued', grown', served'⟩ := each need List.mem_cons_self longer continued
      refine ⟨longest, continued', List.Subset.trans grown grown', fun other member => ?_⟩
      rcases List.mem_cons.mp member with rfl | member
      · exact served'
      · obtain ⟨item, among, here⟩ := served other member
        exact ⟨item, grown' among, here⟩

theorem Openable.reachable (openable : Openable serves good items need) :
    Reachable serves good items need := by
  classical
  induction openable with
  | opened item among here others ih =>
      intro front begun
      have each : ∀ other ∈ (serves item).filter (fun other => ¬good other item),
          Reachable serves good items other := by
        intro other member
        obtain ⟨serves', bad⟩ := List.mem_filter.mp member
        exact ih other serves' (of_decide_eq_true bad)
      obtain ⟨longer, continued, grown, served⟩ := reachable_all each front begun
      by_cases inside : item ∈ longer
      · exact ⟨longer, continued, grown, item, inside, here⟩
      · refine ⟨longer ++ [item], ⟨?_, ?_, ?_⟩, ?_, item, List.mem_append_right _ (by simp), here⟩
        · refine continued.goodFirst.append_singleton fun other serves' => ?_
          by_cases fine : good other item
          · exact .inl fine
          · exact .inr (served other (List.mem_filter.mpr ⟨serves', decide_eq_true fine⟩))
        · refine List.append_subset.mpr ⟨continued.among, ?_⟩
          exact List.cons_subset.mpr ⟨among, List.nil_subset _⟩
        · exact List.nodup_append.mpr ⟨continued.nodup, List.pairwise_singleton _ item, by
            rintro first among' second last rfl
            exact inside (List.mem_singleton.mp last ▸ among')⟩
        · exact List.subset_append_of_subset_left _ grown

/-- Some order of the items has good first items, for all the needs that there are, exactly where
each of these can be opened. -/
theorem exists_perm_goodFirst : (∃ order, order.Perm items ∧ GoodFirst serves good order) ↔
    ∀ need, (∃ item ∈ items, need ∈ serves item) → Openable serves good items need := by
  refine ⟨fun found need served => ?_, fun openable => ?_⟩
  · obtain ⟨order, perm, goodFirst⟩ := found
    have served' : ∃ item ∈ order, need ∈ serves item := by
      obtain ⟨item, among, here⟩ := served
      exact ⟨item, perm.mem_iff.mpr among, here⟩
    have opened := goodFirst.openable served'
    clear served served'
    induction opened with
    | opened item among here others ih =>
        refine .opened item (perm.mem_iff.mp among) here fun other serves' bad => ?_
        exact ih other serves' bad
  · have each : ∀ need ∈ items.flatMap serves, Reachable serves good items need := by
      intro need member
      obtain ⟨item, among, here⟩ := List.mem_flatMap.mp member
      exact (openable need ⟨item, among, here⟩).reachable
    obtain ⟨front, begun, _, served⟩ := reachable_all each
      [] (.mk (fun _ _ found => absurd found.symm (Option.some_ne_none _)) (List.nil_subset _)
        List.nodup_nil)
    obtain ⟨chosen, same, sublist⟩ := begun.nodup.subperm begun.among
    obtain ⟨rest, perm⟩ := sublist.exists_perm_append
    refine ⟨front ++ rest, ((same.symm.append_right rest).trans perm.symm), ?_⟩
    intro need item found
    have member := firstOf_eq_some found
    have inside : item ∈ items := perm.mem_iff.mpr <|
      (same.append_right rest).mem_iff.mpr member.1
    have before := served need (List.mem_flatMap.mpr ⟨item, inside, member.2⟩)
    rw [firstOf_append_of_served before] at found
    exact begun.goodFirst need item found

end CapabilityHub
