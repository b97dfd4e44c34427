import Mathlib.Data.List.Nodup
import Mathlib.Logic.Relation

/-! # Ancestors

A forest given by the parent of each node. `Descends` says which nodes a node is below,
and `climb` collects them by following the parents, with a bound on the number of steps
and a check for repetition. Where the depth of a node is that of its parent plus one,
the climb finds exactly the ancestors (`CapabilityHub.climb_eq_ok`).
-/

namespace CapabilityHub

variable {κ ε : Type}

/-- `leaf` is `above` or a descendant of it. -/
def Descends (parent : κ → Option κ) (leaf above : κ) : Prop :=
  Relation.ReflTransGen (fun child next => parent child = some next) leaf above

namespace Descends

variable {parent parent' : κ → Option κ} {leaf above : κ}

theorem refl : Descends parent leaf leaf := Relation.ReflTransGen.refl

theorem iff_parent : Descends parent leaf above ↔
    leaf = above ∨ ∃ next, parent leaf = some next ∧ Descends parent next above :=
  Relation.ReflTransGen.cases_head_iff

theorem mono (descends : Descends parent leaf above)
    (same : ∀ node, Descends parent leaf node → parent' node = parent node) :
    Descends parent' leaf above := by
  induction descends with
  | refl => exact refl
  | @tail child next below up ih => exact Relation.ReflTransGen.tail ih ((same child below).trans up)

/-- The ancestors of a node depend on the parents of its ancestors only. -/
theorem congr_parent (same : ∀ node, Descends parent leaf node → parent' node = parent node) :
    Descends parent' leaf above ↔ Descends parent leaf above := by
  constructor
  · intro descends
    induction descends with
    | refl => exact refl
    | @tail child next _ up ih => exact Relation.ReflTransGen.tail ih ((same child ih).symm.trans up)
  · exact fun descends => descends.mono same

end Descends

/-- Follow the parents of `current` up to a node without one. The nodes passed come first in
`chain`, the topmost first. `rows` is what is known of a node: nothing, or its parent. -/
def climb [DecidableEq κ] (rows : κ → Option (Option κ)) (repeated missing : ε) :
    Nat → List κ → κ → Except ε (List κ)
  | 0, _, _ => .error repeated
  | fuel + 1, chain, current =>
      if current ∈ chain then .error repeated
      else
        match rows current with
        | none => .error missing
        | some none => .ok (current :: chain)
        | some (some above) => climb rows repeated missing fuel (current :: chain) above

/-- A climb that succeeds has met no node twice. -/
theorem climb_nodup [DecidableEq κ] {rows : κ → Option (Option κ)} {repeated missing : ε}
    {fuel : Nat} {chain path : List κ} {leaf : κ}
    (climbed : climb rows repeated missing fuel chain leaf = .ok path) (nodup : chain.Nodup) :
    path.Nodup := by
  induction fuel generalizing chain leaf with
  | zero => cases climbed
  | succ fuel ih =>
      rw [climb] at climbed
      split at climbed
      · cases climbed
      next fresh =>
        have longer : (leaf :: chain).Nodup := List.nodup_cons.mpr ⟨fresh, nodup⟩
        split at climbed
        · cases climbed
        · cases climbed
          exact longer
        · exact ih climbed longer

/-- A list of the ancestors of `leaf`, the topmost first and `leaf` last. -/
structure AncestorPath (rows : κ → Option (Option κ)) (parent : κ → Option κ) (depth : κ → Nat)
    (leaf : κ) (path : List κ) : Prop where
  mem_iff : ∀ node, node ∈ path ↔ Descends parent leaf node
  nodup : path.Nodup
  length : path.length = depth leaf + 1
  depth_le : ∀ node ∈ path, depth node ≤ depth leaf
  top : ∃ root, path.head? = some root ∧ rows root = some none

theorem climb_eq_ok [DecidableEq κ] {rows : κ → Option (Option κ)} {parent : κ → Option κ}
    {depth : κ → Nat} {repeated missing : ε}
    (agrees : ∀ node above, rows node = some above → parent node = above)
    (atTop : ∀ node, rows node = some none → depth node = 0)
    (below : ∀ node above, rows node = some (some above) →
      (∃ row, rows above = some row) ∧ depth node = depth above + 1)
    (fuel : Nat) (chain : List κ) (leaf : κ) (known : ∃ row, rows leaf = some row)
    (enough : depth leaf < fuel) (deeper : ∀ node ∈ chain, depth leaf < depth node) :
    ∃ path, climb rows repeated missing fuel chain leaf = .ok (path ++ chain) ∧
      AncestorPath rows parent depth leaf path := by
  induction fuel generalizing chain leaf with
  | zero => exact absurd enough (Nat.not_lt_zero _)
  | succ fuel ih =>
      have fresh : leaf ∉ chain := fun member => Nat.lt_irrefl _ (deeper leaf member)
      obtain ⟨row, found⟩ := known
      cases row with
      | none =>
          refine ⟨[leaf], by simp [climb, fresh, found], ?_⟩
          refine ⟨fun node => ?_, List.nodup_singleton leaf, ?_, by simp, leaf, rfl, found⟩
          · rw [Descends.iff_parent, agrees leaf none found]
            simp [eq_comm]
          · rw [atTop leaf found]
            rfl
      | some above =>
          obtain ⟨known, deep⟩ := below leaf above found
          have deeper' : ∀ node ∈ leaf :: chain, depth above < depth node := by
            intro node member
            rcases List.mem_cons.mp member with rfl | member
            · omega
            · have lower := deeper node member
              omega
          obtain ⟨path, climbed, found'⟩ := ih (leaf :: chain) above known (by omega) deeper'
          refine ⟨path ++ [leaf], by simp [climb, fresh, found, climbed], ?_⟩
          constructor
          · intro node
            have up : Descends parent leaf node ↔ leaf = node ∨ Descends parent above node := by
              rw [Descends.iff_parent, agrees leaf (some above) found]
              simp
            rw [List.mem_append, List.mem_singleton, found'.mem_iff, up, or_comm, eq_comm]
          · apply List.nodup_append.mpr
            refine ⟨found'.nodup, List.nodup_singleton leaf, fun node member last only => ?_⟩
            obtain rfl := List.mem_singleton.mp only
            rintro rfl
            have shallow := found'.depth_le node member
            omega
          · rw [List.length_append, found'.length, deep]
            rfl
          · intro node member
            rcases List.mem_append.mp member with member | only
            · have shallow := found'.depth_le node member
              omega
            · obtain rfl := List.mem_singleton.mp only
              exact Nat.le_refl _
          · obtain ⟨root, first, atRoot⟩ := found'.top
            exact ⟨root, by simp [first], atRoot⟩

/-- The line of the ancestors of a node, from the topmost down to it. -/
inductive Lineage (parent : κ → Option κ) : κ → List κ → Prop
  | top {node : κ} (highest : parent node = none) : Lineage parent node [node]
  | step {node above : κ} {path : List κ} (up : parent node = some above) (line : Lineage parent above path) :
      Lineage parent node (path ++ [node])

namespace Lineage

variable {parent parent' : κ → Option κ} {leaf : κ} {path path' : List κ}

/-- The line of a node depends on the parents along it only. -/
theorem congr_parent (line : Lineage parent leaf path) (same : ∀ node ∈ path, parent' node = parent node) :
    Lineage parent' leaf path := by
  induction line with
  | top highest => exact .top ((same _ List.mem_cons_self).trans highest)
  | step up _ ih =>
      exact .step ((same _ (List.mem_append_right _ List.mem_cons_self)).trans up)
        (ih fun node member => same node (List.mem_append_left _ member))

/-- A climb that succeeds has passed the line of its leaf. -/
theorem of_climb [DecidableEq κ] {ε : Type} {rows : κ → Option (Option κ)} {repeated missing : ε}
    (agrees : ∀ node above, rows node = some above → parent node = above) {fuel : Nat} {chain : List κ}
    (climbed : climb rows repeated missing fuel chain leaf = .ok path) :
    ∃ line, path = line ++ chain ∧ Lineage parent leaf line := by
  induction fuel generalizing chain leaf with
  | zero => cases climbed
  | succ fuel ih =>
      rw [climb] at climbed
      split at climbed
      · cases climbed
      · split at climbed
        · cases climbed
        next found =>
          cases climbed
          exact ⟨[leaf], rfl, .top (agrees leaf none found)⟩
        next above found =>
          obtain ⟨line, same, ancestors⟩ := ih climbed
          exact ⟨line ++ [leaf], by rw [same, List.append_assoc]; rfl, .step (agrees leaf _ found) ancestors⟩

end Lineage

end CapabilityHub
