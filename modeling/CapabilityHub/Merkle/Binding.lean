import CapabilityHub.Merkle.Levels
import Mathlib.Data.Set.Basic

/-! # Trees that bind their leaves

A hash scheme is binding on a set of entries and a set of pairs of digests when
it has no collision among them. The sets are those of one tree and one
verification: no function from all byte strings to digests of a fixed size is
injective, while a binding scheme may collide elsewhere.
-/

namespace CapabilityHub.Merkle

variable {Entry Digest : Type*}

namespace HashScheme

/-- No two of the given entries and pairs share a digest. -/
structure Binding (scheme : HashScheme Entry Digest) (entries : Set Entry)
    (pairs : Set (Digest × Digest)) : Prop where
  leaf_injective : ∀ first ∈ entries, ∀ second ∈ entries,
    scheme.leaf first = scheme.leaf second → first = second
  node_injective : ∀ first ∈ pairs, ∀ second ∈ pairs,
    scheme.node first.1 first.2 = scheme.node second.1 second.2 → first = second
  leaf_ne_node : ∀ entry ∈ entries, ∀ pair ∈ pairs,
    scheme.leaf entry ≠ scheme.node pair.1 pair.2

variable (scheme : HashScheme Entry Digest) (entries : Set Entry) (pairs : Set (Digest × Digest))

/-- The digest of a subtree with at most `height` levels above its leaves. -/
def Within : Nat → Digest → Prop
  | 0, digest => ∃ entry ∈ entries, digest = scheme.leaf entry
  | height + 1, digest => Within height digest ∨
      ∃ pair ∈ pairs, digest = scheme.node pair.1 pair.2 ∧ Within height pair.1 ∧
        Within height pair.2

/-- The digest of a subtree with a leaf exactly `depth` levels below it. -/
def Reaches : Nat → Digest → Prop
  | 0, digest => ∃ entry ∈ entries, digest = scheme.leaf entry
  | depth + 1, digest => ∃ pair ∈ pairs, digest = scheme.node pair.1 pair.2 ∧
      (Reaches depth pair.1 ∨ Reaches depth pair.2)

variable {scheme entries pairs}

/-- No leaf lies deeper than the subtree is high. -/
theorem Binding.depth_le_height (binding : scheme.Binding entries pairs) {height depth : Nat}
    {digest : Digest} (within : scheme.Within entries pairs height digest)
    (reaches : scheme.Reaches entries pairs depth digest) : depth ≤ height := by
  induction height generalizing depth digest with
  | zero =>
      cases depth with
      | zero => exact Nat.le_refl 0
      | succ depth =>
          obtain ⟨entry, known, rfl⟩ := within
          obtain ⟨pair, hashed, same, _⟩ := reaches
          exact (binding.leaf_ne_node entry known pair hashed same).elim
  | succ height ih =>
      rcases within with within | ⟨pair, hashed, rfl, left, right⟩
      · exact Nat.le_succ_of_le (ih within reaches)
      · cases depth with
        | zero => exact Nat.zero_le _
        | succ depth =>
            obtain ⟨other, otherHashed, same, below⟩ := reaches
            cases binding.node_injective pair hashed other otherHashed same
            rcases below with below | below
            · exact Nat.succ_le_succ (ih left below)
            · exact Nat.succ_le_succ (ih right below)

/-- Pairing raises the height of the subtrees by one. -/
theorem within_pairUp {digests : List Digest} {height : Nat}
    (within : ∀ digest ∈ digests, scheme.Within entries pairs height digest)
    (hashed : ∀ pair ∈ scheme.hashed.nodePairs digests, pair ∈ pairs) :
    ∀ digest ∈ pairUp scheme.node digests, scheme.Within entries pairs (height + 1) digest := by
  intro digest member
  obtain ⟨position, inside, rfl⟩ := List.getElem_of_mem member
  rw [length_pairUp] at inside
  have first : 2 * position < digests.length := by omega
  by_cases paired : 2 * position + 1 < digests.length
  · have found := getElem?_pairUp_of_pair scheme.node (List.getElem?_eq_getElem first)
      (List.getElem?_eq_getElem paired)
    obtain ⟨_, same⟩ := List.getElem?_eq_some_iff.mp found
    rw [same]
    refine Or.inr ⟨(digests[2 * position], digests[2 * position + 1]), ?_, rfl,
      within _ (List.getElem_mem first), within _ (List.getElem_mem paired)⟩
    exact hashed _ (pair_mem_nodePairs scheme (List.getElem?_eq_getElem first)
      (List.getElem?_eq_getElem paired))
  · have found := getElem?_pairUp_of_last scheme.node (List.getElem?_eq_getElem first) (by omega)
    obtain ⟨_, same⟩ := List.getElem?_eq_some_iff.mp found
    rw [same]
    exact Or.inl (within _ (List.getElem_mem first))

/-- A known pair whose digest stands above a right half is the pair there. -/
theorem Binding.pair_of_odd (binding : scheme.Binding entries pairs) {digests : List Digest}
    {index : Nat} {left right : Digest} (inside : index < digests.length) (odd : index % 2 = 1)
    (hashed : ∀ pair ∈ scheme.hashed.nodePairs digests, pair ∈ pairs)
    (known : (left, right) ∈ pairs)
    (parent : (pairUp scheme.node digests)[index / 2]? = some (scheme.node left right)) :
    digests[index - 1]? = some left ∧ digests[index]? = some right := by
  have first := List.getElem?_eq_getElem (show index - 1 < digests.length by omega)
  have second := List.getElem?_eq_getElem inside
  have atFirst : digests[2 * (index / 2)]? = some digests[index - 1] := by
    rwa [show 2 * (index / 2) = index - 1 by omega]
  have atSecond : digests[2 * (index / 2) + 1]? = some digests[index] := by
    rwa [show 2 * (index / 2) + 1 = index by omega]
  rw [getElem?_pairUp_of_pair scheme.node atFirst atSecond, Option.some.injEq] at parent
  have equal := binding.node_injective _ (hashed _ (pair_mem_nodePairs scheme atFirst atSecond))
    _ known parent
  rw [Prod.mk.injEq] at equal
  exact ⟨by rw [first, equal.1], by rw [second, equal.2]⟩

/-- A known pair whose digest stands above a left half is the pair there. -/
theorem Binding.pair_of_even (binding : scheme.Binding entries pairs) {digests : List Digest}
    {index : Nat} {left right : Digest} (inside : index + 1 < digests.length)
    (even : index % 2 = 0) (hashed : ∀ pair ∈ scheme.hashed.nodePairs digests, pair ∈ pairs)
    (known : (left, right) ∈ pairs)
    (parent : (pairUp scheme.node digests)[index / 2]? = some (scheme.node left right)) :
    digests[index]? = some left ∧ digests[index + 1]? = some right := by
  have above := binding.pair_of_odd inside (by omega) hashed known
    (by rwa [show (index + 1) / 2 = index / 2 by omega])
  rwa [Nat.add_sub_cancel] at above

/-- **Equal levels have equal lower levels.** If two levels agree on their first
pairs after pairing, they agree on these pairs before. -/
theorem Binding.prefix_of_pairUp (binding : scheme.Binding entries pairs)
    {old new : List Digest} {count : Nat} (even : count % 2 = 0) (inOld : count ≤ old.length)
    (inNew : count ≤ new.length)
    (oldHashed : ∀ pair ∈ scheme.hashed.nodePairs old, pair ∈ pairs)
    (newHashed : ∀ pair ∈ scheme.hashed.nodePairs new, pair ∈ pairs)
    (agree : ∀ position < count / 2,
      (pairUp scheme.node old)[position]? = (pairUp scheme.node new)[position]?) :
    ∀ position < count, old[position]? = new[position]? := by
  have pairAgree : ∀ half < count / 2,
      old[2 * half]? = new[2 * half]? ∧ old[2 * half + 1]? = new[2 * half + 1]? := by
    intro half below
    have oldFirst := List.getElem?_eq_getElem (show 2 * half < old.length by omega)
    have oldSecond := List.getElem?_eq_getElem (show 2 * half + 1 < old.length by omega)
    have newFirst := List.getElem?_eq_getElem (show 2 * half < new.length by omega)
    have newSecond := List.getElem?_eq_getElem (show 2 * half + 1 < new.length by omega)
    have same := agree half below
    rw [getElem?_pairUp_of_pair scheme.node oldFirst oldSecond,
      getElem?_pairUp_of_pair scheme.node newFirst newSecond, Option.some.injEq] at same
    have equal := binding.node_injective
      _ (oldHashed _ (pair_mem_nodePairs scheme oldFirst oldSecond))
      _ (newHashed _ (pair_mem_nodePairs scheme newFirst newSecond)) same
    rw [Prod.mk.injEq] at equal
    rw [oldFirst, oldSecond, newFirst, newSecond, equal.1, equal.2]
    exact ⟨rfl, rfl⟩
  intro position inside
  obtain ⟨first, second⟩ := pairAgree (position / 2) (by omega)
  rcases Nat.mod_two_eq_zero_or_one position with parity | parity
  · rwa [show 2 * (position / 2) = position by omega] at first
  · rwa [show 2 * (position / 2) + 1 = position by omega] at second

end HashScheme

end CapabilityHub.Merkle
