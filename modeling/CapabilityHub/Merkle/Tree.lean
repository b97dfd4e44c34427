import CapabilityHub.Merkle.SplitPoint
import Mathlib.Data.List.Basic

/-! # Merkle trees, audit paths and consistency proofs

The tree hash, the audit path of one leaf and the consistency proof between a
tree and one of its prefixes, by recursion from the root at the split point. The
hashing of entries and of inner nodes is a parameter (`HashScheme`), so the
results hold of any hash.
-/

namespace CapabilityHub.Merkle

variable {Entry Digest : Type*}

/-- How entries and pairs of subtrees are hashed. -/
structure HashScheme (Entry Digest : Type*) where
  /-- The digest of a tree without entries. -/
  empty : Digest
  leaf : Entry → Digest
  node : Digest → Digest → Digest

/-- Both halves of a list at its split point are shorter. -/
theorem length_take_splitPoint {entries : List Entry} (several : 2 ≤ entries.length) :
    (entries.take (splitPoint entries.length)).length = splitPoint entries.length := by
  rw [List.length_take, Nat.min_eq_left (splitPoint_lt several).le]

/-- Induction along the split points of a list. -/
theorem splitInduction {motive : List Entry → Prop}
    (small : ∀ entries, entries.length < 2 → motive entries)
    (split : ∀ entries, 2 ≤ entries.length → motive (entries.take (splitPoint entries.length)) →
      motive (entries.drop (splitPoint entries.length)) → motive entries)
    (entries : List Entry) : motive entries := by
  induction counted : entries.length using Nat.strong_induction_on generalizing entries with
  | h count ih =>
      subst counted
      by_cases several : 2 ≤ entries.length
      · have shorter := splitPoint_lt several
        have positive := splitPoint_pos entries.length
        exact split entries several
          (ih _ (by rw [length_take_splitPoint several]; exact shorter) _ rfl)
          (ih _ (by rw [List.length_drop]; omega) _ rfl)
      · exact small entries (Nat.lt_of_not_le several)

namespace HashScheme

variable (scheme : HashScheme Entry Digest)

/-- **The Merkle tree hash** of a list of entries. -/
def treeHash (entries : List Entry) : Digest :=
  if 2 ≤ entries.length then
    scheme.node (treeHash (entries.take (splitPoint entries.length)))
      (treeHash (entries.drop (splitPoint entries.length)))
  else
    match entries with
    | [] => scheme.empty
    | entry :: _ => scheme.leaf entry
termination_by entries.length
decreasing_by
  · rename_i several
    rw [length_take_splitPoint several]
    exact splitPoint_lt several
  · rw [List.length_drop]
    have positive := splitPoint_pos entries.length
    omega

/-- **The audit path** of the entry at `index`, from the leaf to the root. -/
def auditPath (index : Nat) (entries : List Entry) : List Digest :=
  if 2 ≤ entries.length then
    if index < splitPoint entries.length then
      auditPath index (entries.take (splitPoint entries.length)) ++
        [scheme.treeHash (entries.drop (splitPoint entries.length))]
    else
      auditPath (index - splitPoint entries.length)
          (entries.drop (splitPoint entries.length)) ++
        [scheme.treeHash (entries.take (splitPoint entries.length))]
  else []
termination_by entries.length
decreasing_by
  · rename_i several _
    rw [length_take_splitPoint several]
    exact splitPoint_lt several
  · rw [List.length_drop]
    have positive := splitPoint_pos entries.length
    omega

/-- The consistency proof of a subtree with its first `size` entries. The
verifier holds the old subtree's digest when `known`. -/
def subproof (size : Nat) (entries : List Entry) (known : Bool) : List Digest :=
  if 2 ≤ entries.length ∧ size < entries.length then
    if size ≤ splitPoint entries.length then
      subproof size (entries.take (splitPoint entries.length)) known ++
        [scheme.treeHash (entries.drop (splitPoint entries.length))]
    else
      subproof (size - splitPoint entries.length)
          (entries.drop (splitPoint entries.length)) false ++
        [scheme.treeHash (entries.take (splitPoint entries.length))]
  else if known then [] else [scheme.treeHash entries]
termination_by entries.length
decreasing_by
  · rename_i several _
    rw [length_take_splitPoint several.1]
    exact splitPoint_lt several.1
  · rw [List.length_drop]
    have positive := splitPoint_pos entries.length
    omega

/-- **The consistency proof** between a list and its first `size` entries. -/
def consistencyProof (size : Nat) (entries : List Entry) : List Digest :=
  scheme.subproof size entries true

/-- The pairs of subtree digests hashed on the way to the tree hash. -/
def nodePairs (entries : List Entry) : List (Digest × Digest) :=
  if 2 ≤ entries.length then
    (scheme.treeHash (entries.take (splitPoint entries.length)),
        scheme.treeHash (entries.drop (splitPoint entries.length))) ::
      (nodePairs (entries.take (splitPoint entries.length)) ++
        nodePairs (entries.drop (splitPoint entries.length)))
  else []
termination_by entries.length
decreasing_by
  · rename_i several
    rw [length_take_splitPoint several]
    exact splitPoint_lt several
  · rw [List.length_drop]
    have positive := splitPoint_pos entries.length
    omega

@[simp] theorem treeHash_singleton (entry : Entry) :
    scheme.treeHash [entry] = scheme.leaf entry := by
  rw [treeHash.eq_def]
  simp

theorem treeHash_split {entries : List Entry} (several : 2 ≤ entries.length) :
    scheme.treeHash entries =
      scheme.node (scheme.treeHash (entries.take (splitPoint entries.length)))
        (scheme.treeHash (entries.drop (splitPoint entries.length))) := by
  rw [treeHash.eq_def, if_pos several]

theorem auditPath_small {entries : List Entry} (small : entries.length < 2) (index : Nat) :
    scheme.auditPath index entries = [] := by
  rw [auditPath, if_neg (by omega)]

theorem auditPath_left {entries : List Entry} (several : 2 ≤ entries.length) {index : Nat}
    (left : index < splitPoint entries.length) :
    scheme.auditPath index entries =
      scheme.auditPath index (entries.take (splitPoint entries.length)) ++
        [scheme.treeHash (entries.drop (splitPoint entries.length))] := by
  rw [auditPath, if_pos several, if_pos left]

theorem auditPath_right {entries : List Entry} (several : 2 ≤ entries.length) {index : Nat}
    (right : splitPoint entries.length ≤ index) :
    scheme.auditPath index entries =
      scheme.auditPath (index - splitPoint entries.length)
          (entries.drop (splitPoint entries.length)) ++
        [scheme.treeHash (entries.take (splitPoint entries.length))] := by
  rw [auditPath, if_pos several, if_neg (Nat.not_lt.mpr right)]

theorem subproof_whole {entries : List Entry} {size : Nat}
    (whole : ¬ (2 ≤ entries.length ∧ size < entries.length)) (known : Bool) :
    scheme.subproof size entries known = if known then [] else [scheme.treeHash entries] := by
  rw [subproof, if_neg whole]

theorem subproof_left {entries : List Entry} {size : Nat} (several : 2 ≤ entries.length)
    (left : size ≤ splitPoint entries.length) (known : Bool) :
    scheme.subproof size entries known =
      scheme.subproof size (entries.take (splitPoint entries.length)) known ++
        [scheme.treeHash (entries.drop (splitPoint entries.length))] := by
  have shorter := splitPoint_lt several
  rw [subproof, if_pos ⟨several, by omega⟩, if_pos left]

theorem subproof_right {entries : List Entry} {size : Nat} (several : 2 ≤ entries.length)
    (right : splitPoint entries.length < size) (below : size < entries.length) (known : Bool) :
    scheme.subproof size entries known =
      scheme.subproof (size - splitPoint entries.length)
          (entries.drop (splitPoint entries.length)) false ++
        [scheme.treeHash (entries.take (splitPoint entries.length))] := by
  rw [subproof, if_pos ⟨several, below⟩, if_neg (Nat.not_le.mpr right)]

theorem nodePairs_split {entries : List Entry} (several : 2 ≤ entries.length) :
    scheme.nodePairs entries =
      (scheme.treeHash (entries.take (splitPoint entries.length)),
          scheme.treeHash (entries.drop (splitPoint entries.length))) ::
        (scheme.nodePairs (entries.take (splitPoint entries.length)) ++
          scheme.nodePairs (entries.drop (splitPoint entries.length))) := by
  rw [nodePairs, if_pos several]

theorem nodePairs_small {entries : List Entry} (small : entries.length < 2) :
    scheme.nodePairs entries = [] := by
  rw [nodePairs, if_neg (by omega)]

/-- The root of two entries. -/
theorem treeHash_pair (first second : Entry) :
    scheme.treeHash [first, second] = scheme.node (scheme.leaf first) (scheme.leaf second) := by
  rw [scheme.treeHash_split (by simp)]
  simp

/-- Two entries are hashed as one pair. -/
theorem nodePairs_pair (first second : Entry) :
    scheme.nodePairs [first, second] = [(scheme.leaf first, scheme.leaf second)] := by
  rw [scheme.nodePairs_split (by simp), scheme.nodePairs_small (by simp),
    scheme.nodePairs_small (by simp)]
  simp

/-- The scheme whose entries are already hashed. -/
def hashed : HashScheme Digest Digest where
  empty := scheme.empty
  leaf := id
  node := scheme.node

/-- The tree hash only depends on the digests of the leaves. -/
theorem treeHash_hashed (entries : List Entry) :
    scheme.hashed.treeHash (entries.map scheme.leaf) = scheme.treeHash entries := by
  induction entries using splitInduction with
  | small entries small =>
      match entries, small with
      | [], _ => simp [treeHash.eq_def, hashed]
      | [entry], _ => simp [hashed]
  | split entries several left right =>
      rw [scheme.treeHash_split several,
        scheme.hashed.treeHash_split (by rwa [List.length_map]), List.length_map, ← List.map_take,
        ← List.map_drop, left, right]
      rfl

/-- The audit path only depends on the digests of the leaves. -/
theorem auditPath_hashed (index : Nat) (entries : List Entry) :
    scheme.hashed.auditPath index (entries.map scheme.leaf) = scheme.auditPath index entries := by
  induction entries using splitInduction generalizing index with
  | small entries small =>
      rw [auditPath_small _ (by rwa [List.length_map]), auditPath_small _ small]
  | split entries several left right =>
      have several' : 2 ≤ (entries.map scheme.leaf).length := by rwa [List.length_map]
      by_cases side : index < splitPoint entries.length
      · rw [scheme.auditPath_left several side,
          scheme.hashed.auditPath_left several' (by rwa [List.length_map]), List.length_map,
          ← List.map_take, ← List.map_drop, left, treeHash_hashed]
      · rw [scheme.auditPath_right several (Nat.not_lt.mp side),
          scheme.hashed.auditPath_right several' (by rw [List.length_map]; omega),
          List.length_map, ← List.map_take, ← List.map_drop, right, treeHash_hashed]

/-- The consistency proof only depends on the digests of the leaves. -/
theorem subproof_hashed (size : Nat) (entries : List Entry) (known : Bool) :
    scheme.hashed.subproof size (entries.map scheme.leaf) known =
      scheme.subproof size entries known := by
  induction entries using splitInduction generalizing size known with
  | small entries small =>
      rw [subproof_whole _ (by rw [List.length_map]; omega), subproof_whole _ (by omega),
        treeHash_hashed]
  | split entries several left right =>
      have several' : 2 ≤ (entries.map scheme.leaf).length := by rwa [List.length_map]
      by_cases below : size < entries.length
      · by_cases side : size ≤ splitPoint entries.length
        · rw [scheme.subproof_left several side,
            scheme.hashed.subproof_left several' (by rwa [List.length_map]), List.length_map,
            ← List.map_take, ← List.map_drop, left, treeHash_hashed]
        · rw [scheme.subproof_right several (Nat.not_le.mp side) below,
            scheme.hashed.subproof_right several' (by rw [List.length_map]; omega)
              (by rwa [List.length_map]), List.length_map, ← List.map_take, ← List.map_drop,
            right, treeHash_hashed]
      · rw [subproof_whole _ (by rw [List.length_map]; omega), subproof_whole _ (by omega),
          treeHash_hashed]

/-- The hashed pairs only depend on the digests of the leaves. -/
theorem nodePairs_hashed (entries : List Entry) :
    scheme.hashed.nodePairs (entries.map scheme.leaf) = scheme.nodePairs entries := by
  induction entries using splitInduction with
  | small entries small =>
      rw [nodePairs_small _ (by rwa [List.length_map]), nodePairs_small _ small]
  | split entries several left right =>
      rw [scheme.nodePairs_split several,
        scheme.hashed.nodePairs_split (by rwa [List.length_map]), List.length_map,
        ← List.map_take, ← List.map_drop, left, right, treeHash_hashed, treeHash_hashed]

end HashScheme

end CapabilityHub.Merkle
