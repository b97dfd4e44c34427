import CapabilityHub.Merkle.Binding
import CapabilityHub.Merkle.Depth
import CapabilityHub.SupplyChain.Transparency

/-! # Inclusion proofs

`_inclusion_root` shifts both positions once for every sibling. The audit path of
an RFC 6962 tree has no sibling on the levels where its position is unpaired, and
there the loop falls behind: an honest proof is accepted exactly for the positions
that are paired throughout
(`CapabilityHub.SupplyChain.inclusionRoot_auditPath_iff`). What is accepted
against an honest root is nevertheless in the log, at the claimed position
(`CapabilityHub.SupplyChain.inclusionRoot_sound`).
-/

namespace CapabilityHub.SupplyChain

open Merkle

variable (sha256 : Bytes → Digest)

/-! ## Honest proofs -/

/-- The loop halves the last position once for every sibling. -/
theorem inclusionLoop_remaining (siblings : List Digest) (index last : Nat) (node : Digest) :
    ∃ root, inclusionLoop sha256 (siblings.map Digest.hex) index last node =
      .ok (last / 2 ^ siblings.length, root) := by
  induction siblings generalizing index last node with
  | nil => exact ⟨node, by simp [inclusionLoop]⟩
  | cons sibling rest ih =>
      obtain ⟨root, run⟩ := ih (index / 2) (last / 2)
        (sha256 (nodeInput (inclusionPair index last node sibling)))
      refine ⟨root, ?_⟩
      rw [List.map_cons, inclusionLoop, decodeDigest_hex]
      simp only [List.length_cons]
      rw [run, div_two_pow_succ]

/-- Along a position that is paired throughout the loop climbs to the root. -/
theorem inclusionLoop_of_paired {digests : List Digest} {index : Nat} {node : Digest}
    (found : digests[index]? = some node)
    (paired : PairedThroughout index (digests.length - 1)) :
    inclusionLoop sha256 (((rfc6962 sha256).hashed.auditPath index digests).map Digest.hex) index
        (digests.length - 1) node =
      .ok (0, (rfc6962 sha256).hashed.treeHash digests) := by
  induction counted : digests.length using Nat.strong_induction_on
    generalizing digests index node with
  | h count ih =>
      subst counted
      obtain ⟨inside, atIndex⟩ := List.getElem?_eq_some_iff.mp found
      by_cases several : 2 ≤ digests.length
      · obtain ⟨lowest, above⟩ := (pairedThroughout_iff (by omega)).mp paired
        have climb : ∀ sibling, sibling ∈ Merkle.sibling index digests →
            (pairUp (rfc6962 sha256).node digests)[index / 2]? =
                some (sha256 (nodeInput (inclusionPair index (digests.length - 1) node sibling))) →
              inclusionLoop sha256
                  (((rfc6962 sha256).hashed.auditPath index digests).map Digest.hex) index
                  (digests.length - 1) node =
                .ok (0, (rfc6962 sha256).hashed.treeHash digests) := by
          intro sibling present parent
          rw [auditPath_pairUp (rfc6962 sha256) index digests inside,
            Option.mem_def.mp present]
          simp only [Option.toList_some, List.singleton_append, List.map_cons]
          rw [inclusionLoop, decodeDigest_hex]
          simp only
          rw [← length_pairUp_sub_one (rfc6962 sha256).node (by omega),
            ih _ (by rw [length_pairUp]; omega) parent
              (by rw [length_pairUp_sub_one _ (by omega)]; exact above) rfl,
            treeHash_pairUp (rfc6962 sha256)]
        by_cases odd : index % 2 = 1
        · obtain ⟨left, present, atLeft⟩ := sibling_of_odd inside odd
          refine climb left present ?_
          rw [inclusionPair, if_pos (Or.inl odd)]
          exact getElem?_pairUp_of_pair _
            (by rwa [show 2 * (index / 2) = index - 1 by omega])
            (by rwa [show 2 * (index / 2) + 1 = index by omega])
        · have next : index + 1 < digests.length := by omega
          obtain ⟨right, present, atRight⟩ := sibling_of_even next (by omega)
          refine climb right present ?_
          rw [inclusionPair, if_neg (by omega)]
          exact getElem?_pairUp_of_pair _
            (by rwa [show 2 * (index / 2) = index by omega])
            (by rwa [show 2 * (index / 2) + 1 = index + 1 by omega])
      · have single : digests.length = 1 := by omega
        obtain ⟨digest, rfl⟩ := List.length_eq_one_iff.mp single
        have first : index = 0 := by omega
        subst first
        rw [HashScheme.auditPath_small _ (by simp), HashScheme.treeHash_singleton]
        simpa [inclusionLoop, HashScheme.hashed] using found.symm

/-- **Which honest inclusion proofs are accepted.** The audit path of an entry is
accepted, with the root of the log, exactly when the entry's position is paired
throughout: wherever it is the last position of a level below the root, it is the
right half of a pair. -/
theorem inclusionRoot_auditPath_iff (entries : List Bytes) (index : Nat)
    (inside : index < entries.length) (bounded : entries.length ≤ 2 ^ 64) :
    inclusionRoot sha256 entries[index] index entries.length
        (((rfc6962 sha256).auditPath index entries).map Digest.hex) =
      .ok ((rfc6962 sha256).treeHash entries).hex ↔
    PairedThroughout index (entries.length - 1) := by
  let digests := entries.map (leafHash sha256)
  have counted : digests.length = entries.length := List.length_map _
  have path : (rfc6962 sha256).auditPath index entries =
      (rfc6962 sha256).hashed.auditPath index digests :=
    ((rfc6962 sha256).auditPath_hashed index entries).symm
  have root : (rfc6962 sha256).treeHash entries = (rfc6962 sha256).hashed.treeHash digests :=
    ((rfc6962 sha256).treeHash_hashed entries).symm
  have found : digests[index]? = some (leafHash sha256 entries[index]) := by
    rw [List.getElem?_map, List.getElem?_eq_getElem inside, Option.map_some]
  have short : ((rfc6962 sha256).hashed.auditPath index digests).length ≤ 64 :=
    length_auditPath_le (rfc6962 sha256) (by omega) (by omega)
  have checked : ¬ ((entries.length : Int) ≤ 0 ∨ (index : Int) < 0 ∨
      (index : Int) ≥ entries.length ∨
        (((rfc6962 sha256).hashed.auditPath index digests).map Digest.hex).length > 64) := by
    rw [List.length_map]
    omega
  rw [path, root, inclusionRoot, if_neg checked, Int.toNat_natCast,
    show ((entries.length : Int) - 1).toNat = digests.length - 1 by omega, ← counted]
  constructor
  · intro accepted
    obtain ⟨node, run⟩ := inclusionLoop_remaining sha256
      ((rfc6962 sha256).hashed.auditPath index digests) index (digests.length - 1)
      (leafHash sha256 entries[index])
    rw [run] at accepted
    refine (auditPath_full_iff (rfc6962 sha256) (by omega)).mp ?_
    by_contra unfinished
    simp [bind, Except.bind, unfinished] at accepted
  · intro paired
    rw [inclusionLoop_of_paired sha256 found paired]
    rfl

/-- The SHA-256 digest of the leaf of the entry `a`. -/
def leafDigestA : Digest :=
  ⟨[2, 42, 105, 121, 230, 218, 183, 170, 90, 228, 195, 229, 228, 95, 126, 151,
    113, 18, 167, 230, 53, 147, 130, 13, 190, 193, 236, 115, 138, 36, 249, 60], rfl⟩

/-- The SHA-256 digest of the leaf of the entry `b`. -/
def leafDigestB : Digest :=
  ⟨[87, 235, 53, 97, 93, 71, 243, 78, 199, 20, 202, 205, 245, 253, 116, 96,
    138, 94, 142, 16, 39, 36, 232, 11, 36, 178, 135, 192, 194, 123, 106, 49], rfl⟩

/-- The SHA-256 digest of the pair of these leaves. -/
def pairDigestAB : Digest :=
  ⟨[177, 55, 152, 95, 244, 132, 251, 96, 13, 185, 49, 7, 199, 123, 3, 101,
    200, 13, 120, 245, 180, 41, 222, 208, 253, 151, 54, 29, 7, 121, 153, 235], rfl⟩

def zeroDigest : Digest := ⟨List.replicate 32 0, rfl⟩

/-- SHA-256 on the inputs of a log with the entries `a` and `b`. -/
def tabulatedSha256 (input : Bytes) : Digest :=
  if input = leafInput [0x61] then leafDigestA
  else if input = leafInput [0x62] then leafDigestB
  else if input = nodeInput (leafDigestA, leafDigestB) then pairDigestAB
  else zeroDigest

/-- Each of two entries is accepted with its audit path. -/
theorem inclusionRoot_auditPath_iff_two :
    inclusionRoot tabulatedSha256 [0x62] 1 2
        (((rfc6962 tabulatedSha256).auditPath 1 [[0x61], [0x62]]).map Digest.hex) =
      .ok ((rfc6962 tabulatedSha256).treeHash [[0x61], [0x62]]).hex := by
  refine (inclusionRoot_auditPath_iff tabulatedSha256 [[0x61], [0x62]] 1 (by decide)
    (by decide)).mpr ?_
  intro level nonzero same
  cases level with
  | zero => rfl
  | succ level => exact absurd (by rw [div_two_pow_succ]; simp) nonzero

/-- The last of three entries is unpaired at the lowest level: its audit path is
rejected. -/
theorem inclusionRoot_rejects_third_of_three :
    inclusionRoot tabulatedSha256 [0x63] 2 3
        (((rfc6962 tabulatedSha256).auditPath 2 [[0x61], [0x62], [0x63]]).map Digest.hex) =
      .error .invalidTransparencyInclusionProof := by
  have path : (rfc6962 tabulatedSha256).auditPath 2 [[0x61], [0x62], [0x63]] =
      [(rfc6962 tabulatedSha256).treeHash [[0x61], [0x62]]] := by
    rw [HashScheme.auditPath_right _ (by decide) (by decide), HashScheme.auditPath_small]
    · rfl
    · decide
  obtain ⟨root, run⟩ := inclusionLoop_remaining tabulatedSha256
    [(rfc6962 tabulatedSha256).treeHash [[0x61], [0x62]]] 2 2 (leafHash tabulatedSha256 [0x63])
  rw [path, inclusionRoot, if_neg (by decide)]
  simp only [Int.reduceToNat, Int.reduceSub]
  rw [run]
  rfl

/-! ## Accepted proofs -/

/-- The pairs the loop of `_inclusion_root` hashes. -/
def inclusionPairs : List String → Nat → Nat → Digest → List (Digest × Digest)
  | [], _, _, _ => []
  | encoded :: hashes, index, last, node =>
      match decodeDigest encoded with
      | none => []
      | some sibling =>
          inclusionPair index last node sibling ::
            inclusionPairs hashes (index / 2) (last / 2)
              (sha256 (nodeInput (inclusionPair index last node sibling)))

/-- The byte strings `_inclusion_root` hashes. -/
def inclusionInputs (entry : Bytes) (leafIndex treeSize : Int) (hashes : List String) :
    List Bytes :=
  leafInput entry ::
    (inclusionPairs sha256 hashes leafIndex.toNat (treeSize - 1).toNat
      (leafHash sha256 entry)).map nodeInput

/-- The byte strings hashed in the tree of a log. -/
def treeInputs (entries : List Bytes) : List Bytes :=
  entries.map leafInput ++ ((rfc6962 sha256).nodePairs entries).map nodeInput

theorem leafInput_injective : Function.Injective leafInput := by
  intro first second same
  exact List.tail_eq_of_cons_eq same

theorem nodeInput_injective : Function.Injective nodeInput := by
  rintro ⟨left, right⟩ ⟨left', right'⟩ same
  have tails := List.tail_eq_of_cons_eq same
  obtain ⟨lefts, rights⟩ :=
    List.append_inj tails (by rw [left.size_eq, left'.size_eq])
  cases left
  cases left'
  cases right
  cases right'
  simp_all

theorem leafInput_ne_nodeInput (entry : Bytes) (pair : Digest × Digest) :
    leafInput entry ≠ nodeInput pair := by
  intro same
  exact absurd (List.head_eq_of_cons_eq same) (by decide)

/-- Without a collision among the hashed byte strings the hashing of RFC 6962
binds the entries and the pairs they stand for. -/
theorem rfc6962_binding {inputs : Set Bytes} (collisionFree : Set.InjOn sha256 inputs) :
    (rfc6962 sha256).Binding {entry | leafInput entry ∈ inputs}
      {pair | nodeInput pair ∈ inputs} where
  leaf_injective _ first _ second same := leafInput_injective (collisionFree first second same)
  node_injective _ first _ second same := nodeInput_injective (collisionFree first second same)
  leaf_ne_node entry known pair hashed same :=
    leafInput_ne_nodeInput entry pair (collisionFree known hashed same)

/-- **The loop can only climb from the right position.** If it ends at the root
of a level all of whose digests lie at most `height` levels above leaves, and the
digest it started from lies exactly `height` levels above one, then it started
from the digest at its position. -/
theorem inclusionLoop_sound {known : Set Bytes} {pairs : Set (Digest × Digest)}
    (binding : (rfc6962 sha256).Binding known pairs) (hashes : List String)
    {digests : List Digest} {index height : Nat} {node : Digest}
    (inside : index < digests.length)
    (within : ∀ digest ∈ digests, (rfc6962 sha256).Within known pairs height digest)
    (reaches : (rfc6962 sha256).Reaches known pairs height node)
    (hashed : ∀ pair ∈ (rfc6962 sha256).hashed.nodePairs digests, pair ∈ pairs)
    (verified : ∀ pair ∈ inclusionPairs sha256 hashes index (digests.length - 1) node,
      pair ∈ pairs)
    (accepted : inclusionLoop sha256 hashes index (digests.length - 1) node =
      .ok (0, (rfc6962 sha256).hashed.treeHash digests)) :
    digests[index]? = some node := by
  induction hashes generalizing digests index height node with
  | nil =>
      rw [inclusionLoop, Except.ok.injEq, Prod.mk.injEq] at accepted
      obtain ⟨single, rfl⟩ := accepted
      obtain ⟨digest, rfl⟩ := List.length_eq_one_iff.mp (show digests.length = 1 by omega)
      have first : index = 0 := by simpa using inside
      subst first
      simp [HashScheme.hashed]
  | cons encoded rest ih =>
      rw [inclusionLoop] at accepted
      rw [inclusionPairs] at verified
      cases decoded : decodeDigest encoded with
      | none =>
          rw [decoded] at accepted
          cases accepted
      | some sibling =>
          rw [decoded] at accepted verified
          simp only [List.forall_mem_cons] at accepted verified
          obtain ⟨pairKnown, above⟩ := verified
          have last : (digests.length - 1) / 2 =
              (pairUp (rfc6962 sha256).node digests).length - 1 :=
            (length_pairUp_sub_one _ (by omega)).symm
          have parentReaches : (rfc6962 sha256).Reaches known pairs (height + 1)
              (sha256 (nodeInput (inclusionPair index (digests.length - 1) node sibling))) := by
            refine ⟨_, pairKnown, rfl, ?_⟩
            unfold inclusionPair
            split
            · exact Or.inr reaches
            · exact Or.inl reaches
          rw [last] at accepted above
          rw [← treeHash_pairUp (rfc6962 sha256)] at accepted
          have parent := ih (by rw [length_pairUp]; omega)
            (HashScheme.within_pairUp within hashed) parentReaches
            (fun pair member => hashed _ (nodePairs_pairUp (rfc6962 sha256) digests member))
            above accepted
          by_cases odd : index % 2 = 1
          · rw [inclusionPair, if_pos (Or.inl odd)] at pairKnown parent
            exact (binding.pair_of_odd inside odd hashed pairKnown parent).2
          · by_cases paired : index + 1 < digests.length
            · rw [inclusionPair, if_neg (by omega)] at pairKnown parent
              exact (binding.pair_of_even paired (by omega) hashed pairKnown parent).1
            · -- An unpaired digest is carried over: it would lie deeper than its level is high.
              rw [getElem?_of_pairUp_last _ (by omega) (by omega)] at parent
              have low := within _ (List.mem_of_getElem? parent)
              exact absurd (binding.depth_le_height low parentReaches) (by omega)

/-- What an accepted proof has passed. -/
theorem inclusionRoot_eq_ok {entry : Bytes} {leafIndex treeSize : Int} {hashes : List String}
    {text : String}
    (accepted : inclusionRoot sha256 entry leafIndex treeSize hashes = .ok text) :
    0 ≤ leafIndex ∧ leafIndex < treeSize ∧ ∃ root : Digest, root.hex = text ∧
      inclusionLoop sha256 hashes leafIndex.toNat (treeSize - 1).toNat (leafHash sha256 entry) =
        .ok (0, root) := by
  unfold inclusionRoot at accepted
  split at accepted
  · cases accepted
  · rename_i checked
    cases run : inclusionLoop sha256 hashes leafIndex.toNat (treeSize - 1).toNat
        (leafHash sha256 entry) with
    | error error =>
        rw [run] at accepted
        cases accepted
    | ok result =>
        obtain ⟨remaining, root⟩ := result
        rw [run] at accepted
        simp only [bind, Except.bind] at accepted
        split at accepted
        · cases accepted
        · rename_i finished
          rw [Except.ok.injEq] at accepted
          exact ⟨by omega, by omega, root, accepted, by rw [not_not.mp finished]⟩

/-- **Accepted entries are in the log.** Without a collision among the byte
strings hashed in the log's tree and by the verification, an entry whose proof is
accepted against the root of the log is the log's entry at the claimed position,
whatever the hashes of the proof. -/
theorem inclusionRoot_sound (entries : List Bytes) (entry : Bytes) (leafIndex : Int)
    (hashes : List String)
    (collisionFree : Set.InjOn sha256 {input | input ∈ treeInputs sha256 entries ++
      inclusionInputs sha256 entry leafIndex entries.length hashes})
    (accepted : inclusionRoot sha256 entry leafIndex entries.length hashes =
      .ok ((rfc6962 sha256).treeHash entries).hex) :
    ∃ index : Nat, leafIndex = index ∧ entries[index]? = some entry := by
  let digests := entries.map (leafHash sha256)
  have counted : digests.length = entries.length := List.length_map _
  have binding := rfc6962_binding sha256 collisionFree
  obtain ⟨nonnegative, below, root, rootIs, run⟩ := inclusionRoot_eq_ok sha256 accepted
  have leafInputs : ∀ known ∈ entries, leafInput known ∈ treeInputs sha256 entries ++
      inclusionInputs sha256 entry leafIndex entries.length hashes := fun known member =>
    List.mem_append_left _ (List.mem_append_left _ (List.mem_map_of_mem member))
  have entryInput : leafInput entry ∈ treeInputs sha256 entries ++
      inclusionInputs sha256 entry leafIndex entries.length hashes :=
    List.mem_append_right _ List.mem_cons_self
  refine ⟨leafIndex.toNat, by omega, ?_⟩
  rw [Digest.hex_injective rootIs, ← (rfc6962 sha256).treeHash_hashed entries,
    show ((entries.length : Int) - 1).toNat = digests.length - 1 by omega] at run
  have found : digests[leafIndex.toNat]? = some (leafHash sha256 entry) := by
    refine inclusionLoop_sound sha256 binding hashes (by omega) ?_
      (show (rfc6962 sha256).Reaches _ _ 0 _ from ⟨entry, entryInput, rfl⟩) ?_ ?_ run
    · intro digest member
      obtain ⟨known, inside, rfl⟩ := List.mem_map.mp member
      exact ⟨known, leafInputs known inside, rfl⟩
    · intro pair member
      rw [show digests = entries.map (rfc6962 sha256).leaf from rfl,
        HashScheme.nodePairs_hashed] at member
      exact List.mem_append_left _ (List.mem_append_right _ (List.mem_map_of_mem member))
    · intro pair member
      refine List.mem_append_right _ (List.mem_cons_of_mem _ (List.mem_map_of_mem ?_))
      rwa [show ((entries.length : Int) - 1).toNat = digests.length - 1 by omega]
  rw [List.getElem?_map] at found
  obtain ⟨known, atIndex, same⟩ := Option.map_eq_some_iff.mp found
  rw [atIndex, binding.leaf_injective known (leafInputs known (List.mem_of_getElem? atIndex))
    entry entryInput same]

/-- The second of two entries is accepted with the leaf of the first one. -/
theorem inclusionRoot_sound_two :
    ∃ index : Nat, (1 : Int) = index ∧ ([[0x61], [0x62]] : List Bytes)[index]? = some [0x62] := by
  refine inclusionRoot_sound tabulatedSha256 [[0x61], [0x62]] [0x62] 1 [leafDigestA.hex] ?_ ?_
  · rw [treeInputs, HashScheme.nodePairs_pair]
    have verified : inclusionInputs tabulatedSha256 [0x62] 1 2 [leafDigestA.hex] =
        [leafInput [0x62], nodeInput (leafDigestA, leafDigestB)] := by
      simp only [inclusionInputs, inclusionPairs, decodeDigest_hex]
      decide
    have injective : ∀ first ∈ [leafInput [0x61], leafInput [0x62],
          nodeInput (leafDigestA, leafDigestB), leafInput [0x62],
          nodeInput (leafDigestA, leafDigestB)],
        ∀ second ∈ [leafInput [0x61], leafInput [0x62],
          nodeInput (leafDigestA, leafDigestB), leafInput [0x62],
          nodeInput (leafDigestA, leafDigestB)],
        tabulatedSha256 first = tabulatedSha256 second → first = second := by decide
    rw [show (([[0x61], [0x62]] : List Bytes).length : Int) = 2 from rfl, verified]
    exact fun first firstIn second secondIn same => injective first firstIn second secondIn same
  · rw [HashScheme.treeHash_pair, inclusionRoot, if_neg (by decide)]
    simp only [inclusionLoop, decodeDigest_hex]
    decide

end CapabilityHub.SupplyChain
