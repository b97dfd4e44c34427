import CapabilityHub.SupplyChain.Inclusion

/-! # Consistency proofs

`_verify_consistency` climbs two trees at once: the old tree along its last
position and the new tree along the same position. Honest proofs are accepted as
long as they have at most 64 hashes
(`CapabilityHub.SupplyChain.verifyConsistency_consistencyProof_iff`), and an
accepted proof shows that the old log is the beginning of the new one
(`CapabilityHub.SupplyChain.verifyConsistency_sound`).
-/

namespace CapabilityHub.SupplyChain

open Merkle

variable (sha256 : Bytes → Digest)

/-! ## The loops -/

theorem shiftWhileOdd_of_even {first : Nat} (even : first % 2 = 0) (second : Nat) :
    shiftWhileOdd first second = (first, second) := by
  rw [shiftWhileOdd, if_neg (by omega)]

theorem shiftWhileOdd_of_odd {first : Nat} (odd : first % 2 = 1) (second : Nat) :
    shiftWhileOdd first second = shiftWhileOdd (first / 2) (second / 2) := by
  rw [shiftWhileOdd, if_pos odd]

theorem shiftWhileEven_of_odd {first : Nat} (odd : first % 2 = 1) (second : Nat) :
    shiftWhileEven first second = (first, second) := by
  rw [shiftWhileEven, if_neg (by omega)]

theorem shiftWhileEven_of_even {first : Nat} (positive : first ≠ 0) (even : first % 2 = 0)
    (second : Nat) : shiftWhileEven first second = shiftWhileEven (first / 2) (second / 2) := by
  rw [shiftWhileEven, if_pos ⟨positive, even⟩]

/-- The pairs the loop of `_verify_consistency` hashes. -/
def consistencyPairs :
    List Digest → Nat → Nat → Digest → Digest → List (Digest × Digest)
  | [], _, _, _, _ => []
  | sibling :: proof, first, second, firstHash, secondHash =>
      if second = 0 then []
      else if first % 2 = 1 ∨ first = second then
        let shifted := shiftWhileEven first second
        (sibling, firstHash) :: (sibling, secondHash) ::
          consistencyPairs proof (shifted.1 / 2) (shifted.2 / 2)
            (nodeHash sha256 sibling firstHash) (nodeHash sha256 sibling secondHash)
      else
        (secondHash, sibling) ::
          consistencyPairs proof (first / 2) (second / 2) firstHash
            (nodeHash sha256 secondHash sibling)

section Steps

variable {first second : Nat} (sibling : Digest) (proof : List Digest)
  (firstHash secondHash : Digest)

/-- At a right half of a pair both trees take the sibling on the left. -/
theorem consistencyLoop_odd (running : second ≠ 0) (odd : first % 2 = 1) :
    consistencyLoop sha256 (sibling :: proof) first second firstHash secondHash =
      consistencyLoop sha256 proof (first / 2) (second / 2) (nodeHash sha256 sibling firstHash)
        (nodeHash sha256 sibling secondHash) := by
  rw [consistencyLoop, if_neg running, if_pos (Or.inl odd), shiftWhileEven_of_odd odd]

/-- At a left half of a pair only the new tree takes the sibling. -/
theorem consistencyLoop_even (running : second ≠ 0) (even : first % 2 = 0)
    (different : first ≠ second) :
    consistencyLoop sha256 (sibling :: proof) first second firstHash secondHash =
      consistencyLoop sha256 proof (first / 2) (second / 2) firstHash
        (nodeHash sha256 secondHash sibling) := by
  rw [consistencyLoop, if_neg running, if_neg (by omega)]

/-- An unpaired position is carried over in both trees. -/
theorem consistencyLoop_last (running : second ≠ 0) (even : first % 2 = 0)
    (last : first = second) :
    consistencyLoop sha256 (sibling :: proof) first second firstHash secondHash =
      consistencyLoop sha256 (sibling :: proof) (first / 2) (second / 2) firstHash
        secondHash := by
  subst last
  rw [consistencyLoop, consistencyLoop, if_neg running, if_pos (Or.inr rfl), if_neg (by omega),
    if_pos (Or.inr rfl), shiftWhileEven_of_even running even]

theorem consistencyPairs_odd (running : second ≠ 0) (odd : first % 2 = 1) :
    consistencyPairs sha256 (sibling :: proof) first second firstHash secondHash =
      (sibling, firstHash) :: (sibling, secondHash) ::
        consistencyPairs sha256 proof (first / 2) (second / 2)
          (nodeHash sha256 sibling firstHash) (nodeHash sha256 sibling secondHash) := by
  rw [consistencyPairs, if_neg running, if_pos (Or.inl odd), shiftWhileEven_of_odd odd]

theorem consistencyPairs_even (running : second ≠ 0) (even : first % 2 = 0)
    (different : first ≠ second) :
    consistencyPairs sha256 (sibling :: proof) first second firstHash secondHash =
      (secondHash, sibling) ::
        consistencyPairs sha256 proof (first / 2) (second / 2) firstHash
          (nodeHash sha256 secondHash sibling) := by
  rw [consistencyPairs, if_neg running, if_neg (by omega)]

theorem consistencyPairs_last (running : second ≠ 0) (even : first % 2 = 0)
    (last : first = second) :
    consistencyPairs sha256 (sibling :: proof) first second firstHash secondHash =
      consistencyPairs sha256 (sibling :: proof) (first / 2) (second / 2) firstHash
        secondHash := by
  subst last
  rw [consistencyPairs, consistencyPairs, if_neg running, if_pos (Or.inr rfl), if_neg (by omega),
    if_pos (Or.inr rfl), shiftWhileEven_of_even running even]

end Steps

/-- An even number of old entries is checked one level up. -/
theorem consistencyStart_of_even {oldSize : Nat} (positive : 0 < oldSize)
    (even : oldSize % 2 = 0) (newSize : Nat) (old : Digest) (proof : List Digest) :
    consistencyStart oldSize newSize old proof =
      consistencyStart (oldSize / 2) ((newSize + 1) / 2) old proof := by
  unfold consistencyStart
  rw [shiftWhileOdd_of_odd (show (oldSize - 1) % 2 = 1 by omega),
    show (oldSize - 1) / 2 = oldSize / 2 - 1 by omega,
    show (newSize - 1) / 2 = (newSize + 1) / 2 - 1 by omega]

/-- One old entry is checked from its leaf, which is the old root. -/
theorem consistencyStart_of_one (newSize : Nat) (old : Digest) (proof : List Digest) :
    consistencyStart 1 newSize old proof = some (proof, 0, newSize - 1, old) := by
  unfold consistencyStart
  rw [shiftWhileOdd_of_even (by rfl)]
  rfl

/-- Any other odd number of old entries is checked from the first hash of the
proof. -/
theorem consistencyStart_of_odd {oldSize : Nat} (several : oldSize ≠ 1) (odd : oldSize % 2 = 1)
    (newSize : Nat) (old start : Digest) (rest : List Digest) :
    consistencyStart oldSize newSize old (start :: rest) =
      some (rest, oldSize - 1, newSize - 1, start) := by
  unfold consistencyStart
  rw [shiftWhileOdd_of_even (by omega)]
  simp only
  rw [if_neg (by omega)]

theorem consistencyStart_nil {oldSize : Nat} (several : oldSize ≠ 1) (odd : oldSize % 2 = 1)
    (newSize : Nat) (old : Digest) : consistencyStart oldSize newSize old [] = none := by
  unfold consistencyStart
  rw [shiftWhileOdd_of_even (by omega)]
  simp only
  rw [if_neg (by omega)]

/-! ## Honest proofs -/

/-- **The loop climbs to both roots.** Let an old level end at `first`, agree with
the new level before, and let both hold the given digests at `first`; then the
audit path of `first` in the new level leads to the roots of both. -/
theorem consistencyLoop_auditPath {old new : List Digest} {first : Nat}
    {firstHash secondHash : Digest} (oldEnds : old.length = first + 1)
    (inside : first < new.length) (agree : ∀ position < first, old[position]? = new[position]?)
    (atOld : old[first]? = some firstHash) (atNew : new[first]? = some secondHash) :
    consistencyLoop sha256 ((rfc6962 sha256).hashed.auditPath first new) first (new.length - 1)
        firstHash secondHash =
      .ok (0, (rfc6962 sha256).hashed.treeHash old, (rfc6962 sha256).hashed.treeHash new) := by
  induction counted : new.length using Nat.strong_induction_on
    generalizing old new first firstHash secondHash with
  | h count ih =>
      subst counted
      by_cases several : 2 ≤ new.length
      · have nextInside : first / 2 < (pairUp (rfc6962 sha256).node new).length := by
          rw [length_pairUp]; omega
        have nextAgree : ∀ position < first / 2,
            (pairUp (rfc6962 sha256).node old)[position]? =
              (pairUp (rfc6962 sha256).node new)[position]? := by
          intro position below
          have oldFirst := List.getElem?_eq_getElem (show 2 * position < old.length by omega)
          have oldSecond := List.getElem?_eq_getElem (show 2 * position + 1 < old.length by omega)
          have newFirst := (agree (2 * position) (by omega)).symm.trans oldFirst
          have newSecond := (agree (2 * position + 1) (by omega)).symm.trans oldSecond
          rw [getElem?_pairUp_of_pair _ oldFirst oldSecond,
            getElem?_pairUp_of_pair _ newFirst newSecond]
        have above : ∀ {firstAbove secondAbove : Digest},
            (pairUp (rfc6962 sha256).node old)[first / 2]? = some firstAbove →
            (pairUp (rfc6962 sha256).node new)[first / 2]? = some secondAbove →
            consistencyLoop sha256
                ((rfc6962 sha256).hashed.auditPath (first / 2) (pairUp (rfc6962 sha256).node new))
                (first / 2) ((new.length - 1) / 2) firstAbove secondAbove =
              .ok (0, (rfc6962 sha256).hashed.treeHash old,
                (rfc6962 sha256).hashed.treeHash new) := by
          intro firstAbove secondAbove atOldAbove atNewAbove
          have run := ih _ (by rw [length_pairUp]; omega) (by rw [length_pairUp]; omega)
            nextInside nextAgree atOldAbove atNewAbove rfl
          rwa [length_pairUp_sub_one _ (by omega), treeHash_pairUp, treeHash_pairUp] at run
        rw [auditPath_pairUp (rfc6962 sha256) first new inside]
        by_cases odd : first % 2 = 1
        · obtain ⟨left, present, atLeft⟩ := sibling_of_odd inside odd
          rw [present]
          simp only [Option.toList_some, List.singleton_append]
          rw [consistencyLoop_odd sha256 _ _ _ _ (by omega) odd]
          have oldLeft := (agree (first - 1) (by omega)).trans atLeft
          refine above (getElem?_pairUp_of_pair _ ?_ ?_) (getElem?_pairUp_of_pair _ ?_ ?_)
          · rwa [show 2 * (first / 2) = first - 1 by omega]
          · rwa [show 2 * (first / 2) + 1 = first by omega]
          · rwa [show 2 * (first / 2) = first - 1 by omega]
          · rwa [show 2 * (first / 2) + 1 = first by omega]
        · have carried : (pairUp (rfc6962 sha256).node old)[first / 2]? = some firstHash :=
            getElem?_pairUp_of_last _ (by rwa [show 2 * (first / 2) = first by omega]) (by omega)
          by_cases last : first + 1 = new.length
          · have carriedNew : (pairUp (rfc6962 sha256).node new)[first / 2]? = some secondHash :=
              getElem?_pairUp_of_last _ (by rwa [show 2 * (first / 2) = first by omega])
                (by omega)
            have run := above carried carriedNew
            rw [sibling_of_last last (by omega), Option.toList_none, List.nil_append]
            -- The path goes on above: the loop has not reached the root yet.
            cases path : (rfc6962 sha256).hashed.auditPath (first / 2)
                (pairUp (rfc6962 sha256).node new) with
            | nil =>
                rw [path, consistencyLoop, Except.ok.injEq, Prod.mk.injEq] at run
                omega
            | cons sibling rest =>
                rw [path] at run
                rw [consistencyLoop_last sha256 _ _ _ _ (by omega) (by omega) (by omega), run]
          · obtain ⟨right, present, atRight⟩ :=
              sibling_of_even (show first + 1 < new.length by omega) (by omega)
            rw [present]
            simp only [Option.toList_some, List.singleton_append]
            rw [consistencyLoop_even sha256 _ _ _ _ (by omega) (by omega) (by omega)]
            refine above carried (getElem?_pairUp_of_pair _ ?_ ?_)
            · rwa [show 2 * (first / 2) = first by omega]
            · rwa [show 2 * (first / 2) + 1 = first + 1 by omega]
      · have none : first = 0 := by omega
        subst none
        obtain ⟨oldDigest, rfl⟩ := List.length_eq_one_iff.mp oldEnds
        obtain ⟨newDigest, rfl⟩ := List.length_eq_one_iff.mp (show new.length = 1 by omega)
        rw [HashScheme.auditPath_small _ (by simp), HashScheme.treeHash_singleton,
          HashScheme.treeHash_singleton]
        simp only [List.getElem?_cons_zero, Option.some.injEq] at atOld atNew
        simp [consistencyLoop, HashScheme.hashed, atOld, atNew]

/-- An honest proof leads to the roots of the old and the new tree. -/
theorem consistencyRoots_subproof {new : List Digest} {size : Nat} (positive : 0 < size)
    (inside : size < new.length) :
    consistencyRoots sha256 size new.length
        ((rfc6962 sha256).hashed.treeHash (new.take size))
        ((rfc6962 sha256).hashed.subproof size new true) =
      .ok (0, (rfc6962 sha256).hashed.treeHash (new.take size),
        (rfc6962 sha256).hashed.treeHash new) := by
  induction size using Nat.strong_induction_on generalizing new with
  | h size ih =>
      have counted : (new.take size).length = size := by
        rw [List.length_take, Nat.min_eq_left inside.le]
      by_cases even : size % 2 = 0
      · have halved : (pairUp (rfc6962 sha256).node new).take (size / 2) =
            pairUp (rfc6962 sha256).node (new.take size) := by
          rw [take_pairUp _ _ (by omega), show 2 * (size / 2) = size by omega]
        have run := ih (size / 2) (by omega) (by omega)
          (show size / 2 < (pairUp (rfc6962 sha256).node new).length by
            rw [length_pairUp]; omega)
        rw [halved, treeHash_pairUp, treeHash_pairUp, length_pairUp] at run
        rw [consistencyRoots, consistencyStart_of_even positive even,
          subproof_pairUp (rfc6962 sha256) size new true even (by omega) positive inside.le,
          ← consistencyRoots, run]
      · have last := List.getElem?_eq_getElem (show size - 1 < new.length by omega)
        have climb : ∀ {digest : Digest}, new[size - 1]? = some digest →
            consistencyLoop sha256 ((rfc6962 sha256).hashed.auditPath (size - 1) new) (size - 1)
                (new.length - 1) digest digest =
              .ok (0, (rfc6962 sha256).hashed.treeHash (new.take size),
                (rfc6962 sha256).hashed.treeHash new) := by
          intro digest found
          refine consistencyLoop_auditPath sha256 (by omega) (by omega)
            (fun position below => List.getElem?_take_of_lt (by omega)) ?_ found
          rw [List.getElem?_take_of_lt (by omega), found]
        rw [subproof_odd (rfc6962 sha256) size new true (by omega) inside]
        by_cases one : size = 1
        · subst one
          obtain ⟨first, rest, rfl⟩ := List.exists_cons_of_length_pos (show 0 < new.length by omega)
          rw [if_pos ⟨rfl, rfl⟩, List.nil_append, consistencyRoots, consistencyStart_of_one]
          exact climb (by simp [HashScheme.hashed])
        · rw [if_neg (by simp [one]), last, Option.toList_some, List.singleton_append,
            consistencyRoots, consistencyStart_of_odd one (by omega)]
          exact climb last

/-- `2 ^ height` entries have consistency proofs of at most `height + 1` hashes. -/
theorem length_subproof_le {digests : List Digest} {size height : Nat} (positive : 0 < size)
    (inside : size < digests.length) (bounded : digests.length ≤ 2 ^ height) :
    ((rfc6962 sha256).hashed.subproof size digests true).length ≤ height + 1 := by
  induction height generalizing digests size with
  | zero => omega
  | succ height ih =>
      rw [Nat.pow_succ] at bounded
      by_cases even : size % 2 = 0
      · rw [subproof_pairUp (rfc6962 sha256) size digests true even (by omega) positive inside.le]
        exact Nat.le_succ_of_le (ih (by omega) (by rw [length_pairUp]; omega)
          (by rw [length_pairUp]; omega))
      · have path := length_auditPath_le (rfc6962 sha256) (show size - 1 < digests.length by omega)
          (show digests.length ≤ 2 ^ (height + 1) by rw [Nat.pow_succ]; omega)
        rw [subproof_odd (rfc6962 sha256) size digests true (by omega) inside, List.length_append]
        split
        · simp only [List.length_nil]
          omega
        · rw [List.getElem?_eq_getElem (by omega), Option.toList_some, List.length_singleton]
          omega

/-- One old entry, or an even number of them, saves one hash. -/
theorem length_subproof_le_of_even {digests : List Digest} {size height : Nat}
    (positive : 0 < size) (inside : size < digests.length) (bounded : digests.length ≤ 2 ^ height)
    (saving : size % 2 = 0 ∨ size = 1) :
    ((rfc6962 sha256).hashed.subproof size digests true).length ≤ height := by
  rcases saving with even | rfl
  · cases height with
    | zero => omega
    | succ height =>
        rw [Nat.pow_succ] at bounded
        rw [subproof_pairUp (rfc6962 sha256) size digests true even (by omega) positive inside.le]
        exact length_subproof_le sha256 (by omega) (by rw [length_pairUp]; omega)
          (by rw [length_pairUp]; omega)
  · rw [subproof_odd (rfc6962 sha256) 1 digests true (by rfl) inside, if_pos ⟨rfl, rfl⟩,
      List.nil_append]
    exact length_auditPath_le (rfc6962 sha256) (by omega) bounded

/-- A proof of no hashes is never asked for. -/
theorem subproof_ne_nil {digests : List Digest} {size : Nat} (inside : size < digests.length)
    (positive : 0 < size) (known : Bool) :
    (rfc6962 sha256).hashed.subproof size digests known ≠ [] := by
  rw [HashScheme.subproof, if_pos ⟨by omega, inside⟩]
  split <;> simp

/-- **Which honest consistency proofs are accepted.** The consistency proof
between a log and its first `size` entries is accepted exactly when it has at most
64 hashes. That is the case for all logs of at most `2 ^ 63` entries, and in logs
of at most `2 ^ 64` entries for one old entry and for even numbers of them. -/
theorem verifyConsistency_consistencyProof_iff (entries : List Bytes) (size : Nat)
    (positive : 0 < size) (inside : size < entries.length) :
    (verifyConsistency sha256 size entries.length
        ((rfc6962 sha256).treeHash (entries.take size)).hex
        ((rfc6962 sha256).treeHash entries).hex
        (((rfc6962 sha256).consistencyProof size entries).map Digest.hex) = .ok () ↔
      ((rfc6962 sha256).consistencyProof size entries).length ≤ 64) ∧
    (entries.length ≤ 2 ^ 63 →
      ((rfc6962 sha256).consistencyProof size entries).length ≤ 64) ∧
    (entries.length ≤ 2 ^ 64 → size % 2 = 0 ∨ size = 1 →
      ((rfc6962 sha256).consistencyProof size entries).length ≤ 64) := by
  let digests := entries.map (leafHash sha256)
  have counted : digests.length = entries.length := List.length_map _
  have proof : (rfc6962 sha256).consistencyProof size entries =
      (rfc6962 sha256).hashed.subproof size digests true :=
    ((rfc6962 sha256).subproof_hashed size entries true).symm
  have oldRoot : (rfc6962 sha256).treeHash (entries.take size) =
      (rfc6962 sha256).hashed.treeHash (digests.take size) := by
    rw [← List.map_take]
    exact ((rfc6962 sha256).treeHash_hashed (entries.take size)).symm
  have newRoot : (rfc6962 sha256).treeHash entries = (rfc6962 sha256).hashed.treeHash digests :=
    ((rfc6962 sha256).treeHash_hashed entries).symm
  have texts : (((rfc6962 sha256).hashed.subproof size digests true).map Digest.hex).length =
      ((rfc6962 sha256).hashed.subproof size digests true).length := List.length_map _
  rw [proof, oldRoot, newRoot, ← counted]
  refine ⟨⟨fun accepted => ?_, fun short => ?_⟩, fun bounded => ?_, fun bounded saving => ?_⟩
  · by_contra long
    rw [verifyConsistency, if_pos (by omega)] at accepted
    cases accepted
  · have within : size < digests.length := by omega
    have nonempty := subproof_ne_nil sha256 within positive true
    have checked : ¬ ((size : Int) ≤ 0 ∨ (digests.length : Int) ≤ size ∨
        ((rfc6962 sha256).hashed.subproof size digests true).map Digest.hex = [] ∨
        (((rfc6962 sha256).hashed.subproof size digests true).map Digest.hex).length > 64) := by
      rw [List.map_eq_nil_iff]
      simp only [nonempty, false_or]
      omega
    rw [verifyConsistency, if_neg checked, decodeDigest_hex, decodeDigest_hex,
      mapM_decodeDigest_hex]
    simp only [Int.toNat_natCast]
    rw [consistencyRoots_subproof sha256 positive (by omega)]
    simp [bind, Except.bind]
  · exact length_subproof_le sha256 positive (by omega) (by omega)
  · exact length_subproof_le_of_even sha256 positive (by omega) (by omega) saving

/-- The proof between one entry and two is accepted. -/
theorem verifyConsistency_consistencyProof_iff_two :
    (verifyConsistency tabulatedSha256 1 2 ((rfc6962 tabulatedSha256).treeHash [[0x61]]).hex
        ((rfc6962 tabulatedSha256).treeHash [[0x61], [0x62]]).hex
        (((rfc6962 tabulatedSha256).consistencyProof 1 [[0x61], [0x62]]).map Digest.hex) =
        .ok () ↔
      ((rfc6962 tabulatedSha256).consistencyProof 1 [[0x61], [0x62]]).length ≤ 64) ∧
    (2 ≤ 2 ^ 63 →
      ((rfc6962 tabulatedSha256).consistencyProof 1 [[0x61], [0x62]]).length ≤ 64) ∧
    (2 ≤ 2 ^ 64 → 1 % 2 = 0 ∨ 1 = 1 →
      ((rfc6962 tabulatedSha256).consistencyProof 1 [[0x61], [0x62]]).length ≤ 64) :=
  verifyConsistency_consistencyProof_iff tabulatedSha256 [[0x61], [0x62]] 1 (by decide)
    (by decide)

/-- Of `2 ^ height` entries, an odd number of old ones but not one takes a hash
for every level and one more. -/
theorem length_consistencyProof_two_pow {entries : List Bytes} {size height : Nat}
    (odd : size % 2 = 1) (several : size ≠ 1) (inside : size < entries.length)
    (perfect : entries.length = 2 ^ height) :
    ((rfc6962 sha256).consistencyProof size entries).length = height + 1 := by
  have counted : (entries.map (leafHash sha256)).length = entries.length := List.length_map _
  rw [HashScheme.consistencyProof, ← (rfc6962 sha256).subproof_hashed size entries true]
  change ((rfc6962 sha256).hashed.subproof size (entries.map (leafHash sha256)) true).length = _
  rw [subproof_odd (rfc6962 sha256) size _ true odd (by omega), if_neg (by simp [several]),
    List.length_append, length_auditPath_two_pow (rfc6962 sha256) (by omega) (counted.trans perfect),
    List.getElem?_eq_getElem (by omega), Option.toList_some, List.length_singleton, Nat.add_comm]

/-- In a log of `2 ^ 64` entries the proof for the first three has 65 hashes and
is rejected. -/
theorem verifyConsistency_rejects_three_of_two_pow :
    verifyConsistency tabulatedSha256 3 (List.replicate (2 ^ 64) ([] : Bytes)).length
        ((rfc6962 tabulatedSha256).treeHash ((List.replicate (2 ^ 64) []).take 3)).hex
        ((rfc6962 tabulatedSha256).treeHash (List.replicate (2 ^ 64) [])).hex
        (((rfc6962 tabulatedSha256).consistencyProof 3 (List.replicate (2 ^ 64) [])).map
          Digest.hex) =
      .error .transparencyConsistencyProofRequired := by
  have counted : (List.replicate (2 ^ 64) ([] : Bytes)).length = 2 ^ 64 := List.length_replicate
  have long := length_consistencyProof_two_pow tabulatedSha256 (show 3 % 2 = 1 by rfl) (by decide)
    (by rw [counted]; decide) counted
  rw [verifyConsistency, if_pos (Or.inr (Or.inr (Or.inr ?_)))]
  rw [List.length_map, long]
  decide

/-! ## Accepted proofs -/

/-- **The loop can only climb from equal prefixes.** If it ends at the roots of an
old and a new level, it started from their digests at the old level's last
position, and before that position the levels agree. -/
theorem consistencyLoop_sound {known : Set Bytes} {pairs : Set (Digest × Digest)}
    (binding : (rfc6962 sha256).Binding known pairs) {old new : List Digest} {first : Nat}
    {proof : List Digest} {firstHash secondHash : Digest} (oldEnds : old.length = first + 1)
    (inside : first < new.length)
    (oldHashed : ∀ pair ∈ (rfc6962 sha256).hashed.nodePairs old, pair ∈ pairs)
    (newHashed : ∀ pair ∈ (rfc6962 sha256).hashed.nodePairs new, pair ∈ pairs)
    (verified : ∀ pair ∈ consistencyPairs sha256 proof first (new.length - 1) firstHash
      secondHash, pair ∈ pairs)
    (accepted : consistencyLoop sha256 proof first (new.length - 1) firstHash secondHash =
      .ok (0, (rfc6962 sha256).hashed.treeHash old, (rfc6962 sha256).hashed.treeHash new)) :
    old[first]? = some firstHash ∧ new[first]? = some secondHash ∧
      ∀ position < first, old[position]? = new[position]? := by
  induction counted : new.length using Nat.strong_induction_on
    generalizing old new first proof firstHash secondHash with
  | h count ih =>
      subst counted
      by_cases several : 2 ≤ new.length
      · have above : ∀ {proof : List Digest} {firstAbove secondAbove : Digest},
            (∀ pair ∈ consistencyPairs sha256 proof (first / 2) ((new.length - 1) / 2) firstAbove
              secondAbove, pair ∈ pairs) →
            consistencyLoop sha256 proof (first / 2) ((new.length - 1) / 2) firstAbove
                secondAbove =
              .ok (0, (rfc6962 sha256).hashed.treeHash old,
                (rfc6962 sha256).hashed.treeHash new) →
            (pairUp (rfc6962 sha256).node old)[first / 2]? = some firstAbove ∧
              (pairUp (rfc6962 sha256).node new)[first / 2]? = some secondAbove ∧
              ∀ position < 2 * (first / 2), old[position]? = new[position]? := by
          intro proof firstAbove secondAbove verifiedAbove run
          rw [← length_pairUp_sub_one (rfc6962 sha256).node (by omega)] at verifiedAbove run
          rw [← treeHash_pairUp (rfc6962 sha256) old, ← treeHash_pairUp (rfc6962 sha256) new] at run
          obtain ⟨atOld, atNew, agree⟩ := ih _ (by rw [length_pairUp]; omega)
            (by rw [length_pairUp]; omega) (by rw [length_pairUp]; omega)
            (fun pair member => oldHashed _ (nodePairs_pairUp (rfc6962 sha256) old member))
            (fun pair member => newHashed _ (nodePairs_pairUp (rfc6962 sha256) new member))
            verifiedAbove run rfl
          refine ⟨atOld, atNew, binding.prefix_of_pairUp (by omega) (by omega) (by omega) oldHashed
            newHashed fun position below => agree position (by omega)⟩
        cases proof with
        | nil =>
            rw [consistencyLoop, Except.ok.injEq, Prod.mk.injEq] at accepted
            omega
        | cons sibling rest =>
            by_cases odd : first % 2 = 1
            · rw [consistencyLoop_odd sha256 _ _ _ _ (by omega) odd] at accepted
              rw [consistencyPairs_odd sha256 _ _ _ _ (by omega) odd, List.forall_mem_cons,
                List.forall_mem_cons] at verified
              obtain ⟨oldPair, newPair, verifiedAbove⟩ := verified
              obtain ⟨oldAbove, newAbove, agree⟩ := above verifiedAbove accepted
              obtain ⟨oldLeft, atOld⟩ :=
                binding.pair_of_odd (by omega) odd oldHashed oldPair oldAbove
              obtain ⟨newLeft, atNew⟩ := binding.pair_of_odd inside odd newHashed newPair newAbove
              refine ⟨atOld, atNew, fun position below => ?_⟩
              rcases Nat.lt_or_ge position (2 * (first / 2)) with lower | upper
              · exact agree position lower
              · rw [show position = first - 1 by omega, oldLeft, newLeft]
            · have even : first % 2 = 0 := by omega
              have carried :=
                getElem?_of_pairUp_last (rfc6962 sha256).node oldEnds.symm even
              by_cases last : first = new.length - 1
              · rw [consistencyLoop_last sha256 _ _ _ _ (by omega) even last] at accepted
                rw [consistencyPairs_last sha256 _ _ _ _ (by omega) even last] at verified
                obtain ⟨oldAbove, newAbove, agree⟩ := above verified accepted
                have carriedNew := getElem?_of_pairUp_last (rfc6962 sha256).node
                  (show first + 1 = new.length by omega) even
                exact ⟨carried ▸ oldAbove, carriedNew ▸ newAbove,
                  fun position below => agree position (by omega)⟩
              · rw [consistencyLoop_even sha256 _ _ _ _ (by omega) even last] at accepted
                rw [consistencyPairs_even sha256 _ _ _ _ (by omega) even last,
                  List.forall_mem_cons] at verified
                obtain ⟨newPair, verifiedAbove⟩ := verified
                obtain ⟨oldAbove, newAbove, agree⟩ := above verifiedAbove accepted
                exact ⟨carried ▸ oldAbove,
                  (binding.pair_of_even (by omega) even newHashed newPair newAbove).1,
                  fun position below => agree position (by omega)⟩
      · have none : first = 0 := by omega
        subst none
        obtain ⟨oldDigest, rfl⟩ := List.length_eq_one_iff.mp oldEnds
        obtain ⟨newDigest, rfl⟩ := List.length_eq_one_iff.mp (show new.length = 1 by omega)
        cases proof with
        | nil =>
            simp only [consistencyLoop, HashScheme.treeHash_singleton, HashScheme.hashed, id_eq,
              Except.ok.injEq, Prod.mk.injEq] at accepted
            simp [accepted.2]
        | cons sibling rest => simp [consistencyLoop] at accepted

/-- The pairs `_verify_consistency` hashes. -/
def consistencyRootPairs (oldSize newSize : Nat) (old : Digest) (proof : List Digest) :
    List (Digest × Digest) :=
  match consistencyStart oldSize newSize old proof with
  | none => []
  | some (rest, first, second, start) => consistencyPairs sha256 rest first second start start

/-- The byte strings `_verify_consistency` hashes. -/
def consistencyInputs (oldSize newSize : Int) (oldRoot : String) (hashes : List String) :
    List Bytes :=
  match decodeDigest oldRoot, hashes.mapM decodeDigest with
  | some old, some proof =>
      (consistencyRootPairs sha256 oldSize.toNat newSize.toNat old proof).map nodeInput
  | _, _ => []

/-- A proof that leads to the roots of an old and a new level shows that they
agree on all of the old level. -/
theorem consistencyRoots_sound {known : Set Bytes} {pairs : Set (Digest × Digest)}
    (binding : (rfc6962 sha256).Binding known pairs) {old new : List Digest}
    {proof : List Digest} (nonempty : 0 < old.length) (shorter : old.length < new.length)
    (oldHashed : ∀ pair ∈ (rfc6962 sha256).hashed.nodePairs old, pair ∈ pairs)
    (newHashed : ∀ pair ∈ (rfc6962 sha256).hashed.nodePairs new, pair ∈ pairs)
    (verified : ∀ pair ∈ consistencyRootPairs sha256 old.length new.length
      ((rfc6962 sha256).hashed.treeHash old) proof, pair ∈ pairs)
    (accepted : consistencyRoots sha256 old.length new.length
        ((rfc6962 sha256).hashed.treeHash old) proof =
      .ok (0, (rfc6962 sha256).hashed.treeHash old, (rfc6962 sha256).hashed.treeHash new)) :
    ∀ position < old.length, old[position]? = new[position]? := by
  induction counted : old.length using Nat.strong_induction_on generalizing old new with
  | h count ih =>
      subst counted
      by_cases even : old.length % 2 = 0
      · rw [consistencyRoots, consistencyStart_of_even nonempty even, ← consistencyRoots,
          ← length_pairUp (rfc6962 sha256).node new,
          show old.length / 2 = (pairUp (rfc6962 sha256).node old).length by
            rw [length_pairUp]; omega,
          ← treeHash_pairUp (rfc6962 sha256) old, ← treeHash_pairUp (rfc6962 sha256) new]
          at accepted
        rw [consistencyRootPairs, consistencyStart_of_even nonempty even, ← consistencyRootPairs,
          ← length_pairUp (rfc6962 sha256).node new,
          show old.length / 2 = (pairUp (rfc6962 sha256).node old).length by
            rw [length_pairUp]; omega,
          ← treeHash_pairUp (rfc6962 sha256) old] at verified
        have agree := ih _ (by rw [length_pairUp]; omega) (by rw [length_pairUp]; omega)
          (by rw [length_pairUp, length_pairUp]; omega)
          (fun pair member => oldHashed _ (nodePairs_pairUp (rfc6962 sha256) old member))
          (fun pair member => newHashed _ (nodePairs_pairUp (rfc6962 sha256) new member))
          verified accepted rfl
        exact binding.prefix_of_pairUp even le_rfl shorter.le oldHashed newHashed
          fun position below => agree position (by rw [length_pairUp]; omega)
      · -- The climb starts with one digest for both levels.
        have climb : ∀ {rest : List Digest} {start : Digest},
            consistencyStart old.length new.length ((rfc6962 sha256).hashed.treeHash old) proof =
              some (rest, old.length - 1, new.length - 1, start) →
            ∀ position < old.length, old[position]? = new[position]? := by
          intro rest start starts
          rw [consistencyRoots, starts] at accepted
          rw [consistencyRootPairs, starts] at verified
          obtain ⟨atOld, atNew, agree⟩ := consistencyLoop_sound sha256 binding (by omega)
            (by omega) oldHashed newHashed verified accepted
          intro position below
          rcases Nat.lt_or_ge position (old.length - 1) with lower | upper
          · exact agree position lower
          · rw [show position = old.length - 1 by omega, atOld, atNew]
        by_cases one : old.length = 1
        · exact climb (by rw [one, consistencyStart_of_one])
        · cases proof with
          | nil =>
              rw [consistencyRoots, consistencyStart_nil one (by omega)] at accepted
              cases accepted
          | cons start rest => exact climb (consistencyStart_of_odd one (by omega) _ _ start rest)

/-- What an accepted consistency proof has passed. -/
theorem verifyConsistency_eq_ok {oldSize newSize : Int} {oldRoot newRoot : String}
    {hashes : List String}
    (accepted : verifyConsistency sha256 oldSize newSize oldRoot newRoot hashes = .ok ()) :
    ∃ old new proof, decodeDigest oldRoot = some old ∧ decodeDigest newRoot = some new ∧
      hashes.mapM decodeDigest = some proof ∧
      consistencyRoots sha256 oldSize.toNat newSize.toNat old proof = .ok (0, old, new) := by
  unfold verifyConsistency at accepted
  split at accepted
  · cases accepted
  · split at accepted
    · rename_i old new proof oldDecoded newDecoded proofDecoded
      refine ⟨old, new, proof, oldDecoded, newDecoded, proofDecoded, ?_⟩
      cases run : consistencyRoots sha256 oldSize.toNat newSize.toNat old proof with
      | error error =>
          rw [run] at accepted
          cases accepted
      | ok result =>
          obtain ⟨second, firstHash, secondHash⟩ := result
          rw [run] at accepted
          simp only [bind, Except.bind] at accepted
          split at accepted
          · cases accepted
          · rename_i finished
            simp only [not_or, not_not] at finished
            obtain ⟨rfl, rfl, rfl⟩ := finished
            rfl
    · cases accepted

/-- **The old log is the beginning of the new one.** Without a collision among the
byte strings hashed in the trees of both logs and by the verification, a proof
that is accepted between their roots shows that the old log consists of the first
entries of the new one. -/
theorem verifyConsistency_sound (old new : List Bytes) (hashes : List String)
    (nonempty : 0 < old.length) (shorter : old.length < new.length)
    (collisionFree : Set.InjOn sha256 {input | input ∈ treeInputs sha256 old ++
      treeInputs sha256 new ++ consistencyInputs sha256 old.length new.length
        ((rfc6962 sha256).treeHash old).hex hashes})
    (accepted : verifyConsistency sha256 old.length new.length
        ((rfc6962 sha256).treeHash old).hex ((rfc6962 sha256).treeHash new).hex hashes = .ok ()) :
    old = new.take old.length := by
  have binding := rfc6962_binding sha256 collisionFree
  obtain ⟨oldRoot, newRoot, proof, oldDecoded, newDecoded, proofDecoded, run⟩ :=
    verifyConsistency_eq_ok sha256 accepted
  rw [decodeDigest_hex, Option.some.injEq] at oldDecoded newDecoded
  subst oldDecoded newDecoded
  let oldDigests := old.map (leafHash sha256)
  let newDigests := new.map (leafHash sha256)
  have oldCounted : oldDigests.length = old.length := List.length_map _
  have newCounted : newDigests.length = new.length := List.length_map _
  have oldRoot : (rfc6962 sha256).treeHash old = (rfc6962 sha256).hashed.treeHash oldDigests :=
    ((rfc6962 sha256).treeHash_hashed old).symm
  have newRoot : (rfc6962 sha256).treeHash new = (rfc6962 sha256).hashed.treeHash newDigests :=
    ((rfc6962 sha256).treeHash_hashed new).symm
  have agree : ∀ position < oldDigests.length, oldDigests[position]? = newDigests[position]? := by
    rw [oldRoot, newRoot, Int.toNat_natCast, Int.toNat_natCast, ← oldCounted, ← newCounted] at run
    refine consistencyRoots_sound sha256 binding (by omega) (by omega) ?_ ?_ ?_ run
    · intro pair member
      rw [show oldDigests = old.map (rfc6962 sha256).leaf from rfl,
        HashScheme.nodePairs_hashed] at member
      exact List.mem_append_left _ (List.mem_append_left _ (List.mem_append_right _
        (List.mem_map_of_mem member)))
    · intro pair member
      rw [show newDigests = new.map (rfc6962 sha256).leaf from rfl,
        HashScheme.nodePairs_hashed] at member
      exact List.mem_append_left _ (List.mem_append_right _ (List.mem_append_right _
        (List.mem_map_of_mem member)))
    · intro pair member
      refine List.mem_append_right _ ?_
      rw [consistencyInputs, decodeDigest_hex, proofDecoded]
      refine List.mem_map_of_mem ?_
      rwa [Int.toNat_natCast, Int.toNat_natCast, oldRoot, ← oldCounted, ← newCounted]
  refine List.ext_getElem? fun position => ?_
  by_cases inside : position < old.length
  · have same := agree position (by omega)
    have inNew : position < new.length := by omega
    rw [List.getElem?_map, List.getElem?_map, List.getElem?_eq_getElem inside,
      List.getElem?_eq_getElem inNew, Option.map_some, Option.map_some, Option.some.injEq] at same
    have equal := binding.leaf_injective
      _ (List.mem_append_left _ (List.mem_append_left _ (List.mem_append_left _
        (List.mem_map_of_mem (List.getElem_mem inside)))))
      _ (List.mem_append_left _ (List.mem_append_right _ (List.mem_append_left _
        (List.mem_map_of_mem (List.getElem_mem inNew))))) same
    rw [List.getElem?_take_of_lt inside, List.getElem?_eq_getElem inside,
      List.getElem?_eq_getElem inNew, equal]
  · rw [List.getElem?_eq_none (by omega), List.getElem?_eq_none (by
      rw [List.length_take]; omega)]

/-- The leaf of the second entry proves that the first one was kept. -/
theorem verifyConsistency_sound_two : ([[0x61]] : List Bytes) = [[0x61], [0x62]].take 1 := by
  refine verifyConsistency_sound tabulatedSha256 [[0x61]] [[0x61], [0x62]] [leafDigestB.hex]
    (by decide) (by decide) ?_ ?_
  · have hashed : treeInputs tabulatedSha256 [[0x61]] ++
        treeInputs tabulatedSha256 [[0x61], [0x62]] ++
        consistencyInputs tabulatedSha256 1 2
          ((rfc6962 tabulatedSha256).treeHash [[0x61]]).hex [leafDigestB.hex] =
      [leafInput [0x61], leafInput [0x61], leafInput [0x62],
        nodeInput (leafDigestA, leafDigestB), nodeInput (leafDigestA, leafDigestB)] := by
      rw [treeInputs, treeInputs, HashScheme.nodePairs_pair, HashScheme.nodePairs_small _ (by decide),
        HashScheme.treeHash_singleton, consistencyInputs, decodeDigest_hex]
      simp [consistencyRootPairs, consistencyStart_of_one, List.mapM_cons, consistencyPairs]
      decide
    have injective : ∀ first ∈ [leafInput [0x61], leafInput [0x61], leafInput [0x62],
          nodeInput (leafDigestA, leafDigestB), nodeInput (leafDigestA, leafDigestB)],
        ∀ second ∈ [leafInput [0x61], leafInput [0x61], leafInput [0x62],
          nodeInput (leafDigestA, leafDigestB), nodeInput (leafDigestA, leafDigestB)],
        tabulatedSha256 first = tabulatedSha256 second → first = second := by decide
    rw [show (([[0x61], [0x62]] : List Bytes).length : Int) = 2 from rfl,
      show (([[0x61]] : List Bytes).length : Int) = 1 from rfl, hashed]
    exact fun first firstIn second secondIn same => injective first firstIn second secondIn same
  · rw [HashScheme.treeHash_pair, HashScheme.treeHash_singleton, verifyConsistency,
      if_neg (by decide), decodeDigest_hex, decodeDigest_hex]
    simp [consistencyRoots, consistencyStart_of_one, List.mapM_cons, consistencyLoop, bind,
      Except.bind]
    decide

end CapabilityHub.SupplyChain
