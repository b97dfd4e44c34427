import CapabilityHub.Data.Hex
import CapabilityHub.Merkle.Tree

/-! # Transparency proofs

The two proof checks of `supply_chain_bundle.py`: `_inclusion_root` folds the
sibling hashes of one log entry into a root, `_verify_consistency` folds one list
of hashes into the roots of an old and a new tree. SHA-256 is a parameter; proofs
and roots arrive as hexadecimal texts.
-/

namespace CapabilityHub.SupplyChain

open Merkle

/-- The codes of `SupplyChainError` that the bundle verifier raises. -/
inductive SupplyChainError where
  | transparencyCheckpointReplayed
  | transparencyLogFork
  | checkpointObserverUnavailable
  | checkpointObserverRequired
  | unsupportedLegacyAttestation
  | transparencyBundleRequired
  | transparencyBundleTooLarge
  | publisherNotTrusted
  | registryNotTrusted
  | artifactDigestMismatch
  | invalidCertificateChain
  | invalidCertificateProfile
  | certificateExpired
  | unsupportedCertificateKey
  | certificateRootNotTrusted
  | certificateRootScopeMismatch
  | invalidTrustRoot
  | certificateIdentityNotTrusted
  | invalidArtifactSignature
  | transparencyLogNotTrusted
  | transparencyLogKeyExpired
  | transparencyCheckpointNotYetValid
  | transparencyCheckpointStale
  | invalidTransparencyCheckpoint
  | invalidTransparencyInclusionProof
  | transparencyConsistencyProofRequired
  | invalidTransparencyConsistencyProof
  | onlineTransparencyCheckRequired
  | onlineTransparencyCheckFailed
  deriving DecidableEq, Repr

/-- A SHA-256 digest. -/
structure Digest where
  bytes : Bytes
  size_eq : bytes.length = 32
  deriving DecidableEq

def Digest.hex (digest : Digest) : String := CapabilityHub.hex digest.bytes

/-- A hexadecimal text of 32 bytes; `none` where `bytes.fromhex` raises or the
number of bytes is another. -/
def decodeDigest (encoded : String) : Option Digest :=
  (fromHex encoded).bind fun bytes =>
    if sized : bytes.length = 32 then some ⟨bytes, sized⟩ else none

@[simp] theorem decodeDigest_hex (digest : Digest) : decodeDigest digest.hex = some digest := by
  simp [decodeDigest, Digest.hex, fromHex_hex, digest.size_eq]

theorem mapM_decodeDigest_hex (digests : List Digest) :
    (digests.map Digest.hex).mapM decodeDigest = some digests := by
  induction digests with
  | nil => rfl
  | cons digest rest ih => simp [List.mapM_cons, ih]

theorem Digest.hex_injective : Function.Injective Digest.hex := by
  intro first second same
  have read := congrArg decodeDigest same
  rwa [decodeDigest_hex, decodeDigest_hex, Option.some.injEq] at read

variable (sha256 : Bytes → Digest)

/-- What is hashed for a log entry. -/
def leafInput (entry : Bytes) : Bytes := 0x00 :: entry

/-- What is hashed for a pair of subtrees. -/
def nodeInput (pair : Digest × Digest) : Bytes := 0x01 :: (pair.1.bytes ++ pair.2.bytes)

def leafHash (entry : Bytes) : Digest := sha256 (leafInput entry)

def nodeHash (left right : Digest) : Digest := sha256 (nodeInput (left, right))

/-- The hashing of RFC 6962. -/
def rfc6962 : HashScheme Bytes Digest where
  empty := sha256 []
  leaf := leafHash sha256
  node := nodeHash sha256

/-- The body of the loop of `_inclusion_root`: hash the sibling on the side the
position selects. -/
def inclusionPair (index last : Nat) (node sibling : Digest) : Digest × Digest :=
  if index % 2 = 1 ∨ index = last then (sibling, node) else (node, sibling)

/-- The loop of `_inclusion_root`: the last position left over and the root. -/
def inclusionLoop :
    List String → Nat → Nat → Digest → Except SupplyChainError (Nat × Digest)
  | [], _, last, node => .ok (last, node)
  | encoded :: hashes, index, last, node =>
      match decodeDigest encoded with
      | none => .error .invalidTransparencyInclusionProof
      | some sibling =>
          inclusionLoop hashes (index / 2) (last / 2)
            (sha256 (nodeInput (inclusionPair index last node sibling)))

/-- `_inclusion_root`. -/
def inclusionRoot (entry : Bytes) (leafIndex treeSize : Int) (hashes : List String) :
    Except SupplyChainError String :=
  if treeSize ≤ 0 ∨ leafIndex < 0 ∨ leafIndex ≥ treeSize ∨ hashes.length > 64 then
    .error .invalidTransparencyInclusionProof
  else do
    let (last, node) ←
      inclusionLoop sha256 hashes leafIndex.toNat (treeSize - 1).toNat (leafHash sha256 entry)
    if last ≠ 0 then .error .invalidTransparencyInclusionProof else .ok node.hex

/-- `while first & 1`, halving both positions. -/
def shiftWhileOdd (first second : Nat) : Nat × Nat :=
  if first % 2 = 1 then shiftWhileOdd (first / 2) (second / 2) else (first, second)
termination_by first
decreasing_by omega

/-- `while first != 0 and not first & 1`, halving both positions. -/
def shiftWhileEven (first second : Nat) : Nat × Nat :=
  if first ≠ 0 ∧ first % 2 = 0 then shiftWhileEven (first / 2) (second / 2) else (first, second)
termination_by first
decreasing_by omega

/-- The loop of `_verify_consistency`: the second position left over and the
roots of the old and the new tree. -/
def consistencyLoop :
    List Digest → Nat → Nat → Digest → Digest → Except SupplyChainError (Nat × Digest × Digest)
  | [], _, second, firstHash, secondHash => .ok (second, firstHash, secondHash)
  | sibling :: proof, first, second, firstHash, secondHash =>
      if second = 0 then .error .invalidTransparencyConsistencyProof
      else if first % 2 = 1 ∨ first = second then
        let shifted := shiftWhileEven first second
        consistencyLoop proof (shifted.1 / 2) (shifted.2 / 2) (nodeHash sha256 sibling firstHash)
          (nodeHash sha256 sibling secondHash)
      else
        consistencyLoop proof (first / 2) (second / 2) firstHash
          (nodeHash sha256 secondHash sibling)

/-- Where the loop of `_verify_consistency` starts: a power of two starts from the
old root, any other size from the first hash of the proof. -/
def consistencyStart (oldSize newSize : Nat) (old : Digest) (proof : List Digest) :
    Option (List Digest × Nat × Nat × Digest) :=
  let shifted := shiftWhileOdd (oldSize - 1) (newSize - 1)
  if shifted.1 = 0 then some (proof, shifted.1, shifted.2, old)
  else
    match proof with
    | [] => none
    | start :: rest => some (rest, shifted.1, shifted.2, start)

/-- The fold of `_verify_consistency` over decoded hashes. -/
def consistencyRoots (oldSize newSize : Nat) (old : Digest) (proof : List Digest) :
    Except SupplyChainError (Nat × Digest × Digest) :=
  match consistencyStart oldSize newSize old proof with
  | none => .error .transparencyConsistencyProofRequired
  | some (rest, first, second, start) => consistencyLoop sha256 rest first second start start

/-- `_verify_consistency`. -/
def verifyConsistency (oldSize newSize : Int) (oldRoot newRoot : String) (hashes : List String) :
    Except SupplyChainError Unit :=
  if oldSize ≤ 0 ∨ newSize ≤ oldSize ∨ hashes = [] ∨ hashes.length > 64 then
    .error .transparencyConsistencyProofRequired
  else
    match decodeDigest oldRoot, decodeDigest newRoot, hashes.mapM decodeDigest with
    | some old, some new, some proof => do
        let (second, firstHash, secondHash) ←
          consistencyRoots sha256 oldSize.toNat newSize.toNat old proof
        if second ≠ 0 ∨ firstHash ≠ old ∨ secondHash ≠ new then
          .error .invalidTransparencyConsistencyProof
        else .ok ()
    | _, _, _ => .error .invalidTransparencyConsistencyProof

end CapabilityHub.SupplyChain
