import Mathlib.Algebra.Group.Nat.Defs
import Mathlib.Data.Nat.Log
import Mathlib.Data.Nat.Size

/-! # The split point of a Merkle tree

A Merkle tree over `count` leaves, `2 ≤ count`, has a left subtree over the
largest power of two below `count` and a right subtree over the rest. Pairing
neighbours halves the number of leaves, rounding up, and halves the split point
with it (`CapabilityHub.Merkle.splitPoint_eq_double`); this is what makes a walk
from the leaves agree with the recursion from the root.
-/

namespace CapabilityHub.Merkle

/-- The largest power of two strictly below `count`, for `2 ≤ count`. -/
def splitPoint (count : Nat) : Nat := 2 ^ Nat.log 2 (count - 1)

theorem splitPoint_pos (count : Nat) : 0 < splitPoint count := Nat.two_pow_pos _

theorem splitPoint_lt {count : Nat} (several : 2 ≤ count) : splitPoint count < count := by
  have bound := Nat.pow_log_le_self 2 (show count - 1 ≠ 0 by omega)
  unfold splitPoint
  omega

/-- The split point of two leaves is one. -/
@[simp] theorem splitPoint_two : splitPoint 2 = 1 := rfl

/-- Pairing the leaves halves the split point. -/
theorem splitPoint_eq_double {count : Nat} (several : 3 ≤ count) :
    splitPoint count = 2 * splitPoint ((count + 1) / 2) := by
  have halved : (count + 1) / 2 - 1 = (count - 1) / 2 := by omega
  unfold splitPoint
  rw [halved, Nat.log_of_one_lt_of_le Nat.one_lt_two (by omega), Nat.pow_succ, Nat.mul_comm]

end CapabilityHub.Merkle
