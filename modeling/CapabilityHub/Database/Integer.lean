import CapabilityHub.Data.Checks
import Mathlib.Logic.Basic

/-! # The integers of a database

A database column holds integers of a limited range, and the programs over it use
integers of none. A value that does not fit cannot be bound to a statement, and a sum
that does not fit is no longer exact.
-/

namespace CapabilityHub

/-- **The non-negative integers of a column**: those that `Fits` holds of. -/
structure SqlInteger where
  Fits : Nat → Prop
  [decidable : DecidablePred Fits]
  /-- `column + excluded.column` inside a statement. -/
  add : Nat → Nat → Nat
  fits_zero : Fits 0
  fits_of_le : ∀ small large, small ≤ large → Fits large → Fits small
  add_eq : ∀ left right, Fits (left + right) → add left right = left + right

namespace SqlInteger

instance (integer : SqlInteger) : DecidablePred integer.Fits := integer.decidable

/-- Every integer fits. -/
def unbounded : SqlInteger where
  Fits := fun _ => True
  add := (· + ·)
  fits_zero := trivial
  fits_of_le := fun _ _ _ _ => trivial
  add_eq := fun _ _ _ => rfl

/-- Signed 64-bit integers. A sum that leaves them is stored as the floating-point number
`real`, which a reader converts back to an integer. -/
def signed64 (real : Nat → Nat) : SqlInteger where
  Fits := fun value => value < 9223372036854775808
  add := fun left right =>
    if left + right < 9223372036854775808 then left + right else real (left + right)
  fits_zero := Nat.zero_lt_succ _
  fits_of_le := fun _ _ below fits => Nat.lt_of_le_of_lt below fits
  add_eq := fun _ _ fits => if_pos fits

variable {ε : Type} (integer : SqlInteger)

/-- Bind an integer to a statement, which raises `overflow` when it does not fit. -/
def bind (overflow : ε) (value : Nat) : Except ε Unit :=
  raiseIf (¬integer.Fits value) overflow

theorem bind_eq_ok {overflow : ε} {value : Nat} :
    integer.bind overflow value = .ok () ↔ integer.Fits value := by
  simp [bind]

end SqlInteger

end CapabilityHub
