import CapabilityHub.Budget.Amounts
import CapabilityHub.Database.Integer

/-! # Rows of the two stores

What the statements of the two stores do to the row of a counter, which is missing until
the counter is first charged, and the states of a reservation row.
-/

namespace CapabilityHub.Budget

/-- `status` of a reservation row. -/
inductive Status where
  | active
  | reconciled
  | cancelled
  deriving DecidableEq, Repr

variable {integer : SqlInteger} {reserved charged : Amounts}

/-- The row that `INSERT … ON CONFLICT … DO UPDATE SET reserved = reserved + …` leaves. -/
def addedRow (integer : SqlInteger) (amount : Nat) : Option Charge → Charge
  | none => ⟨0, amount⟩
  | some row => ⟨row.used, integer.add row.reserved amount⟩

/-- `set(reserved) | set(charged)`, in one of its orders. -/
def unionKeys (reserved charged : Amounts) : List String :=
  reserved.keys ++ charged.keys.filter (· ∉ reserved.keys)

theorem unionKeys_nodup (reserved charged : Amounts) : (unionKeys reserved charged).Nodup := by
  apply List.nodup_append.mpr
  refine ⟨reserved.keys_nodup, charged.keys_nodup.filter _, ?_⟩
  rintro name held other new rfl
  exact of_decide_eq_true (List.mem_filter.mp new).2 held

theorem mem_unionKeys {name : String} :
    name ∈ unionKeys reserved charged ↔ name ∈ reserved.keys ∨ name ∈ charged.keys := by
  rw [unionKeys, List.mem_append, List.mem_filter]
  by_cases held : name ∈ reserved.keys <;> simp [held]

/-- The row that replacing what is reserved of a counter by a charge leaves. -/
def finishedRow (reserved charged : Amounts) (name : String) (row : Option Charge) : Charge :=
  ⟨(row.getD ⟨0, 0⟩).used + charged.getD name 0, (row.getD ⟨0, 0⟩).reserved - reserved.getD name 0⟩

/-- When replacing what is reserved of a counter by a charge succeeds. -/
def FinishAdmits (integer : SqlInteger) (reserved charged : Amounts) (name : String)
    (row : Option Charge) : Prop :=
  reserved.getD name 0 ≤ (row.getD ⟨0, 0⟩).reserved ∧
    integer.Fits (finishedRow reserved charged name row).used ∧
      integer.Fits (finishedRow reserved charged name row).reserved

/-- The row an exact addition leaves. -/
theorem addedRow_eq {amount : Nat} {row : Option Charge}
    (fits : integer.Fits ((row.getD ⟨0, 0⟩).reserved + amount)) :
    addedRow integer amount row =
      ⟨(row.getD ⟨0, 0⟩).used, (row.getD ⟨0, 0⟩).reserved + amount⟩ := by
  cases row with
  | none => simp [addedRow]
  | some row =>
      have total : integer.add row.reserved amount = row.reserved + amount :=
        integer.add_eq _ _ fits
      rw [addedRow, Option.getD_some, total]

end CapabilityHub.Budget
