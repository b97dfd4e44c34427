import CapabilityHub.Data.Checks
import CapabilityHub.Data.Dict

/-! # Amounts and hard limits

What the three budget implementations share: `_validate_amounts`, the capacity check of
one scope and the snapshot of one scope. A caller's mapping may hold anything; what
`_validate_amounts` returns maps non-empty counter names to non-negative integers.
-/

namespace CapabilityHub.Budget

/-- A category of `CapabilityHubError` that the budgets use. -/
inductive ErrorCategory where
  | reference
  | budget
  | conflict
  | internal
  deriving DecidableEq, Repr

/-- What a budget operation raises. -/
inductive BudgetError where
  | valueError (message : String)
  /-- `ValueError`: `label[counter] must be a non-negative integer`. -/
  | invalidAmount (label counter : String)
  | budgetExceeded (scope counter : String) (limit : Nat) (requestedTotal : Int)
  | hierarchicalBudgetError (code message : String) (category : ErrorCategory)
  | runtimeError (message : String)
  /-- `RuntimeError`: `negative reserved budget for counter`. -/
  | negativeReserved (counter : String)
  /-- `KeyError`: `unknown budget scope: scope`. -/
  | unknownScope (scope : String)
  /-- The caller holds no reservation of this name. -/
  | noReservation (reservationId : String)
  | unicodeEncodeError
  | integrityError
  | overflowError
  deriving DecidableEq, Repr

/-- A key of a caller's mapping. -/
inductive RawKey where
  | str (name : String)
  | other
  deriving DecidableEq, Repr

/-- A value of a caller's mapping. A `bool` is an `int` to Python and is refused. -/
inductive RawValue where
  | int (value : Int)
  | bool (value : Bool)
  | other
  deriving DecidableEq, Repr

/-- The items of a caller's mapping, in its order. -/
abbrev RawAmounts : Type := List (RawKey × RawValue)

/-- A `dict[str, int]` without negative values. -/
abbrev Amounts : Type := Dict String Nat

/-- The checks of one turn of the loop of `_validate_amounts`. -/
def validateItem (label : String) : RawKey × RawValue → Except BudgetError (String × Nat)
  | (.other, _) => .error (.valueError (label ++ " counter names must be non-empty strings"))
  | (.str counter, value) => do
      raiseIf (counter = "") (.valueError (label ++ " counter names must be non-empty strings"))
      match value with
      | .int value =>
          raiseIf (value < 0) (.invalidAmount label counter)
          pure (counter, value.toNat)
      | _ => .error (.invalidAmount label counter)

theorem getD_of_notMem {amounts : Amounts} {name : String} (absent : name ∉ amounts.keys) :
    amounts.getD name 0 = 0 := by
  rw [Dict.getD, Dict.get?_eq_none_iff.mpr absent]
  rfl

/-- One turn of the loop of `_validate_amounts`. -/
def normalizeItem (label : String) (dropZero : Bool) (normalized : Amounts)
    (item : RawKey × RawValue) : Except BudgetError Amounts := do
  let entry ← validateItem label item
  pure (if entry.2 ≠ 0 ∨ ¬dropZero then normalized.set entry.1 entry.2 else normalized)

/-- `_validate_amounts`. -/
def validateAmounts (amounts : RawAmounts) (label : String) (dropZero : Bool) :
    Except BudgetError Amounts :=
  amounts.foldlM (normalizeItem label dropZero) ∅

/-- Non-empty names and positive values: what is left when zeros are dropped. -/
def Positive (amounts : Amounts) : Prop :=
  ∀ counter value, amounts.get? counter = some value → counter ≠ "" ∧ 0 < value

theorem validateItem_eq_ok {label : String} {item : RawKey × RawValue} {counter : String}
    {value : Nat} : validateItem label item = .ok (counter, value) ↔
      item = (.str counter, .int value) ∧ counter ≠ "" := by
  obtain ⟨key, raw⟩ := item
  cases key with
  | other => simp [validateItem]
  | str name =>
      cases raw with
      | bool raw => simp [validateItem, bind_eq_ok]
      | other => simp [validateItem, bind_eq_ok]
      | int raw =>
          simp only [validateItem, bind_eq_ok, exists_unit, raiseIf_eq_ok, pure_eq_ok,
            Prod.mk.injEq, RawKey.str.injEq, RawValue.int.injEq]
          constructor
          · rintro ⟨named, notNegative, rfl, rfl⟩
            exact ⟨⟨rfl, by omega⟩, named⟩
          · rintro ⟨⟨rfl, rfl⟩, named⟩
            exact ⟨named, by omega, rfl, by omega⟩

/-- What dropping zeros leaves is positive. -/
theorem positive_of_validateAmounts {raw : RawAmounts} {label : String} {amounts : Amounts}
    (validated : validateAmounts raw label true = .ok amounts) : Positive amounts := by
  rw [validateAmounts] at validated
  have start : Positive ∅ := fun _ _ found => by simp at found
  revert start validated
  generalize (∅ : Amounts) = normalized
  induction raw generalizing normalized with
  | nil =>
      intro validated start
      obtain rfl := pure_eq_ok.mp validated
      exact start
  | cons item raw ih =>
      intro validated start
      rw [List.foldlM_cons, bind_eq_ok] at validated
      obtain ⟨next, stepped, validated⟩ := validated
      obtain ⟨⟨counter, value⟩, valid, written⟩ := bind_eq_ok.mp stepped
      obtain ⟨_, named⟩ := validateItem_eq_ok.mp valid
      apply ih next validated
      obtain rfl := pure_eq_ok.mp written
      intro other amount found
      by_cases zero : value = 0
      · exact start other amount (by simpa [zero] using found)
      · simp only [zero, ne_eq, not_false_eq_true, true_or, ↓reduceIte, Dict.get?_set] at found
        by_cases same : other = counter
        · simp only [same, ↓reduceIte, Option.some.injEq] at found
          exact ⟨same ▸ named, by omega⟩
        · exact start other amount (by simpa [same] using found)

/-- Only the errors of validation name the label. -/
theorem validateAmounts_relabel {raw : RawAmounts} {label : String} {dropZero : Bool}
    {amounts : Amounts} (validated : validateAmounts raw label dropZero = .ok amounts)
    (other : String) : validateAmounts raw other dropZero = .ok amounts := by
  rw [validateAmounts] at validated ⊢
  revert validated
  generalize (∅ : Amounts) = normalized
  induction raw generalizing normalized with
  | nil => exact id
  | cons item raw ih =>
      intro validated
      rw [List.foldlM_cons, bind_eq_ok] at validated ⊢
      obtain ⟨next, stepped, validated⟩ := validated
      obtain ⟨entry, valid, written⟩ := bind_eq_ok.mp stepped
      have relabelled : validateItem other item = .ok entry :=
        validateItem_eq_ok.mpr (validateItem_eq_ok.mp valid)
      exact ⟨next, bind_eq_ok.mpr ⟨entry, relabelled, written⟩, ih next validated⟩

/-- The items of a validated mapping, as a caller may pass them on. -/
def rawItems (amounts : Amounts) : RawAmounts :=
  amounts.entries.map fun entry => (.str entry.1, .int entry.2)

/-- Validation changes nothing about a mapping that it accepts and keeps whole. -/
theorem validateAmounts_rawItems {amounts : Amounts} {label : String} {dropZero : Bool}
    (valid : ∀ counter value, amounts.get? counter = some value →
      counter ≠ "" ∧ (dropZero = true → 0 < value)) :
    validateAmounts (rawItems amounts) label dropZero = .ok amounts := by
  suffices written : ∀ (rest : List (String × Nat)) (normalized : Amounts),
      (∀ entry ∈ rest, entry.1 ≠ "" ∧ (dropZero = true → 0 < entry.2)) →
      ((normalized.entries ++ rest).map Prod.fst).Nodup →
      ∃ final : Amounts, (rest.map fun entry => (RawKey.str entry.1, RawValue.int entry.2)).foldlM
        (normalizeItem label dropZero) normalized = .ok final ∧
          final.entries = normalized.entries ++ rest by
    have entry_valid : ∀ entry ∈ amounts.entries,
        entry.1 ≠ "" ∧ (dropZero = true → 0 < entry.2) := fun entry member =>
      valid entry.1 entry.2 (Dict.mem_entries_iff.mp member)
    obtain ⟨final, validated, entries⟩ := written amounts.entries ∅ entry_valid amounts.nodup
    rw [validateAmounts, rawItems, validated, Dict.ext_entries entries]
  intro rest
  induction rest with
  | nil => exact fun normalized _ _ => ⟨normalized, rfl, (List.append_nil _).symm⟩
  | cons entry rest ih =>
      intro normalized valid nodup
      obtain ⟨⟨named, positive⟩, valid⟩ := List.forall_mem_cons.mp valid
      have keep : entry.2 ≠ 0 ∨ ¬dropZero = true := by
        by_cases drop : dropZero = true
        · exact .inl (Nat.pos_iff_ne_zero.mp (positive drop))
        · exact .inr drop
      have item : normalizeItem label dropZero normalized (.str entry.1, .int entry.2) =
          .ok (normalized.set entry.1 entry.2) :=
        bind_eq_ok.mpr ⟨entry, validateItem_eq_ok.mpr ⟨rfl, named⟩, by rw [if_pos keep]; rfl⟩
      have fresh : entry.1 ∉ normalized.keys := by
        rw [List.map_append, List.nodup_append] at nodup
        exact fun member => nodup.2.2 entry.1 member entry.1 (by simp) rfl
      have entries := Dict.entries_set_of_notMem entry.2 fresh
      obtain ⟨final, validated, ended⟩ := ih (normalized.set entry.1 entry.2) valid
        (by rw [entries]; simpa using nodup)
      refine ⟨final, ?_, by rw [ended, entries, List.append_assoc]; rfl⟩
      rw [List.map_cons, List.foldlM_cons, item]
      exact validated

/-- `_encode_amounts`: the members of the stored JSON object, by name. -/
def encodeAmounts (amounts : Amounts) : RawAmounts :=
  rawItems (amounts.sorted fun first second => first ≤ second)

/-- `_decode_amounts`, up to what the two stores make of its errors. -/
def decodeAmounts (stored : RawAmounts) : Except BudgetError Amounts :=
  validateAmounts stored "stored amounts" true

/-- What was stored is read back, by name. -/
theorem decodeAmounts_encodeAmounts {amounts : Amounts} (positive : Positive amounts) :
    ∃ decoded, decodeAmounts (encodeAmounts amounts) = .ok decoded ∧
      ∀ counter, decoded.get? counter = amounts.get? counter :=
  ⟨_, validateAmounts_rawItems fun counter value found =>
      have valid := positive counter value (by simpa using found)
      ⟨valid.1, fun _ => valid.2⟩,
    fun _ => Dict.get?_sorted _⟩

/-! ## Capacity -/

/-- What is used and reserved of one counter at one scope. -/
structure Charge where
  used : Nat
  reserved : Nat
  deriving DecidableEq, Repr

/-- The total a request asks for where it replaces an earlier reservation. -/
def requestedTotal (charge : Charge) (replaced amount : Nat) : Int :=
  charge.used + charge.reserved - replaced + amount

/-- The checks of `_check_capacity` at one scope. -/
def checkScope (scope : String) (limits : String → Option Nat) (charges : String → Charge)
    (replaced amounts : Amounts) : Except BudgetError Unit :=
  forM amounts.entries fun entry =>
    match limits entry.1 with
    | none => .ok ()
    | some limit =>
        raiseIf (requestedTotal (charges entry.1) (replaced.getD entry.1 0) entry.2 > limit)
          (.budgetExceeded scope entry.1 limit
            (requestedTotal (charges entry.1) (replaced.getD entry.1 0) entry.2))

theorem checkScope_eq_ok {scope : String} {limits : String → Option Nat}
    {charges : String → Charge} {replaced amounts : Amounts} :
    checkScope scope limits charges replaced amounts = .ok () ↔
      ∀ counter amount limit, amounts.get? counter = some amount → limits counter = some limit →
        requestedTotal (charges counter) (replaced.getD counter 0) amount ≤ limit := by
  rw [checkScope, forM_eq_ok]
  constructor
  · intro checked counter amount limit requested limited
    have admitted := checked (counter, amount) (Dict.mem_entries_iff.mpr requested)
    simp only [limited, raiseIf_eq_ok] at admitted
    exact Int.not_lt.mp admitted
  · rintro checked ⟨counter, amount⟩ member
    cases limited : limits counter with
    | none => rfl
    | some limit =>
        rw [raiseIf_eq_ok]
        exact Int.not_lt.mpr
          (checked counter amount limit (Dict.mem_entries_iff.mp member) limited)

/-- The check looks amounts up, so the order of the replaced ones does not matter. -/
theorem checkScope_congr {scope : String} {limits : String → Option Nat}
    {charges : String → Charge} {replaced replaced' amounts : Amounts}
    (same : ∀ counter, replaced.get? counter = replaced'.get? counter) :
    checkScope scope limits charges replaced amounts =
      checkScope scope limits charges replaced' amounts := by
  rw [checkScope, checkScope]
  congr 1
  funext entry
  have total : replaced.getD entry.1 0 = replaced'.getD entry.1 0 := by
    rw [Dict.getD, Dict.getD, same]
  rw [total]

/-! ## Snapshots -/

/-- `BudgetSnapshot`. -/
structure BudgetSnapshot where
  scope : String
  limits : Amounts
  used : Amounts
  reserved : Amounts
  remaining : Amounts

/-- A snapshot of the counters `names`, which include the limited ones. -/
def snapshotOf (scope : String) (limits : Amounts) (names : List String)
    (charges : String → Charge) : BudgetSnapshot where
  scope := scope
  limits := limits
  used := Dict.tabulate names fun counter => (charges counter).used
  reserved := Dict.tabulate names fun counter => (charges counter).reserved
  remaining := Dict.tabulate limits.keys fun counter =>
    limits.getD counter 0 - (charges counter).used - (charges counter).reserved

/-- Two snapshots show the same limits and, a missing counter counting as zero, the same
use, reservations and remainders. -/
structure BudgetSnapshot.Agrees (first second : BudgetSnapshot) : Prop where
  limits : ∀ counter, first.limits.get? counter = second.limits.get? counter
  used : ∀ counter, first.used.getD counter 0 = second.used.getD counter 0
  reserved : ∀ counter, first.reserved.getD counter 0 = second.reserved.getD counter 0
  remaining : ∀ counter, first.remaining.get? counter = second.remaining.get? counter

theorem getD_tabulate {names : List String} {f : String → Nat} {counter : String}
    (zero : counter ∉ names → f counter = 0) :
    (Dict.tabulate names f).getD counter 0 = f counter := by
  rw [Dict.getD, Dict.get?_tabulate]
  by_cases member : counter ∈ names
  · simp [member]
  · simp [member, zero member]

/-- Two snapshots agree when the limits do and all charges, where a counter that is not
named has no charge. -/
theorem snapshotOf_agrees {scope scope' : String} {limits limits' : Amounts}
    {names names' : List String} {charges charges' : String → Charge}
    (same : ∀ counter, limits.get? counter = limits'.get? counter)
    (charged : ∀ counter, charges counter = charges' counter)
    (named : ∀ counter, counter ∉ names → charges counter = ⟨0, 0⟩)
    (named' : ∀ counter, counter ∉ names' → charges' counter = ⟨0, 0⟩) :
    (snapshotOf scope limits names charges).Agrees (snapshotOf scope' limits' names' charges') where
  limits := same
  used counter := by
    rw [snapshotOf, snapshotOf, getD_tabulate fun absent => by rw [named counter absent],
      getD_tabulate fun absent => by rw [named' counter absent], charged]
  reserved counter := by
    rw [snapshotOf, snapshotOf, getD_tabulate fun absent => by rw [named counter absent],
      getD_tabulate fun absent => by rw [named' counter absent], charged]
  remaining counter := by
    have keys : counter ∈ limits.keys ↔ counter ∈ limits'.keys := by
      rw [← Dict.get?_isSome_iff, ← Dict.get?_isSome_iff, same]
    simp only [snapshotOf, Dict.get?_tabulate, keys, Dict.getD, same, charged]

end CapabilityHub.Budget
