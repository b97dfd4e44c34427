import CapabilityHub.Data.JsonText

/-! # Metering

The canonical text of a value, which reads back as the value with its members in order
(`CapabilityHub.loads_canonicalJson`), and the estimate of the tokens of a text.
-/

namespace CapabilityHub

mutual

/-- The value with the members of each object in the order of their keys. -/
def Json.sorted : Json → Json
  | .arr items => .arr (sortedItems items)
  | .obj fields => .obj ((sortedFields fields).insertionSort fun first second => first.1 ≤ second.1)
  | .null => .null
  | .bool value => .bool value
  | .int value => .int value
  | .str text => .str text

def sortedItems : List Json → List Json
  | [] => []
  | item :: rest => item.sorted :: sortedItems rest

def sortedFields : List (String × Json) → List (String × Json)
  | [] => []
  | (key, value) :: rest => (key, value.sorted) :: sortedFields rest

end

/-- `canonical_json`. -/
def canonicalJson (value : Json) : String := String.ofList (value.sorted.render escapeRaw)

/-- `sys.int_info.default_max_str_digits` -/
def maxStrDigits : Nat := 4300

mutual

/-- Whether `str` takes every integer of a value. -/
def Json.printable : Json → Bool
  | .int value => value.natAbs < 10 ^ maxStrDigits
  | .arr items => printableItems items
  | .obj fields => printableFields fields
  | _ => true

def printableItems : List Json → Bool
  | [] => true
  | item :: rest => item.printable && printableItems rest

def printableFields : List (String × Json) → Bool
  | [] => true
  | (_, value) :: rest => value.printable && printableFields rest

end

/-- `text.replace("\r\n", "\n")`. -/
def joinLineEnds : List Char → List Char
  | [] => []
  | '\r' :: '\n' :: rest => '\n' :: joinLineEnds rest
  | char :: rest => char :: joinLineEnds rest

/-- `Utf8Div4Estimator.count`. -/
def countTokens (chars : List Char) : Nat :=
  ((encodeUtf8 (String.ofList (joinLineEnds chars))).length + 3) / 4

structure PayloadMeasurement where
  utf8Bytes : Nat
  portableTokens : Nat
  deriving DecidableEq

/-- `measure_text` with the estimator it selects itself. -/
def measureText (text : String) : PayloadMeasurement :=
  let normalized := joinLineEnds text.toList
  ⟨(encodeUtf8 (String.ofList normalized)).length, countTokens normalized⟩

/-! ## Canonical texts read back -/

variable {fields fields' : List (String × Json)} {value other : Json}

theorem distinctFields_iff : DistinctFields fields ↔ ∀ field ∈ fields, field.2.Distinct := by
  induction fields with
  | nil => simp [DistinctFields]
  | cons field fields ih =>
      obtain ⟨key, value⟩ := field
      simp only [DistinctFields, List.mem_cons, forall_eq_or_imp, ih]

theorem DistinctFields.perm (same : fields.Perm fields') (distinct : DistinctFields fields) :
    DistinctFields fields' := by
  rw [distinctFields_iff] at distinct ⊢
  exact fun field member => distinct field (same.mem_iff.mpr member)

theorem keys_sortedFields : ∀ fields, (sortedFields fields).map Prod.fst = fields.map Prod.fst
  | [] => rfl
  | (key, value) :: rest => by
      rw [sortedFields, List.map_cons, List.map_cons, keys_sortedFields rest]

mutual

theorem Json.Distinct.sorted : ∀ {value : Json}, value.Distinct → value.sorted.Distinct
  | .arr items, distinct => by
      rw [Json.Distinct] at distinct
      rw [Json.sorted, Json.Distinct]
      exact DistinctItems.sorted distinct
  | .obj fields, distinct => by
      rw [Json.Distinct] at distinct
      have ordered := List.perm_insertionSort (fun first second : String × Json => first.1 ≤ second.1)
        (sortedFields fields)
      rw [Json.sorted, Json.Distinct, (ordered.map Prod.fst).nodup_iff, keys_sortedFields]
      exact ⟨distinct.1, (DistinctFields.sorted distinct.2).perm ordered.symm⟩
  | .null, _ => trivial
  | .bool _, _ => trivial
  | .int _, _ => trivial
  | .str _, _ => trivial

theorem DistinctItems.sorted : ∀ {items : List Json}, DistinctItems items →
    DistinctItems (sortedItems items)
  | [], _ => trivial
  | item :: rest, distinct => by
      rw [DistinctItems] at distinct
      exact ⟨distinct.1.sorted, DistinctItems.sorted distinct.2⟩

theorem DistinctFields.sorted : ∀ {fields : List (String × Json)}, DistinctFields fields →
    DistinctFields (sortedFields fields)
  | [], _ => trivial
  | (key, value) :: rest, distinct => by
      rw [DistinctFields] at distinct
      exact ⟨distinct.1.sorted, DistinctFields.sorted distinct.2⟩

end

theorem loads_canonicalJson (distinct : value.Distinct) :
    loads (canonicalJson value).toList = some value.sorted := by
  rw [canonicalJson, String.toList_ofList]
  exact loads_render legible_escapeRaw _ distinct.sorted

theorem canonicalJson_ne_empty (value : Json) : canonicalJson value ≠ "" := by
  intro empty
  rcases @head_render escapeRaw value.sorted with ⟨first, rest, written, _⟩
  have letters := congrArg String.toList empty
  rw [canonicalJson, String.toList_ofList, written] at letters
  cases letters

/-- Values with the same canonical text differ only in the order of their members. -/
theorem sorted_of_canonicalJson (distinct : value.Distinct) (distinct' : other.Distinct)
    (same : canonicalJson value = canonicalJson other) : value.sorted = other.sorted := by
  apply Option.some.inj
  rw [← loads_canonicalJson distinct, ← loads_canonicalJson distinct', same]

end CapabilityHub
