import CapabilityHub.Data.JsonLines
import CapabilityHub.Data.Settling
import CapabilityHub.Metering

/-! # Sizes of canonical texts

The number of bytes of a canonical text is the sum of the sizes of its parts, in whatever order the members
of its objects stand (`CapabilityHub.length_canonicalJson`).
-/

namespace CapabilityHub

/-- The number of bytes of some characters. -/
def charsSize : List Char → Nat
  | [] => 0
  | char :: rest => char.utf8Size + charsSize rest

/-- The number of bytes of a text in quotation marks. -/
def quotedSize (text : String) : Nat := charsSize (text.toList.flatMap escapeRaw) + 2

mutual

/-- The number of bytes of the canonical text of a value. -/
def Json.size : Json → Nat
  | .null => 4
  | .bool true => 4
  | .bool false => 5
  | .int value => charsSize (toString value).toList
  | .str text => quotedSize text
  | .arr items => itemsSize items - 1 + 2
  | .obj fields => fieldsSize fields - 1 + 2

/-- The number of bytes of values that are each followed by a comma. -/
def itemsSize : List Json → Nat
  | [] => 0
  | item :: rest => item.size + 1 + itemsSize rest

def fieldsSize : List (String × Json) → Nat
  | [] => 0
  | (key, value) :: rest => quotedSize key + 1 + value.size + 1 + fieldsSize rest

end

variable {first second : List Char} {parts : List (List Char)} {fields fields' : List (String × Json)}

theorem length_encodeUtf8 (text : String) : (encodeUtf8 text).length = text.utf8ByteSize := by
  rw [encodeUtf8, Array.length_toList]
  rfl

theorem utf8ByteSize_ofList (chars : List Char) : (String.ofList chars).utf8ByteSize = charsSize chars := by
  induction chars with
  | nil => rfl
  | cons char chars ih =>
      rw [String.ofList_cons, String.utf8ByteSize_append, String.utf8ByteSize_singleton, ih, charsSize]

theorem charsSize_append : charsSize (first ++ second) = charsSize first + charsSize second := by
  induction first with
  | nil => exact (Nat.zero_add _).symm
  | cons char first ih => rw [List.cons_append, charsSize, ih, charsSize, Nat.add_assoc]

/-- ASCII characters have one byte each. -/
theorem charsSize_ascii {chars : List Char} (ascii : ∀ char ∈ chars, char.toNat < 128) :
    charsSize chars = chars.length := by
  induction chars with
  | nil => rfl
  | cons char chars ih =>
      have here : char.utf8Size = 1 := by
        have small := ascii char List.mem_cons_self
        rw [Char.utf8Size_eq_one_iff, UInt32.le_iff_toNat_le]
        exact Nat.le_of_lt_succ small
      rw [charsSize, here, ih fun other member => ascii other (List.mem_cons_of_mem _ member),
        List.length_cons, Nat.add_comm]

theorem size_natCast (value : Nat) : (Json.int value).size = decimals value := by
  have ascii : ∀ char ∈ Nat.toDigits 10 value, char.toNat < 128 := by
    intro char member
    have digit := Nat.isDigit_of_mem_toDigits (by decide) (by decide) member
    exact (Char.isDigit_iff_toNat.mp digit).2.trans_lt (by decide)
  have written : (toString (value : Int)).toList = Nat.toDigits 10 value := by
    rw [toList_toString_int, if_pos (Int.natCast_nonneg value), Int.toNat_natCast]
  rw [Json.size, written]
  exact charsSize_ascii ascii

/-- The number of bytes of texts that are each followed by a comma. -/
def partsSize : List (List Char) → Nat
  | [] => 0
  | part :: rest => charsSize part + 1 + partsSize rest

theorem charsSize_intercalate : charsSize ([','].intercalate parts) = partsSize parts - 1 := by
  induction parts with
  | nil => rfl
  | cons part parts ih =>
      cases parts with
      | nil => 
          rw [List.intercalate_singleton, partsSize, partsSize]
          rfl
      | cons next parts =>
          have positive : 1 ≤ partsSize (next :: parts) := by
            rw [partsSize]
            omega
          have comma : charsSize [','] = 1 := rfl
          rw [List.intercalate_cons_cons, charsSize_append, charsSize_append, ih, comma]
          conv_rhs => rw [partsSize]
          omega

theorem size_obj (fields : List (String × Json)) : (Json.obj fields).size = fieldsSize fields - 1 + 2 := by
  rw [Json.size]

theorem size_arr (items : List Json) : (Json.arr items).size = itemsSize items - 1 + 2 := by
  rw [Json.size]

theorem size_str (text : String) : (Json.str text).size = quotedSize text := by rw [Json.size]

theorem charsSize_cons {char : Char} (ascii : char.utf8Size = 1) :
    charsSize (char :: first) = charsSize first + 1 := by
  rw [charsSize, ascii, Nat.add_comm]

/-- A text in quotation marks, and what follows it. -/
theorem charsSize_quoted {text : String} :
    charsSize ('"' :: text.toList.flatMap escapeRaw ++ '"' :: first) = quotedSize text + charsSize first := by
  rw [List.cons_append, charsSize_cons (by decide), charsSize_append, charsSize_cons (by decide), quotedSize]
  omega

mutual

theorem charsSize_render : ∀ value : Json, charsSize (value.render escapeRaw) = value.size
  | .null => rfl
  | .bool true => rfl
  | .bool false => rfl
  | .int value => by rw [Json.render, Json.size]
  | .str text => by
      rw [Json.render, Json.size, charsSize_quoted]
      rfl
  | .arr items => by
      rw [Json.render, Json.size, List.cons_append, charsSize_cons (by decide), charsSize_append,
        charsSize_intercalate, partsSize_renderItems]
      rfl
  | .obj fields => by
      rw [Json.render, Json.size, List.cons_append, charsSize_cons (by decide), charsSize_append,
        charsSize_intercalate, partsSize_renderFields]
      rfl

theorem partsSize_renderItems : ∀ items : List Json,
    partsSize (renderItems escapeRaw items) = itemsSize items
  | [] => rfl
  | item :: rest => by
      rw [renderItems, partsSize, itemsSize, charsSize_render item, partsSize_renderItems rest]

theorem partsSize_renderFields : ∀ fields : List (String × Json),
    partsSize (renderFields escapeRaw fields) = fieldsSize fields
  | [] => rfl
  | (key, value) :: rest => by
      rw [renderFields, partsSize, fieldsSize, partsSize_renderFields rest, charsSize_quoted,
        charsSize_cons (by decide), charsSize_render value]
      omega

end

/-! ## The order of members -/

theorem fieldsSize_perm (same : fields.Perm fields') : fieldsSize fields = fieldsSize fields' := by
  induction same with
  | nil => rfl
  | cons field _ ih => rw [fieldsSize, fieldsSize, ih]
  | swap first second _ =>
      simp only [fieldsSize]
      omega
  | trans _ _ first second => exact first.trans second

mutual

theorem size_sorted : ∀ value : Json, value.sorted.size = value.size
  | .null => rfl
  | .bool _ => rfl
  | .int _ => rfl
  | .str _ => rfl
  | .arr items => by rw [Json.sorted, Json.size, Json.size, itemsSize_sorted items]
  | .obj fields => by
      have ordered := List.perm_insertionSort (fun first second : String × Json => first.1 ≤ second.1)
        (sortedFields fields)
      rw [Json.sorted, Json.size, Json.size, fieldsSize_perm ordered, fieldsSize_sorted fields]

theorem itemsSize_sorted : ∀ items : List Json, itemsSize (sortedItems items) = itemsSize items
  | [] => rfl
  | item :: rest => by
      rw [sortedItems, itemsSize, itemsSize, size_sorted item, itemsSize_sorted rest]

theorem fieldsSize_sorted : ∀ fields : List (String × Json),
    fieldsSize (sortedFields fields) = fieldsSize fields
  | [] => rfl
  | (key, value) :: rest => by
      rw [sortedFields, fieldsSize, fieldsSize, size_sorted value, fieldsSize_sorted rest]

end

/-- The number of bytes of a canonical text. -/
theorem length_canonicalJson (value : Json) : (encodeUtf8 (canonicalJson value)).length = value.size := by
  rw [length_encodeUtf8, canonicalJson, utf8ByteSize_ofList, charsSize_render, size_sorted]

/-! ## Measured texts -/

theorem joinLineEnds_eq_self {chars : List Char} (single : '\n' ∉ chars) : joinLineEnds chars = chars := by
  fun_induction joinLineEnds chars with
  | case1 => rfl
  | case2 rest _ => exact absurd (List.mem_cons_of_mem _ List.mem_cons_self) single
  | case3 char rest _ ih => rw [ih fun member => single (List.mem_cons_of_mem _ member)]

/-- What the measure of `measure_text` says of a number of bytes. -/
def measureOf (bytes : Nat) : PayloadMeasurement := ⟨bytes, (bytes + 3) / 4⟩

theorem measureText_canonicalJson (value : Json) :
    measureText (canonicalJson value) = measureOf value.size := by
  have single : joinLineEnds (canonicalJson value).toList = (canonicalJson value).toList :=
    joinLineEnds_eq_self (newline_notMem_canonicalJson value)
  rw [measureText, countTokens, single, single, String.ofList_toList, length_canonicalJson]
  rfl

/-- Four rounds find the measure of a text that states its own measure. -/
theorem settle_measured {written : PayloadMeasurement → Nat} {base : Nat}
    (slow : Slow fun bytes => written (measureOf bytes))
    (low : written ⟨0, 0⟩ ≤ written (measureOf (base + written ⟨0, 0⟩))) :
    measureOf (base + written (settle (fun known => measureOf (base + written known)) 4 ⟨0, 0⟩)) =
      settle (fun known => measureOf (base + written known)) 4 ⟨0, 0⟩ := by
  have stable : measureOf (base + written (measureOf (base + written (measureOf (base +
      written (measureOf (base + written ⟨0, 0⟩))))))) =
      measureOf (base + written (measureOf (base + written (measureOf (base + written ⟨0, 0⟩))))) :=
    congrArg (fun grown => measureOf (base + grown)) (slow.stable low)
  exact @settle_fixed _ _ (fun known => measureOf (base + written known)) 4 3 ⟨0, 0⟩ (by decide) stable

end CapabilityHub
