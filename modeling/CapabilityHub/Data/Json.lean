import CapabilityHub.Data.Hex
import Mathlib.Data.List.Sort

/-! # Canonical JSON

`json.dumps(value, sort_keys=True, separators=(",", ":"))`: the keys of an object in
code point order, no blanks, and every character outside printable ASCII as one or
two `\u` escapes.
-/

namespace CapabilityHub

inductive Json where
  | null
  | bool (value : Bool)
  | int (value : Int)
  | str (text : String)
  | arr (items : List Json)
  | obj (fields : List (String × Json))

/-- A UTF-16 code unit as four hexadecimal digits. -/
def unicodeEscape (unit : Nat) : List Char :=
  ['\\', 'u', hexDigit (unit / 4096 % 16), hexDigit (unit / 256 % 16), hexDigit (unit / 16 % 16),
    hexDigit (unit % 16)]

/-- A character inside a string literal. -/
def escapeChar (char : Char) : List Char :=
  if char = '"' then ['\\', '"']
  else if char = '\\' then ['\\', '\\']
  else if char = '\n' then ['\\', 'n']
  else if char = '\r' then ['\\', 'r']
  else if char = '\t' then ['\\', 't']
  else if char.toNat = 0x0c then ['\\', 'f']
  else if char.toNat = 0x08 then ['\\', 'b']
  else if 0x20 ≤ char.toNat ∧ char.toNat ≤ 0x7e then [char]
  else if char.toNat < 0x10000 then unicodeEscape char.toNat
  else unicodeEscape (0xd800 + (char.toNat - 0x10000) / 0x400) ++
    unicodeEscape (0xdc00 + (char.toNat - 0x10000) % 0x400)

def quote (text : String) : List Char := '"' :: text.toList.flatMap escapeChar ++ ['"']

mutual

/-- The text of a value, as characters. -/
def Json.dump : Json → List Char
  | .null => "null".toList
  | .bool true => "true".toList
  | .bool false => "false".toList
  | .int value => (toString value).toList
  | .str text => quote text
  | .arr items => '[' :: [','].intercalate (dumpItems items) ++ [']']
  | .obj fields =>
      '\x7b' :: [','].intercalate (((dumpFields fields).insertionSort fun first second =>
        first.1 ≤ second.1).map fun field => quote field.1 ++ ':' :: field.2) ++ ['\x7d']

def dumpItems : List Json → List (List Char)
  | [] => []
  | item :: rest => item.dump :: dumpItems rest

def dumpFields : List (String × Json) → List (String × List Char)
  | [] => []
  | (key, value) :: rest => (key, value.dump) :: dumpFields rest

end

def encodeUtf8 (text : String) : Bytes := text.toUTF8.data.toList

/-- `_canonical`. -/
def canonical (value : Json) : Bytes := encodeUtf8 (String.ofList value.dump)

/-- The value of a number; `True` and `False` are the numbers one and zero. -/
def Json.number? : Json → Option Int
  | .bool value => some (if value then 1 else 0)
  | .int value => some value
  | _ => none

mutual

/-- `==` on decoded values. The members of an object stand in the order of their keys. -/
def Json.same : Json → Json → Bool
  | .str first, .str second => first == second
  | .arr first, .arr second => sameItems first second
  | .obj first, .obj second => sameFields first second
  | .null, .null => true
  | first, second => first.number?.isSome && first.number? == second.number?

def sameItems : List Json → List Json → Bool
  | [], [] => true
  | first :: firsts, second :: seconds => first.same second && sameItems firsts seconds
  | _, _ => false

def sameFields : List (String × Json) → List (String × Json) → Bool
  | [], [] => true
  | first :: firsts, second :: seconds =>
      first.1 == second.1 && first.2.same second.2 && sameFields firsts seconds
  | _, _ => false

end

mutual

/-- The value with its truth values as numbers. -/
def Json.numeric : Json → Json
  | .bool value => .int (if value then 1 else 0)
  | .arr items => .arr (numericItems items)
  | .obj fields => .obj (numericFields fields)
  | .null => .null
  | .int value => .int value
  | .str text => .str text

def numericItems : List Json → List Json
  | [] => []
  | item :: rest => item.numeric :: numericItems rest

def numericFields : List (String × Json) → List (String × Json)
  | [] => []
  | (key, value) :: rest => (key, value.numeric) :: numericFields rest

end

/-- `Mapping.get`. -/
def mappingGet (fields : List (String × Json)) (name : String) : Option Json := fields.lookup name

/-- A character has at most four bytes. -/
theorem utf8ByteSize_le (text : String) : text.utf8ByteSize ≤ 4 * text.length := by
  rw [← @String.ofList_toList text, String.length_ofList]
  induction text.toList with
  | nil => exact Nat.zero_le _
  | cons char chars ih =>
      have one := char.utf8Size_le_four
      rw [String.ofList_cons, String.utf8ByteSize_append, String.utf8ByteSize_singleton,
        List.length_cons]
      omega

theorem encodeUtf8_append (first second : String) :
    encodeUtf8 (first ++ second) = encodeUtf8 first ++ encodeUtf8 second := by
  simp [encodeUtf8]

mutual

/-- Values that are equal differ only in truth values that stand for numbers. -/
theorem Json.numeric_of_same : ∀ {first second : Json}, first.same second = true →
    first.numeric = second.numeric
  | .str first, .str second, same => by
      simp only [Json.same, beq_iff_eq] at same
      rw [same]
  | .arr first, .arr second, same => by
      rw [Json.numeric, Json.numeric, numericItems_of_same same]
  | .obj first, .obj second, same => by
      rw [Json.numeric, Json.numeric, numericFields_of_same same]
  | .null, .null, _ => rfl
  | .bool first, second, same => by
      cases second <;> simp_all [Json.same, Json.number?, Json.numeric]
  | .int first, second, same => by
      cases second <;> simp_all [Json.same, Json.number?, Json.numeric]

theorem numericItems_of_same : ∀ {first second : List Json}, sameItems first second = true →
    numericItems first = numericItems second
  | [], [], _ => rfl
  | first :: firsts, second :: seconds, same => by
      simp only [sameItems, Bool.and_eq_true] at same
      rw [numericItems, numericItems, Json.numeric_of_same same.1, numericItems_of_same same.2]

theorem numericFields_of_same : ∀ {first second : List (String × Json)},
    sameFields first second = true → numericFields first = numericFields second
  | [], [], _ => rfl
  | (key, first) :: firsts, (key', second) :: seconds, same => by
      simp only [sameFields, Bool.and_eq_true, beq_iff_eq] at same
      rw [numericFields, numericFields, Json.numeric_of_same same.1.2, same.1.1,
        numericFields_of_same same.2]

end

/-- The text of an object starts with its brace. -/
theorem canonical_obj_cons (fields : List (String × Json)) :
    ∃ rest, canonical (.obj fields) = 0x7b :: rest := by
  have brace : encodeUtf8 (String.singleton '\x7b') = [0x7b] := by decide
  rw [canonical, Json.dump, List.cons_append, String.ofList_cons, encodeUtf8_append, brace]
  exact ⟨_, rfl⟩

example : canonical (.obj [("b", .int (-1)), ("a", .arr [.str "é\n", .null])]) =
    encodeUtf8 "\x7b\"a\":[\"\\u00e9\\n\",null],\"b\":-1\x7d" := by decide

end CapabilityHub
