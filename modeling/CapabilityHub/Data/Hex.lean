import Mathlib.Data.List.Basic

/-! # Byte strings and their hexadecimal texts

`bytes.hex` writes two lower-case digits a byte. `bytes.fromhex` reads digits of
either case and skips ASCII white space between bytes, so it reads back every
text that `bytes.hex` writes (`CapabilityHub.fromHex_hex`), among others.
-/

namespace CapabilityHub

abbrev Bytes := List UInt8

/-- The white space `bytes.fromhex` skips. -/
def isAsciiSpace (character : Char) : Bool :=
  character = ' ' || (9 ≤ character.toNat && character.toNat ≤ 13)

/-- The value of a hexadecimal digit. -/
def hexDigitValue (character : Char) : Option Nat :=
  let code := character.toNat
  if 48 ≤ code ∧ code ≤ 57 then some (code - 48)
  else if 97 ≤ code ∧ code ≤ 102 then some (code - 87)
  else if 65 ≤ code ∧ code ≤ 70 then some (code - 55)
  else none

/-- The lower-case digit of a value below sixteen. -/
def hexDigit (value : Nat) : Char :=
  if value < 10 then Char.ofNat (48 + value) else Char.ofNat (87 + value)

def fromHexChars : List Char → Option Bytes
  | [] => some []
  | [character] => if isAsciiSpace character then some [] else none
  | first :: second :: rest =>
      if isAsciiSpace first then fromHexChars (second :: rest)
      else
        match hexDigitValue first, hexDigitValue second with
        | some high, some low =>
            (fromHexChars rest).map fun bytes => UInt8.ofNat (16 * high + low) :: bytes
        | _, _ => none

/-- `bytes.fromhex`; `none` where it raises `ValueError`. -/
def fromHex (text : String) : Option Bytes := fromHexChars text.toList

def hexChars (bytes : Bytes) : List Char :=
  bytes.flatMap fun byte => [hexDigit (byte.toNat / 16), hexDigit (byte.toNat % 16)]

/-- `bytes.hex`. -/
def hex (bytes : Bytes) : String := String.ofList (hexChars bytes)

private theorem hexDigit_not_space :
    ∀ value < 16, isAsciiSpace (hexDigit value) = false := by decide

theorem hexDigitValue_hexDigit :
    ∀ value < 16, hexDigitValue (hexDigit value) = some value := by decide

theorem fromHexChars_hexChars (bytes : Bytes) : fromHexChars (hexChars bytes) = some bytes := by
  induction bytes with
  | nil => rfl
  | cons byte rest ih =>
      have bounded := byte.toNat_lt
      have high : byte.toNat / 16 < 16 := by omega
      have low : byte.toNat % 16 < 16 := Nat.mod_lt _ (by decide)
      have joined : UInt8.ofNat (16 * (byte.toNat / 16) + byte.toNat % 16) = byte := by
        rw [Nat.div_add_mod, UInt8.ofNat_toNat]
      rw [show hexChars (byte :: rest) =
          hexDigit (byte.toNat / 16) :: hexDigit (byte.toNat % 16) :: hexChars rest from rfl,
        fromHexChars, hexDigit_not_space _ high, hexDigitValue_hexDigit _ high,
        hexDigitValue_hexDigit _ low, ih]
      simp [joined]

/-- Reading back the text of a byte string. -/
theorem fromHex_hex (bytes : Bytes) : fromHex (hex bytes) = some bytes := by
  rw [fromHex, hex, String.toList_ofList, fromHexChars_hexChars]

theorem forall_mem_hex {holds : Char → Prop} (digits : ∀ value < 16, holds (hexDigit value))
    (bytes : Bytes) : ∀ character ∈ (hex bytes).toList, holds character := by
  intro character member
  rw [hex, String.toList_ofList, hexChars, List.mem_flatMap] at member
  obtain ⟨byte, _, digit⟩ := member
  have bounded := byte.toNat_lt
  rcases List.mem_cons.mp digit with rfl | digit
  · exact digits _ (by omega)
  · rw [List.mem_singleton.mp digit]
    exact digits _ (by omega)

theorem hex_ascii (bytes : Bytes) : ∀ character ∈ (hex bytes).toList, character.toNat < 128 :=
  forall_mem_hex (by decide) bytes

/-- Different byte strings have different texts. -/
theorem hex_injective : Function.Injective hex := by
  intro first second same
  have read := congrArg fromHex same
  rwa [fromHex_hex, fromHex_hex, Option.some.injEq] at read

theorem length_hex (bytes : Bytes) : (hex bytes).length = 2 * bytes.length := by
  rw [hex, String.length_ofList, hexChars, List.length_flatMap]
  simp [Nat.mul_comm]

theorem nul_notMem_hex (bytes : Bytes) : '\x00' ∉ (hex bytes).toList := fun member =>
  @forall_mem_hex (· ≠ '\x00') (by decide) bytes _ member rfl

theorem dot_notMem_hex (bytes : Bytes) : '.' ∉ (hex bytes).toList := fun member =>
  @forall_mem_hex (· ≠ '.') (by decide) bytes _ member rfl

end CapabilityHub
