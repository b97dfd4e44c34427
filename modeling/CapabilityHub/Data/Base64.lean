import CapabilityHub.Data.Hex

/-! # Base64

`base64.urlsafe_b64decode` as the standard library decodes a text: characters
outside the alphabet are skipped, and a padding that completes a group of four ends
the text, whatever follows. The strict decoder takes groups of four only, the last with its
padding, and reads back every encoded text (`CapabilityHub.decodeStrict_encode`).
-/

namespace CapabilityHub

/-- The value of a character of the alphabet; `-` and `_` are read as `+` and `/`. -/
def base64Value (char : Char) : Option Nat :=
  if 'A' ≤ char ∧ char ≤ 'Z' then some (char.toNat - 'A'.toNat)
  else if 'a' ≤ char ∧ char ≤ 'z' then some (char.toNat - 'a'.toNat + 26)
  else if '0' ≤ char ∧ char ≤ '9' then some (char.toNat - '0'.toNat + 52)
  else if char = '+' ∨ char = '-' then some 62
  else if char = '/' ∨ char = '_' then some 63
  else none

/-- `binascii.a2b_base64` from the middle of a text: the characters of the current
group read so far, the bits of them not yet written, and the padding seen. -/
def decodeBase64Chars : List Char → Nat → Nat → Nat → Option Bytes
  | [], 0, _, _ => some []
  | [], _ + 1, _, _ => none
  | char :: rest, group, left, pads =>
      if char = '=' then
        if group < 2 then decodeBase64Chars rest group left pads
        else if group + (pads + 1) ≥ 4 then some []
        else decodeBase64Chars rest group left (pads + 1)
      else
        match base64Value char, group with
        | none, _ => decodeBase64Chars rest group left pads
        | some value, 0 => decodeBase64Chars rest 1 value 0
        | some value, 1 =>
            (decodeBase64Chars rest 2 (value % 16) 0).map (.ofNat (left * 4 + value / 16) :: ·)
        | some value, 2 =>
            (decodeBase64Chars rest 3 (value % 4) 0).map (.ofNat (left * 16 + value / 4) :: ·)
        | some value, _ =>
            (decodeBase64Chars rest 0 0 0).map (.ofNat (left * 64 + value) :: ·)

/-- `base64.urlsafe_b64decode`; `none` where it raises `ValueError`. -/
def urlsafeB64Decode (text : String) : Option Bytes :=
  if text.toList.all (·.toNat < 128) then decodeBase64Chars text.toList 0 0 0 else none

example : urlsafeB64Decode "-_8B" = some [0xfb, 0xff, 0x01] := by decide

example : urlsafeB64Decode "AQ==AQ" = some [0x01] := by decide

example : urlsafeB64Decode "AQI" = none := by decide

/-! ## Encoding and strict decoding -/

/-- The URL-safe character of a value below 64. -/
def base64Digit (value : Nat) : Char :=
  if value < 26 then Char.ofNat (65 + value)
  else if value < 52 then Char.ofNat (71 + value)
  else if value < 62 then Char.ofNat (value - 4)
  else if value = 62 then '-'
  else '_'

/-- `base64.urlsafe_b64encode(data).rstrip(b"=")`. -/
def encodeBase64Chars : Bytes → List Char
  | [] => []
  | [first] => [base64Digit (first.toNat / 4), base64Digit (first.toNat % 4 * 16)]
  | [first, second] => [base64Digit (first.toNat / 4),
      base64Digit (first.toNat % 4 * 16 + second.toNat / 16),
      base64Digit (second.toNat % 16 * 4)]
  | first :: second :: third :: rest => base64Digit (first.toNat / 4) ::
      base64Digit (first.toNat % 4 * 16 + second.toNat / 16) ::
      base64Digit (second.toNat % 16 * 4 + third.toNat / 64) ::
      base64Digit (third.toNat % 64) :: encodeBase64Chars rest

/-- The bytes of the last group without its padding. -/
def decodeLast (values : List (Option Nat)) : Option Bytes :=
  match values with
  | [some first, some second] => some [.ofNat (first * 4 + second / 16)]
  | [some first, some second, some third] =>
      some [.ofNat (first * 4 + second / 16), .ofNat (second % 16 * 16 + third / 4)]
  | _ => none

/-- `base64.b64decode(text, altchars=b"-_", validate=True)`; `none` where it raises
`ValueError`. -/
def decodeStrict : List Char → Option Bytes
  | [] => some []
  | first :: second :: third :: fourth :: rest =>
      if fourth = '=' then
        if rest ≠ [] then none
        else if third = '=' then decodeLast [base64Value first, base64Value second]
        else decodeLast [base64Value first, base64Value second, base64Value third]
      else
        match base64Value first, base64Value second, base64Value third, base64Value fourth with
        | some first, some second, some third, some fourth => (decodeStrict rest).map fun bytes =>
            .ofNat (first * 4 + second / 16) :: .ofNat (second % 16 * 16 + third / 4) ::
              .ofNat (third % 4 * 64 + fourth) :: bytes
        | _, _, _, _ => none
  | _ => none

theorem base64Value_base64Digit : ∀ value < 64, base64Value (base64Digit value) = some value := by
  decide

theorem base64Digit_ne_pad : ∀ value < 64, base64Digit value ≠ '=' := by decide

theorem base64Digit_ascii : ∀ value < 64,
    (base64Digit value).toNat < 128 ∧ base64Digit value ≠ '.' := by decide

/-- An encoded text is ASCII and has no dots. -/
theorem ascii_encodeBase64 (bytes : Bytes) :
    ∀ char ∈ encodeBase64Chars bytes, char.toNat < 128 ∧ char ≠ '.' := by
  induction bytes using encodeBase64Chars.induct with
  | case1 =>
      intro char member
      cases member
  | case2 first =>
      have bounded := first.toNat_lt
      simp only [encodeBase64Chars, List.forall_mem_cons]
      exact ⟨base64Digit_ascii _ (by omega), base64Digit_ascii _ (by omega), by simp⟩
  | case3 first second =>
      have bounded := first.toNat_lt
      have bounded' := second.toNat_lt
      simp only [encodeBase64Chars, List.forall_mem_cons]
      exact ⟨base64Digit_ascii _ (by omega), base64Digit_ascii _ (by omega),
        base64Digit_ascii _ (by omega), by simp⟩
  | case4 first second third rest ih =>
      have bounded := first.toNat_lt
      have bounded' := second.toNat_lt
      have bounded'' := third.toNat_lt
      simp only [encodeBase64Chars, List.forall_mem_cons]
      exact ⟨base64Digit_ascii _ (by omega), base64Digit_ascii _ (by omega),
        base64Digit_ascii _ (by omega), base64Digit_ascii _ (by omega), ih⟩

/-- The padding `_decode` puts back. -/
def padBase64 (chars : List Char) : List Char :=
  chars ++ List.replicate ((4 - chars.length % 4) % 4) '='

theorem ofNat_of_eq {value : Nat} {byte : UInt8} (same : value = byte.toNat) :
    UInt8.ofNat value = byte := by
  rw [same, UInt8.ofNat_toNat]

theorem padBase64_group (first second third fourth : Char) (rest : List Char) :
    padBase64 (first :: second :: third :: fourth :: rest) =
      first :: second :: third :: fourth :: padBase64 rest := by
  have same : (rest.length + 1 + 1 + 1 + 1) % 4 = rest.length % 4 := by omega
  simp only [padBase64, List.length_cons, same, List.cons_append]

/-- Reading back an encoded text. -/
theorem decodeStrict_encode (bytes : Bytes) :
    decodeStrict (padBase64 (encodeBase64Chars bytes)) = some bytes := by
  induction bytes using encodeBase64Chars.induct with
  | case1 => rfl
  | case2 first =>
      have bounded := first.toNat_lt
      have padded : padBase64 (encodeBase64Chars [first]) =
          [base64Digit (first.toNat / 4), base64Digit (first.toNat % 4 * 16), '=', '='] := rfl
      rw [padded, decodeStrict, if_pos rfl, if_neg (by simp), if_pos rfl,
        base64Value_base64Digit _ (by omega), base64Value_base64Digit _ (by omega), decodeLast]
      rw [@ofNat_of_eq _ first (by omega)]
  | case3 first second =>
      have bounded := first.toNat_lt
      have bounded' := second.toNat_lt
      have padded : padBase64 (encodeBase64Chars [first, second]) =
          [base64Digit (first.toNat / 4), base64Digit (first.toNat % 4 * 16 + second.toNat / 16),
            base64Digit (second.toNat % 16 * 4), '='] := rfl
      rw [padded, decodeStrict, if_pos rfl, if_neg (by simp),
        if_neg (base64Digit_ne_pad _ (by omega)), base64Value_base64Digit _ (by omega),
        base64Value_base64Digit _ (by omega), base64Value_base64Digit _ (by omega), decodeLast]
      rw [@ofNat_of_eq _ first (by omega), @ofNat_of_eq _ second (by omega)]
  | case4 first second third rest ih =>
      have bounded := first.toNat_lt
      have bounded' := second.toNat_lt
      have bounded'' := third.toNat_lt
      rw [encodeBase64Chars, padBase64_group, decodeStrict,
        if_neg (base64Digit_ne_pad _ (by omega)), base64Value_base64Digit _ (by omega),
        base64Value_base64Digit _ (by omega), base64Value_base64Digit _ (by omega),
        base64Value_base64Digit _ (by omega), ih]
      simp only [Option.map_some]
      rw [@ofNat_of_eq _ first (by omega), @ofNat_of_eq _ second (by omega),
        @ofNat_of_eq _ third (by omega)]

/-- A digit of the alphabet, by its place in a group. -/
theorem decodeBase64Chars_digit {value : Nat} (small : value < 64) (rest : List Char)
    (left pads : Nat) :
    decodeBase64Chars (base64Digit value :: rest) 0 left pads = decodeBase64Chars rest 1 value 0 ∧
    decodeBase64Chars (base64Digit value :: rest) 1 left pads =
      (decodeBase64Chars rest 2 (value % 16) 0).map (.ofNat (left * 4 + value / 16) :: ·) ∧
    decodeBase64Chars (base64Digit value :: rest) 2 left pads =
      (decodeBase64Chars rest 3 (value % 4) 0).map (.ofNat (left * 16 + value / 4) :: ·) ∧
    decodeBase64Chars (base64Digit value :: rest) 3 left pads =
      (decodeBase64Chars rest 0 0 0).map (.ofNat (left * 64 + value) :: ·) := by
  have plain := base64Digit_ne_pad value small
  have known := base64Value_base64Digit value small
  refine ⟨?_, ?_, ?_, ?_⟩ <;> simp [decodeBase64Chars, plain, known]

/-- The decoder of the standard library reads an encoded text back as well. -/
theorem urlsafeB64Decode_encode (bytes : Bytes) :
    urlsafeB64Decode (String.ofList (padBase64 (encodeBase64Chars bytes))) = some bytes := by
  have ascii : (padBase64 (encodeBase64Chars bytes)).all (·.toNat < 128) = true := by
    rw [padBase64, List.all_append, Bool.and_eq_true, List.all_eq_true, List.all_eq_true]
    refine ⟨fun char member => decide_eq_true (ascii_encodeBase64 bytes char member).1, ?_⟩
    intro char member
    rw [List.eq_of_mem_replicate member]
    rfl
  rw [urlsafeB64Decode, String.toList_ofList, if_pos ascii]
  clear ascii
  suffices whole : ∀ left pads,
      decodeBase64Chars (padBase64 (encodeBase64Chars bytes)) 0 left pads = some bytes from whole 0 0
  induction bytes using encodeBase64Chars.induct with
  | case1 => exact fun _ _ => rfl
  | case2 first =>
      intro left pads
      have bounded := first.toNat_lt
      have padded : padBase64 (encodeBase64Chars [first]) =
          [base64Digit (first.toNat / 4), base64Digit (first.toNat % 4 * 16), '=', '='] := rfl
      rw [padded, (decodeBase64Chars_digit (by omega) _ _ _).1,
        (decodeBase64Chars_digit (by omega) _ _ _).2.1]
      simp only [decodeBase64Chars, if_pos, Option.map_some]
      rw [@ofNat_of_eq _ first (by omega)]
      rfl
  | case3 first second =>
      intro left pads
      have bounded := first.toNat_lt
      have bounded' := second.toNat_lt
      have padded : padBase64 (encodeBase64Chars [first, second]) =
          [base64Digit (first.toNat / 4), base64Digit (first.toNat % 4 * 16 + second.toNat / 16),
            base64Digit (second.toNat % 16 * 4), '='] := rfl
      rw [padded, (decodeBase64Chars_digit (by omega) _ _ _).1,
        (decodeBase64Chars_digit (by omega) _ _ _).2.1,
        (decodeBase64Chars_digit (by omega) _ _ _).2.2.1]
      simp only [decodeBase64Chars, if_pos, Option.map_some]
      rw [@ofNat_of_eq _ first (by omega), @ofNat_of_eq _ second (by omega)]
      rfl
  | case4 first second third rest ih =>
      intro left pads
      have bounded := first.toNat_lt
      have bounded' := second.toNat_lt
      have bounded'' := third.toNat_lt
      rw [encodeBase64Chars, padBase64_group, (decodeBase64Chars_digit (by omega) _ _ _).1,
        (decodeBase64Chars_digit (by omega) _ _ _).2.1,
        (decodeBase64Chars_digit (by omega) _ _ _).2.2.1,
        (decodeBase64Chars_digit (by omega) _ _ _).2.2.2, ih]
      simp only [Option.map_some]
      rw [@ofNat_of_eq _ first (by omega), @ofNat_of_eq _ second (by omega),
        @ofNat_of_eq _ third (by omega)]

end CapabilityHub
