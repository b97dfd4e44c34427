import CapabilityHub.Data.Dict
import CapabilityHub.Data.Json

/-! # JSON texts

`json.loads` reads back what `json.dumps` writes, for any way of writing the characters of a
string that `scanString` undoes (`CapabilityHub.loads_render`). Numbers with a fraction or an
exponent and strings with half of a surrogate pair are not values here, so a text with one of
them is not read.
-/

namespace CapabilityHub

/-! ## Reading -/

/-- `JSONDecoder`'s white space. -/
def jsonSpace (character : Char) : Bool :=
  character = ' ' || character = '\t' || character = '\n' || character = '\r'

def skipSpace (chars : List Char) : List Char := chars.dropWhile jsonSpace

/-- The value of the four digits of an escape. -/
def hexUnit (first second third fourth : Char) : Option Nat := do
  let first ← hexDigitValue first
  let second ← hexDigitValue second
  let third ← hexDigitValue third
  let fourth ← hexDigitValue fourth
  pure (4096 * first + 256 * second + 16 * third + fourth)

/-- The code point that a character stands for after a backslash. -/
def simpleEscape (mark : Char) : Option Nat :=
  if mark = '"' ∨ mark = '\\' ∨ mark = '/' then some mark.toNat
  else if mark = 'b' then some 0x08
  else if mark = 'f' then some 0x0c
  else if mark = 'n' then some 0x0a
  else if mark = 'r' then some 0x0d
  else if mark = 't' then some 0x09
  else none

/-- The code units of a string literal and what follows it, from inside the literal. -/
def scanString : List Char → Option (List Nat × List Char)
  | [] => none
  | char :: rest =>
      if char = '"' then some ([], rest)
      else if char = '\\' then
        match rest with
        | [] => none
        | mark :: more =>
            if mark = 'u' then
              match more with
              | first :: second :: third :: fourth :: more =>
                  match hexUnit first second third fourth with
                  | none => none
                  | some unit => (scanString more).map fun scanned => (unit :: scanned.1, scanned.2)
              | _ => none
            else
              match simpleEscape mark with
              | none => none
              | some unit => (scanString more).map fun scanned => (unit :: scanned.1, scanned.2)
      else if char.toNat < 0x20 then none
      else (scanString rest).map fun scanned => (char.toNat :: scanned.1, scanned.2)

/-- The characters of code units, in which surrogates only come in pairs. -/
def joinUnits : List Nat → Option (List Char)
  | [] => some []
  | unit :: rest =>
      if 0xd800 ≤ unit ∧ unit < 0xdc00 then
        match rest with
        | [] => none
        | low :: rest =>
            if 0xdc00 ≤ low ∧ low < 0xe000 then
              (joinUnits rest).map
                (Char.ofNat (0x10000 + (unit - 0xd800) * 0x400 + (low - 0xdc00)) :: ·)
            else none
      else if 0xdc00 ≤ unit ∧ unit < 0xe000 then none
      else (joinUnits rest).map (Char.ofNat unit :: ·)

def parseString (chars : List Char) : Option (String × List Char) := do
  let (units, rest) ← scanString chars
  let text ← joinUnits units
  pure (String.ofList text, rest)

/-- The digits of a number without a sign. -/
def parseDigits (chars : List Char) : Option (Nat × List Char) :=
  let digits := chars.takeWhile Char.isDigit
  if digits = [] then none
  else if digits.head? = some '0' then some (0, chars.tail)
  else some (Nat.ofDigitChars 10 digits 0, chars.dropWhile Char.isDigit)

def parseInt (chars : List Char) : Option (Int × List Char) :=
  if chars.head? = some '-' then
    (parseDigits chars.tail).map fun parsed => (-(parsed.1 : Int), parsed.2)
  else (parseDigits chars).map fun parsed => ((parsed.1 : Int), parsed.2)

mutual

/-- A value at the front of a text, with the number of characters left as fuel. -/
def parseValue : Nat → List Char → Option (Json × List Char)
  | 0, _ => none
  | _ + 1, [] => none
  | fuel + 1, first :: rest =>
      if first = '"' then
        (parseString rest).map fun parsed => (.str parsed.1, parsed.2)
      else if first = '\x7b' then
        if (skipSpace rest).head? = some '\x7d' then some (.obj [], (skipSpace rest).tail)
        else (parseMembers fuel (skipSpace rest)).map fun parsed =>
          (.obj (parsed.1.foldl (fun fields field => assign field.1 field.2 fields) []), parsed.2)
      else if first = '[' then
        if (skipSpace rest).head? = some ']' then some (.arr [], (skipSpace rest).tail)
        else (parseItems fuel (skipSpace rest)).map fun parsed => (.arr parsed.1, parsed.2)
      else if first = 'n' ∧ rest.take 3 = ['u', 'l', 'l'] then some (.null, rest.drop 3)
      else if first = 't' ∧ rest.take 3 = ['r', 'u', 'e'] then some (.bool true, rest.drop 3)
      else if first = 'f' ∧ rest.take 4 = ['a', 'l', 's', 'e'] then some (.bool false, rest.drop 4)
      else (parseInt (first :: rest)).map fun parsed => (.int parsed.1, parsed.2)

def parseItems : Nat → List Char → Option (List Json × List Char)
  | 0, _ => none
  | fuel + 1, chars => do
      let (item, rest) ← parseValue fuel chars
      let rest := skipSpace rest
      if rest.head? = some ',' then
        let (items, rest) ← parseItems fuel (skipSpace rest.tail)
        some (item :: items, rest)
      else if rest.head? = some ']' then some ([item], rest.tail)
      else none

def parseMembers : Nat → List Char → Option (List (String × Json) × List Char)
  | 0, _ => none
  | _ + 1, [] => none
  | fuel + 1, first :: rest =>
      if first ≠ '"' then none
      else do
        let (key, rest) ← parseString rest
        let rest := skipSpace rest
        if rest.head? ≠ some ':' then none
        else do
          let (value, rest) ← parseValue fuel (skipSpace rest.tail)
          let rest := skipSpace rest
          if rest.head? = some ',' then
            let (members, rest) ← parseMembers fuel (skipSpace rest.tail)
            some ((key, value) :: members, rest)
          else if rest.head? = some '\x7d' then some ([(key, value)], rest.tail)
          else none

end

/-- `json.loads` of a text; `none` where it raises. -/
def loads (chars : List Char) : Option Json :=
  match parseValue (chars.length + 1) (skipSpace chars) with
  | none => none
  | some (value, rest) => if skipSpace rest = [] then some value else none

example : (loads " [1, \"\\ud83d\\ude00\\n\", -20 ]".toList).map Json.dump =
    some "[1,\"\\ud83d\\ude00\\n\",-20]".toList := by decide +kernel

/-! ## Writing -/

mutual

/-- The text of a value as `escape` writes the characters of strings, the members of an object
as they stand. -/
def Json.render (escape : Char → List Char) : Json → List Char
  | .null => "null".toList
  | .bool true => "true".toList
  | .bool false => "false".toList
  | .int value => (toString value).toList
  | .str text => '"' :: text.toList.flatMap escape ++ ['"']
  | .arr items => '[' :: [','].intercalate (renderItems escape items) ++ [']']
  | .obj fields => '\x7b' :: [','].intercalate (renderFields escape fields) ++ ['\x7d']

def renderItems (escape : Char → List Char) : List Json → List (List Char)
  | [] => []
  | item :: rest => item.render escape :: renderItems escape rest

def renderFields (escape : Char → List Char) : List (String × Json) → List (List Char)
  | [] => []
  | (key, value) :: rest =>
      ('"' :: key.toList.flatMap escape ++ '"' :: ':' :: value.render escape) ::
        renderFields escape rest

end

mutual

/-- No object has a key twice. -/
def Json.Distinct : Json → Prop
  | .arr items => DistinctItems items
  | .obj fields => (fields.map Prod.fst).Nodup ∧ DistinctFields fields
  | _ => True

def DistinctItems : List Json → Prop
  | [] => True
  | item :: rest => item.Distinct ∧ DistinctItems rest

def DistinctFields : List (String × Json) → Prop
  | [] => True
  | (_, value) :: rest => value.Distinct ∧ DistinctFields rest

end

/-- What `scanString` and `joinUnits` undo: each character has code units of its own. -/
structure Legible (escape : Char → List Char) : Prop where
  units : ∃ units : Char → List Nat,
    (∀ char rest, scanString (escape char ++ rest) =
      (scanString rest).map fun scanned => (units char ++ scanned.1, scanned.2)) ∧
    ∀ char rest, joinUnits (units char ++ rest) = (joinUnits rest).map (char :: ·)

/-! ## Reading back -/

section

variable {chars rest : List Char} {escape : Char → List Char} {fuel : Nat}

theorem skipSpace_cons {first : Char} (solid : jsonSpace first = false) :
    skipSpace (first :: rest) = first :: rest := by
  rw [skipSpace, List.dropWhile_cons_of_neg (by simp [solid])]

@[simp] theorem skipSpace_comma : skipSpace (',' :: rest) = ',' :: rest := rfl

@[simp] theorem skipSpace_colon : skipSpace (':' :: rest) = ':' :: rest := rfl

@[simp] theorem skipSpace_bracket : skipSpace (']' :: rest) = ']' :: rest := rfl

@[simp] theorem skipSpace_brace : skipSpace ('\x7d' :: rest) = '\x7d' :: rest := rfl

theorem scanString_quote : scanString ('"' :: rest) = some ([], rest) := by
  rw [scanString.eq_def]
  exact if_pos rfl

theorem parseString_text (legible : Legible escape) (text : String) :
    parseString (text.toList.flatMap escape ++ '"' :: rest) = some (text, rest) := by
  obtain ⟨units, scans, joins⟩ := legible.units
  have scanned (chars : List Char) : scanString (chars.flatMap escape ++ '"' :: rest) =
      some (chars.flatMap units, rest) := by
    induction chars with
    | nil => exact scanString_quote
    | cons char chars ih =>
        rw [List.flatMap_cons, List.append_assoc, scans, ih, List.flatMap_cons]
        rfl
  have joined (chars : List Char) : joinUnits (chars.flatMap units) = some chars := by
    induction chars with
    | nil => rfl
    | cons char chars ih => rw [List.flatMap_cons, joins, ih, Option.map_some]
  simp [parseString, scanned, joined]

/-! ### Numbers -/

/-- What follows a number does not go on with a digit. -/
def Stops (rest : List Char) : Prop := ∀ char ∈ rest.head?, char.isDigit = false

theorem head?_toDigits {value : Nat} (positive : 0 < value) :
    (Nat.toDigits 10 value).head? ≠ some '0' := by
  induction value using Nat.base_induction 10 (by decide) with
  | single digit small =>
      rw [Nat.toDigits_of_lt_base small, List.head?_cons]
      have digits : ∀ digit < 10, 0 < digit → some (Nat.digitChar digit) ≠ some '0' := by decide
      exact digits digit small positive
  | digit value last small above ih =>
      rw [← Nat.toDigits_append_toDigits (by decide) above small, List.head?_append,
        Option.or_of_isSome (by simp)]
      exact ih above

theorem parseDigits_toDigits (stops : Stops rest) (value : Nat) :
    parseDigits (Nat.toDigits 10 value ++ rest) = some (value, rest) := by
  have digits : ∀ char ∈ Nat.toDigits 10 value, char.isDigit = true := fun char member =>
    Nat.isDigit_of_mem_toDigits (by decide) (by decide) member
  have ended : rest.takeWhile Char.isDigit = [] ∧ rest.dropWhile Char.isDigit = rest := by
    cases rest with
    | nil => exact ⟨rfl, rfl⟩
    | cons char rest =>
        have other : char.isDigit = false := stops char rfl
        exact ⟨List.takeWhile_cons_of_neg (by simp [other]),
          List.dropWhile_cons_of_neg (by simp [other])⟩
  rw [parseDigits, List.takeWhile_append_of_pos digits, List.dropWhile_append_of_pos digits,
    ended.1, ended.2, List.append_nil, if_neg Nat.toDigits_ne_nil]
  rcases Nat.eq_zero_or_pos value with rfl | positive
  · rfl
  · rw [if_neg (head?_toDigits positive), Nat.ofDigitChars_ten_toDigits]

theorem toList_toString_int (value : Int) : (toString value).toList =
    if 0 ≤ value then Nat.toDigits 10 value.toNat else '-' :: Nat.toDigits 10 (-value).toNat := by
  rw [Int.toString_eq_repr, Int.repr_eq_if]
  split
  · rw [Nat.toList_repr]
  · rw [String.toList_append, Nat.toList_repr]
    rfl

theorem parseInt_toString (stops : Stops rest) (value : Int) :
    parseInt ((toString value).toList ++ rest) = some (value, rest) := by
  rw [toList_toString_int, parseInt]
  split
  next nonnegative =>
    have unsigned : (Nat.toDigits 10 value.toNat ++ rest).head? ≠ some '-' := by
      rw [List.head?_append, Option.or_of_isSome (by simp)]
      intro sign
      have digit := Nat.isDigit_of_mem_toDigits (by decide) (by decide) (List.mem_of_head? sign)
      exact absurd digit (by decide)
    rw [if_neg unsigned, parseDigits_toDigits stops, Option.map_some, Int.toNat_of_nonneg nonnegative]
  next negative =>
    rw [List.cons_append, List.head?_cons, if_pos rfl, List.tail_cons, parseDigits_toDigits stops,
      Option.map_some, Int.toNat_of_nonneg (by omega), Int.neg_neg]

theorem head_toString_int (value : Int) : ∃ first rest, (toString value).toList = first :: rest ∧
    (first = '-' ∨ first.isDigit = true) := by
  rw [toList_toString_int]
  split
  · cases digits : Nat.toDigits 10 value.toNat with
    | nil => exact absurd digits Nat.toDigits_ne_nil
    | cons first rest =>
        have member : first ∈ Nat.toDigits 10 value.toNat := by simp [digits]
        exact ⟨first, rest, rfl, .inr (Nat.isDigit_of_mem_toDigits (by decide) (by decide) member)⟩
  · exact ⟨'-', _, rfl, .inl rfl⟩

/-! ### Values -/

/-- The first character of a value. -/
theorem head_render (value : Json) : ∃ first rest, value.render escape = first :: rest ∧
    jsonSpace first = false ∧ first ≠ ']' := by
  cases value with
  | null => exact ⟨'n', _, rfl, by decide, by decide⟩
  | bool value => cases value <;> exact ⟨_, _, rfl, by decide, by decide⟩
  | int value =>
      obtain ⟨first, rest, same, sign | digit⟩ := head_toString_int value
      · exact ⟨first, rest, same, by rw [sign]; decide, by rw [sign]; decide⟩
      · refine ⟨first, rest, same, ?_, ?_⟩
        · simp only [jsonSpace, Bool.or_eq_false_iff, decide_eq_false_iff_not]
          refine ⟨⟨⟨?_, ?_⟩, ?_⟩, ?_⟩ <;> rintro rfl <;> exact absurd digit (by decide)
        · rintro rfl
          exact absurd digit (by decide)
  | str text => exact ⟨'"', _, rfl, by decide, by decide⟩
  | arr items => exact ⟨'[', _, rfl, by decide, by decide⟩
  | obj fields => exact ⟨'\x7b', _, rfl, by decide, by decide⟩

theorem head_renderItems (item : Json) (items : List Json) : ∃ first others,
    [','].intercalate (renderItems escape (item :: items)) = first :: others ∧
      jsonSpace first = false ∧ first ≠ ']' := by
  obtain ⟨first, others, same, solid, open_⟩ := @head_render escape item
  cases items with
  | nil => exact ⟨first, others, by rw [renderItems, same, renderItems, List.intercalate_singleton], solid, open_⟩
  | cons next items =>
      rw [renderItems, renderItems, List.intercalate_cons_cons, same]
      exact ⟨first, _, rfl, solid, open_⟩

theorem renderFields_cons (field : String × Json) (fields : List (String × Json)) :
    renderFields escape (field :: fields) =
      ('"' :: field.1.toList.flatMap escape ++ '"' :: ':' :: field.2.render escape) ::
        renderFields escape fields := by
  rw [renderFields]

theorem head_renderFields (field : String × Json) (fields : List (String × Json)) : ∃ others,
    [','].intercalate (renderFields escape (field :: fields)) = '"' :: others := by
  obtain ⟨key, value⟩ := field
  cases fields with
  | nil => exact ⟨_, by rw [renderFields, renderFields, List.intercalate_singleton]; rfl⟩
  | cons next fields =>
      obtain ⟨key', value'⟩ := next
      rw [renderFields, renderFields, List.intercalate_cons_cons]
      exact ⟨_, rfl⟩

theorem foldl_assign {entries written : List (String × Json)}
    (distinct : (written.map Prod.fst ++ entries.map Prod.fst).Nodup) :
    entries.foldl (fun fields field => assign field.1 field.2 fields) written =
      written ++ entries := by
  induction entries generalizing written with
  | nil => exact (List.append_nil _).symm
  | cons entry entries ih =>
      have fresh : entry.1 ∉ written.map Prod.fst := fun member =>
        (List.nodup_append.mp distinct).2.2 entry.1 member entry.1 (by simp) rfl
      rw [List.foldl_cons, Dict.assign_of_notMem fresh, ih, List.append_assoc]
      · rfl
      · rw [List.map_append, List.append_assoc]
        exact distinct

mutual

theorem parseValue_render (legible : Legible escape) : ∀ (value : Json), value.Distinct →
    ∀ (rest : List Char), Stops rest → ∀ (fuel : Nat), (value.render escape).length ≤ fuel →
      parseValue fuel (value.render escape ++ rest) = some (value, rest)
  | .null, _, rest, _, fuel + 1, _ => by
      rw [Json.render]
      rfl
  | .bool true, _, rest, _, fuel + 1, _ => by
      rw [Json.render]
      rfl
  | .bool false, _, rest, _, fuel + 1, _ => by
      rw [Json.render]
      rfl
  | .int value, _, rest, stops, fuel + 1, _ => by
      obtain ⟨first, digits, same, kind⟩ := head_toString_int value
      have other : first ≠ '"' ∧ first ≠ '\x7b' ∧ first ≠ '[' ∧ first ≠ 'n' ∧ first ≠ 't' ∧
          first ≠ 'f' := by
        rcases kind with rfl | digit
        · decide
        · refine ⟨?_, ?_, ?_, ?_, ?_, ?_⟩ <;> rintro rfl <;> exact absurd digit (by decide)
      have parsed := parseInt_toString stops value
      obtain ⟨one, two, three, four, five, six⟩ := other
      rw [same, List.cons_append] at parsed
      rw [Json.render, same, List.cons_append, parseValue, if_neg one, if_neg two, if_neg three,
        if_neg (fun both => four both.1), if_neg (fun both => five both.1),
        if_neg (fun both => six both.1), parsed, Option.map_some]
  | .str text, _, rest, _, fuel + 1, _ => by
      rw [Json.render, List.cons_append, List.cons_append, List.append_assoc, parseValue, if_pos rfl,
        List.singleton_append, parseString_text legible, Option.map_some]
  | .arr [], _, rest, _, fuel + 1, _ => rfl
  | .arr (item :: items), distinct, rest, _, fuel + 1, enough => by
      obtain ⟨first, others, same, solid, open_⟩ := @head_renderItems escape item items
      rw [Json.render, List.cons_append, List.length_cons, List.length_append] at enough
      have read := parseItems_render legible item items distinct.1 distinct.2 rest fuel (by
        simp only [List.length_singleton] at enough
        omega)
      rw [same] at read
      rw [Json.render, List.cons_append, List.cons_append, List.append_assoc, same, parseValue,
        if_neg (by decide), if_neg (by decide), if_pos rfl, List.cons_append, skipSpace_cons solid,
        List.head?_cons, if_neg (fun closed => open_ (Option.some.inj closed))]
      rw [List.singleton_append, ← List.cons_append, read, Option.map_some]
  | .obj [], _, rest, _, fuel + 1, _ => rfl
  | .obj (field :: fields), distinct, rest, _, fuel + 1, enough => by
      obtain ⟨others, same⟩ := @head_renderFields escape field fields
      rw [Json.render, List.cons_append, List.length_cons, List.length_append] at enough
      have read := parseMembers_render legible field fields distinct.2.1 distinct.2.2 rest fuel (by
        simp only [List.length_singleton] at enough
        omega)
      rw [same] at read
      rw [Json.render, List.cons_append, List.cons_append, List.append_assoc, same, parseValue,
        if_neg (by decide), if_pos rfl, List.cons_append, skipSpace_cons (by decide),
        List.head?_cons, if_neg (by decide)]
      have kept := @foldl_assign (field :: fields) [] distinct.1
      rw [List.singleton_append, ← List.cons_append, read, Option.map_some, kept]
      rfl
  | value, _, _, _, 0, enough => by
      obtain ⟨first, others, same, _⟩ := @head_render escape value
      rw [same] at enough
      cases enough

theorem parseItems_render (legible : Legible escape) : ∀ (item : Json) (items : List Json),
    item.Distinct → DistinctItems items → ∀ (rest : List Char) (fuel : Nat),
      ([','].intercalate (renderItems escape (item :: items))).length < fuel →
        parseItems fuel ([','].intercalate (renderItems escape (item :: items)) ++ ']' :: rest) =
          some (item :: items, rest)
  | item, items, distinct, others, rest, 0, enough => by cases enough
  | item, [], distinct, _, rest, fuel + 1, enough => by
      rw [renderItems, renderItems, List.intercalate_singleton] at enough ⊢
      have read := parseValue_render legible item distinct (']' :: rest) (by simp [Stops]) fuel
        (by omega)
      simp [parseItems, read]
  | item, next :: items, distinct, others, rest, fuel + 1, enough => by
      obtain ⟨first, _, same, solid, _⟩ := @head_renderItems escape next items
      rw [renderItems, renderItems, List.intercalate_cons_cons, ← renderItems] at enough ⊢
      rw [List.length_append, List.length_append, List.length_singleton] at enough
      have below := parseItems_render legible next items others.1 others.2 rest fuel (by omega)
      have read := fun tail => parseValue_render legible item distinct (',' :: tail)
        (by simp [Stops]) fuel (by omega)
      rw [same, List.cons_append] at below
      rw [same, List.append_assoc, List.append_assoc, List.singleton_append, List.cons_append]
      simp [parseItems, read, skipSpace_cons solid, below]

theorem parseMembers_render (legible : Legible escape) :
    ∀ (field : String × Json) (fields : List (String × Json)),
    field.2.Distinct → DistinctFields fields → ∀ (rest : List Char) (fuel : Nat),
      ([','].intercalate (renderFields escape (field :: fields))).length < fuel →
        parseMembers fuel ([','].intercalate (renderFields escape (field :: fields)) ++
            '\x7d' :: rest) = some (field :: fields, rest)
  | field, fields, distinct, others, rest, 0, enough => by cases enough
  | (key, value), [], distinct, _, rest, fuel + 1, enough => by
      rw [renderFields, renderFields, List.intercalate_singleton] at enough ⊢
      obtain ⟨first, text, same, solid, _⟩ := @head_render escape value
      have read := parseValue_render legible value distinct ('\x7d' :: rest) (by simp [Stops]) fuel
        (by simp only [List.length_cons, List.length_append] at enough; omega)
      have keyed (tail : List Char) := @parseString_text tail escape legible key
      rw [same, List.cons_append] at read
      simp [parseMembers, keyed, read, same, skipSpace_cons solid]
  | (key, value), next :: fields, distinct, others, rest, fuel + 1, enough => by
      obtain ⟨tail, following⟩ := @head_renderFields escape next fields
      rw [renderFields, renderFields_cons, List.intercalate_cons_cons, ← renderFields_cons] at enough ⊢
      obtain ⟨first, text, same, solid, _⟩ := @head_render escape value
      simp only [List.length_append, List.length_cons] at enough
      have below := parseMembers_render legible next fields others.1 others.2 rest fuel (by omega)
      have read (tail : List Char) := parseValue_render legible value distinct (',' :: tail)
        (by simp [Stops]) fuel (by omega)
      have keyed (tail : List Char) := @parseString_text tail escape legible key
      rw [following, List.cons_append] at below
      rw [same] at read
      rw [following]
      simp only [same, List.cons_append, List.append_assoc] at read ⊢
      have solid' : jsonSpace '"' = false := by decide
      simp [parseMembers, keyed, read, skipSpace_cons solid, skipSpace_cons solid', below]

end

/-- **Reading back a text.** -/
theorem loads_render (legible : Legible escape) (value : Json) (distinct : value.Distinct) :
    loads (value.render escape) = some value := by
  obtain ⟨first, others, same, solid, _⟩ := @head_render escape value
  have read := parseValue_render legible value distinct [] (by simp [Stops])
    ((value.render escape).length + 1) (by omega)
  rw [List.append_nil] at read
  have front : skipSpace (value.render escape) = value.render escape := by
    rw [same, skipSpace_cons solid]
  rw [loads, front, read]
  rfl

/-! ### Strings -/

theorem scanString_mark {mark : Char} {unit : Nat} (known : simpleEscape mark = some unit) :
    scanString ('\\' :: mark :: rest) =
      (scanString rest).map fun scanned => (unit :: scanned.1, scanned.2) := by
  have other : mark ≠ 'u' := by
    rintro rfl
    cases known
  rw [scanString.eq_def]
  simp [other, known]

theorem hexUnit_digits {unit : Nat} (small : unit < 0x10000) :
    hexUnit (hexDigit (unit / 4096 % 16)) (hexDigit (unit / 256 % 16)) (hexDigit (unit / 16 % 16))
      (hexDigit (unit % 16)) = some unit := by
  simp only [hexUnit, hexDigitValue_hexDigit _ (Nat.mod_lt _ (by decide)), Option.bind_eq_bind,
    Option.bind_some, Option.pure_def, Option.some.injEq]
  omega

theorem scanString_unicode {unit : Nat} (small : unit < 0x10000) :
    scanString (unicodeEscape unit ++ rest) =
      (scanString rest).map fun scanned => (unit :: scanned.1, scanned.2) := by
  rw [unicodeEscape, scanString.eq_def]
  simp [hexUnit_digits small]

theorem scanString_plain {char : Char} (quote : char ≠ '"') (slash : char ≠ '\\')
    (printed : 0x20 ≤ char.toNat) :
    scanString (char :: rest) =
      (scanString rest).map fun scanned => (char.toNat :: scanned.1, scanned.2) := by
  rw [scanString.eq_def]
  simp [quote, slash, Nat.not_lt.mpr printed]

theorem toNat_valid (char : Char) : char.toNat < 0xd800 ∨ 0xdfff < char.toNat ∧ char.toNat < 0x110000 :=
  char.valid

theorem joinUnits_toNat (char : Char) (units : List Nat) :
    joinUnits (char.toNat :: units) = (joinUnits units).map (char :: ·) := by
  have valid := toNat_valid char
  rw [joinUnits.eq_def]
  simp only [Char.ofNat_toNat]
  rw [if_neg (by omega), if_neg (by omega)]

/-- A character as one of the short escapes, and otherwise as `other` writes it. -/
def escapeShort (other : Char → List Char) (char : Char) : List Char :=
  if char = '"' then ['\\', '"']
  else if char = '\\' then ['\\', '\\']
  else if char = '\n' then ['\\', 'n']
  else if char = '\r' then ['\\', 'r']
  else if char = '\t' then ['\\', 't']
  else if char.toNat = 0x0c then ['\\', 'f']
  else if char.toNat = 0x08 then ['\\', 'b']
  else other char

theorem scanString_escapeShort {other : Char → List Char} {units : Char → List Nat}
    (short : ∀ char, char.toNat < 0x80 → units char = [char.toNat])
    (others : ∀ char rest, char ≠ '"' → char ≠ '\\' → scanString (other char ++ rest) =
      (scanString rest).map fun scanned => (units char ++ scanned.1, scanned.2))
    (char : Char) (rest : List Char) : scanString (escapeShort other char ++ rest) =
      (scanString rest).map fun scanned => (units char ++ scanned.1, scanned.2) := by
  have marked {mark : Char} (small : char.toNat < 0x80)
      (known : simpleEscape mark = some char.toNat) : scanString (['\\', mark] ++ rest) =
        (scanString rest).map fun scanned => (units char ++ scanned.1, scanned.2) := by
    rw [short char small]
    exact scanString_mark known
  rw [escapeShort]
  split
  next same => subst same; exact marked (by decide) rfl
  split
  next same => subst same; exact marked (by decide) rfl
  split
  next same => subst same; exact marked (by decide) rfl
  split
  next same => subst same; exact marked (by decide) rfl
  split
  next same => subst same; exact marked (by decide) rfl
  split
  next same => exact marked (by omega) (by rw [same]; rfl)
  split
  next same => exact marked (by omega) (by rw [same]; rfl)
  next quote slash _ _ _ _ _ => exact others char rest quote slash

/-- How `json.dumps` writes a character with `ensure_ascii=False`. -/
def escapeRaw : Char → List Char :=
  escapeShort fun char => if char.toNat < 0x20 then unicodeEscape char.toNat else [char]

theorem legible_escapeRaw : Legible escapeRaw := by
  refine ⟨fun char => [char.toNat], ?_, joinUnits_toNat⟩
  apply scanString_escapeShort (fun _ _ => rfl)
  intro char rest quote slash
  split
  · exact scanString_unicode (by omega)
  next printed => exact scanString_plain quote slash (Nat.not_lt.mp printed)

theorem ascii_unicodeEscape (unit : Nat) : ∀ written ∈ unicodeEscape unit, written.toNat < 128 := by
  have digit (value : Nat) : (hexDigit (value % 16)).toNat < 128 := by
    have every : ∀ value < 16, (hexDigit value).toNat < 128 := by decide
    exact every _ (Nat.mod_lt _ (by decide))
  simp only [unicodeEscape, List.mem_cons, List.not_mem_nil, or_false, forall_eq_or_imp, forall_eq]
  exact ⟨by decide, by decide, digit _, digit _, digit _, digit _⟩

theorem ascii_escapeRaw {char : Char} (ascii : char.toNat < 128) :
    ∀ written ∈ escapeRaw char, written.toNat < 128 := by
  have other : ∀ written ∈ (if char.toNat < 0x20 then unicodeEscape char.toNat else [char]),
      written.toNat < 128 := by
    split
    · exact ascii_unicodeEscape _
    · exact fun written member => List.mem_singleton.mp member ▸ ascii
  have short (letter : Char) (low : letter.toNat < 128) :
      ∀ written ∈ ['\\', letter], written.toNat < 128 := by
    intro written member
    rcases List.mem_cons.mp member with rfl | member
    · exact (by decide : '\\'.toNat < 128)
    · exact List.mem_singleton.mp member ▸ low
  unfold escapeRaw escapeShort
  repeat' split
  all_goals first
    | exact other
    | exact short _ (by decide)

theorem legible_escapeChar : Legible escapeChar := by
  have units_pair (char : Char) (wide : ¬char.toNat < 0x10000) (units : List Nat) :
      joinUnits ([0xd800 + (char.toNat - 0x10000) / 0x400,
        0xdc00 + (char.toNat - 0x10000) % 0x400] ++ units) = (joinUnits units).map (char :: ·) := by
    have valid := toNat_valid char
    have whole : 0x10000 + (0xd800 + (char.toNat - 0x10000) / 0x400 - 0xd800) * 0x400 +
        (0xdc00 + (char.toNat - 0x10000) % 0x400 - 0xdc00) = char.toNat := by omega
    rw [List.cons_append, joinUnits.eq_def]
    simp only [List.singleton_append]
    rw [if_pos (by omega), if_pos (by omega), whole, Char.ofNat_toNat]
  refine ⟨fun char => if char.toNat < 0x10000 then [char.toNat]
    else [0xd800 + (char.toNat - 0x10000) / 0x400, 0xdc00 + (char.toNat - 0x10000) % 0x400], ?_, ?_⟩
  · apply scanString_escapeShort (fun char small => if_pos (by omega))
    intro char rest quote slash
    have valid := toNat_valid char
    split
    next printed =>
      rw [if_pos (by omega)]
      exact scanString_plain quote slash printed.1
    · split
      next small => exact scanString_unicode small
      next wide =>
        rw [List.append_assoc, scanString_unicode (by omega), scanString_unicode (by omega)]
        cases scanString rest <;> rfl
  · intro char units
    beta_reduce
    split
    · exact joinUnits_toNat char units
    next wide => exact units_pair char wide units

end

end CapabilityHub
