import CapabilityHub.References
import Mathlib.Data.List.Lex

/-! # Decoded JSON

What `json.loads` can return: floats with those that are not finite, and texts of any code points. A text
with a surrogate of its own is not encoded (`CapabilityHub.exists_encode_iff`).
-/

namespace CapabilityHub

/-- A code point of a `str`. -/
inductive CodePoint where
  | scalar (char : Char)
  | surrogate (half : Fin 2048)
  deriving DecidableEq

/-- `ord` -/
def CodePoint.number : CodePoint → Nat
  | scalar char => char.toNat
  | surrogate half => 0xd800 + half

def CodePoint.char? : CodePoint → Option Char
  | scalar char => some char
  | surrogate _ => none

/-- A `str`. -/
abbrev CodePoints := List CodePoint

def codePoints (text : String) : CodePoints := text.toList.map .scalar

/-- `text.encode("utf-8")`; `none` where it raises. -/
def encode (text : CodePoints) : Option Bytes :=
  (text.mapM CodePoint.char?).map fun chars => encodeUtf8 (String.ofList chars)

/-- A `float`, a finite one by its value. -/
inductive PyFloat where
  | finite (value : Rat)
  | negativeZero
  | infinite (negative : Bool)
  | nan

/-- `value == number` -/
def PyFloat.equals : PyFloat → Int → Bool
  | finite value, number => value = number
  | negativeZero, number => number = 0
  | infinite _, _ | nan, _ => false

inductive PyValue where
  | null
  | bool (value : Bool)
  | int (value : Int)
  | float (value : PyFloat)
  | str (text : CodePoints)
  | arr (items : List PyValue)
  | obj (fields : List (CodePoints × PyValue))

/-! ## Canonical texts -/

/-- A code point in a string literal with `ensure_ascii=False`. -/
def escapeCodePoint : CodePoint → CodePoints
  | .scalar char => (escapeRaw char).map .scalar
  | .surrogate half => [.surrogate half]

def quoteCodePoints (text : CodePoints) : CodePoints :=
  .scalar '"' :: text.flatMap escapeCodePoint ++ [.scalar '"']

-- `repr` of a float
variable (floatText : PyFloat → String)

mutual

/-- `canonical_json`. -/
def PyValue.canonical : PyValue → CodePoints
  | .null => codePoints "null"
  | .bool true => codePoints "true"
  | .bool false => codePoints "false"
  | .int value => codePoints (toString value)
  | .float value => codePoints (floatText value)
  | .str text => quoteCodePoints text
  | .arr items => .scalar '[' :: [.scalar ','].intercalate (canonicalItems items) ++ [.scalar ']']
  | .obj fields =>
      .scalar '\x7b' :: [.scalar ','].intercalate (((canonicalFields fields).insertionSort fun first second =>
        first.1.map CodePoint.number ≤ second.1.map CodePoint.number).map fun field =>
          quoteCodePoints field.1 ++ .scalar ':' :: field.2) ++ [.scalar '\x7d']

def canonicalItems : List PyValue → List CodePoints
  | [] => []
  | item :: rest => item.canonical :: canonicalItems rest

def canonicalFields : List (CodePoints × PyValue) → List (CodePoints × CodePoints)
  | [] => []
  | (key, value) :: rest => (key, value.canonical) :: canonicalFields rest

end

mutual

/-- How deep the containers of a value are nested. -/
def PyValue.depth : PyValue → Nat
  | .arr items => depthItems items + 1
  | .obj fields => depthFields fields + 1
  | _ => 0

def depthItems : List PyValue → Nat
  | [] => 0
  | item :: rest => max item.depth (depthItems rest)

def depthFields : List (CodePoints × PyValue) → Nat
  | [] => 0
  | (_, value) :: rest => max value.depth (depthFields rest)

end

/-! ## Surrogates -/

/-- A text without surrogates. -/
def Scalars (text : CodePoints) : Prop := ∀ half, .surrogate half ∉ text

mutual

/-- A value without surrogates in its texts. -/
def PyValue.Scalar : PyValue → Prop
  | .str text => Scalars text
  | .arr items => ScalarItems items
  | .obj fields => ScalarFields fields
  | _ => True

def ScalarItems : List PyValue → Prop
  | [] => True
  | item :: rest => item.Scalar ∧ ScalarItems rest

def ScalarFields : List (CodePoints × PyValue) → Prop
  | [] => True
  | (key, value) :: rest => Scalars key ∧ value.Scalar ∧ ScalarFields rest

end

variable {floatText} {text text' : CodePoints} {texts : List CodePoints}

theorem scalars_codePoints (text : String) : Scalars (codePoints text) := by
  intro half member
  obtain ⟨char, _, same⟩ := List.mem_map.mp member
  cases same

theorem codePoints_injective : Function.Injective codePoints := by
  have scalar : Function.Injective CodePoint.scalar := fun _ _ same => CodePoint.scalar.inj same
  intro first second same
  exact String.toList_injective (List.map_injective_iff.mpr scalar same)

theorem scalars_nil : Scalars [] := fun _ => List.not_mem_nil

theorem scalars_append : Scalars (text ++ text') ↔ Scalars text ∧ Scalars text' := by
  simp only [Scalars, List.mem_append, not_or, forall_and]

theorem scalars_cons {char : Char} : Scalars (.scalar char :: text) ↔ Scalars text := by
  simp [Scalars]

theorem scalars_intercalate : Scalars ([.scalar ','].intercalate texts) ↔ ∀ text ∈ texts, Scalars text := by
  induction texts with
  | nil => simp [scalars_nil]
  | cons text texts ih =>
      cases texts with
      | nil => simp
      | cons next rest =>
          rw [List.intercalate_cons_cons, scalars_append, scalars_append, ih, List.forall_mem_cons,
            scalars_cons]
          simp [scalars_nil]

theorem scalars_quote : Scalars (quoteCodePoints text) ↔ Scalars text := by
  rw [quoteCodePoints, List.cons_append, scalars_cons, scalars_append, scalars_cons,
    and_iff_left scalars_nil]
  simp only [Scalars, List.mem_flatMap, not_exists, not_and]
  constructor
  · intro plain half member
    exact plain half _ member (List.mem_singleton_self _)
  · intro plain half point member written
    cases point with
    | scalar char =>
        obtain ⟨_, _, same⟩ := List.mem_map.mp written
        cases same
    | surrogate other => exact plain other member

theorem mapM_scalar {char : Char} :
    (.scalar char :: text).mapM CodePoint.char? = (text.mapM CodePoint.char?).map (char :: ·) := by
  rw [List.mapM_cons]
  cases text.mapM CodePoint.char? <;> rfl

theorem mapM_surrogate {half : Fin 2048} : (.surrogate half :: text).mapM CodePoint.char? = none := by
  rw [List.mapM_cons]
  rfl

theorem exists_encode_iff : (∃ bytes, encode text = some bytes) ↔ Scalars text := by
  have chars : (∃ chars, text.mapM CodePoint.char? = some chars) ↔ Scalars text := by
    induction text with
    | nil => simp [scalars_nil]
    | cons point text ih =>
        cases point with
        | scalar char =>
            rw [scalars_cons, ← ih, mapM_scalar]
            simp
        | surrogate half =>
            rw [mapM_surrogate]
            exact iff_of_false (by simp) fun plain => plain half List.mem_cons_self
  rw [← chars, encode]
  simp only [Option.map_eq_some_iff]
  constructor
  · intro ⟨_, chars, read, _⟩
    exact ⟨chars, read⟩
  · intro ⟨chars, read⟩
    exact ⟨_, chars, read, rfl⟩

theorem encode_injective {bytes : Bytes} (first : encode text = some bytes) (second : encode text' = some bytes) :
    text = text' := by
  have chars {text : CodePoints} {chars : List Char} (read : text.mapM CodePoint.char? = some chars) :
      text = chars.map CodePoint.scalar := by
    induction text generalizing chars with
    | nil =>
        cases read
        rfl
    | cons point text ih =>
        cases point with
        | scalar char =>
            rw [mapM_scalar] at read
            obtain ⟨rest, below, rfl⟩ := Option.map_eq_some_iff.mp read
            rw [List.map_cons, ih below]
        | surrogate half =>
            rw [mapM_surrogate] at read
            cases read
  obtain ⟨firsts, read, same⟩ := Option.map_eq_some_iff.mp first
  obtain ⟨seconds, read', same'⟩ := Option.map_eq_some_iff.mp second
  have equal := String.ofList_injective (References.encodeUtf8_injective (same.trans same'.symm))
  rw [chars read, chars read', equal]

theorem scalarItems_iff {items : List PyValue} : ScalarItems items ↔ ∀ item ∈ items, item.Scalar := by
  induction items with
  | nil => simp [ScalarItems]
  | cons item items ih => rw [ScalarItems, ih, List.forall_mem_cons]

theorem depthItems_le {items : List PyValue} {limit : Nat} :
    depthItems items ≤ limit ↔ ∀ item ∈ items, item.depth ≤ limit := by
  induction items with
  | nil => simp [depthItems]
  | cons item items ih => rw [depthItems, Nat.max_le, ih, List.forall_mem_cons]

mutual

theorem scalars_canonical : ∀ {value : PyValue}, Scalars (value.canonical floatText) ↔ value.Scalar
  | .null => iff_of_true (scalars_codePoints _) trivial
  | .bool true => iff_of_true (scalars_codePoints _) trivial
  | .bool false => iff_of_true (scalars_codePoints _) trivial
  | .int value => iff_of_true (scalars_codePoints _) trivial
  | .float value => iff_of_true (scalars_codePoints _) trivial
  | .str text => scalars_quote
  | .arr items => by
      rw [PyValue.canonical, PyValue.Scalar, List.cons_append, scalars_cons, scalars_append, scalars_cons,
        and_iff_left scalars_nil, scalars_intercalate]
      exact scalars_canonicalItems
  | .obj fields => by
      rw [PyValue.canonical, PyValue.Scalar, List.cons_append, scalars_cons, scalars_append, scalars_cons,
        and_iff_left scalars_nil, scalars_intercalate, ← scalars_canonicalFields]
      simp only [List.mem_map, List.mem_insertionSort, forall_exists_index, and_imp,
        forall_apply_eq_imp_iff₂, scalars_append, scalars_quote, scalars_cons]

theorem scalars_canonicalItems : ∀ {items : List PyValue},
    (∀ text ∈ canonicalItems floatText items, Scalars text) ↔ ScalarItems items
  | [] => iff_of_true (by simp [canonicalItems]) trivial
  | item :: rest => by
      rw [canonicalItems, ScalarItems, List.forall_mem_cons, scalars_canonical, scalars_canonicalItems]

theorem scalars_canonicalFields : ∀ {fields : List (CodePoints × PyValue)},
    (∀ field ∈ canonicalFields floatText fields, Scalars field.1 ∧ Scalars field.2) ↔ ScalarFields fields
  | [] => iff_of_true (by simp [canonicalFields]) trivial
  | (key, value) :: rest => by
      rw [canonicalFields, ScalarFields, List.forall_mem_cons, scalars_canonical, scalars_canonicalFields,
        and_assoc]

end

end CapabilityHub
