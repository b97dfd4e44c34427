import Mathlib.Data.List.Infix
import Mathlib.Data.Prod.Lex

/-! # Semantic versions

A version is three numbers, the identifiers of a prerelease and those of a build. The order compares the
numbers as numbers; a prerelease comes before the version without it, and the build does not count.
-/

namespace CapabilityHub

/-- A character of an identifier. -/
def isIdentifierChar (char : Char) : Bool := char.isAlphanum || char = '-'

/-- An identifier of a prerelease: a number, or a text that is not all digits. -/
inductive PrereleaseIdentifier where
  | numeric (value : Nat)
  | alphanumeric (text : String) (plain : text.toList.all isIdentifierChar = true)
      (lettered : text.toList.all Char.isDigit = false)
  deriving DecidableEq

namespace PrereleaseIdentifier

def chars : PrereleaseIdentifier → List Char
  | numeric value => Nat.toDigits 10 value
  | alphanumeric text _ _ => text.toList

/-- Numbers come in their order before all texts, which are in the order of their characters. -/
def before : PrereleaseIdentifier → PrereleaseIdentifier → Bool
  | numeric first, numeric second => first < second
  | numeric _, alphanumeric _ _ _ => true
  | alphanumeric _ _ _, numeric _ => false
  | alphanumeric first _ _, alphanumeric second _ _ => first < second

end PrereleaseIdentifier

/-- The order of identifiers that are given: of the first that differ, and else the shorter first. -/
def identifiersBefore : List PrereleaseIdentifier → List PrereleaseIdentifier → Bool
  | [], [] => false
  | [], _ :: _ => true
  | _ :: _, [] => false
  | first :: rest, second :: rest' =>
      first.before second || (first = second && identifiersBefore rest rest')

/-- Whether one prerelease comes before another, or before none. -/
def prereleaseBefore (first second : List PrereleaseIdentifier) : Bool :=
  match first, second with
  | [], _ => false
  | _ :: _, [] => true
  | first, second => identifiersBefore first second

structure SemVer where
  major : Nat
  minor : Nat
  patch : Nat
  prerelease : List PrereleaseIdentifier := []
  build : List String := []
  plain : ∀ identifier ∈ build, identifier ≠ "" ∧ identifier.toList.all isIdentifierChar = true

namespace SemVer

variable (version other : SemVer)

def triple : Nat × Nat × Nat := (version.major, version.minor, version.patch)

/-- The order of the numbers. -/
def key : Nat ×ₗ Nat ×ₗ Nat := toLex (version.major, toLex (version.minor, version.patch))

/-- A version without a prerelease. -/
def Stable : Prop := version.prerelease = []

/-- The order of versions. -/
def precedes : Bool :=
  version.key < other.key ||
    (version.key = other.key && prereleaseBefore version.prerelease other.prerelease)

/-- Versions that differ in their builds at most. -/
def equals : Bool := version.key = other.key && version.prerelease = other.prerelease

/-- `version ≤ other` -/
def atMost : Bool := version.precedes other || version.equals other

/-- The prerelease and the build as they follow the numbers. -/
def suffix : List Char :=
  (if version.prerelease = [] then []
    else '-' :: ['.'].intercalate (version.prerelease.map PrereleaseIdentifier.chars)) ++
  (if version.build = [] then [] else '+' :: ['.'].intercalate (version.build.map String.toList))

/-- The text of a version. -/
def text : String :=
  String.ofList (Nat.toDigits 10 version.major ++ '.' :: (Nat.toDigits 10 version.minor ++
    '.' :: (Nat.toDigits 10 version.patch ++ version.suffix)))

end SemVer

/-- How many of its numbers a version that is named in a constraint shows. -/
inductive Precision where
  | major
  | minor
  | full

/-- A version as a constraint names it. The numbers that it does not show are zero. -/
structure NamedVersion where
  value : SemVer
  precision : Precision := .full
  hidden : (precision = .major → value.minor = 0 ∧ value.patch = 0) ∧
    (precision = .minor → value.patch = 0)

def NamedVersion.chars (named : NamedVersion) : List Char :=
  Nat.toDigits 10 named.value.major ++
    match named.precision with
    | .major => named.value.suffix
    | .minor => '.' :: (Nat.toDigits 10 named.value.minor ++ named.value.suffix)
    | .full =>
        '.' :: (Nat.toDigits 10 named.value.minor ++
          '.' :: (Nat.toDigits 10 named.value.patch ++ named.value.suffix))

/-- A version with all its numbers. -/
def SemVer.named (version : SemVer) : NamedVersion where
  value := version
  hidden := by simp

theorem SemVer.toList_text (version : SemVer) : version.text.toList = version.named.chars := by
  rw [SemVer.text, String.toList_ofList]
  rfl

/-! ## Characters -/

variable {version other : SemVer} {char : Char} {named : NamedVersion}

theorem isIdentifierChar_digit {value : Nat} (member : char ∈ Nat.toDigits 10 value) :
    isIdentifierChar char = true := by
  have digit := Nat.isDigit_of_mem_toDigits (by decide) (by decide) member
  rw [isIdentifierChar, Char.isAlphanum, digit, Bool.or_true, Bool.true_or]

theorem isIdentifierChar_chars {identifier : PrereleaseIdentifier} (member : char ∈ identifier.chars) :
    isIdentifierChar char = true := by
  cases identifier with
  | numeric value => exact isIdentifierChar_digit member
  | alphanumeric text plain _ => exact List.all_eq_true.mp plain char member

/-- A character of a version: of an identifier, a dot or a plus. -/
def isVersionChar (char : Char) : Bool := isIdentifierChar char || char = '.' || char = '+'

theorem isVersionChar_of_identifier (plain : isIdentifierChar char = true) : isVersionChar char = true := by
  rw [isVersionChar, plain, Bool.true_or, Bool.true_or]

theorem isVersionChar_joined {parts : List (List Char)}
    (plain : ∀ part ∈ parts, ∀ char ∈ part, isIdentifierChar char = true)
    (member : char ∈ ['.'].intercalate parts) : isVersionChar char = true := by
  induction parts with
  | nil => cases member
  | cons part parts ih =>
      rw [List.forall_mem_cons] at plain
      cases parts with
      | nil =>
          rw [List.intercalate_singleton] at member
          exact isVersionChar_of_identifier (plain.1 char member)
      | cons next parts =>
          rw [List.intercalate_cons_cons, List.append_assoc, List.mem_append, List.mem_append] at member
          rcases member with here | dot | later
          · exact isVersionChar_of_identifier (plain.1 char here)
          · rw [List.mem_singleton.mp dot]
            decide
          · exact ih plain.2 later

theorem isVersionChar_suffix (member : char ∈ version.suffix) : isVersionChar char = true := by
  rw [SemVer.suffix, List.mem_append] at member
  rcases member with inside | inside
  · split at inside
    · cases inside
    · rcases List.mem_cons.mp inside with rfl | joined
      · decide
      · refine isVersionChar_joined ?_ joined
        exact List.forall_mem_map.mpr fun identifier _ char member => isIdentifierChar_chars member
  · split at inside
    · cases inside
    · rcases List.mem_cons.mp inside with rfl | joined
      · decide
      · refine isVersionChar_joined ?_ joined
        refine List.forall_mem_map.mpr fun identifier among char member => ?_
        exact List.all_eq_true.mp (version.plain identifier among).2 char member

/-- The text of a version starts with a digit. -/
theorem NamedVersion.starts (named : NamedVersion) :
    ∃ first rest, named.chars = first :: rest ∧ first.isDigit = true := by
  cases written : Nat.toDigits 10 named.value.major with
  | nil => exact absurd written Nat.toDigits_ne_nil
  | cons first rest =>
      refine ⟨first, _, by rw [NamedVersion.chars, written, List.cons_append], ?_⟩
      apply Nat.isDigit_of_mem_toDigits (b := 10) (n := named.value.major) (by decide) (by decide)
      rw [written]
      exact List.mem_cons_self

/-- A suffix is nothing, or starts with a plus where there is no prerelease, and else with a hyphen. -/
theorem suffix_stable (stable : version.Stable) :
    version.suffix = [] ∨ ∃ rest, version.suffix = '+' :: rest := by
  rw [SemVer.Stable] at stable
  rw [SemVer.suffix, if_pos stable, List.nil_append]
  split
  · exact .inl rfl
  · exact .inr ⟨_, rfl⟩

theorem suffix_prerelease (prerelease : ¬version.Stable) : ∃ rest, version.suffix = '-' :: rest := by
  rw [SemVer.Stable] at prerelease
  rw [SemVer.suffix, if_neg prerelease, List.cons_append]
  exact ⟨_, rfl⟩

/-! ## The order of the texts -/

/-- As texts the prereleases of some numbers come after the versions without one. -/
theorem text_lt (numbers : version.triple = other.triple) (stable : version.Stable)
    (prerelease : ¬other.Stable) : version.text < other.text := by
  obtain ⟨rest, late⟩ := suffix_prerelease prerelease
  have suffixes : version.suffix < other.suffix := by
    rw [late]
    rcases suffix_stable stable with none | ⟨rest', early⟩
    · rw [none]
      exact List.nil_lt_cons _ _
    · rw [early]
      exact List.cons_lt_cons_iff.mpr (.inl (by decide))
  have major : version.major = other.major := (Prod.ext_iff.mp numbers).1
  have minor : version.minor = other.minor := (Prod.ext_iff.mp (Prod.ext_iff.mp numbers).2).1
  have patch : version.patch = other.patch := (Prod.ext_iff.mp (Prod.ext_iff.mp numbers).2).2
  rw [String.lt_iff, SemVer.text, SemVer.text, String.toList_ofList, String.toList_ofList, major, minor, patch]
  apply List.append_left_lt
  apply List.cons_lt_cons_iff.mpr
  refine .inr ⟨rfl, ?_⟩
  apply List.append_left_lt
  apply List.cons_lt_cons_iff.mpr
  refine .inr ⟨rfl, ?_⟩
  exact List.append_left_lt suffixes

end CapabilityHub
