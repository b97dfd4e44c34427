import CapabilityHub.Models
import CapabilityHub.Text.Unicode
import Mathlib.Data.Prod.Lex
import Mathlib.Data.String.Basic

/-! # Versions and version constraints -/

namespace CapabilityHub.Registry

variable (text : PythonText)

/-- A run of decimal digits, with the number it writes. -/
def digits : List Char → Option Nat × List Char
  | [] => (none, [])
  | first :: rest =>
      match text.decimal first with
      | none => (none, first :: rest)
      | some value => follow value rest
where
  follow (number : Nat) : List Char → Option Nat × List Char
    | [] => (some number, [])
    | next :: rest =>
        match text.decimal next with
        | none => (some number, next :: rest)
        | some value => follow (10 * number + value) rest

/-- `(?:\.(\d+))?`. -/
def dottedNumber : List Char → Option Nat × List Char
  | '.' :: rest =>
      match digits text rest with
      | (some number, after) => (some number, after)
      | (none, _) => (none, '.' :: rest)
  | rest => (none, rest)

/-- `_version_number`: `none` where `_SEMVER_RE` does not match. -/
def versionNumber (value : String) : Option (Nat × Nat × Nat) :=
  match digits text value.toList with
  | (none, _) => none
  | (some major, rest) =>
      let (minor, rest) := dottedNumber text rest
      let (patch, rest) := dottedNumber text rest
      let number := (major, minor.getD 0, patch.getD 0)
      match rest with
      | [] => some number
      | mark :: rest => if (mark = '-' ∨ mark = '+') ∧ '\n' ∉ rest then some number else none

/-- The order of version numbers. -/
abbrev VersionNumber := Nat ×ₗ Nat ×ₗ Nat

def versionKey (number : Nat × Nat × Nat) : VersionNumber :=
  toLex (number.1, toLex (number.2.1, number.2.2))

/-- `_revision_order`. -/
def revisionOrder (manifest : CapabilityManifest) : Int ×ₗ Int ×ₗ Int ×ₗ String ×ₗ String :=
  let version := manifest.identity.version
  let (major, minor, patch) : Int × Int × Int :=
    match versionNumber text version with
    | none => (-1, -1, -1)
    | some (major, minor, patch) => (major, minor, patch)
  toLex (major, toLex (minor, toLex (patch, toLex (version, manifest.identity.revision))))

/-- One expression of a constraint. -/
def satisfiesExpression (candidate : Nat × Nat × Nat) (expression : String) : Bool :=
  let number := fun skipped => versionNumber text (String.ofList (expression.toList.drop skipped))
  let compared := fun skipped (holds : VersionNumber → Bool) =>
    match number skipped with
    | none => false
    | some target => holds (versionKey target)
  let least := versionKey candidate
  if startsWith expression "^" then
    match number 1 with
    | none => false
    | some lower => versionKey lower ≤ least && candidate.1 == lower.1
  else if startsWith expression "~" then
    match number 1 with
    | none => false
    | some lower =>
        versionKey lower ≤ least && candidate.1 == lower.1 && candidate.2.1 == lower.2.1
  else if startsWith expression ">=" then compared 2 fun target => target ≤ least
  else if startsWith expression "<=" then compared 2 fun target => least ≤ target
  else if startsWith expression ">" then compared 1 fun target => target < least
  else if startsWith expression "<" then compared 1 fun target => least < target
  else number 0 == some candidate

/-- `_satisfies`. -/
def satisfies (version : String) (dependency : DependencySpec) : Bool :=
  let constraint := strip dependency.versionConstraint
  if constraint = "" ∨ constraint = "*" then true
  else
    match versionNumber text version with
    | none => constraint == version
    | some candidate => (splitWords constraint).all (satisfiesExpression text candidate)

end CapabilityHub.Registry
