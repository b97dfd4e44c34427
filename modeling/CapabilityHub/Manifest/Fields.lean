import CapabilityHub.Manifest.Parse

/-! # What the fields of a manifest are read from

Each check of the parser passes on exactly the values named here.
-/

namespace CapabilityHub.Manifest

variable {value : Json} {field text : String} {limit : Nat}

/-- A text that is not empty, within a limit. -/
def Fits (limit : Nat) (text : String) : Prop := text ≠ "" ∧ text.length ≤ limit

theorem string_eq_ok : string value field limit = .ok text ↔ value = .str text ∧ Fits limit text := by
  cases value with
  | str given =>
      rw [string, Fits, Json.str.injEq]
      by_cases refused : given = "" ∨ limit < given.length
      · rw [if_pos refused]
        constructor
        · intro raised
          cases raised
        · rintro ⟨rfl, present, small⟩
          rcases refused with empty | long
          · exact absurd empty present
          · omega
      · rw [if_neg refused, Except.ok.injEq]
        rw [not_or, Nat.not_lt] at refused
        constructor
        · rintro rfl
          exact ⟨rfl, refused⟩
        · exact fun same => same.1
  | _ => simp [string]

theorem isName_ne_empty (named : isName text.toList = true) : text ≠ "" := by
  rintro rfl
  cases named

theorem length_of_isName (named : isName text.toList = true) : text.length ≤ maxNameChars := by
  rw [← String.length_toList]
  cases letters : text.toList with
  | nil => exact Nat.zero_le _
  | cons first rest =>
      rw [letters, isName] at named
      simp only [Bool.and_eq_true, decide_eq_true_eq] at named
      rw [List.length_cons, maxNameChars]
      omega

theorem name_eq_ok : name value field = .ok text ↔ value = .str text ∧ isName text.toList = true := by
  rw [name]
  simp only [bind_eq_ok, string_eq_ok, exists_unit, raiseIf_eq_ok, pure_eq_ok, Bool.not_eq_false]
  constructor
  · rintro ⟨given, ⟨rfl, _⟩, named, rfl⟩
    exact ⟨rfl, named⟩
  · rintro ⟨rfl, named⟩
    exact ⟨text, ⟨rfl, isName_ne_empty named, length_of_isName named⟩, named, rfl⟩

end CapabilityHub.Manifest
