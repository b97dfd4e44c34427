import CapabilityHub.Data.Checks

/-! # Computations that agree

Two computations that may fail agree where they fail with the same error, or both give results that are
related. The rules follow the ways in which computations are put together.
-/

namespace CapabilityHub

variable {ε α α' β β' : Type} {related : α → α' → Prop} {later : β → β' → Prop}

/-- The same error, or results that are related. -/
inductive Agree (related : α → α' → Prop) : Except ε α → Except ε α' → Prop
  | ok {result : α} {result' : α'} (same : related result result') :
      Agree related (.ok result) (.ok result')
  | error (error : ε) : Agree related (.error error) (.error error)

namespace Agree

theorem bind {first : Except ε α} {first' : Except ε α'} {rest : α → Except ε β}
    {rest' : α' → Except ε β'} (agree : Agree related first first')
    (rest_agrees : ∀ result result', related result result' → Agree later (rest result) (rest' result')) :
    Agree later (first >>= rest) (first' >>= rest') := by
  cases agree with
  | ok same => exact rest_agrees _ _ same
  | error error => exact .error error

/-- What both do before does not matter. -/
theorem after {first : Except ε α} {rest : α → Except ε β} {rest' : α → Except ε β'}
    (rest_agrees : ∀ result, Agree later (rest result) (rest' result)) :
    Agree later (first >>= rest) (first >>= rest') := by
  cases first with
  | error error => exact .error error
  | ok result => exact rest_agrees result

end Agree

end CapabilityHub
