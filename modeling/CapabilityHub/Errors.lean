/-! # Errors -/

namespace CapabilityHub

inductive ErrorCategory where
  | input
  | reference
  | policy
  | approval
  | budget
  | conflict
  | provider
  | dependency
  | timeout
  | cancelled
  | internal
  deriving DecidableEq

/-- A value among the details of an error. -/
inductive ErrorDetail where
  | text (value : String)
  | texts (values : List String)
  | number (value : Int)
  | null
  deriving DecidableEq

structure CapabilityHubError where
  code : String
  category : ErrorCategory
  safeMessage : String
  retryable : Bool := false
  details : List (String × ErrorDetail) := []
  deriving DecidableEq

/-- An exception as a caller meets it. -/
inductive Raised where
  | hub (error : CapabilityHubError)
  | valueError
  | typeError
  | unicodeError
  deriving DecidableEq

end CapabilityHub
