import Mathlib.Data.List.Basic

/-! # Paths of a POSIX system -/

namespace CapabilityHub

/-- `text.split("/")`. -/
def splitSlash (text : String) : List String := (text.toList.splitOn '/').map String.ofList

/-- The slashes a normalised path keeps at its front: exactly two stay two. -/
def leadingSlashes (text : String) : Nat :=
  match text.toList with
  | '/' :: '/' :: '/' :: _ => 1
  | '/' :: '/' :: _ => 2
  | '/' :: _ => 1
  | _ => 0

/-- One component of a path after those in `kept`, the last of them first. -/
def normStep (slashes : Nat) (kept : List String) (component : String) : List String :=
  if component = "" ∨ component = "." then kept
  else if component ≠ ".." ∨ (slashes = 0 ∧ kept = []) ∨ kept.head? = some ".." then
    component :: kept
  else kept.tail

/-- `posixpath.normpath`. -/
def posixNormpath (text : String) : String :=
  let slashes := leadingSlashes text
  let components := ((splitSlash text).foldl (normStep slashes) []).reverse
  let joined := String.ofList (List.replicate slashes '/') ++ "/".intercalate components
  if joined = "" then "." else joined

example : posixNormpath "/a/./b//../c/../../.." = "/" := by decide

example : posixNormpath "../a/../../b" = "../../b" := by decide

end CapabilityHub
