import CapabilityHub.Data.Checks
import CapabilityHub.Data.Dict
import CapabilityHub.Data.Json
import CapabilityHub.Errors

/-! # The preference store

`state.py`. A setting is one read of the file of a scope and one replacement of it, and other calls may
come between the two.
-/

namespace CapabilityHub.Preferences

/-- `_LOCALES` -/
def locales : List String := ["auto", "en", "zh-CN"]

/-- `_STATES` -/
def states : List String := ["enabled", "disabled", "quarantined"]

/-- `_input`. -/
def inputError (code message : String) : Raised :=
  .hub { code := code, category := .input, safeMessage := message }

/-- The file of a scope. -/
inductive File where
  | absent
  /-- A file that is not read as a JSON object, and what reading it raises. -/
  | invalid (error : Raised)
  | document (payload : Dict String Json)

/-- `_read`. -/
def File.read : File → Except Raised (Dict String Json)
  | .absent => .ok ((∅ : Dict String Json).set "schema_version" (.int 1))
  | .invalid error => .error error
  | .document payload => .ok payload

/-- `payload["capabilities"]`, where it is an object. -/
def capabilitiesOf (payload : Dict String Json) : List (String × Json) :=
  match payload.get? "capabilities" with
  | some (.obj values) => values
  | _ => []

/-- A call of `set_locale` or `set_lifecycle`. -/
inductive Setting where
  | locale (name : String)
  | lifecycle (coordinate state : String)
  deriving DecidableEq

/-- The checks on the arguments. -/
def Setting.check : Setting → Except Raised Unit
  | .locale given => raiseIf (given ∉ locales)
      (inputError "invalid_locale" "Locale must be auto, en, or zh-CN.")
  | .lifecycle coordinate state => do
      raiseIf (coordinate = "" ∨ '@' ∈ coordinate.toList ∨ '#' ∈ coordinate.toList)
        (inputError "invalid_coordinate"
          "Lifecycle settings require a capability coordinate, not a revision.")
      raiseIf (state ∉ states)
        (inputError "invalid_lifecycle_state"
          "Lifecycle state must be enabled, disabled, or quarantined.")

/-- What is stored for a setting. -/
def Setting.value : Setting → Json
  | .locale name => .str name
  | .lifecycle _ state => .obj [("state", .str state)]

/-- The payload that a call writes, from the one that it read. -/
def Setting.apply (setting : Setting) (payload : Dict String Json) : Dict String Json :=
  match setting with
  | .locale _ => payload.set "locale" setting.value
  | .lifecycle coordinate _ =>
      payload.set "capabilities" (.obj (assign coordinate setting.value (capabilitiesOf payload)))

/-- The state of a coordinate among those that `_states` keeps. -/
def stateOf (value : Json) : Option String :=
  match value with
  | .obj item =>
      match mappingGet item "state" with
      | some (.str state) => if state ∈ states then some state else none
      | _ => none
  | _ => none

/-- `lifecycle_states`, at a coordinate: the project's state before the global one. -/
def lifecycleState (globalFile projectFile : File) (coordinate : String) :
    Except Raised (Option String) := do
  let globalPayload ← globalFile.read
  let projectPayload ← projectFile.read
  let state (payload : Dict String Json) :=
    (mappingGet (capabilitiesOf payload) coordinate).bind stateOf
  pure ((state projectPayload).or (state globalPayload))

/-! ## Interleaved calls -/

/-- A call that has read the file. -/
structure Call where
  setting : Setting
  base : Dict String Json
  started : Nat

/-- A call that has returned. -/
structure Finished where
  setting : Setting
  started : Nat
  returned : Nat
  deriving DecidableEq

/-- The file of a scope, the calls under way and those that have returned, and the number of steps
taken. -/
structure Scope where
  file : File
  calls : List Call := []
  finished : List Finished := []
  clock : Nat := 0

inductive Action where
  /-- A call checks its arguments and reads the file. -/
  | start (setting : Setting)
  /-- A call replaces the file and returns. -/
  | finish (index : Nat)
  deriving DecidableEq

def step (scope : Scope) : Action → Scope
  | .start setting =>
      match setting.check, scope.file.read with
      | .ok (), .ok payload =>
          { scope with calls := scope.calls ++ [⟨setting, payload, scope.clock⟩]
                       clock := scope.clock + 1 }
      | _, _ => { scope with clock := scope.clock + 1 }
  | .finish index =>
      match scope.calls[index]? with
      | some call =>
          { file := .document (call.setting.apply call.base)
            calls := scope.calls.eraseIdx index
            finished := scope.finished ++ [⟨call.setting, call.started, scope.clock⟩]
            clock := scope.clock + 1 }
      | none => scope

end CapabilityHub.Preferences
