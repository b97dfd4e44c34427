import CapabilityHub.Errors
import CapabilityHub.Data.Json
import CapabilityHub.Text.PosixPath
import Mathlib.Logic.Relation

/-! # References in an OpenAPI document

`_schema` puts in the place of a reference what it points to in the document. It visits the members
of an object and the items of an array, but not an array that is itself an item.
-/

namespace CapabilityHub.OpenApi

def error (code message : String) : Raised :=
  .hub { code, category := .input, safeMessage := message }

def invalidError : Raised := error "openapi_schema_invalid" "OpenAPI schemas must be objects."

def cycleError : Raised :=
  error "openapi_ref_cycle" "Cyclic OpenAPI references are not importable."

def remoteError : Raised :=
  error "openapi_remote_ref_forbidden" "Remote OpenAPI references are forbidden."

def notFoundError : Raised :=
  error "openapi_ref_not_found" "A local OpenAPI reference was not found."

/-- How a call ends that does not return. -/
inductive Halt where
  | raised (raised : Raised)
  /-- The references are nested deeper than the bound. -/
  | tooDeep

/-! ## Pointers -/

/-- `text.replace` of two different characters that follow each other. -/
def replacePair (first second new : Char) : List Char → List Char
  | char :: next :: rest =>
      if char = first ∧ next = second then new :: replacePair first second new rest
      else char :: replacePair first second new (next :: rest)
  | rest => rest

def unescapePart (part : String) : String :=
  String.ofList (replacePair '~' '0' '~' (replacePair '~' '1' '/' part.toList))

/-- The parts of a pointer, the text after `#/`. -/
def pointerParts? (reference : String) : Option (List String) :=
  match reference.toList with
  | '#' :: '/' :: rest => some ((splitSlash (String.ofList rest)).map unescapePart)
  | _ => none

/-- The loop of `_resolve_pointer`. -/
def resolveParts : Json → List String → Except Halt Json
  | value, [] => .ok value
  | .obj fields, part :: rest =>
      match mappingGet fields part with
      | some value => resolveParts value rest
      | none => .error (.raised notFoundError)
  | _, _ :: _ => .error (.raised notFoundError)

/-- `_resolve_pointer`. -/
def resolvePointer (root : Json) (reference : String) : Except Halt Json :=
  match pointerParts? reference with
  | some parts => resolveParts root parts
  | none => .error (.raised remoteError)

/-! ## Inlining -/

/-- The reference that an object stands for: a text under `$ref`. -/
def refOf (fields : List (String × Json)) : Option String :=
  match mappingGet fields "$ref" with
  | some (.str reference) => some reference
  | _ => none

/-- `_schema_item`, for what `_schema` makes of the value. It leaves everything else as it is, also an
array. -/
def schemaItem (asSchema : Except Halt Json) : Json → Except Halt Json
  | .obj _ => asSchema
  | value => pure value

section

variable (follow : String → Except Halt Json)

mutual

/-- What `_schema` makes of a value with `follow` for its references: of an object, and of the array
or the scalar that is a member of one. -/
def inlined : Json → Except Halt Json
  | .obj fields =>
      match refOf fields with
      | some reference => follow reference
      | none => do
          let members ← inlinedMembers fields
          pure (.obj members)
  | .arr items => do
      let inner ← schemaItems items
      pure (.arr inner)
  | value => pure value

def inlinedMembers : List (String × Json) → Except Halt (List (String × Json))
  | [] => pure []
  | (key, value) :: rest => do
      let item ← inlined value
      let others ← inlinedMembers rest
      pure ((key, item) :: others)

def schemaItems : List Json → Except Halt (List Json)
  | [] => pure []
  | item :: rest => do
      let inner ← schemaItem (inlined item) item
      let others ← schemaItems rest
      pure (inner :: others)

end

end

/-- `_schema`, with the references followed by `follow`. -/
def schemaWith (follow : String → Except Halt Json) (value : Json) : Except Halt Json :=
  match value with
  | .obj _ => inlined follow value
  | _ => .error (.raised invalidError)

/-- What `_schema` does with a reference, with a bound for how many are followed in one another. -/
def followReference (root : Json) (depth : Nat) (seen : List String) (reference : String) :
    Except Halt Json :=
  if reference ∈ seen then .error (.raised cycleError)
  else
    match depth with
    | 0 => .error .tooDeep
    | depth + 1 => do
        let resolved ← resolvePointer root reference
        schemaWith (followReference root depth (seen ++ [reference])) resolved

/-- `_schema` on a value that no reference has led to. -/
def schema (root : Json) (depth : Nat) (value : Json) : Except Halt Json :=
  schemaWith (followReference root depth []) value

/-! ## What the references mean -/

/-- The value that one part of a pointer leads to. An item of an array is under its index. -/
def stepInto : Json → String → Option Json
  | .obj fields, part => mappingGet fields part
  | .arr items, part => (items.zipIdx.find? fun item => toString item.2 = part).map (·.1)
  | _, _ => none

/-- The value that a reference denotes in the document. -/
def denoted (root : Json) (reference : String) : Option Json := do
  let parts ← pointerParts? reference
  parts.foldlM stepInto root

/-- What counts of the references inside an item. -/
def itemReferences (nested : Bool) (inner : List String) : Json → List String
  | .arr _ => if nested then inner else []
  | _ => inner

mutual

/-- The references inside a value, in the order of the document, those below another one apart. The
arrays that are items of arrays are left out unless `nested`. -/
def referencesIn (nested : Bool) : Json → List String
  | .obj fields =>
      match refOf fields with
      | some reference => [reference]
      | none => referencesOfMembers nested fields
  | .arr items => referencesOfItems nested items
  | _ => []

def referencesOfMembers (nested : Bool) : List (String × Json) → List String
  | [] => []
  | (_, value) :: rest => referencesIn nested value ++ referencesOfMembers nested rest

def referencesOfItems (nested : Bool) : List Json → List String
  | [] => []
  | item :: rest =>
      itemReferences nested (referencesIn nested item) item ++ referencesOfItems nested rest

end

/-- The references inside a value. -/
abbrev references : Json → List String := referencesIn true

/-- The references that `_schema` meets in a value. -/
abbrev visible : Json → List String := referencesIn false

/-- Whether an item of an array shows its references, for whether it does as a value. -/
def ItemShows (shows : Prop) (item : Json) : Prop :=
  match item with
  | .arr _ => references item = []
  | _ => shows

mutual

/-- **Shows**: no array that is an item of an array has a reference inside. -/
def Shows : Json → Prop
  | .obj fields => refOf fields = none → ShowsMembers fields
  | .arr items => ShowsItems items
  | _ => True

def ShowsMembers : List (String × Json) → Prop
  | [] => True
  | (_, value) :: rest => Shows value ∧ ShowsMembers rest

def ShowsItems : List Json → Prop
  | [] => True
  | item :: rest => ItemShows (Shows item) item ∧ ShowsItems rest

end

mutual

/-- A value with `replacement` in the place of every reference. -/
def substitute (replacement : String → Option Json) : Json → Option Json
  | .obj fields =>
      match refOf fields with
      | some reference => replacement reference
      | none => do
          let members ← substituteMembers replacement fields
          pure (.obj members)
  | .arr items => do
      let inner ← substituteItems replacement items
      pure (.arr inner)
  | value => pure value

def substituteMembers (replacement : String → Option Json) :
    List (String × Json) → Option (List (String × Json))
  | [] => pure []
  | (key, value) :: rest => do
      let item ← substitute replacement value
      let others ← substituteMembers replacement rest
      pure ((key, item) :: others)

def substituteItems (replacement : String → Option Json) : List Json → Option (List Json)
  | [] => pure []
  | item :: rest => do
      let inner ← substitute replacement item
      let others ← substituteItems replacement rest
      pure (inner :: others)

end

/-- What a reference stands for once the references in it are replaced too, again and again. -/
def replaced (root : Json) : Nat → String → Option Json
  | 0, _ => none
  | depth + 1, reference => do
      let target ← denoted root reference
      substitute (replaced root depth) target

/-- **Expands**: the result is the value with every reference replaced, at any depth. -/
def Expands (root value result : Json) : Prop :=
  ∃ depth, substitute (replaced root depth) value = some result

/-- One reference leads to another. -/
def Leads (root : Json) (reference next : String) : Prop :=
  ∃ target, denoted root reference = some target ∧ next ∈ references target

/-- A reference can be reached from a value. -/
def Reachable (root value : Json) (reference : String) : Prop :=
  ∃ first ∈ references value, Relation.ReflTransGen (Leads root) first reference

/-- Every reference that can be reached denotes an object of the document. -/
def Resolvable (root value : Json) : Prop :=
  ∀ reference, Reachable root value reference → ∃ fields, denoted root reference = some (.obj fields)

/-- Following references can lead back to one on the way. -/
def Cyclic (root value : Json) : Prop :=
  ∃ reference, Reachable root value reference ∧ Relation.TransGen (Leads root) reference reference

/-- **Inlines**: where the references denote objects, cycles and only cycles raise the error for them,
and else the result is the value with its references replaced. -/
def Inlines (root value : Json) (outcome : Except Halt Json) : Prop :=
  Resolvable root value →
    (outcome = .error (.raised cycleError) ↔ Cyclic root value) ∧
    (¬Cyclic root value →
      ∃ result, outcome = .ok result ∧ references result = [] ∧ Expands root value result)

end CapabilityHub.OpenApi
