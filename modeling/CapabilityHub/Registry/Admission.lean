import CapabilityHub.Registry.Exclusive

/-! # Admission

The checks on the manifests of a transaction, and the registry that replaces the running one:
all of its revisions are registered anew, and its activations replayed one by one
(`CapabilityHub.Registry.install_preserves`).
-/

namespace CapabilityHub.Registry

/-- `_invalid`. -/
def invalid (code : String) : Raised :=
  .hub { code := code, category := .input, safeMessage := "Capability admission validation failed." }

/-- `V1ALPHA1_FEATURES`. -/
def v1alpha1Features : List String :=
  ["manifest.deterministic-json-export", "manifest.extension-preservation",
    "manifest.explicit-migration-report", "security.required-features-fail-closed"]

/-- `_ROOTS`. -/
def permissionRoots : List String :=
  ["content", "filesystem", "network", "process", "secret", "system"]

/-- `_DRIVERS`. -/
def driverOf : CapabilityKind → String
  | .api => "http-api"
  | .cli => "cli-process"
  | .mcp => "mcp-stdio"
  | .rag => "local-rag"
  | .skill => "skill"

/-- A part of a permission between two dots. -/
def permissionPart : List Char → Bool
  | [] => false
  | first :: rest => 'a' ≤ first && first ≤ 'z' && rest.all fun character =>
      ('a' ≤ character && character ≤ 'z') || ('0' ≤ character && character ≤ '9') ||
        character = '_' || character = '-'

/-- The permission matches `_PERMISSION` and has one of the roots. -/
def admittedPermission (permission : String) : Bool :=
  let parts := permission.toList.splitOn '.'
  parts.all permissionPart && String.ofList (parts.headD []) ∈ permissionRoots

/-- `_mapping`. -/
def mapping : Option Json → Except Raised (List (String × Json))
  | some (.obj fields) => .ok fields
  | _ => .error (invalid "invalid_driver_config")

/-- `_text`. -/
def textField (value : List (String × Json)) (field : String) : Except Raised String :=
  match mappingGet value field with
  | some (.str raw) => if raw = "" then .error (invalid "invalid_driver_config") else .ok raw
  | _ => .error (invalid "invalid_driver_config")

/-- `_absolute`. -/
def absolute (config : List (String × Json)) (field : String) : Except Raised Unit := do
  let path ← textField config field
  raiseIf (¬startsWith path "/") (invalid "driver_path_not_absolute")

/-- The keys are the names of the operations. -/
def namesOperations (manifest : CapabilityManifest) (fields : List (String × Json)) : Bool :=
  let names := manifest.operations.map OperationSpec.name
  fields.all (fun field => field.1 ∈ names) && names.all fun name => name ∈ fields.map Prod.fst

/-- `_operation_map`. -/
def operationMap (config : List (String × Json)) (manifest : CapabilityManifest) (code : String) :
    Except Raised (List (List (String × Json))) := do
  let operations ← mapping (mappingGet config "operations")
  raiseIf (¬namesOperations manifest operations) (invalid code)
  operations.mapM fun entry => mapping (some entry.2)

/-- The required features, which have to be texts. -/
def requiredFeatures : Json → Except Raised (List String)
  | .arr items => items.mapM fun
      | .str feature => .ok feature
      | _ => .error (invalid "invalid_required_features")
  | _ => .error (invalid "invalid_required_features")

/-- The method and the path of an operation. A method that has no hash cannot be looked up. -/
def checkRoute (item : List (String × Json)) : Except Raised Unit := do
  match mappingGet item "method" with
  | some (.str method) =>
      raiseIf (method ∉ ["GET", "POST", "PUT", "PATCH", "DELETE"]) (invalid "invalid_api_driver")
  | some (.arr _) | some (.obj _) => throw .typeError
  | _ => throw (invalid "invalid_api_driver")
  match mappingGet item "path" with
  | some (.str path) => raiseIf (¬startsWith path "/") (invalid "invalid_api_driver")
  | _ => throw (invalid "invalid_api_driver")

variable (text : PythonText) (sha256 : Bytes → Bytes)

/-- The checks on the configuration of a driver. -/
def checkConfig (manifest : CapabilityManifest) (config : List (String × Json)) :
    Except Raised Unit :=
  match manifest.kind with
  | .cli => do
      absolute config "executable"
      let _ ← operationMap config manifest "invalid_cli_driver"
      pure ()
  | .mcp => do
      absolute config "command"
      let tools ← mapping (mappingGet config "tools")
      raiseIf (¬(namesOperations manifest tools && tools.all fun tool =>
          match tool.2 with
          | .str value => value ≠ ""
          | _ => false)) (invalid "invalid_mcp_driver")
  | .api => do
      let baseUrl ← textField config "baseUrl"
      match text.urlsplit baseUrl with
      | none => throw .valueError
      | some parsed =>
          raiseIf (parsed.scheme ∉ ["http", "https"] ∨ parsed.hostname.getD "" = "")
            (invalid "invalid_api_driver")
          let operations ← operationMap config manifest "invalid_api_driver"
          operations.forM checkRoute
  | .rag => do
      let root ← textField config "root"
      raiseIf (startsWith root "/" ∨ ".." ∈ splitSlash root) (invalid "invalid_rag_driver")
  | .skill => raiseIf (¬config.isEmpty) (invalid "invalid_skill_driver")

/-- The checks on the driver, which some manifests need not have. -/
def checkDriver (manifest : CapabilityManifest) : Except Raised Unit :=
  match mappingGet manifest.metadata "driver" with
  | none | some .null =>
      if (∀ operation ∈ manifest.operations, operation.operationType = .expand) ∨
          manifest.provider = "static" then .ok ()
      else if manifest.kind = .skill then
        raiseIf (manifest.provider ≠ "skill") (invalid "invalid_skill_driver")
      else .error (invalid "invalid_driver_config")
  | some rawDriver => do
      let driver ← mapping (some rawDriver)
      let name ← textField driver "name"
      raiseIf (name ≠ driverOf manifest.kind ∨ manifest.provider ≠ driverOf manifest.kind)
        (invalid "driver_kind_mismatch")
      let config ← mapping (mappingGet driver "config")
      checkConfig text manifest config

/-- `validate_manifest_semantics`. -/
def validateManifestSemantics (manifest : CapabilityManifest) : Except Raised Unit := do
  raiseIf (∃ item ∈ manifest.permissions, ¬admittedPermission item)
    (invalid "unsupported_permission")
  let extensions ← mapping (some ((mappingGet manifest.metadata "extensions").getD (.obj [])))
  let required ← requiredFeatures ((mappingGet extensions "requiredFeatures").getD (.arr []))
  raiseIf (∃ feature ∈ required, feature ∉ v1alpha1Features)
    (invalid "unsupported_required_feature")
  checkDriver text manifest

namespace CapabilityRegistry

variable (registry : CapabilityRegistry)

/-- The registry after a method that returns. -/
def after {α : Type} (work : Method α) : Except Raised CapabilityRegistry :=
  match work registry with
  | .ok _ final => .ok final
  | .error error _ => .error error

/-- `validate_staged`, for all revisions. -/
def validateStaged : Except Raised Unit := do
  let highest := selectedManifestValues text (registry.revisions.entries.map Prod.snd)
  let selected := Dict.ofEntries (highest.map fun manifest => (manifest.identity.coordinate, manifest))
  validateDependencies text selected false
  validateConflicts sha256 selected
  let _ ← resolveProjections text sha256 highest registry.projectionPolicy
  pure ()

/-- `validate_staged` of the given revisions. -/
def validateSelected (revisions : List String) : Except Raised Unit := do
  let manifests ← revisions.mapM registry.revision
  let highest := selectedManifestValues text manifests
  let selected := Dict.ofEntries (highest.map fun manifest => (manifest.identity.coordinate, manifest))
  validateDependencies text selected false
  validateConflicts sha256 selected
  let _ ← resolveProjections text sha256 highest registry.projectionPolicy
  pure ()

/-- The activations in turn. -/
def replay (activations : List (String × String)) : Except Raised CapabilityRegistry :=
  activations.foldlM (fun candidate entry =>
    candidate.after (activate text sha256 entry.1 (some entry.2))) registry

/-- The named revisions activated in turn. -/
def activateNamed (names : List String) : Except Raised CapabilityRegistry :=
  names.foldlM (fun candidate name => do
    let manifest ← candidate.revision name
    candidate.after (activate text sha256 manifest.identity.coordinate (some name))) registry

end CapabilityRegistry

/-- `validate_for_admission`. -/
def validateForAdmission (manifests : List CapabilityManifest) :
    Except Raised (List CapabilityManifest) := do
  manifests.forM (validateManifestSemantics text)
  let candidate ← construct text sha256 isolatePolicy
  let candidate ← candidate.after (registerMany text sha256 manifests)
  candidate.validateStaged text sha256
  pure manifests

open Transaction

/-- `install_validated`. The state is the running registry, which is only read. -/
def installValidated (manifests : List CapabilityManifest) (names : List String) :
    Method CapabilityRegistry := do
  let additions ← query fun _ => validateForAdmission text sha256 manifests
  let candidate ← query fun _ => construct text sha256 isolatePolicy
  let candidate ← query fun current =>
    candidate.after (registerMany text sha256 (current.revisions.entries.map Prod.snd ++ additions))
  let candidate ← query fun current => candidate.replay text sha256 current.active.entries
  let candidate ← query fun _ => candidate.activateNamed text sha256 names
  query fun _ => candidate.validateActive text sha256 candidate.active
  pure candidate

end CapabilityHub.Registry
