import CapabilityHub.Data.Checks
import CapabilityHub.Data.JsonMembers
import CapabilityHub.Errors
import CapabilityHub.Models
import CapabilityHub.Text.Unicode

/-! # Parsing manifests

`parse_manifest`. What the meta-schema of JSON Schema admits is a parameter.
-/

namespace CapabilityHub

namespace Manifest

/-- `API_VERSION` -/
def apiVersion : String := "capabilityhub.io/v1alpha1"

/-- `MAX_SUMMARY_CHARS` -/
def maxSummaryChars : Nat := 480

/-- `MAX_NAME_CHARS` -/
def maxNameChars : Nat := 63

/-- `_invalid`. -/
def invalid (code message : String) : Raised :=
  .hub { code := code, category := .input, safeMessage := message }

/-! ## Fields -/

/-- `raw.get(key, default)`. -/
def get (raw : List (String × Json)) (key : String) (default : Json) : Json :=
  (mappingGet raw key).getD default

/-- `_mapping`. -/
def mapping (value : Json) (field : String) : Except Raised (List (String × Json)) :=
  match value with
  | .obj fields => .ok fields
  | _ => .error (invalid "invalid_manifest_field" (field ++ " must be an object."))

/-- `_mapping_or_empty`. -/
def mappingOrEmpty (value : Json) (field : String) : Except Raised (List (String × Json)) :=
  match value with
  | .null => .ok []
  | value => mapping value field

/-- `_sequence`. -/
def sequence (value : Json) (field : String) : Except Raised (List Json) :=
  match value with
  | .arr items => .ok items
  | _ => .error (invalid "invalid_manifest_field" (field ++ " must be an array."))

/-- `_string`. -/
def string (value : Json) (field : String) (maxLength : Nat) : Except Raised String :=
  match value with
  | .str text =>
      if text = "" ∨ maxLength < text.length then
        .error (invalid "invalid_manifest_field"
          (field ++ " must be a non-empty string within its size limit."))
      else .ok text
  | _ => .error (invalid "invalid_manifest_field"
      (field ++ " must be a non-empty string within its size limit."))

/-- A lowercase letter or a digit. -/
def isPlain (c : Char) : Bool := ('a' ≤ c && c ≤ 'z') || ('0' ≤ c && c ≤ '9')

/-- `_NAME_RE.fullmatch`. -/
def isName : List Char → Bool
  | [] => false
  | first :: rest => isPlain first && decide (rest.length ≤ 62) &&
      rest.all fun c => isPlain c || c = '.' || c = '_' || c = '-'

/-- `_DIGEST_RE.fullmatch`. -/
def isDigest (digest : List Char) : Bool :=
  "sha256:".toList.isPrefixOf digest && decide (digest.length = 71) &&
    (digest.drop 7).all fun c => ('0' ≤ c && c ≤ '9') || ('a' ≤ c && c ≤ 'f')

/-- `_name`. -/
def name (value : Json) (field : String) : Except Raised String := do
  let text ← string value field maxNameChars
  raiseIf (isName text.toList = false)
    (invalid "invalid_name" (field ++ " must use lowercase capability-name syntax."))
  pure text

/-- `_coordinate`. -/
def coordinate (value : Json) (field : String) : Except Raised String := do
  let text ← string value field (maxNameChars * 2 + 1)
  match text.toList.splitOn '/' with
  | [first, second] => do
      let _ ← name (.str (String.ofList first)) field
      let _ ← name (.str (String.ofList second)) field
      pure text
  | _ => .error (invalid "invalid_coordinate" (field ++ " must be namespace/name."))

/-- `_enum`, of the members of a type and their texts. -/
def enum {α : Type} (members : List α) (text : α → String) (value : Json) (field : String) :
    Except Raised α :=
  let refusal := invalid "invalid_enum"
    (field ++ " must be one of: " ++ ", ".intercalate (members.map text) ++ ".")
  match value with
  | .str given =>
      match members.find? fun member => text member = given with
      | some member => .ok member
      | none => .error refusal
  | _ => .error refusal

/-- A field that has to be a truth value. -/
def boolean (value : Json) (code message : String) : Except Raised Bool :=
  match value with
  | .bool given => .ok given
  | _ => .error (invalid code message)

/-- `_unique`. -/
def unique {κ : Type} [DecidableEq κ] (value : κ) (seen : List κ) (code message : String) :
    Except Raised Unit :=
  raiseIf (value ∈ seen) (invalid code message)

/-- A loop over the items of a list with the keys it has seen, from an index on. -/
def collect {α β κ : Type} (item : Nat → List κ → α → Except Raised β) (key : β → κ) :
    Nat → List κ → List α → Except Raised (List β)
  | _, _, [] => .ok []
  | index, seen, first :: rest => do
      let result ← item index seen first
      let results ← collect item key (index + 1) (key result :: seen) rest
      pure (result :: results)

/-! ## Parts of a manifest -/

/-- `_parse_identity`. -/
def parseIdentity (metadata : List (String × Json)) : Except Raised CapabilityIdentity := do
  let capabilityNamespace ← name (get metadata "namespace" .null) "metadata.namespace"
  let capabilityName ← name (get metadata "name" .null) "metadata.name"
  let version ← string (get metadata "version" .null) "metadata.version" 128
  raiseIf (version.toList.any isSpace = true)
    (invalid "invalid_version" "metadata.version must not contain whitespace.")
  let digest ← string (get metadata "digest" .null) "metadata.digest" 80
  raiseIf (isDigest digest.toList = false)
    (invalid "invalid_digest" "metadata.digest must be a lowercase sha256 digest.")
  pure ⟨capabilityNamespace, capabilityName, version, digest⟩

/-- `_provider`. -/
def provider (spec : List (String × Json)) : Except Raised String :=
  match get spec "provider" .null with
  | .null => do
      let driver ← mapping (get spec "driver" .null) "spec.driver"
      string (get driver "name" .null) "spec.driver.name" 128
  | direct => string direct "spec.provider" 128

/-- `_summary`. -/
def summary (value : Json) : Except Raised String := do
  let text ← string value "spec.summary" maxSummaryChars
  raiseIf (strip text = "") (invalid "invalid_summary" "spec.summary must not be blank.")
  pure text

/-- `_schema`. -/
def schema (raw : List (String × Json)) (current legacy reference : String) :
    Except Raised (List (String × Json)) :=
  match mappingGet raw current with
  | some value => mapping value current
  | none =>
      match mappingGet raw legacy with
      | some value => mapping value legacy
      | none =>
          match mappingGet raw reference with
          | some value => do
              let text ← string value reference 2048
              pure [("$ref", .str text)]
          | none => .ok []

/-- `_validate_json_schema`; `check` is `Draft202012Validator.check_schema`. -/
def validateJsonSchema (check : List (String × Json) → Bool) (given : List (String × Json))
    (field : String) : Except Raised Unit :=
  if given = [] ∨ given.map Prod.fst = ["$ref"] then .ok ()
  else
    raiseIf (check given = false)
      (invalid "invalid_json_schema" (field ++ " must be valid JSON Schema."))

/-- `_operation_type`. -/
def operationType (value : Json) (kind : CapabilityKind) (operation : String) :
    Except Raised OperationType :=
  match value with
  | .null =>
      if operation = "expand" then .ok .expand
      else if kind = .rag then .ok .retrieve
      else .ok .execute
  | value => enum [.expand, .execute, .retrieve] OperationType.value value "operationType"

/-- One operation of `_operations`. -/
def operationItem (check : List (String × Json) → Bool) (kind : CapabilityKind) (index : Nat)
    (seen : List String) (item : Json) : Except Raised OperationSpec := do
  let field := "spec.operations[" ++ toString index ++ "]"
  let raw ← mapping item field
  let operation ← name (get raw "name" .null) (field ++ ".name")
  unique operation seen "duplicate_operation" "Operation names must be unique."
  let operationType ← operationType
    (get raw "operationType" (get raw "operation_type" .null)) kind operation
  let inputSchema ← schema raw "inputSchema" "input_schema" "inputSchemaRef"
  let outputSchema ← schema raw "outputSchema" "output_schema" "outputSchemaRef"
  validateJsonSchema check inputSchema (field ++ ".inputSchema")
  validateJsonSchema check outputSchema (field ++ ".outputSchema")
  let sideEffect ← enum [.none, .read, .reversibleWrite, .irreversible] SideEffect.value
    (get raw "sideEffect" (get raw "side_effect" (.str "none"))) "sideEffect"
  let approval ← boolean (get raw "requiresApproval" (get raw "requires_approval" (.bool false)))
    "invalid_approval" "requiresApproval must be a boolean."
  pure ⟨operation, operationType, inputSchema, outputSchema, sideEffect, approval⟩

/-- `_operations`. -/
def operations (check : List (String × Json) → Bool) (value : Json) (kind : CapabilityKind) :
    Except Raised (List OperationSpec) := do
  let items ← sequence value "spec.operations"
  raiseIf (items = [])
    (invalid "missing_operations" "spec.operations must contain at least one operation.")
  collect (operationItem check kind) OperationSpec.name 0 [] items

/-- The sections with the names under which they stand. -/
def sectionItems (value : Json) : Except Raised (List (String × List (String × Json))) :=
  match value with
  | .obj fields => fields.mapM fun entry => do
      let raw ← mapping entry.2 ("spec.sections." ++ entry.1)
      pure (entry.1, raw)
  | value => do
      let items ← sequence value "spec.sections"
      items.zipIdx.mapM fun entry => do
        let field := "spec.sections[" ++ toString entry.2 ++ "]"
        let raw ← mapping entry.1 field
        let text ← string (get raw "name" .null) (field ++ ".name") maxNameChars
        pure (text, raw)

/-- The content of a section, or the reference to it. -/
def sectionContent (raw : List (String × Json)) : Except Raised Json :=
  match get raw "content" (get raw "ref" .null) with
  | .null => .error (invalid "missing_section_content" "Each section must declare content or ref.")
  | content => .ok content

/-- A number of tokens. -/
def tokenCount (value : Json) : Except Raised Int :=
  match value with
  | .int tokens =>
      if tokens < 0 then
        .error (invalid "invalid_section_tokens" "Section token count must be a non-negative integer.")
      else .ok tokens
  | _ =>
      .error (invalid "invalid_section_tokens" "Section token count must be a non-negative integer.")

/-- One section of `_sections`. -/
def sectionItem (seen : List String) (entry : String × List (String × Json)) :
    Except Raised SectionDescriptor := do
  let sectionName ← name (.str entry.1) "section name"
  unique sectionName seen "duplicate_section" "Section names must be unique."
  let content ← sectionContent entry.2
  let tokens ← tokenCount (get entry.2 "portableTokens"
    (get entry.2 "portable_tokens" (get entry.2 "tokens" (.int 0))))
  let sensitive ← boolean (get entry.2 "sensitive" (.bool false)) "invalid_section_sensitivity"
    "Section sensitive must be a boolean."
  let mediaType ← string (get entry.2 "mediaType" (get entry.2 "media_type" (.str "text/plain")))
    "mediaType" 128
  let text ← string content "section content" 16384
  pure ⟨sectionName, mediaType, text, tokens, sensitive⟩

/-- `_sections`. -/
def sections (value : Json) : Except Raised (List SectionDescriptor) := do
  let items ← sectionItems value
  collect (fun _ => sectionItem) SectionDescriptor.name 0 [] items

/-- A name that is not among those seen. -/
def nameItem (field code message : String) (seen : List String) (item : Json) :
    Except Raised String := do
  let text ← name item field
  unique text seen code message
  pure text

/-- The permissions, which are the keys of an object. -/
def permissionItems (value : Json) : Except Raised (List Json) :=
  match value with
  | .obj fields => .ok (fields.map fun field => .str field.1)
  | value => sequence value "spec.permissions"

/-- `_permissions`. -/
def permissions (value : Json) : Except Raised (List String) := do
  let values ← permissionItems value
  collect (fun _ => nameItem "permission" "duplicate_permission" "Permissions must be unique.") id
    0 [] values

/-- One dependency of `_dependencies`. -/
def dependencyItem (index : Nat) (seen : List String) (item : Json) :
    Except Raised DependencySpec := do
  let field := "spec.dependencies[" ++ toString index ++ "]"
  let raw ← mapping item field
  let target ← coordinate (get raw "coordinate" .null) (field ++ ".coordinate")
  unique target seen "duplicate_dependency" "Dependencies must be unique by coordinate."
  let version ← string (get raw "version" (get raw "versionConstraint" (.str "*")))
    "dependency version" 128
  let isOptional ← boolean (get raw "optional" (.bool false)) "invalid_dependency_optional"
    "Dependency optional must be a boolean."
  pure ⟨target, version, isOptional⟩

/-- `_dependencies`. -/
def dependencies (value : Json) : Except Raised (List DependencySpec) := do
  let items ← sequence value "spec.dependencies"
  collect dependencyItem DependencySpec.coordinate 0 [] items

/-- One conflict of `_conflicts`. -/
def conflictItem (index : Nat) (seen : List (String × String)) (item : Json) :
    Except Raised ConflictSpec := do
  let field := "spec.conflicts[" ++ toString index ++ "]"
  let raw ← mapping item field
  let conflictType ← name (get raw "type" .null) (field ++ ".type")
  let value ← string (get raw "value" .null) (field ++ ".value") 2048
  unique (conflictType, value) seen "duplicate_conflict" "Conflicts must be unique by type and value."
  pure ⟨conflictType, value⟩

/-- `_conflicts`. -/
def conflicts (value : Json) : Except Raised (List ConflictSpec) := do
  let items ← sequence value "spec.conflicts"
  collect conflictItem (fun conflict => (conflict.conflictType, conflict.value)) 0 [] items

/-- `_tags`. -/
def tags (value : Json) : Except Raised (List String) := do
  let items ← sequence value "tags"
  collect (fun _ => nameItem "tag" "duplicate_tag" "Tags must be unique.") id 0 [] items

/-! ## Manifests -/

/-- The keys of a document that are not extensions. -/
def rootKeys : List String := ["apiVersion", "kind", "metadata", "spec"]

/-- The keys of a specification that are not extensions. -/
def specKeys : List String :=
  ["type", "summary", "provider", "driver", "operations", "sections", "permissions", "dependencies",
    "conflicts", "tags", "trust", "source"]

/-- The members with a key that is not among the known ones. -/
def extensionsOf (known : List String) (fields : List (String × Json)) : List (String × Json) :=
  fields.filter fun field => field.1 ∉ known

/-- The metadata of a manifest: those of the document, with the driver and the extensions. -/
def manifestMetadata (root rawMetadata spec : List (String × Json)) : List (String × Json) :=
  let rooted := assign "root_extensions" (.obj (extensionsOf rootKeys root)) rawMetadata
  let driven := match mappingGet spec "driver" with
    | some (.obj driver) => assign "driver" (.obj driver) rooted
    | _ => rooted
  assign "extensions" (.obj (extensionsOf specKeys spec)) driven

variable (check : List (String × Json) → Bool)

/-- `parse_manifest`. -/
def parseManifest (document : Json) : Except Raised CapabilityManifest := do
  let root ← mapping document "manifest"
  raiseIf ((get root "apiVersion" .null).same (.str apiVersion) = false)
    (invalid "unsupported_api_version" ("apiVersion must be " ++ apiVersion ++ "."))
  raiseIf ((get root "kind" .null).same (.str "Capability") = false)
    (invalid "invalid_manifest_kind" "kind must be Capability.")
  let rawMetadata ← mapping (get root "metadata" .null) "metadata"
  let identity ← parseIdentity rawMetadata
  let spec ← mapping (get root "spec" .null) "spec"
  let kind ← enum [.skill, .mcp, .cli, .api, .rag] CapabilityKind.value (get spec "type" .null)
    "spec.type"
  let summary ← summary (get spec "summary" .null)
  let provider ← provider spec
  let operations ← operations check (get spec "operations" .null) kind
  let sections ← sections (get spec "sections" (.arr []))
  let permissions ← permissions (get spec "permissions" (.arr []))
  let dependencies ← dependencies (get spec "dependencies" (.arr []))
  let conflicts ← conflicts (get spec "conflicts" (.arr []))
  let tags ← tags (get spec "tags" (get rawMetadata "tags" (.arr [])))
  let trust ← mappingOrEmpty (get spec "trust" .null) "spec.trust"
  let source ← string (get spec "source" (get trust "source" (.str "local"))) "spec.source" 2048
  let trustTier ← string (get spec "trustTier" (get trust "tier" (.str "unverified")))
    "spec.trustTier" 128
  pure {
    identity := identity
    kind := kind
    summary := summary
    provider := provider
    operations := operations
    sections := sections
    permissions := permissions
    dependencies := dependencies
    conflicts := conflicts
    tags := tags
    trustTier := trustTier
    source := source
    metadata := manifestMetadata root rawMetadata spec }

/-- `parse_manifest_json`. -/
def parseManifestJson (source : String) : Except Raised CapabilityManifest :=
  match loads source.toList with
  | some document =>
      if document.printable then parseManifest check document
      else .error (invalid "invalid_json" "Manifest must be valid JSON.")
  | none => .error (invalid "invalid_json" "Manifest must be valid JSON.")

end Manifest

end CapabilityHub
