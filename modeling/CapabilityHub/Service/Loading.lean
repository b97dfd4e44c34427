import CapabilityHub.Data.Order
import CapabilityHub.Service.Discovery

/-! # Loading

`CapabilityHubService.load`: the selected sections and operations of an active manifest, with a handle for
some of what is left out.
-/

namespace CapabilityHub.Service

/-- `MAX_OMISSION_NAMES_PER_KIND` -/
def maxOmissionNamesPerKind : Nat := 8

/-- `MAX_LOAD_NOTICES` -/
def maxLoadNotices : Nat := 4

structure CapabilityNotice where
  kind : String
  code : String
  attributes : List (String × Json)

/-- What `RehydrationHandle.__post_init__` asks of a digest. -/
def digestForm (selectorDigest : String) : Bool :=
  let chars := selectorDigest.toList
  let digest := if "sha256:".toList.isPrefixOf chars then chars.drop 7 else chars
  digest.length = 64 && digest.all fun char => char ∈ "0123456789abcdef".toList

structure RehydrationHandle where
  kind : OmissionKind
  selectorDigest : String
  reference : String
  expiresAt : Int
  formed : digestForm selectorDigest = true
  given : reference ≠ ""
  positive : 0 < expiresAt

/-- The constructor of a handle, which raises `ValueError`. -/
def makeHandle (kind : OmissionKind) (selectorDigest reference : String) (expiresAt : Int) :
    Except Raised RehydrationHandle :=
  if valid : digestForm selectorDigest = true ∧ reference ≠ "" ∧ 0 < expiresAt then
    .ok ⟨kind, selectorDigest, reference, expiresAt, valid.1, valid.2.1, valid.2.2⟩
  else .error .valueError

structure LoadedCapability where
  revision : String
  sections : List SectionDescriptor
  operations : List OperationSpec
  permissions : List String
  portableTokens : Nat
  executionRef : String
  omittedSections : List String := []
  omittedOperations : List String := []
  notices : List CapabilityNotice := []
  rehydrationHandles : List RehydrationHandle := []
  omittedSectionCount : Nat := 0
  omittedOperationCount : Nat := 0
  omittedNoticeCount : Nat := 0
  unhandledOmissionCount : Nat := 0

/-! ## The response -/

/-- An operation of a response. -/
def operationJson (operation : OperationSpec) : Json := .obj [
  ("input_schema", .obj operation.inputSchema), ("name", .str operation.name),
  ("operation_type", .str operation.operationType.value), ("output_schema", .obj operation.outputSchema),
  ("requires_approval", .bool operation.requiresApproval), ("side_effect", .str operation.sideEffect.value)]

/-- A section of a response. -/
def sectionJson (entry : SectionDescriptor) : Json := .obj [
  ("content", .str entry.content), ("media_type", .str entry.mediaType), ("name", .str entry.name),
  ("portable_tokens", .int entry.portableTokens), ("sensitive", .bool entry.sensitive)]

def noticeJson (notice : CapabilityNotice) : Json := .obj [
  ("attributes", .obj notice.attributes), ("code", .str notice.code), ("kind", .str notice.kind)]

def handleJson (handle : RehydrationHandle) : Json := .obj [
  ("expires_at", .int handle.expiresAt), ("kind", .str handle.kind.value),
  ("reference", .str handle.reference), ("selector_digest", .str handle.selectorDigest)]

/-- `_loaded_dict`. -/
def loadedDict (loaded : LoadedCapability) : Json := .obj [
  ("execution_ref", .str loaded.executionRef), ("notices", .arr (loaded.notices.map noticeJson)),
  ("omitted_notice_count", .int loaded.omittedNoticeCount),
  ("omitted_operation_count", .int loaded.omittedOperationCount),
  ("omitted_operations", .arr (loaded.omittedOperations.map .str)),
  ("omitted_section_count", .int loaded.omittedSectionCount),
  ("omitted_sections", .arr (loaded.omittedSections.map .str)),
  ("operations", .arr (loaded.operations.map operationJson)),
  ("permissions", .arr (loaded.permissions.map .str)), ("portable_tokens", .int loaded.portableTokens),
  ("rehydration_handles", .arr (loaded.rehydrationHandles.map handleJson)),
  ("revision", .str loaded.revision), ("sections", .arr (loaded.sections.map sectionJson)),
  ("unhandled_omission_count", .int loaded.unhandledOmissionCount)]

/-- What `_loaded_response` is given. -/
structure LoadParts where
  manifest : CapabilityManifest
  sections : List SectionDescriptor
  operations : List OperationSpec
  executionRef : String
  notices : List CapabilityNotice
  handles : List RehydrationHandle
  omittedNoticeCount : Nat

namespace LoadParts

variable (parts : LoadParts)

/-- The names of all sections that are left out. -/
def allOmittedSections : List String :=
  (parts.manifest.sections.filter (· ∉ parts.sections)).map SectionDescriptor.name

/-- The names of all operations that are left out. -/
def allOmittedOperations : List String :=
  (parts.manifest.operations.filter fun operation => !parts.operations.any operation.same).map
    OperationSpec.name

/-- The response that states some tokens. -/
def stating (portableTokens : Nat) : LoadedCapability where
  revision := parts.manifest.identity.revision
  sections := parts.sections
  operations := parts.operations
  permissions := parts.manifest.permissions
  portableTokens := portableTokens
  executionRef := parts.executionRef
  omittedSections := parts.allOmittedSections.take maxOmissionNamesPerKind
  omittedOperations := parts.allOmittedOperations.take maxOmissionNamesPerKind
  notices := parts.notices
  rehydrationHandles := parts.handles
  omittedSectionCount := parts.allOmittedSections.length
  omittedOperationCount := parts.allOmittedOperations.length
  omittedNoticeCount := parts.omittedNoticeCount
  unhandledOmissionCount :=
    parts.allOmittedSections.length + parts.allOmittedOperations.length - parts.handles.length

/-- `_loaded_response`: the response and its bytes. -/
def response : Except Raised (LoadedCapability × Nat) := do
  let known ← settleM (fun known => measureJson (loadedDict (parts.stating known.portableTokens))) 4 ⟨0, 0⟩
  pure (parts.stating known.portableTokens, known.utf8Bytes)

end LoadParts

/-! ## Parts of a load -/

section

variable (sha256 : Bytes → Bytes)

/-- The notice of a dependency. -/
def dependencyNotice (dependency : DependencySpec) : CapabilityNotice where
  kind := "dependency"
  code := if dependency.isOptional then "dependency.optional" else "dependency.required"
  attributes := [("coordinate", .str dependency.coordinate), ("optional", .bool dependency.isOptional),
    ("version_constraint", .str dependency.versionConstraint)]

/-- The notice of a conflict. -/
def conflictNotice (conflict : ConflictSpec) : CapabilityNotice where
  kind := "conflict"
  code := "conflict.declared"
  attributes := [("type", .str conflict.conflictType),
    ("value_digest", .str ("sha256:" ++ hex (sha256 (encodeUtf8 conflict.value))))]

/-- All notices of a manifest. -/
def allNotices (manifest : CapabilityManifest) : List CapabilityNotice :=
  (sortedBy DependencySpec.coordinate manifest.dependencies).map dependencyNotice ++
    (sortedBy (fun conflict => toLex (conflict.conflictType, conflict.value)) manifest.conflicts).map
      (conflictNotice sha256)

/-- `_manifest_notices`. -/
def manifestNotices (manifest : CapabilityManifest) : List CapabilityNotice × Nat :=
  ((allNotices sha256 manifest).take maxLoadNotices, (allNotices sha256 manifest).length - maxLoadNotices)

variable (mac : Bytes → Bytes) (service : CapabilityHubService) (context : ServiceContext)

/-- A handle for one omission; its reference is issued and verified at two times. -/
def rehydrationHandle (revision : String) (target : OmissionKind × String) (times : ℚ × ℚ) :
    Except Raised RehydrationHandle := do
  let selector := rehydrationSelector sha256 revision target.1 target.2
  let purpose := rehydrationPurpose target.1 selector
  let reference ← References.issue mac revision context.referenceScope service.loadRefTtl purpose times.1
  let claims ← References.verify mac reference context.referenceScope (some revision) purpose times.2
  makeHandle target.1 selector reference claims.expiresAt

/-- `_rehydration_handles`. -/
def rehydrationHandles (manifest : CapabilityManifest) (sections : List SectionDescriptor)
    (operations : List OperationSpec) (handleTimes : Nat → ℚ × ℚ) : Except Raised (List RehydrationHandle) :=
  (rehydrationTargets manifest sections operations).zipIdx.mapM fun target =>
    rehydrationHandle sha256 mac service context manifest.identity.revision target.1 (handleTimes target.2)

/-- What a client asks of `load`. -/
structure LoadCall where
  capabilityRef : String
  taskId : String
  sectionNames : Option (List String) := none
  operationNames : Option (List String) := none
  maxOutputTokens : Int := 2000

/-- What the clock says as a load goes on. -/
structure LoadTimes where
  verifiedAt : ℚ
  handleTimes : Nat → ℚ × ℚ
  executionAt : ℚ

variable (call : LoadCall) (times : LoadTimes)

/-- The manifest that a load is about. -/
def loadTarget : Except Raised CapabilityManifest := do
  service.guardDependencies .load
  positiveBudget call.maxOutputTokens
  let claims ← References.verify mac call.capabilityRef context.referenceScope none "load" times.verifiedAt
  service.activeManifest claims.revision

/-- What is selected of a manifest. -/
def selectParts (manifest : CapabilityManifest) :
    Except Raised (List SectionDescriptor × List OperationSpec) := do
  let sections ← selectSections manifest call.sectionNames
  raiseIf (sections.any SectionDescriptor.sensitive ∧ "content.sensitive" ∉ context.grantedPermissions)
    (policyError "sensitive_section_denied"
      "Loading sensitive capability content requires explicit permission.")
  let operations ← selectOperations manifest call.operationNames
  pure (sections, operations)

/-- The execution reference of a load; skills have none. -/
def executionReference (manifest : CapabilityManifest) : Except Raised String :=
  if manifest.kind = .skill then .ok ""
  else References.issue mac manifest.identity.revision context.referenceScope service.executionTtl
    "execution" times.executionAt

/-- The response to a load of a manifest and its bytes, before it is charged. -/
def loadManifest (manifest : CapabilityManifest) : Except Raised (LoadedCapability × Nat) := do
  let selected ← selectParts context call manifest
  let handles ← rehydrationHandles sha256 mac service context manifest selected.1 selected.2 times.handleTimes
  let executionRef ← executionReference mac service context times manifest
  let notices := manifestNotices sha256 manifest
  let loaded ← LoadParts.response
    ⟨manifest, selected.1, selected.2, executionRef, notices.1, handles, notices.2⟩
  raiseIf (call.maxOutputTokens < loaded.1.portableTokens)
    (budgetError "load_output_budget_exceeded"
      "The selected capability material exceeds the load output budget."
      [("required_tokens", .number loaded.1.portableTokens), ("max_output_tokens", .number call.maxOutputTokens)])
  pure loaded

/-- The amounts of a load. -/
def loadCharge (loaded : LoadedCapability × Nat) : Budget.RawAmounts :=
  [(.str "bytes", .int loaded.2), (.str "loads", .int 1),
    (.str "portable_tokens", .int loaded.1.portableTokens)]

/-- The event of a load that has given a response. -/
def loadEvent (taskId : String) (manifest : CapabilityManifest) (loaded : LoadedCapability × Nat) : Event where
  taskId := taskId
  eventType := "load"
  capabilityRevision := some manifest.identity.revision
  outcome := "success"
  portableTokens := loaded.1.portableTokens
  payloadBytes := loaded.2
  metadata := [("operation_count", .int loaded.1.operations.length),
    ("section_count", .int loaded.1.sections.length), ("skill_load_only", .bool (manifest.kind = .skill))]

/-- What a load leaves: its outcome, and the grant of its execution reference. -/
structure LoadOutcome (σ : Type) extends CallOutcome σ (LoadedCapability × Nat) where
  grant : Option (String × ExecutionGrant)

/-- The grant of a response, if it has an execution reference. -/
def grantOf (loaded : LoadedCapability) : Option (String × ExecutionGrant) :=
  if loaded.executionRef = "" then none
  else some (loaded.executionRef, ⟨loaded.revision, loaded.operations.map OperationSpec.name⟩)

/-- `load`. -/
def CapabilityHubService.load {σ : Type} (spend : Budget.RawAmounts → σ → Except Raised Unit × σ)
    (ledger : σ) : LoadOutcome σ :=
  match loadTarget mac service context call times with
  | .error raised => { failCall (failureEvent call.taskId "load" none) raised ledger with grant := none }
  | .ok manifest =>
      let outcome := concludeCall (failureEvent call.taskId "load" (some manifest.identity.revision))
        (loadEvent call.taskId manifest)
        (charge spend loadCharge (loadManifest sha256 mac service context call times manifest) ledger)
      { outcome with
        grant := match outcome.result with
          | .ok loaded => grantOf loaded.1
          | .error _ => none }

end

end CapabilityHub.Service
