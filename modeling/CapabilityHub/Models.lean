import CapabilityHub.Data.Json

/-! # Capability manifests, requests and results -/

namespace CapabilityHub

structure CapabilityIdentity where
  capabilityNamespace : String
  name : String
  version : String
  digest : String
  deriving DecidableEq

namespace CapabilityIdentity

def coordinate (identity : CapabilityIdentity) : String :=
  identity.capabilityNamespace ++ "/" ++ identity.name

def revision (identity : CapabilityIdentity) : String :=
  identity.coordinate ++ "@" ++ identity.version ++ "#" ++ identity.digest

end CapabilityIdentity

inductive CapabilityKind where
  | skill
  | mcp
  | cli
  | api
  | rag
  deriving DecidableEq

/-- The kinds in their order. -/
def CapabilityKind.all : List CapabilityKind := [.skill, .mcp, .cli, .api, .rag]

/-- The text of a kind. -/
def CapabilityKind.value : CapabilityKind → String
  | .skill => "skill"
  | .mcp => "mcp"
  | .cli => "cli"
  | .api => "api"
  | .rag => "rag"

inductive OperationType where
  | expand
  | execute
  | retrieve
  deriving DecidableEq

/-- The text of an operation type. -/
def OperationType.value : OperationType → String
  | .expand => "expand"
  | .execute => "execute"
  | .retrieve => "retrieve"

inductive SideEffect where
  | none
  | read
  | reversibleWrite
  | irreversible
  deriving DecidableEq

/-- The text of a side effect. -/
def SideEffect.value : SideEffect → String
  | .none => "none"
  | .read => "read"
  | .reversibleWrite => "reversible_write"
  | .irreversible => "irreversible"

structure SectionDescriptor where
  name : String
  mediaType : String
  content : String
  portableTokens : Int
  sensitive : Bool := false
  deriving DecidableEq

structure OperationSpec where
  name : String
  operationType : OperationType
  inputSchema : List (String × Json) := []
  outputSchema : List (String × Json) := []
  sideEffect : SideEffect := .none
  requiresApproval : Bool := false

structure DependencySpec where
  coordinate : String
  versionConstraint : String := "*"
  isOptional : Bool := false
  deriving DecidableEq

structure ConflictSpec where
  conflictType : String
  value : String
  deriving DecidableEq

structure CapabilityManifest where
  identity : CapabilityIdentity
  kind : CapabilityKind
  summary : String
  provider : String
  operations : List OperationSpec
  sections : List SectionDescriptor := []
  permissions : List String := []
  dependencies : List DependencySpec := []
  conflicts : List ConflictSpec := []
  tags : List String := []
  trustTier : String := "unverified"
  source : String := "local"
  metadata : List (String × Json) := []

structure ExecutionRequest where
  executionRef : String
  operation : String
  arguments : List (String × Json)
  taskId : String
  approvalRef : Option String := none
  idempotencyKey : Option String := none

structure ExecutionResult where
  capabilityRevision : String
  operation : String
  output : Json
  provider : String
  portableTokens : Int
  auditId : String

namespace OperationSpec

/-- `==`. -/
def same (first second : OperationSpec) : Bool :=
  first.name == second.name && first.operationType == second.operationType &&
    sameFields first.inputSchema second.inputSchema &&
    sameFields first.outputSchema second.outputSchema && first.sideEffect == second.sideEffect &&
    first.requiresApproval == second.requiresApproval

end OperationSpec

namespace CapabilityManifest

variable {first second : CapabilityManifest}

/-- `==`. -/
def same (first second : CapabilityManifest) : Bool :=
  first.identity == second.identity && first.kind == second.kind &&
    first.summary == second.summary && first.provider == second.provider &&
    first.operations.length == second.operations.length &&
    (first.operations.zip second.operations).all (fun pair => pair.1.same pair.2) &&
    first.sections == second.sections && first.permissions == second.permissions &&
    first.dependencies == second.dependencies && first.conflicts == second.conflicts &&
    first.tags == second.tags && first.trustTier == second.trustTier &&
    first.source == second.source && sameFields first.metadata second.metadata

def operation (manifest : CapabilityManifest) (name : String) : Option OperationSpec :=
  manifest.operations.find? fun operation => operation.name == name

end CapabilityManifest

end CapabilityHub
