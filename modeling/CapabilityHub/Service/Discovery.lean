import CapabilityHub.Budget.Amounts
import CapabilityHub.Registry.Activation
import CapabilityHub.Search.Packing
import CapabilityHub.Service.Execution

/-! # Searching through the service

`CapabilityHubService.search`: a search among the revisions that the caller may see, its charge and its
event.
-/

namespace CapabilityHub.Service

open Search (SearchRequest SearchResponse LexicalCapabilitySearch WordText)

/-- What `_emit` notes of a call. -/
structure Event where
  taskId : String
  eventType : String
  capabilityRevision : Option String
  outcome : String
  portableTokens : Nat := 0
  payloadBytes : Nat := 0
  reasonCodes : List String := []
  metadata : List (String × Json) := []

/-- What a call gives or raises, and what it leaves. -/
structure CallOutcome (σ α : Type) where
  result : Except Raised α
  ledger : σ
  events : List Event

/-- The event of a call that raises an error of the hub. -/
def failureEvent (taskId eventType : String) (revision : Option String) (error : CapabilityHubError) :
    Event where
  taskId := taskId
  eventType := eventType
  capabilityRevision := revision
  outcome := "failure"
  reasonCodes := [error.code]

/-- A call ends with an exception; an error of the hub is noted. -/
def failCall {σ α : Type} (failed : CapabilityHubError → Event) (raised : Raised) (ledger : σ) :
    CallOutcome σ α where
  result := .error raised
  ledger := ledger
  events := match raised with
    | .hub error => [failed error]
    | _ => []

/-- How a call ends. -/
def concludeCall {σ α : Type} (failed : CapabilityHubError → Event) (succeeded : α → Event) :
    Except Raised α × σ → CallOutcome σ α
  | (.ok result, ledger) => ⟨.ok result, ledger, [succeeded result]⟩
  | (.error raised, ledger) => failCall failed raised ledger

/-- The budget is charged for what has been found, if something has. -/
def charge {σ α : Type} (spend : Budget.RawAmounts → σ → Except Raised Unit × σ)
    (amounts : α → Budget.RawAmounts) (found : Except Raised α) (ledger : σ) : Except Raised α × σ :=
  match found with
  | .error raised => (.error raised, ledger)
  | .ok result =>
      match spend (amounts result) ledger with
      | (.ok _, left) => (.ok result, left)
      | (.error raised, left) => (.error raised, left)

/-! ## What a caller may see -/

/-- `_SUPPORTED_PERMISSIONS` -/
def supportedPermissions : List String :=
  ["filesystem", "filesystem.read", "filesystem.write", "network", "network.http", "process",
    "process.execute", "secret", "secret.use", "content.sensitive"]

/-- `ParameterAuthorizer.eligible`, of one that grants some permissions. -/
def eligible (grants : List String) (manifest : CapabilityManifest)
    (dependencies : List CapabilityManifest) : Bool :=
  let required := manifest.permissions ++ dependencies.flatMap CapabilityManifest.permissions
  required ⊆ supportedPermissions && required ⊆ grants

section

-- `grants` are those of the parameter authorizer, if the context has one
variable (service : CapabilityHubService) (context : ServiceContext) (grants : List String)

/-- Whether the caller may see a manifest. -/
def sees (manifest : CapabilityManifest) : Except Raised Bool :=
  match context.parameterAuthorizer with
  | none => .ok (manifest.permissions ⊆ context.grantedPermissions)
  | some _ => (service.dependencyManifests manifest).map (eligible grants manifest)

/-- `_visible_revisions`. -/
def visibleRevisions : Except Raised (List String) := do
  let entries ← service.registry.active.entries.mapM fun entry => do
    let manifest ← service.registry.revision entry.2
    let seen ← sees service context grants manifest
    pure (entry.2, seen)
  pure ((entries.filter Prod.snd).map Prod.fst)

/-- The amounts of a search. -/
def searchCharge (response : SearchResponse) : Budget.RawAmounts :=
  [(.str "portable_tokens", .int response.portableTokens), (.str "bytes", .int response.payloadBytes)]

/-- The event of a search that has given a response. -/
def searchEvent (taskId : String) (response : SearchResponse) : Event where
  taskId := taskId
  eventType := "search"
  capabilityRevision := none
  outcome := "success"
  portableTokens := response.portableTokens
  payloadBytes := response.payloadBytes
  metadata := [("result_count", .int response.cards.length), ("total_matches", .int response.totalMatches),
    ("truncated", .bool response.truncated)]

/-- What a client asks of `search`. -/
structure SearchCall where
  query : String
  taskId : String
  kinds : Option (List String) := none
  limit : Int := 8
  maxOutputTokens : Int := 900
  includeCards : Bool := true
  inventory : Option (List (String × Json)) := none

/-- The request of a call, for the revisions that the caller may see. -/
def SearchCall.request (call : SearchCall) (scope : String) (visible : List String) : SearchRequest where
  query := call.query
  scope := scope
  kinds := call.kinds
  limit := call.limit
  maxOutputTokens := call.maxOutputTokens
  includeCards := call.includeCards
  inventory := call.inventory
  allowedRevisions := some visible

/-- The search of a service, on its own registry. -/
def CapabilityHubService.engine (service : CapabilityHubService) : LexicalCapabilitySearch where
  registry := service.registry
  ttl := service.loadRefTtl

variable (text : WordText) (mac : Bytes → Bytes) (times : Nat → ℚ)

/-- What `search` finds; the clock is read in each round. -/
def findCapabilities (call : SearchCall) : Except Raised SearchResponse := do
  service.guardDependencies .search
  let visible ← visibleRevisions service context grants
  service.engine.search text (fun round revision =>
    References.issue mac revision context.referenceScope service.loadRefTtl "load" (times round))
    (call.request context.referenceScope visible)

/-- `search`. -/
def CapabilityHubService.search {σ : Type} (spend : Budget.RawAmounts → σ → Except Raised Unit × σ)
    (call : SearchCall) (ledger : σ) : CallOutcome σ SearchResponse :=
  concludeCall (failureEvent call.taskId "search" none) (searchEvent call.taskId)
    (charge spend searchCharge (findCapabilities service context grants text mac times call) ledger)

end

/-! ## A service with one skill -/

open Registry (skill performAll emptyRegistry isolatePolicy)

/-- A skill that needs the network. -/
def networkSkill : CapabilityManifest := { skill "b" "1" "x" [] with permissions := ["network"] }

/-- The registry in which it is active. -/
def networkRegistry : Registry.CapabilityRegistry :=
  performAll asciiText id (emptyRegistry isolatePolicy)
    [.registerMany [networkSkill], .activate "d/b" none]

theorem defaults_positive : (0 : Int) < 30000 ∧ (0 : Int) < 2000 := by decide

def offline : ServiceContext where
  tenantId := "acme"
  principalId := "ann"
  sessionId := "desk"
  named := by decide
  positive := defaults_positive

def networkCatalog : CapabilityHubService := { registry := networkRegistry, providers := [] }

theorem registry_networkCatalog : networkCatalog.registry = networkRegistry := by rw [networkCatalog]

end CapabilityHub.Service
