import CapabilityHub.Data.Checks
import CapabilityHub.Data.Dict
import CapabilityHub.Data.Hex
import CapabilityHub.Data.Order
import CapabilityHub.Errors
import CapabilityHub.Models
import CapabilityHub.Text.PosixPath
import CapabilityHub.Text.Unicode
import Mathlib.Data.Prod.Lex
import Mathlib.Data.String.Basic

/-! # Projected resources

The resources a manifest claims (its name, its operations, its permissions, and what its
driver binds), the collisions between coordinates that claim the same one, and the decision
of a policy on each claim.
-/

namespace CapabilityHub.Registry

inductive ProjectionStrategy where
  | deny
  | namespaced
  | isolate
  | selectOne
  deriving DecidableEq

/-- A strategy, with the coordinate that `select-one` chooses and no other strategy has. -/
structure ProjectionPolicy where
  strategy : ProjectionStrategy
  selectedCoordinate : Option String
  selects : strategy = .selectOne ↔ ∃ coordinate, selectedCoordinate = some coordinate
  chosen : selectedCoordinate ≠ some ""

inductive ProjectionAction where
  | allow
  | namespaced
  | isolate
  | selected
  | excluded
  deriving DecidableEq

structure ProjectionClaim where
  claimType : String
  resourceId : String
  coordinate : String
  revision : String
  kind : CapabilityKind
  deriving DecidableEq

structure ProjectionCollision where
  claimType : String
  resourceId : String
  coordinates : List String
  deriving DecidableEq

structure ProjectionDecision where
  claim : ProjectionClaim
  action : ProjectionAction
  effectiveResourceId : String
  deriving DecidableEq

structure ProjectionResolution where
  strategy : ProjectionStrategy
  claims : List ProjectionClaim
  collisions : List ProjectionCollision
  decisions : List ProjectionDecision
  deriving DecidableEq

/-- The resource a claim is about. -/
def ProjectionClaim.resource (claim : ProjectionClaim) : String × String :=
  (claim.claimType, claim.resourceId)

def ProjectionCollision.resource (collision : ProjectionCollision) : String × String :=
  (collision.claimType, collision.resourceId)

/-- `ProjectionError`. -/
def projectionError (code : String) (claimType : Option String) : Raised :=
  .hub {
    code := code
    category := .conflict
    safeMessage := "Capability resource projections could not be resolved safely."
    details := match claimType with
      | none => []
      | some claimType => [("claim_type", .text claimType)] }

def ProjectionStrategy.word : ProjectionStrategy → String
  | .deny => "deny"
  | .namespaced => "namespace"
  | .isolate => "isolate"
  | .selectOne => "select-one"

def ProjectionAction.word : ProjectionAction → String
  | .allow => "allow"
  | .namespaced => "namespace"
  | .isolate => "isolate"
  | .selected => "selected"
  | .excluded => "excluded"

/-- `excluded_coordinates`. -/
def ProjectionResolution.excludedCoordinates (resolution : ProjectionResolution) : List String :=
  (resolution.decisions.filter fun decision => decision.action = .excluded).map
    fun decision => decision.claim.coordinate

variable (text : PythonText) (sha256 : Bytes → Bytes)

/-! ## Claims -/

/-- `_resource_id`. -/
def resourceId (claimType normalized : String) : String :=
  "sha256:" ++ hex (sha256
    (encodeUtf8 ("capabilityhub-projection-v1\x00" ++ claimType ++ "\x00" ++ normalized)))

/-- `_normalize_path`. -/
def normalizePath (value : String) : String :=
  if '\\' ∈ value.toList ∨ value.toList[1]? = some ':' then text.ntNormalize value
  else posixNormpath value

/-- The claim of one HTTP operation. -/
def httpClaim (scheme host basePath : String) (port : Nat) (operation : Json) :
    Except Raised (String × String) := do
  let invalid := projectionError "invalid_projected_http_route" none
  match operation with
  | .obj raw =>
      match mappingGet raw "method", mappingGet raw "path" with
      | some (.str method), some (.str path) =>
          raiseIf (text.upper method ∉ ["GET", "POST", "PUT", "PATCH", "DELETE"] ∨
            ¬startsWith path "/" ∨ contains path "://" ∨ '?' ∈ path.toList) invalid
          let routePath := posixNormpath (rstrip '/' basePath ++ "/" ++ lstrip '/' path)
          pure ("http_route", String.ofList (Json.arr [.str scheme, .str host, .int port,
            .str (text.upper method), .str routePath]).dump)
      | _, _ => throw invalid
  | _ => throw invalid

/-- `_http_claims`. -/
def httpClaims (config : List (String × Json)) : Except Raised (List (String × String)) := do
  let invalid := projectionError "invalid_projected_http_route" none
  match mappingGet config "baseUrl", mappingGet config "operations" with
  | some (.str baseUrl), some (.obj operations) =>
      match text.urlsplit baseUrl with
      | none => throw invalid
      | some parsed =>
          match parsed.port with
          | none => throw invalid
          | some given =>
              let scheme := text.casefold parsed.scheme
              let port := match given with
                | none | some 0 => if scheme = "https" then 443 else 80
                | some port => port
              match parsed.hostname with
              | none => throw invalid
              | some hostname =>
                  raiseIf (scheme ∉ ["http", "https"] ∨ hostname = "" ∨
                    parsed.username.getD "" ≠ "" ∨ parsed.password.getD "" ≠ "" ∨
                    parsed.query ≠ "" ∨ parsed.fragment ≠ "") invalid
                  match text.idna (text.casefold hostname) with
                  | none => throw .unicodeError
                  | some host =>
                      let basePath := if parsed.path = "" then "/" else parsed.path
                      operations.mapM fun entry =>
                        httpClaim text scheme host basePath port entry.2
  | _, _ => throw invalid

/-- The claims of a port and of a file system root, if the driver has them. -/
def portClaims (config : List (String × Json)) : Except Raised (List (String × String)) :=
  match mappingGet config "port" with
  | none | some .null => .ok []
  | some (.int port) =>
      if 1 ≤ port ∧ port ≤ 65535 then .ok [("port", toString port)]
      else .error (projectionError "invalid_projected_port" none)
  | some _ => .error (projectionError "invalid_projected_port" none)

def rootClaims (config : List (String × Json)) : Except Raised (List (String × String)) :=
  match mappingGet config "root" with
  | none | some .null => .ok []
  | some (.str root) =>
      if root = "" then .error (projectionError "invalid_projected_filesystem_root" none)
      else .ok [("filesystem_root", normalizePath text root)]
  | some _ => .error (projectionError "invalid_projected_filesystem_root" none)

/-- The claims of the routes of an HTTP driver; other drivers have none. -/
def routeClaims (name : String) (config : List (String × Json)) :
    Except Raised (List (String × String)) :=
  if name = "http-api" then httpClaims text config else .ok []

/-- `_driver_claims`. -/
def driverClaims (name : String) (config : List (String × Json)) :
    Except Raised (List (String × String)) := do
  let port ← portClaims config
  let root ← rootClaims text config
  let routes ← routeClaims text name config
  pure (port ++ root ++ routes)

/-- What the metadata of a manifest claims. -/
def metadataClaims (metadata : List (String × Json)) : Except Raised (List (String × String)) :=
  let invalid := projectionError "invalid_projection_driver" none
  match mappingGet metadata "driver" with
  | none | some .null => .ok []
  | some (.obj driver) =>
      match mappingGet driver "name", (mappingGet driver "config").getD (.obj []) with
      | some (.str name), .obj config =>
          if name = "" then .error invalid else driverClaims text name config
      | _, _ => .error invalid
  | some _ => .error invalid

/-- `extract_projection_claims`. -/
def extractProjectionClaims (manifest : CapabilityManifest) :
    Except Raised (List ProjectionClaim) := do
  let driver ← metadataClaims text manifest.metadata
  let values := ("identity", text.casefold manifest.identity.coordinate) ::
    (manifest.operations.map fun operation => ("projection_name", text.casefold operation.name)) ++
    (manifest.permissions.map fun permission =>
      ("permission_namespace", text.casefold permission)) ++ driver
  pure ((sortedBy toLex values.dedup).map fun value => {
    claimType := value.1
    resourceId := resourceId sha256 value.1 value.2
    coordinate := manifest.identity.coordinate
    revision := manifest.identity.revision
    kind := manifest.kind })

/-! ## Resolution -/

/-- `_claim_order`. -/
def claimOrder (claim : ProjectionClaim) : String ×ₗ String ×ₗ String ×ₗ String :=
  toLex (claim.claimType, toLex (claim.resourceId, toLex (claim.coordinate, claim.revision)))

/-- The coordinates that claim a resource. -/
def claimants (claims : List ProjectionClaim) (resource : String × String) : List String :=
  sortedSet ((claims.filter fun claim => claim.resource = resource).map
    fun claim => claim.coordinate)

def collisionsOf (claims : List ProjectionClaim) : List ProjectionCollision :=
  (sortedBy toLex (claims.map ProjectionClaim.resource).dedup).filterMap fun resource =>
    if 1 < (claimants claims resource).length then
      some ⟨resource.1, resource.2, claimants claims resource⟩
    else none

/-- The checks of a policy on the collisions. -/
def checkCollisions (policy : ProjectionPolicy) (collisions : List ProjectionCollision) :
    Except Raised Unit :=
  match policy.strategy with
  | .deny =>
      match collisions with
      | [] => .ok ()
      | collision :: _ => .error (projectionError "projection_conflict" (some collision.claimType))
  | .namespaced =>
      match collisions.find? fun collision =>
          collision.claimType ∉ ["identity", "projection_name", "permission_namespace"] with
      | none => .ok ()
      | some blocked =>
          .error (projectionError "projection_not_namespaceable" (some blocked.claimType))
  | .isolate => .ok ()
  | .selectOne =>
      raiseIf (∃ collision ∈ collisions,
          policy.selectedCoordinate.getD "" ∉ collision.coordinates)
        (projectionError "selected_coordinate_not_claimant" none)

/-- `_derived_resource_id`. -/
def derivedResourceId (action : String) (claim : ProjectionClaim) : String :=
  resourceId sha256 (action ++ ":" ++ claim.claimType)
    (claim.resourceId ++ "\x00" ++ claim.coordinate)

/-- The decision on one claim. -/
def decideClaim (policy : ProjectionPolicy) (collisions : List ProjectionCollision)
    (claim : ProjectionClaim) : ProjectionDecision :=
  if claim.resource ∉ collisions.map ProjectionCollision.resource then
    ⟨claim, .allow, claim.resourceId⟩
  else
    match policy.strategy with
    | .namespaced => ⟨claim, .namespaced, derivedResourceId sha256 "namespace" claim⟩
    | .isolate => ⟨claim, .isolate, derivedResourceId sha256 "isolate" claim⟩
    | _ =>
        if policy.selectedCoordinate = some claim.coordinate then
          ⟨claim, .selected, claim.resourceId⟩
        else ⟨claim, .excluded, derivedResourceId sha256 "excluded" claim⟩

/-- `resolve_projections`. -/
def resolveProjections (manifests : List CapabilityManifest) (policy : ProjectionPolicy) :
    Except Raised ProjectionResolution := do
  let ordered := sortedBy (fun manifest => toLex (manifest.identity.coordinate,
    manifest.identity.revision)) manifests
  let extracted ← ordered.mapM (extractProjectionClaims text sha256)
  let claims := sortedBy claimOrder extracted.flatten
  let collisions := collisionsOf claims
  checkCollisions policy collisions
  pure ⟨policy.strategy, claims, collisions, claims.map (decideClaim sha256 policy collisions)⟩

/-- `digest`. -/
def ProjectionResolution.digest (resolution : ProjectionResolution) : String :=
  "sha256:" ++ hex (sha256 (canonical (.arr (resolution.decisions.map fun decision =>
    .arr [.str decision.claim.claimType, .str decision.claim.resourceId,
      .str decision.claim.coordinate, .str decision.action.word,
      .str decision.effectiveResourceId]))))

end CapabilityHub.Registry
