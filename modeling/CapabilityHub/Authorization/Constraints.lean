import CapabilityHub.Data.Checks
import CapabilityHub.Data.Items
import CapabilityHub.Data.Order
import CapabilityHub.Models
import CapabilityHub.Text.PosixPath
import CapabilityHub.Text.Unicode
import Mathlib.Data.Finset.Union
import Mathlib.Data.Finset.Option
import Mathlib.Data.Fintype.Basic
import Mathlib.Data.Prod.Lex
import Mathlib.Data.String.Basic

/-! # Grants with constraints

`ParameterAuthorizer`: the permissions that a capability and its dependencies declare are allowed
where each is granted, and where the arguments keep to the constraints of the grants.
-/

namespace CapabilityHub.Authorization

/-- A path as `pathlib` reads it: the slashes at its front and the components after them. -/
structure PurePath where
  root : Nat
  parts : List String
  deriving DecidableEq

namespace PurePath

/-- `Path(text)`. -/
def parse (text : String) : PurePath :=
  ⟨leadingSlashes text, (splitSlash text).filter fun part => part ≠ "" ∧ part ≠ "."⟩

/-- `is_absolute`. -/
def isAbsolute (path : PurePath) : Bool := path.root ≠ 0

/-- `is_relative_to`. -/
def isRelativeTo (path other : PurePath) : Bool :=
  path.root = other.root ∧ other.parts <+: path.parts

end PurePath

/-- The exceptions that are not errors of the hub. -/
inductive Fault where
  | valueError
  | osError
  | runtimeError
  deriving DecidableEq

/-- What an authorization asks of the system and of the standard library. -/
structure Platform where
  text : PythonText
  /-- `str(ipaddress.ip_address(text))`; `none` where it raises `ValueError`. -/
  ipAddress : String → Option String
  /-- `path.resolve()`. -/
  resolve : PurePath → Except Fault PurePath

/-- `PermissionConstraint`, over what a root is. -/
structure PermissionConstraint (ρ : Type) where
  pathRoots : List ρ := []
  hosts : Finset String := ∅
  httpMethods : Finset String := ∅
  commands : Finset String := ∅
  profiles : Finset String := ∅
  secretAliases : Finset String := ∅
  deriving DecidableEq

/-! ## Permissions -/

def filesystemPermissions : Finset String := {"filesystem", "filesystem.read", "filesystem.write"}

def networkPermissions : Finset String := {"network", "network.http"}

def processPermissions : Finset String := {"process", "process.execute"}

def secretPermissions : Finset String := {"secret", "secret.use"}

def unconstrainedPermissions : Finset String := {"content.sensitive"}

def supportedPermissions : Finset String :=
  filesystemPermissions ∪ networkPermissions ∪ processPermissions ∪ secretPermissions ∪
    unconstrainedPermissions

def httpMethods : Finset String := {"GET", "HEAD", "POST", "PUT", "PATCH", "DELETE", "OPTIONS"}

def rawSecretFields : Finset String :=
  {"api_key", "authorization", "credential", "credentials", "secret", "secret_value", "token"}

inductive PermissionCategory where
  | filesystem
  | network
  | process
  | secret
  | unconstrained
  deriving DecidableEq

/-- `_permission_category`. -/
def permissionCategory (permission : String) : PermissionCategory :=
  if permission ∈ filesystemPermissions then .filesystem
  else if permission ∈ networkPermissions then .network
  else if permission ∈ processPermissions then .process
  else if permission ∈ secretPermissions then .secret
  else .unconstrained

/-! ## Constraints -/

variable (platform : Platform)

/-- `_root`. -/
def root (value : String) : Except Fault PurePath := do
  raiseIf (¬(PurePath.parse value).isAbsolute) .valueError
  platform.resolve (PurePath.parse value)

/-- `_HOST_LABEL.fullmatch`. -/
def hostLabel (label : List Char) : Bool :=
  let letter := fun char : Char => ('a' ≤ char && char ≤ 'z') || ('0' ≤ char && char ≤ '9')
  label.length ≤ 63 && label.all (fun char => letter char || char == '-') &&
    label.head?.any letter && label.getLast?.any letter

/-- `_host`; `none` where it raises `ValueError`. -/
def host (value : String) : Option String :=
  if value = "" ∨ value.toList.any isSpace then none
  else
    let selected := platform.text.casefold (rstrip '.' value)
    if contains selected "://" ∨ contains selected "/" ∨ contains selected "@" then none
    else
      match platform.ipAddress selected with
      | some address => some address
      | none => (platform.text.idna selected).filter fun encoded =>
          encoded.length ≤ 253 ∧ (encoded.toList.splitOn '.').all hostLabel

/-- `_SAFE_NAME.fullmatch`. -/
def safeName (value : String) : Bool :=
  let letter := fun char : Char =>
    ('A' ≤ char && char ≤ 'Z') || ('a' ≤ char && char ≤ 'z') || ('0' ≤ char && char ≤ '9')
  match value.toList with
  | [] => false
  | first :: rest => letter first && rest.length ≤ 255 &&
      rest.all fun char => letter char || "._:@/+-".toList.contains char

/-- `_name`; `none` where it raises `ValueError`. -/
def name (value : String) : Option String := if safeName value then some value else none

/-- `frozenset(check(value) for value in values)`. -/
def checkAll (check : String → Option String) (values : Finset String) :
    Except Fault (Finset String) := do
  raiseIf (∃ value ∈ values, check value = none) .valueError
  .ok (values.biUnion fun value => (check value).toFinset)

/-- A field of a constraint. -/
inductive FieldValue where
  | roots (values : List PurePath)
  | names (values : Finset String)
  deriving DecidableEq

def FieldValue.isPopulated : FieldValue → Bool
  | .roots values => values ≠ []
  | .names values => values ≠ ∅

/-- The category of a constraint is that of its permission. -/
def checkCategory (category : PermissionCategory) (constraint : PermissionConstraint PurePath) :
    Except Fault Unit := do
  let roots := FieldValue.roots constraint.pathRoots
  let hosts := FieldValue.names constraint.hosts
  let methods := FieldValue.names constraint.httpMethods
  let commands := FieldValue.names constraint.commands
  let profiles := FieldValue.names constraint.profiles
  let aliases := FieldValue.names constraint.secretAliases
  let fields := [roots, hosts, methods, commands, profiles, aliases]
  let populated : Bool := match category with
    | .filesystem => roots.isPopulated
    | .network => hosts.isPopulated && methods.isPopulated
    | .process => commands.isPopulated && profiles.isPopulated
    | .secret => aliases.isPopulated
    | .unconstrained => !fields.any (·.isPopulated)
  raiseIf (¬populated) .valueError
  let allowedFields := match category with
    | .filesystem => [roots]
    | .network => [hosts, methods]
    | .process => [commands, profiles]
    | .secret => [aliases]
    | .unconstrained => []
  raiseIf (fields.filter (·.isPopulated) ≠ allowedFields) .valueError

/-- `_normalize_constraint`. -/
def normalizeConstraint (permission : String) (constraint : PermissionConstraint String) :
    Except Fault (PermissionConstraint PurePath) := do
  let roots ← constraint.pathRoots.mapM (root platform)
  let hosts ← checkAll (host platform) constraint.hosts
  let methods := constraint.httpMethods.image platform.text.upper
  let commands ← checkAll name constraint.commands
  let profiles ← checkAll name constraint.profiles
  let aliases ← checkAll name constraint.secretAliases
  raiseIf (¬methods ⊆ httpMethods) .valueError
  checkCategory (permissionCategory permission) ⟨roots, hosts, methods, commands, profiles, aliases⟩
  .ok ⟨roots, hosts, methods, commands, profiles, aliases⟩

/-! ## Decisions -/

structure AuthorizationDecision where
  allowed : Bool
  reasonCodes : List String
  requiredPermissions : List String
  effectivePermissions : List String
  deriving DecidableEq

/-- `_REASON_ORDER`. -/
def reasonOrder : List String :=
  ["unknown_permission", "permission_not_granted", "permission_constraint_missing",
    "arguments_invalid", "privilege_not_declared", "path_outside_allowed_roots",
    "host_not_allowed", "http_method_not_allowed", "command_not_allowed", "profile_not_allowed",
    "secret_value_not_allowed", "secret_alias_not_allowed"]

/-- `_ordered_reasons`. Every reason has a place in `reasonOrder`. -/
def orderedReasons (reasons : List String) : List String :=
  sortedBy (κ := ℕ ×ₗ String) (fun reason => toLex (reasonOrder.idxOf reason, reason)) reasons.dedup

/-- What `_path_reasons` makes of its argument before it looks at the grants. -/
inductive PathArgument where
  | refused (reason : String)
  | failed (fault : Fault)
  | selected (path : PurePath)

def pathArgument (rawPath : Option Json) : PathArgument :=
  match rawPath with
  | some (.str rawPath) =>
      if ¬(PurePath.parse rawPath).isAbsolute then .refused "arguments_invalid"
      else
        match platform.resolve (PurePath.parse rawPath) with
        | .ok selected => .selected selected
        | .error .osError => .refused "path_outside_allowed_roots"
        | .error fault => .failed fault
  | _ => .refused "arguments_invalid"

section Reasons

-- the constraint of each permission that is granted
variable (granted : String → PermissionConstraint PurePath)

/-- `_path_reasons`. -/
def pathReasons (permissions : Finset String) (rawPath : Option Json) :
    Except Fault (List String) :=
  match pathArgument platform rawPath with
  | .refused reason => .ok [reason]
  | .failed fault => .error fault
  | .selected path =>
      if ∀ permission ∈ permissions,
          ∃ root ∈ (granted permission).pathRoots, path.isRelativeTo root then .ok []
      else .ok ["path_outside_allowed_roots"]

/-- `_network_reasons`. -/
def networkReasons (permissions : Finset String) (rawHost rawMethod : Option Json) : List String :=
  match rawHost, rawMethod with
  | some (.str rawHost), some (.str rawMethod) =>
      match host platform rawHost with
      | none => ["host_not_allowed"]
      | some host =>
          let method := platform.text.upper rawMethod
          orderedReasons <|
            (if ∃ name ∈ permissions, host ∉ (granted name).hosts then ["host_not_allowed"] else []) ++
            (if ∃ name ∈ permissions, method ∉ (granted name).httpMethods then
              ["http_method_not_allowed"] else [])
  | _, _ => ["arguments_invalid"]

/-- `_process_reasons`. -/
def processReasons (permissions : Finset String) (command profile : Option Json) : List String :=
  match command, profile with
  | some (.str command), some (.str profile) =>
      orderedReasons <|
        (if ∃ name ∈ permissions, command ∉ (granted name).commands then
          ["command_not_allowed"] else []) ++
        (if ∃ name ∈ permissions, profile ∉ (granted name).profiles then
          ["profile_not_allowed"] else [])
  | _, _ => ["arguments_invalid"]

/-- `_secret_reasons`. -/
def secretReasons (permissions : Finset String) (secretAlias : Option Json) : List String :=
  match secretAlias with
  | some (.str secretAlias) =>
      if ∃ name ∈ permissions, secretAlias ∉ (granted name).secretAliases then
        ["secret_alias_not_allowed"] else []
  | _ => ["arguments_invalid"]

/-- The reasons of `_argument_reasons` that do not depend on the grants. -/
def declarationReasons (required : Finset String) (arguments : List (String × Json)) :
    List String :=
  let undeclared := fun (names : List String) (permissions : Finset String) =>
    if (∃ name ∈ names, name ∈ arguments.map Prod.fst) ∧ required ∩ permissions = ∅ then
      ["privilege_not_declared"] else []
  undeclared ["path"] filesystemPermissions ++
    undeclared ["host", "http_method"] networkPermissions ++
    undeclared ["command", "profile"] processPermissions ++
    undeclared ["secret_alias"] secretPermissions ++
    if ∃ name ∈ arguments.map Prod.fst, platform.text.casefold name ∈ rawSecretFields then
      ["secret_value_not_allowed"] else []

/-- The reasons of `_argument_reasons` that come after those of the path. -/
def valueReasons (required : Finset String) (arguments : List (String × Json)) : List String :=
  let network := required ∩ networkPermissions
  let process := required ∩ processPermissions
  let secrets := required ∩ secretPermissions
  (if network = ∅ then [] else networkReasons platform granted network
      (arguments.lookup "host") (arguments.lookup "http_method")) ++
    (if process = ∅ then [] else processReasons granted process
      (arguments.lookup "command") (arguments.lookup "profile")) ++
    if secrets = ∅ then [] else secretReasons granted secrets (arguments.lookup "secret_alias")

/-- `_argument_reasons`. -/
def argumentReasons (required : Finset String) (arguments : List (String × Json)) :
    Except Fault (List String) := do
  let filesystem := required ∩ filesystemPermissions
  let paths ← if filesystem = ∅ then .ok []
    else pathReasons platform granted filesystem (arguments.lookup "path")
  .ok (orderedReasons (declarationReasons platform required arguments ++ paths ++
    valueReasons platform granted required arguments))

end Reasons

structure ParameterAuthorizer where
  grants : Dict String (PermissionConstraint PurePath) := ∅

namespace ParameterAuthorizer

/-- The constraint with which a permission is kept. -/
def normalizedGrant (permission : String) (constraint : PermissionConstraint String) :
    Except Fault (PermissionConstraint PurePath) := do
  raiseIf (permission ∉ supportedPermissions) .valueError
  normalizeConstraint platform permission constraint

/-- `ParameterAuthorizer(grants)`. -/
def new (grants : Dict String (PermissionConstraint String)) : Except Fault ParameterAuthorizer :=
  (grants.traverseItems (normalizedGrant platform)).map ParameterAuthorizer.mk

variable (authorizer : ParameterAuthorizer)

/-- `_grants[permission]`, which is there where it is asked for. -/
def granted (permission : String) : PermissionConstraint PurePath :=
  (authorizer.grants.get? permission).getD {}

/-- What the manifests require. -/
def required (manifests : List CapabilityManifest) : Finset String :=
  (manifests.flatMap (·.permissions)).toFinset

/-- `_decide`; the arguments are `none` for `eligible`. -/
def decide (manifest : CapabilityManifest) (dependencies : List CapabilityManifest)
    (arguments : Option (List (String × Json))) : Except Fault AuthorizationDecision := do
  let permissions := (manifest :: dependencies).flatMap (·.permissions)
  let required := required (manifest :: dependencies)
  let effective := permissions.filter (· ∈ authorizer.grants.keys)
  let reasons :=
    (if required \ supportedPermissions = ∅ then [] else ["unknown_permission"]) ++
    if required \ authorizer.grants.keys.toFinset = ∅ then [] else ["permission_not_granted"]
  let found ← match arguments with
    | some arguments =>
        if reasons = [] then argumentReasons platform authorizer.granted required arguments
        else .ok []
    | none => .ok []
  let ordered := orderedReasons (reasons ++ found)
  .ok {
    allowed := ordered = []
    reasonCodes := if ordered = [] then ["authorization_allow"] else ordered
    requiredPermissions := sortedSet (permissions.filter (· ∈ supportedPermissions))
    effectivePermissions := sortedSet effective
  }

/-- `authorize`. -/
def authorize (manifest : CapabilityManifest) (dependencies : List CapabilityManifest)
    (normalizedArguments : List (String × Json)) : Except Fault AuthorizationDecision :=
  authorizer.decide platform manifest dependencies (some normalizedArguments)

end ParameterAuthorizer

end CapabilityHub.Authorization
