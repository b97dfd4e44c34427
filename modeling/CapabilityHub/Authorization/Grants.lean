import CapabilityHub.Authorization.Constraints

/-! # Grants of a principal

A grant document gives a principal constraints for each provider. What a capability and its
dependencies may do together is the intersection of what each of their providers is granted.
-/

namespace CapabilityHub.Authorization

variable (platform : Platform)

/-- What a document grants, by provider and permission. -/
abbrev ProviderGrants := Dict String (Dict String (PermissionConstraint String))

/-- The texts of a list that holds only texts. -/
def textItems : Option Json → Except Fault (List String)
  | some (.arr items) => items.mapM fun
      | .str text => .ok text
      | _ => .error .valueError
  | _ => .error .valueError

def constraintFields : Finset String :=
  {"path_roots", "hosts", "http_methods", "commands", "profiles", "secret_aliases"}

/-- One constraint of `_decode_document`. -/
def decodeConstraint (permission : String) (raw : Json) :
    Except Fault (PermissionConstraint String) :=
  match raw with
  | .obj raw => do
      raiseIf ((raw.map Prod.fst).toFinset ≠ constraintFields) .valueError
      let constraint : PermissionConstraint String := {
        pathRoots := ← textItems (raw.lookup "path_roots")
        hosts := (← textItems (raw.lookup "hosts")).toFinset
        httpMethods := (← textItems (raw.lookup "http_methods")).toFinset
        commands := (← textItems (raw.lookup "commands")).toFinset
        profiles := (← textItems (raw.lookup "profiles")).toFinset
        secretAliases := (← textItems (raw.lookup "secret_aliases")).toFinset
      }
      let _ ← ParameterAuthorizer.normalizedGrant platform permission constraint
      .ok constraint
  | _ => .error .valueError

/-- The grants of one provider in `_decode_document`. -/
def decodeGrants (grants : Json) : Except Fault (Dict String (PermissionConstraint String)) :=
  match grants with
  | .obj grants => do
      let decoded ← grants.mapM fun grant =>
        (decodeConstraint platform grant.1 grant.2).map (grant.1, ·)
      .ok (Dict.ofEntries decoded)
  | _ => .error .valueError

/-- `_decode_document`. -/
def decodeDocument (value : Json) : Except Fault ProviderGrants :=
  match value with
  | .obj providers => do
      let decoded ← providers.mapM fun provider => do
        raiseIf (provider.1 = "") .valueError
        (decodeGrants platform provider.2).map (provider.1, ·)
      .ok (Dict.ofEntries decoded)
  | _ => .error .valueError

/-- `_intersect`; `none` where no constraint is left. -/
def intersect (permission : String) (items : List (PermissionConstraint String)) :
    Except Fault (Option (PermissionConstraint String)) :=
  match items with
  | [] => .ok none
  | first :: rest =>
      let common := fun field : PermissionConstraint String → Finset String =>
        rest.foldl (fun values item => values ∩ field item) (field first)
      let constraint : PermissionConstraint String := {
        pathRoots := first.pathRoots.filter fun root =>
          ∀ item ∈ rest, ∃ candidate ∈ item.pathRoots,
            (PurePath.parse root).isRelativeTo (PurePath.parse candidate)
        hosts := common (·.hosts)
        httpMethods := common (·.httpMethods)
        commands := common (·.commands)
        profiles := common (·.profiles)
        secretAliases := common (·.secretAliases)
      }
      match ParameterAuthorizer.normalizedGrant platform permission constraint with
      | .ok _ => .ok (some constraint)
      | .error .valueError => .ok none
      | .error fault => .error fault

namespace PrincipalPolicyAuthorizer

variable (providers : ProviderGrants)

/-- The constraint under which the provider of a manifest has a permission. -/
def constraintOf (manifest : CapabilityManifest) (permission : String) :
    Option (PermissionConstraint String) :=
  (providers.getD manifest.provider ∅).get? permission

/-- The constraints of each permission, and the permissions that a provider lacks. -/
structure Collected where
  constraints : Dict String (List (PermissionConstraint String)) := ∅
  missing : List String := []

/-- One round of the loop of `_for` over the permissions of a manifest. -/
def collect (collected : Collected) (declared : CapabilityManifest × String) : Collected :=
  match constraintOf providers declared.1 declared.2 with
  | none => { collected with missing := declared.2 :: collected.missing }
  | some constraint => { collected with
      constraints := collected.constraints.set declared.2
        (collected.constraints.getD declared.2 [] ++ [constraint]) }

/-- The permissions of all the manifests, in their order. -/
def declared (manifests : List CapabilityManifest) : List (CapabilityManifest × String) :=
  manifests.flatMap fun manifest => manifest.permissions.map (manifest, ·)

/-- `_for`. -/
def forManifests (manifests : List CapabilityManifest) : Except Fault ParameterAuthorizer := do
  let collected := (declared manifests).foldl (collect providers) {}
  let combined ← collected.constraints.traverseItems (intersect platform)
  ParameterAuthorizer.new platform
    ((combined.filterKeys (· ∉ collected.missing)).filterMapValues id)

/-- `authorize`. -/
def authorize (manifest : CapabilityManifest) (dependencies : List CapabilityManifest)
    (normalizedArguments : List (String × Json)) : Except Fault AuthorizationDecision := do
  let authorizer ← forManifests platform providers (manifest :: dependencies)
  authorizer.authorize platform manifest dependencies normalizedArguments

end PrincipalPolicyAuthorizer

end CapabilityHub.Authorization
