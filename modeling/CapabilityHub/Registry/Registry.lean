import CapabilityHub.Data.DepthFirst
import CapabilityHub.Database.Transaction
import CapabilityHub.Registry.Projections
import CapabilityHub.Registry.Versions
import Mathlib.Order.WithBot

/-! # The capability registry

Immutable revisions, and for each coordinate at most one of them that is active. The methods
are written statement by statement over the registry: what a call that raises has written
before stays written.
-/

namespace CapabilityHub.Registry

structure CapabilityRegistry where
  revisions : Dict String CapabilityManifest
  byCoordinate : Dict String (List String)
  active : Dict String String
  byKind : CapabilityKind → List String
  frozen : Bool
  projectionPolicy : ProjectionPolicy
  projectionResolution : ProjectionResolution

def inputError (code message : String) : Raised :=
  .hub { code := code, category := .input, safeMessage := message }

def referenceError (code message : String) (details : List (String × ErrorDetail)) : Raised :=
  .hub { code := code, category := .reference, safeMessage := message, details := details }

def dependencyError (code message : String) (details : List (String × ErrorDetail)) : Raised :=
  .hub { code := code, category := .dependency, safeMessage := message, details := details }

def conflictError (code message : String) (details : List (String × ErrorDetail)) : Raised :=
  .hub { code := code, category := .conflict, safeMessage := message, details := details }

variable (text : PythonText) (sha256 : Bytes → Bytes)

/-! ## Checks on a selection of manifests -/

section Validation

variable (selected : Dict String CapabilityManifest) (requireActive : Bool)

/-- One dependency of a manifest: the coordinate it leads to, if it leads anywhere. -/
def checkDependency (coordinate : String) (dependency : DependencySpec) :
    Except Raised (List String) :=
  match selected.get? dependency.coordinate with
  | none =>
      if dependency.isOptional then .ok []
      else .error (dependencyError "missing_dependency"
        ("Required dependency is not " ++ (if requireActive then "active" else "staged") ++ ".")
        [("capability", .text coordinate), ("dependency", .text dependency.coordinate)])
  | some target =>
      if satisfies text target.identity.version dependency then .ok [dependency.coordinate]
      else if dependency.isOptional then .ok []
      else .error (dependencyError "unsatisfied_dependency_version"
        "Required dependency does not satisfy its version constraint."
        [("capability", .text coordinate), ("dependency", .text dependency.coordinate),
          ("constraint", .text dependency.versionConstraint),
          ("found", .text target.identity.version)])

/-- The targets of one manifest in the dependency graph. -/
def checkDependencies (coordinate : String) (manifest : CapabilityManifest) :
    Except Raised (List String) := do
  let targets ← (sortedBy (fun dependency : DependencySpec => dependency.coordinate)
    manifest.dependencies).mapM (checkDependency text selected requireActive coordinate)
  pure targets.flatten

/-- `_raise_on_cycle`. -/
def raiseOnCycle (graph : Dict String (List String)) : Except Raised Unit :=
  match DepthFirst.raiseOnCycle (fun node => graph.getD node []) (sortedBy id graph.keys) with
  | .ok _ => .ok ()
  | .error cycle =>
      .error (dependencyError "dependency_cycle" "Dependency cycle detected."
        [("cycle", .texts cycle)])

/-- `_validate_dependencies`. -/
def validateDependencies : Except Raised Unit := do
  let graph ← (sortedBy Prod.fst selected.entries).mapM fun entry => do
    let targets ← checkDependencies text selected requireActive entry.1 entry.2
    pure (entry.1, targets)
  raiseOnCycle (Dict.ofEntries graph)

/-- `_safe_conflict_digest`. -/
def safeConflictDigest (conflictType value : String) : String :=
  "sha256:" ++ hex (sha256
    (encodeUtf8 ("capabilityhub-conflict-v1\x00" ++ conflictType ++ "\x00" ++ value)))

/-- The conflicts of the selected manifests, each with the coordinate that declares it. -/
def declaredConflicts : List (String × ConflictSpec) :=
  (sortedBy Prod.fst selected.entries).flatMap fun entry =>
    (sortedBy (fun conflict : ConflictSpec => toLex (conflict.conflictType, conflict.value))
      entry.2.conflicts).map fun conflict => (entry.1, conflict)

/-- One round of the two loops over the declared conflicts. -/
def claimConflict (claims : Dict (String × String) String) (declared : String × ConflictSpec) :
    Except Raised (Dict (String × String) String) :=
  let (coordinate, conflict) := declared
  let key := (conflict.conflictType, conflict.value)
  match claims.get? key with
  | none => .ok (claims.set key coordinate)
  | some previous =>
      if previous ≠ coordinate then
        .error (conflictError "capability_conflict"
          "Active capabilities claim the same exclusive conflict value."
          [("conflict_type", .text conflict.conflictType),
            ("value_digest", .text (safeConflictDigest sha256 conflict.conflictType conflict.value)),
            ("coordinates", .texts [previous, coordinate])])
      else .ok (claims.set key coordinate)

/-- `_validate_conflicts`. -/
def validateConflicts : Except Raised Unit := do
  let _ ← (declaredConflicts selected).foldlM (claimConflict sha256) ∅
  pure ()

end Validation

/-- `_selected_manifest_values`: the highest revision of each coordinate. -/
def selectedManifestValues (manifests : List CapabilityManifest) : List CapabilityManifest :=
  (sortedSet (manifests.map fun manifest => manifest.identity.coordinate)).filterMap
    fun coordinate =>
      match manifests.filter fun manifest => manifest.identity.coordinate = coordinate with
      | [] => none
      | first :: rest => some (maxBy (revisionOrder text) first rest)

namespace CapabilityRegistry

variable (registry : CapabilityRegistry)

/-- `_ensure_mutable`. -/
def ensureMutable : Except Raised Unit :=
  raiseIf (registry.frozen = true)
    (conflictError "registry_frozen" "This registry snapshot is read-only." [])

/-- `revision`. -/
def revision (name : String) : Except Raised CapabilityManifest :=
  match registry.revisions.get? name with
  | some manifest => .ok manifest
  | none => .error (referenceError "unknown_revision" "Capability revision is not registered."
      [("revision", .text name)])

/-- `_resolve_active_projections`. -/
def resolveActiveProjections (active : Dict String String) : Except Raised ProjectionResolution := do
  let manifests ← active.entries.mapM fun entry => registry.revision entry.2
  resolveProjections text sha256 manifests registry.projectionPolicy

/-- `_validate_active`. -/
def validateActive (active : Dict String String) : Except Raised Unit := do
  let selected ← active.traverse registry.revision
  validateDependencies text selected true
  validateConflicts sha256 selected
  let _ ← registry.resolveActiveProjections text sha256 active
  pure ()

/-- The place of a revision in the order, before all others if it is not registered. -/
def revisionKey (name : String) : WithBot (Int ×ₗ Int ×ₗ Int ×ₗ String ×ₗ String) :=
  (registry.revisions.get? name).map (revisionOrder text)

/-- `_active_candidate`. -/
def activeCandidate (coordinate : String) : Except Raised String :=
  match registry.byCoordinate.getD coordinate [] with
  | [] => .error (referenceError "unknown_coordinate" "Capability coordinate is not registered."
      [("coordinate", .text coordinate)])
  | first :: rest => .ok (maxBy (registry.revisionKey text) first rest)

/-- The revision an activation points the coordinate at. -/
def chosenRevision (coordinate : String) : Option String → Except Raised String
  | some revision => .ok revision
  | none => registry.activeCandidate text coordinate

/-- `_rebuild_indexes`. -/
def rebuildIndexes : CapabilityRegistry :=
  let manifests := registry.revisions.entries
  { registry with
    byCoordinate := Dict.tabulate (manifests.map fun entry => entry.2.identity.coordinate)
      fun coordinate =>
        (sortedBy (fun entry => revisionOrder text entry.2)
          (manifests.filter fun entry => entry.2.identity.coordinate = coordinate)).map Prod.fst
    byKind := fun kind => (manifests.filter fun entry => entry.2.kind = kind).map Prod.fst }

end CapabilityRegistry

/-- The policy of a registry that is given none. -/
def isolatePolicy : ProjectionPolicy where
  strategy := .isolate
  selectedCoordinate := none
  selects := by simp
  chosen := by simp

/-- `CapabilityRegistry(projection_policy=...)`. -/
def construct (policy : ProjectionPolicy) : Except Raised CapabilityRegistry := do
  let resolution ← resolveProjections text sha256 [] policy
  pure {
    revisions := ∅
    byCoordinate := ∅
    active := ∅
    byKind := fun _ => []
    frozen := false
    projectionPolicy := policy
    projectionResolution := resolution }

/-- The revisions with the additions, none of which may change an existing one. -/
def stage (revisions : Dict String CapabilityManifest) (additions : List CapabilityManifest) :
    Except Raised (Dict String CapabilityManifest) :=
  additions.foldlM (fun staged manifest => do
    let revision := manifest.identity.revision
    raiseIf ((staged.get? revision).any fun existing => !existing.same manifest)
      (conflictError "duplicate_revision" "A revision identity cannot be overwritten."
        [("revision", .text revision)])
    pure (staged.set revision manifest)) revisions

open Transaction

/-- The methods that change a registry. -/
abbrev Method (α : Type) : Type := Transaction CapabilityRegistry Raised α

/-- `register_many`. -/
def registerMany (additions : List CapabilityManifest) : Method (List CapabilityManifest) := do
  query fun registry => registry.ensureMutable
  let staged ← query fun registry => stage registry.revisions additions
  let projectionResolution ← query fun registry =>
    resolveProjections text sha256 (selectedManifestValues text (staged.entries.map Prod.snd))
      registry.projectionPolicy
  write fun registry => { registry with revisions := staged }
  write fun registry => registry.rebuildIndexes text
  write fun registry => { registry with projectionResolution := projectionResolution }
  pure additions

/-- `register`. -/
def register (manifest : CapabilityManifest) : Method CapabilityManifest := do
  let _ ← registerMany text sha256 [manifest]
  pure manifest

/-- The candidate for the active map: the coordinate points at the revision, and what the
policy excludes is gone. -/
def activationCandidate (registry : CapabilityRegistry) (coordinate revision : String) :
    Dict String String :=
  (registry.active.set coordinate revision).filterKeys fun other =>
    other ∉ registry.projectionResolution.excludedCoordinates

/-- `activate`. -/
def activate (coordinate : String) (revision : Option String) : Method CapabilityManifest := do
  query fun registry => registry.ensureMutable
  let chosenRevision ← query fun registry => registry.chosenRevision text coordinate revision
  let manifest ← query fun registry => registry.revision chosenRevision
  query fun _ => raiseIf (manifest.identity.coordinate ≠ coordinate)
    (inputError "activation_coordinate_mismatch" "Activation coordinate does not match revision.")
  query fun registry => raiseIf
    (coordinate ∈ registry.projectionResolution.excludedCoordinates)
    (conflictError "projection_coordinate_excluded"
      "Capability was excluded by the active projection policy."
      [("projection_digest", .text (registry.projectionResolution.digest sha256))])
  query fun registry =>
    registry.validateActive text sha256 (activationCandidate registry coordinate chosenRevision)
  write fun registry =>
    { registry with active := activationCandidate registry coordinate chosenRevision }
  pure manifest

/-- `deactivate`. -/
def deactivate (coordinate : String) : Method Unit := do
  query fun registry => registry.ensureMutable
  query fun registry => raiseIf (coordinate ∉ registry.active.keys)
    (referenceError "inactive_capability" "Capability has no active revision."
      [("coordinate", .text coordinate)])
  query fun registry => registry.validateActive text sha256 (registry.active.erase coordinate)
  write fun registry => { registry with active := registry.active.erase coordinate }

/-- `freeze`. -/
def freeze : Method Unit := write fun registry => { registry with frozen := true }

end CapabilityHub.Registry
