import CapabilityHub.Data.Runs
import CapabilityHub.Registry.Install
import CapabilityHub.Updates.Store

/-! # The staged update manager

`StagedUpdateManager`: a registry of revisions, the trust gate, and the store of the pointers. The
registry and the gate change where a process starts anew; the pointers stay.
-/

namespace CapabilityHub.Updates

open Transaction Registry

/-- A manager without its store. -/
structure Manager where
  registry : CapabilityRegistry
  keyed : Keyed registry.revisions
  /-- `_verify_artifact`, with what the acquirer and the verifier say. -/
  verifyArtifact : String → Except Raised Unit

inductive ManagerCall where
  | bootstrapActive (coordinate revision : String)
  | stage (revision : String) (expectedActiveRevision : Option String)
  | recordHealth (revision : String) (passed : Bool)
  | activate (revision : String) (expectedActiveRevision : Option String)
  | rollback (coordinate expectedActiveRevision : String)

section

variable (text : PythonText) (sha256 : Bytes → Bytes)

namespace Manager

variable (manager : Manager)

/-- `_validate_pointers`. -/
def validatePointers (pointers : Dict String String) : Except Raised Unit := do
  let combined := manager.registry.active.merge pointers
  combined.entries.forM fun entry => do
    let manifest ← manager.registry.revision entry.2
    raiseIf (manifest.identity.coordinate ≠ entry.1) .valueError
  manager.registry.validateSelected text sha256 (combined.entries.map Prod.snd)

/-- `bootstrap_active`. -/
def bootstrapActive (coordinate revision : String) : Method UpdateState := do
  let manifest ← query fun _ => manager.registry.revision revision
  query fun _ => raiseIf (manifest.identity.coordinate ≠ coordinate) .valueError
  SQLiteUpdateStore.bootstrapActive coordinate revision

/-- `stage`. -/
def stage (revision : String) (expectedActiveRevision : Option String) : Method UpdateState := do
  let manifest ← query fun _ => manager.registry.revision revision
  query fun _ => manager.verifyArtifact revision
  SQLiteUpdateStore.stage manifest.identity.coordinate revision expectedActiveRevision

/-- `record_health`. -/
def recordHealth (revision : String) (passed : Bool) : Method UpdateState := do
  let manifest ← query fun _ => manager.registry.revision revision
  query fun _ => manager.verifyArtifact revision
  SQLiteUpdateStore.recordHealth manifest.identity.coordinate revision passed

/-- `activate`. -/
def activate (revision : String) (expectedActiveRevision : Option String) : Method UpdateState := do
  let manifest ← query fun _ => manager.registry.revision revision
  query fun _ => manager.verifyArtifact revision
  SQLiteUpdateStore.activate manifest.identity.coordinate revision expectedActiveRevision
    (manager.validatePointers text sha256)

/-- `rollback`. -/
def rollback (coordinate expectedActiveRevision : String) : Method UpdateState :=
  SQLiteUpdateStore.rollback coordinate expectedActiveRevision (manager.validatePointers text sha256)

def perform : ManagerCall → Method UpdateState
  | .bootstrapActive coordinate revision => manager.bootstrapActive coordinate revision
  | .stage revision expected => manager.stage revision expected
  | .recordHealth revision passed => manager.recordHealth revision passed
  | .activate revision expected => manager.activate text sha256 revision expected
  | .rollback coordinate expected => manager.rollback text sha256 coordinate expected

end Manager

/-- A manager with its store. -/
structure Managed where
  manager : Manager
  updates : CapabilityUpdates := ∅

/-- Calls, and processes that start anew with another registry. -/
inductive ManagerAction where
  | call (call : ManagerCall)
  | restart (manager : Manager)

def Managed.step (system : Managed) : ManagerAction → Managed
  | .call call =>
      { system with updates := stateAfter (system.manager.perform text sha256 call) system.updates }
  | .restart manager => { system with manager := manager }

/-- The system after further calls. -/
def Managed.after (system : Managed) (calls : List ManagerCall) : Managed :=
  run (Managed.step text sha256) system (calls.map .call)

end

/-! ## What is claimed of a system -/

namespace Managed

variable (text : PythonText) (sha256 : Bytes → Bytes) (system : Managed)

/-- The active pointer of the coordinate. -/
def active (coordinate : String) : Option String :=
  (system.updates.readState coordinate).activeRevision

/-- The pointer is to a registered revision of its coordinate. -/
def Resolves (entry : String × String) : Prop :=
  (system.manager.registry.revisions.get? entry.2).map (·.identity.coordinate) = some entry.1

instance {entry : String × String} : Decidable (system.Resolves entry) :=
  inferInstanceAs (Decidable (_ = _))

/-- The active pointers, with one of them at the revision. -/
def pointersWith (coordinate revision : String) : Dict String String :=
  system.manager.registry.active.merge (system.updates.activePointers.set coordinate revision)

/-- The revision is consistent with the other active revisions that are still registered. -/
def ConsistentWith (coordinate revision : String) : Prop :=
  system.manager.registry.validateSelected text sha256
    (((system.pointersWith coordinate revision).entries.filter
      fun entry => system.Resolves entry).map Prod.snd) = .ok ()

instance {coordinate revision : String} :
    Decidable (system.ConsistentWith text sha256 coordinate revision) :=
  match found : system.manager.registry.validateSelected text sha256
      (((system.pointersWith coordinate revision).entries.filter
        fun entry => system.Resolves entry).map Prod.snd) with
  | .ok () => .isTrue found
  | .error _ => .isFalse fun consistent => (by rw [ConsistentWith, found] at consistent; contradiction)

/-- The revision of the coordinate is registered, and its artifact verifies. -/
def Trusted (coordinate revision : String) : Prop :=
  system.Resolves (coordinate, revision) ∧ system.manager.verifyArtifact revision = .ok ()

/-- All other active pointers are to registered revisions of their coordinates. -/
def OthersResolve (coordinate : String) : Prop :=
  ∀ other revision, other ≠ coordinate →
    (system.manager.registry.active.merge system.updates.activePointers).get? other =
      some revision → system.Resolves (other, revision)

end Managed

/-- The calls that may make the revision active: any stage and activation, and a passed health
check of that revision only. -/
def ManagerCall.Promotes (revision : String) : ManagerCall → Prop
  | .stage .. | .activate .. => True
  | .recordHealth other passed => passed = true → other = revision
  | _ => False

namespace Managed

variable (text : PythonText) (sha256 : Bytes → Bytes) (system : Managed)

/-- Some of these calls make the revision active. -/
def CanActivate (coordinate revision : String) : Prop :=
  ∃ calls : List ManagerCall, (∀ call ∈ calls, call.Promotes revision) ∧
    (system.after text sha256 calls).active coordinate = some revision

/-- Every revision that is trusted and consistent can be made active. -/
def NeverDeadEnds : Prop :=
  ∀ coordinate revision, system.Trusted coordinate revision →
    system.ConsistentWith text sha256 coordinate revision →
    system.CanActivate text sha256 coordinate revision

/-- Nothing else is staged for the coordinate, or what is staged there can be activated first. -/
def Vacant (coordinate revision : String) : Prop :=
  let row := system.updates.readState coordinate
  row.stagedRevision ∈ [none, some revision] ∨
    ∃ other, row.stagedRevision = some other ∧ row.healthStatus = some .passed ∧
      system.Trusted coordinate other ∧ system.ConsistentWith text sha256 coordinate other

/-- **Where the way is open, it leads to the revision, and where it is blocked, it stays so.** -/
structure Progresses : Prop where
  /-- Nothing else is in the way. -/
  activates : ∀ coordinate revision, system.Trusted coordinate revision →
    system.ConsistentWith text sha256 coordinate revision → system.OthersResolve coordinate →
    system.Vacant text sha256 coordinate revision →
    system.CanActivate text sha256 coordinate revision
  /-- Another revision is staged for the coordinate, and its health check did not pass. -/
  occupied : ∀ coordinate revision other,
    (system.updates.readState coordinate).stagedRevision = some other → other ≠ revision →
    (system.updates.readState coordinate).healthStatus ≠ some .passed →
    ∀ calls : List ManagerCall, (∀ call ∈ calls, call.Promotes revision) →
      (system.after text sha256 calls).active coordinate = system.active coordinate
  /-- The pointer of another coordinate is to no registered revision of it, and nothing that
  passed is staged there. -/
  unresolved : ∀ coordinate revision other pointer, system.Resolves (coordinate, revision) →
    system.active other = some pointer → ¬system.Resolves (other, pointer) → other ≠ coordinate →
    (system.updates.readState other).healthStatus ≠ some .passed →
    ∀ calls : List ManagerCall, (∀ call ∈ calls, call.Promotes revision) →
      (system.after text sha256 calls).active coordinate = system.active coordinate

end Managed

end CapabilityHub.Updates
