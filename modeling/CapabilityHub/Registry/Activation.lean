import CapabilityHub.Registry.Resolution
import CapabilityHub.Registry.Validation

/-! # The activation invariant

In every state that calls reach, the active map points at registered revisions that are
consistent with each other (`CapabilityHub.Registry.activation_invariant`). An activation or
a deactivation validates the map it writes; a registration leaves the map alone and changes
a revision at most into an equal one.
-/

namespace CapabilityHub.Registry

/-! ## Equal manifests -/

/-- What the validation and the extraction of claims read of a manifest is the same. -/
structure Alike (first second : CapabilityManifest) : Prop where
  identity : first.identity = second.identity
  kind : first.kind = second.kind
  operations : first.operations.map OperationSpec.name = second.operations.map OperationSpec.name
  permissions : first.permissions = second.permissions
  dependencies : first.dependencies = second.dependencies
  conflicts : first.conflicts = second.conflicts
  metadata : numericFields first.metadata = numericFields second.metadata

namespace Alike

variable {first second third : CapabilityManifest}

theorem refl : Alike first first := ⟨rfl, rfl, rfl, rfl, rfl, rfl, rfl⟩

theorem trans (one : Alike first second) (two : Alike second third) : Alike first third :=
  ⟨one.identity.trans two.identity, one.kind.trans two.kind, one.operations.trans two.operations,
    one.permissions.trans two.permissions, one.dependencies.trans two.dependencies,
    one.conflicts.trans two.conflicts, one.metadata.trans two.metadata⟩

theorem names_of_all_same {firsts seconds : List OperationSpec}
    (length : firsts.length = seconds.length)
    (same : (firsts.zip seconds).all (fun pair => pair.1.same pair.2) = true) :
    firsts.map OperationSpec.name = seconds.map OperationSpec.name := by
  induction firsts generalizing seconds with
  | nil => cases seconds <;> simp_all
  | cons first firsts ih =>
      cases seconds with
      | nil => cases length
      | cons second seconds =>
          simp only [List.zip_cons_cons, List.all_cons, Bool.and_eq_true, OperationSpec.same,
            beq_iff_eq] at same
          rw [List.map_cons, List.map_cons, same.1.1.1.1.1.1,
            ih (Nat.succ.inj length) same.2]

theorem of_same (same : first.same second = true) : Alike first second := by
  simp only [CapabilityManifest.same, Bool.and_eq_true, beq_iff_eq] at same
  obtain ⟨⟨⟨⟨⟨⟨⟨⟨⟨⟨⟨⟨⟨identity, kind⟩, _⟩, _⟩, length⟩, operations⟩, _⟩, permissions⟩,
    dependencies⟩, conflicts⟩, _⟩, _⟩, _⟩, metadata⟩ := same
  exact ⟨identity, kind, names_of_all_same length operations, permissions, dependencies, conflicts,
    numericFields_of_same metadata⟩

end Alike

/-- The second selection has an equal manifest wherever the first has one. -/
def Kept (before after : String → Option CapabilityManifest) : Prop :=
  ∀ name manifest, before name = some manifest →
    ∃ manifest', after name = some manifest' ∧ Alike manifest manifest'

variable {text : PythonText} {sha256 : Bytes → Bytes} {registry final : CapabilityRegistry}
  {policy : ProjectionPolicy} {additions : List CapabilityManifest}
  {revisions staged : Dict String CapabilityManifest} {coordinate : String}

theorem Kept.refl {selected : String → Option CapabilityManifest} : Kept selected selected :=
  fun _ manifest found => ⟨manifest, found, .refl⟩

/-- Staging overwrites a revision only with an equal manifest. -/
theorem kept_of_stage (done : stage revisions additions = .ok staged) :
    Kept revisions.get? staged.get? := by
  induction additions generalizing revisions with
  | nil =>
      obtain rfl := pure_eq_ok.mp done
      exact .refl
  | cons addition additions ih =>
      rw [stage, List.foldlM_cons, CapabilityHub.bind_eq_ok] at done
      obtain ⟨middle, here, below⟩ := done
      simp only [CapabilityHub.bind_eq_ok, exists_unit, raiseIf_eq_ok,
        CapabilityHub.pure_eq_ok] at here
      obtain ⟨admitted, rfl⟩ := here
      intro name manifest found
      by_cases same : name = addition.identity.revision
      · have alike : Alike manifest addition := by
          simp only [← same, found, Option.any_some, Bool.not_eq_true', Bool.not_eq_false] at admitted
          exact .of_same admitted
        have written : (revisions.set addition.identity.revision addition).get? name =
            some addition := by
          rw [Dict.get?_set, if_pos same]
        obtain ⟨last, found, alike'⟩ := ih below name addition written
        exact ⟨last, found, alike.trans alike'⟩
      · apply ih below name manifest
        rw [Dict.get?_set, if_neg same, found]

/-! ## The active manifests -/

/-- The manifest a coordinate is active with. -/
def CapabilityRegistry.activeManifest (registry : CapabilityRegistry) (coordinate : String) :
    Option CapabilityManifest :=
  (registry.active.get? coordinate).bind registry.revisions.get?

theorem Consistent.congr {before after : String → Option CapabilityManifest}
    (consistent : Consistent text before) (kept : Kept before after)
    (back : ∀ coordinate, before coordinate = none → after coordinate = none) :
    Consistent text after := by
  have source {coordinate : String} {manifest : CapabilityManifest}
      (found : after coordinate = some manifest) :
      ∃ manifest', before coordinate = some manifest' ∧ Alike manifest' manifest := by
    cases earlier : before coordinate with
    | none => simp [back coordinate earlier] at found
    | some manifest' =>
        obtain ⟨last, found', alike⟩ := kept coordinate manifest' earlier
        rw [found, Option.some.injEq] at found'
        exact ⟨manifest', rfl, found' ▸ alike⟩
  have satisfied (dependency : DependencySpec) :
      Satisfied text before dependency ↔ Satisfied text after dependency := by
    constructor
    · rintro ⟨target, found, holds⟩
      obtain ⟨target', found', alike⟩ := kept _ target found
      exact ⟨target', found', alike.identity ▸ holds⟩
    · rintro ⟨target, found, holds⟩
      obtain ⟨target', found', alike⟩ := source found
      exact ⟨target', found', alike.identity ▸ holds⟩
  have edges {one two : String} (edge : DependsOn text after one two) :
      DependsOn text before one two := by
    obtain ⟨manifest, found, dependency, member, same, holds⟩ := edge
    obtain ⟨manifest', found', alike⟩ := source found
    exact ⟨manifest', found', dependency, alike.dependencies ▸ member, same,
      (satisfied dependency).mpr holds⟩
  constructor
  · intro coordinate manifest found dependency member required
    obtain ⟨manifest', found', alike⟩ := source found
    exact (satisfied dependency).mp (consistent.complete coordinate manifest' found' dependency
      (alike.dependencies ▸ member) required)
  · intro coordinate walk
    exact consistent.acyclic coordinate (Relation.TransGen.mono (fun _ _ => edges) _ _ walk)
  · intro coordinate other manifest manifest' found found' conflict member member'
    obtain ⟨first, earlier, alike⟩ := source found
    obtain ⟨second, earlier', alike'⟩ := source found'
    exact consistent.exclusive coordinate other first second earlier earlier' conflict
      (alike.conflicts ▸ member) (alike'.conflicts ▸ member')

/-- **The active map is valid**: each coordinate points at a registered revision of its own, and
the manifests they are active with are consistent. -/
structure ActiveValid (text : PythonText) (registry : CapabilityRegistry) : Prop where
  registered : ∀ coordinate revision, registry.active.get? coordinate = some revision →
    ∃ manifest, registry.revisions.get? revision = some manifest ∧
      manifest.identity.coordinate = coordinate
  consistent : Consistent text registry.activeManifest

theorem revision_eq_ok {name : String} {manifest : CapabilityManifest} :
    registry.revision name = .ok manifest ↔ registry.revisions.get? name = some manifest := by
  rw [CapabilityRegistry.revision]
  cases registry.revisions.get? name <;> simp

/-- What the validation of a map says about the manifests it points at. -/
theorem validateActive_eq_ok {active : Dict String String} :
    registry.validateActive text sha256 active = .ok () ↔
      (∀ coordinate name, active.get? coordinate = some name →
        ∃ manifest, registry.revisions.get? name = some manifest) ∧
      Consistent text (fun coordinate =>
        (active.get? coordinate).bind registry.revisions.get?) ∧
      ∃ resolution, registry.resolveActiveProjections text sha256 active = .ok resolution := by
  have selection {selected : Dict String CapabilityManifest}
      (done : active.traverse registry.revision = .ok selected) :
      selected.get? = fun coordinate =>
        (active.get? coordinate).bind registry.revisions.get? := by
    funext coordinate
    apply Option.ext
    intro manifest
    rw [Dict.get?_traverse done, Option.bind_eq_some_iff]
    simp only [revision_eq_ok]
  have known : (∃ selected, active.traverse registry.revision = .ok selected) ↔
      ∀ coordinate name, active.get? coordinate = some name →
        ∃ manifest, registry.revisions.get? name = some manifest := by
    simp only [Dict.exists_traverse_eq_ok, revision_eq_ok]
  have checked {selected : Dict String CapabilityManifest} :
      Consistent text selected.get? ↔ validateDependencies text selected true = .ok () ∧
        validateConflicts sha256 selected = .ok () := by
    rw [validateDependencies_eq_ok, validateConflicts_eq_ok]
    constructor
    · intro consistent
      exact ⟨⟨consistent.complete, consistent.acyclic⟩, consistent.exclusive⟩
    · rintro ⟨⟨complete, acyclic⟩, exclusive⟩
      exact ⟨complete, acyclic, exclusive⟩
  simp only [CapabilityRegistry.validateActive, CapabilityHub.bind_eq_ok, exists_unit,
    CapabilityHub.pure_eq_ok, and_true]
  rw [← known]
  constructor
  · rintro ⟨selected, done, dependencies, conflicts, resolved⟩
    exact ⟨⟨selected, done⟩, selection done ▸ checked.mpr ⟨dependencies, conflicts⟩, resolved⟩
  · rintro ⟨⟨selected, done⟩, consistent, resolved⟩
    obtain ⟨dependencies, conflicts⟩ := checked.mp (selection done ▸ consistent)
    exact ⟨selected, done, dependencies, conflicts, resolved⟩

/-! ## Calls -/

/-- A call of a method that changes the registry. -/
inductive Call where
  | register (manifest : CapabilityManifest)
  | registerMany (manifests : List CapabilityManifest)
  | activate (coordinate : String) (revision : Option String)
  | deactivate (coordinate : String)
  | freeze

variable (text sha256) in
def perform : Call → Method Unit
  | .register manifest => do let _ ← register text sha256 manifest
  | .registerMany manifests => do let _ ← registerMany text sha256 manifests
  | .activate coordinate revision => do let _ ← activate text sha256 coordinate revision
  | .deactivate coordinate => deactivate text sha256 coordinate
  | .freeze => freeze

variable (text sha256) in
/-- The registry after a sequence of calls, whether they return or raise. -/
def performAll (registry : CapabilityRegistry) (calls : List Call) : CapabilityRegistry :=
  calls.foldl (fun registry call => (perform text sha256 call).stateAfter registry) registry

/-- What the call registers, if it is a registration. -/
def Call.registered : Call → Option (List CapabilityManifest)
  | .register manifest => some [manifest]
  | .registerMany manifests => some manifests
  | _ => none

/-- What a call that returns has done. -/
inductive Performed (text : PythonText) (sha256 : Bytes → Bytes) (registry : CapabilityRegistry) :
    Call → CapabilityRegistry → Prop
  | registered {call : Call} {additions : List CapabilityManifest}
      {staged : Dict String CapabilityManifest} {resolution : ProjectionResolution}
      (registers : call.registered = some additions)
      (staging : stage registry.revisions additions = .ok staged)
      (resolving : resolveProjections text sha256
        (selectedManifestValues text (staged.entries.map Prod.snd)) registry.projectionPolicy =
          .ok resolution) :
      Performed text sha256 registry call
        { CapabilityRegistry.rebuildIndexes text { registry with revisions := staged } with
          projectionResolution := resolution }
  | activated {coordinate revision : String} {chosen : Option String}
      {manifest : CapabilityManifest}
      (choice : registry.chosenRevision text coordinate chosen = .ok revision)
      (found : registry.revisions.get? revision = some manifest)
      (matching : manifest.identity.coordinate = coordinate)
      (included : coordinate ∉ registry.projectionResolution.excludedCoordinates)
      (valid : registry.validateActive text sha256
        (activationCandidate registry coordinate revision) = .ok ()) :
      Performed text sha256 registry (.activate coordinate chosen)
        { registry with active := activationCandidate registry coordinate revision }
  | deactivated {coordinate : String}
      (valid : registry.validateActive text sha256 (registry.active.erase coordinate) = .ok ()) :
      Performed text sha256 registry (.deactivate coordinate)
        { registry with active := registry.active.erase coordinate }
  | frozen : Performed text sha256 registry .freeze { registry with frozen := true }

open Transaction

theorem atomic_registerMany : Atomic (registerMany text sha256 additions) := by
  apply Atomic.query_bind
  intro _
  apply Atomic.query_bind
  intro staged
  apply Atomic.query_bind
  intro resolution
  apply Total.atomic
  iterate 3 apply Total.write_bind
  exact total_pure

theorem atomic_activate {revision : Option String} :
    Atomic (activate text sha256 coordinate revision) := by
  apply Atomic.query_bind
  intro _
  apply Atomic.query_bind
  intro chosen
  apply Atomic.query_bind
  intro manifest
  iterate 3
    apply Atomic.query_bind
    intro _
  apply Total.atomic
  apply Total.write_bind
  exact total_pure

theorem atomic_deactivate : Atomic (deactivate text sha256 coordinate) := by
  iterate 3
    apply Atomic.query_bind
    intro _
  exact fun _ _ _ raised => by cases raised

/-- A call that raises leaves the registry as it was. -/
theorem atomic_perform (call : Call) : Atomic (perform text sha256 call) := by
  cases call with
  | register manifest => exact atomic_registerMany.bind_pure.bind_pure
  | registerMany manifests => exact atomic_registerMany.bind_pure
  | activate coordinate revision => exact atomic_activate.bind_pure
  | deactivate coordinate => exact atomic_deactivate
  | freeze => exact fun _ _ _ raised => by cases raised

theorem performed_of_registerMany {call : Call} {result : List CapabilityManifest}
    (registers : call.registered = some additions)
    (done : registerMany text sha256 additions registry = .ok result final) :
    Performed text sha256 registry call final := by
  simp only [registerMany, Transaction.bind_eq_ok, query_eq_ok, write_eq_ok, exists_unit,
    Transaction.pure_eq_ok] at done
  obtain ⟨_, ⟨_, rfl⟩, staged, _, ⟨staging, rfl⟩, resolution, _, ⟨resolving, rfl⟩, _, rfl, _, rfl, _,
    rfl, _, rfl⟩ := done
  exact .registered registers staging resolving

/-- What a call that returns has done. -/
theorem performed {call : Call} {result : Unit}
    (done : perform text sha256 call registry = .ok result final) :
    Performed text sha256 registry call final := by
  cases call with
  | register manifest =>
      simp only [perform, register, Transaction.bind_eq_ok, Transaction.pure_eq_ok] at done
      obtain ⟨_, _, ⟨_, _, done, _, rfl⟩, _, rfl⟩ := done
      exact performed_of_registerMany rfl done
  | registerMany manifests =>
      simp only [perform, Transaction.bind_eq_ok, Transaction.pure_eq_ok] at done
      obtain ⟨_, _, done, _, rfl⟩ := done
      exact performed_of_registerMany rfl done
  | activate coordinate revision =>
      simp only [perform, activate, Transaction.bind_eq_ok, query_eq_ok, write_eq_ok, exists_unit,
        Transaction.pure_eq_ok, raiseIf_eq_ok, not_not, revision_eq_ok] at done
      obtain ⟨_, _, ⟨_, ⟨_, rfl⟩, chosen, _, ⟨choice, rfl⟩, manifest, _, ⟨found, rfl⟩, _, ⟨matching, rfl⟩,
        _, ⟨included, rfl⟩, _, ⟨valid, rfl⟩, _, rfl, _, rfl⟩, _, rfl⟩ := done
      exact .activated choice found matching included valid
  | deactivate coordinate =>
      simp only [perform, deactivate, Transaction.bind_eq_ok, query_eq_ok, write_eq_ok,
        exists_unit] at done
      obtain ⟨_, ⟨_, rfl⟩, _, ⟨_, rfl⟩, _, ⟨valid, rfl⟩, rfl⟩ := done
      exact .deactivated valid
  | freeze =>
      cases done
      exact .frozen

/-! ## The invariant -/

theorem ActiveValid.of_validateActive {active : Dict String String}
    (registered : ∀ coordinate revision, active.get? coordinate = some revision →
      ∃ manifest, registry.revisions.get? revision = some manifest ∧
        manifest.identity.coordinate = coordinate)
    (valid : registry.validateActive text sha256 active = .ok ()) :
    ActiveValid text { registry with active := active } :=
  ⟨registered, (validateActive_eq_ok.mp valid).2.1⟩

/-- One call keeps the active map valid. -/
theorem Performed.activeValid {call : Call} (performed : Performed text sha256 registry call final)
    (valid : ActiveValid text registry) : ActiveValid text final := by
  cases performed with
  | registered registers staging resolving =>
      have kept := kept_of_stage staging
      refine ⟨fun coordinate revision pointed => ?_, ?_⟩
      · obtain ⟨manifest, found, same⟩ := valid.registered coordinate revision pointed
        obtain ⟨manifest', found', alike⟩ := kept revision manifest found
        exact ⟨manifest', found', alike.identity ▸ same⟩
      · apply valid.consistent.congr
        · intro coordinate manifest found
          obtain ⟨revision, pointed, found⟩ := Option.bind_eq_some_iff.mp found
          obtain ⟨manifest', found', alike⟩ := kept revision manifest found
          exact ⟨manifest', Option.bind_eq_some_iff.mpr ⟨revision, pointed, found'⟩, alike⟩
        · intro coordinate missing
          cases pointed : registry.active.get? coordinate with
          | none => simp [CapabilityRegistry.activeManifest, CapabilityRegistry.rebuildIndexes, pointed]
          | some revision =>
              obtain ⟨manifest, found, _⟩ := valid.registered coordinate revision pointed
              simp [CapabilityRegistry.activeManifest, pointed, found] at missing
  | @activated coordinate revision _ manifest _ found matching included checked =>
      apply ActiveValid.of_validateActive _ checked
      intro other name pointed
      rw [activationCandidate, Dict.get?_filterKeys, Dict.get?_set] at pointed
      split at pointed
      · split at pointed
        next same =>
          cases pointed
          exact ⟨manifest, found, same ▸ matching⟩
        · exact valid.registered other name pointed
      · cases pointed
  | @deactivated coordinate checked =>
      apply ActiveValid.of_validateActive _ checked
      intro other name pointed
      rw [Dict.get?_erase] at pointed
      split at pointed
      · cases pointed
      · exact valid.registered other name pointed
  | frozen => exact ⟨valid.registered, valid.consistent⟩

theorem performAll_append (first second : List Call) :
    performAll text sha256 registry (first ++ second) =
      performAll text sha256 (performAll text sha256 registry first) second :=
  List.foldl_append

/-- What holds at first and is kept by every call that returns holds after any calls. -/
theorem performAll_induction {holds : CapabilityRegistry → Prop} (start : holds registry)
    (step : ∀ registry final call, holds registry → Performed text sha256 registry call final →
      holds final) (calls : List Call) : holds (performAll text sha256 registry calls) := by
  induction calls generalizing registry with
  | nil => exact start
  | cons call calls ih =>
      rw [performAll, List.foldl_cons, ← performAll]
      apply ih
      rw [stateAfter]
      cases done : perform text sha256 call registry with
      | ok result final => exact step registry final call start (performed done)
      | error error final =>
          obtain rfl := atomic_perform call registry error final done
          exact start

/-- A registry without revisions. -/
def emptyRegistry (policy : ProjectionPolicy) : CapabilityRegistry where
  revisions := ∅
  byCoordinate := ∅
  active := ∅
  byKind := fun _ => []
  frozen := false
  projectionPolicy := policy
  projectionResolution := ⟨policy.strategy, [], [], []⟩

/-- Nothing collides in a registry without revisions. -/
theorem construct_eq : construct text sha256 policy = .ok (emptyRegistry policy) := by
  have admitted : checkCollisions policy [] = .ok () := by
    rw [checkCollisions]
    cases policy.strategy <;> rfl
  rw [construct, CapabilityHub.bind_eq_ok]
  exact ⟨_, resolveProjections_eq_ok.mpr ⟨[], rfl, admitted, rfl⟩, rfl⟩

theorem construct_eq_ok :
    construct text sha256 policy = .ok registry ↔ registry = emptyRegistry policy := by
  rw [construct_eq, Except.ok.injEq, eq_comm]

theorem activeValid_of_construct (constructed : construct text sha256 policy = .ok registry) :
    ActiveValid text registry := by
  obtain rfl := construct_eq_ok.mp constructed
  have nothing (coordinate : String) : (emptyRegistry policy).activeManifest coordinate = none := rfl
  refine ⟨fun coordinate revision pointed => (by cases pointed), ?_, ?_, ?_⟩
  · intro coordinate manifest found
    simp [nothing] at found
  · intro coordinate walk
    obtain ⟨_, ⟨manifest, found, _⟩, _⟩ := Relation.TransGen.head'_iff.mp walk
    simp [nothing] at found
  · intro coordinate other manifest manifest' found
    simp [nothing] at found

/-- **The activation invariant.** After any calls on a new registry, whether they returned or
raised, the active map is valid, and the next call that raises changes nothing. -/
theorem activation_invariant (text : PythonText) (sha256 : Bytes → Bytes)
    (policy : ProjectionPolicy) (initial : CapabilityRegistry)
    (constructed : construct text sha256 policy = .ok initial) (calls : List Call) :
    ActiveValid text (performAll text sha256 initial calls) ∧
      ∀ call error final,
        perform text sha256 call (performAll text sha256 initial calls) = .error error final →
          final = performAll text sha256 initial calls := by
  refine ⟨?_, fun call => atomic_perform call _⟩
  exact performAll_induction (activeValid_of_construct constructed)
    (fun _ _ _ valid done => done.activeValid valid) calls

/-- A skill of the namespace `d` that offers one operation. -/
def skill (name version operation : String) (dependencies : List DependencySpec) :
    CapabilityManifest where
  identity := ⟨"d", name, version, ""⟩
  kind := .skill
  summary := ""
  provider := ""
  operations := [{ name := operation, operationType := .execute }]
  dependencies := dependencies

/-- A capability is activated after the one it depends on, which then has to stay. -/
def dependentCalls : List Call :=
  [.registerMany [skill "a" "1" "x" [{ coordinate := "d/b" }], skill "b" "1" "y" []],
    .activate "d/a" none, .activate "d/b" none, .activate "d/a" none, .deactivate "d/b"]

theorem activation_invariant_dependent :
    (performAll asciiText id (emptyRegistry isolatePolicy) dependentCalls).active.entries =
        [("d/b", "d/b@1#"), ("d/a", "d/a@1#")] ∧
      ActiveValid asciiText (performAll asciiText id (emptyRegistry isolatePolicy) dependentCalls) :=
  ⟨by decide +kernel, (activation_invariant asciiText id isolatePolicy _ construct_eq _).1⟩

end CapabilityHub.Registry
