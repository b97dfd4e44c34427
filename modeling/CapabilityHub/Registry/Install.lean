import CapabilityHub.Registry.Admission

/-! # Replacing the running registry

The replacement has the revisions and the activations of the running registry exactly when
the activations can be replayed one by one: each of them after those its manifest depends on.
What else it does, it leaves alone every coordinate that is not named
(`CapabilityHub.Registry.install_preserves`).
-/

namespace CapabilityHub.Registry

open Transaction

variable {text : PythonText} {sha256 : Bytes → Bytes} {policy : ProjectionPolicy}
  {initial registry base final : CapabilityRegistry} {revisions staged : Dict String CapabilityManifest}
  {additions : List CapabilityManifest} {coordinate name : String} {manifest : CapabilityManifest}

/-! ## What the methods return on -/

theorem after_eq_ok {α : Type} {work : Method α} :
    registry.after work = .ok final ↔ ∃ result, work registry = .ok result final := by
  rw [CapabilityRegistry.after]
  cases work registry <;> simp

theorem registerMany_eq_ok {result : List CapabilityManifest} :
    registerMany text sha256 additions registry = .ok result final ↔
      registry.ensureMutable = .ok () ∧ ∃ staged, stage registry.revisions additions = .ok staged ∧
        ∃ resolution, resolveProjections text sha256
            (selectedManifestValues text (staged.entries.map Prod.snd)) registry.projectionPolicy =
              .ok resolution ∧
          result = additions ∧
            final = { CapabilityRegistry.rebuildIndexes text { registry with revisions := staged } with
              projectionResolution := resolution } := by
  simp only [registerMany, Transaction.bind_eq_ok, query_eq_ok, write_eq_ok, exists_unit,
    Transaction.pure_eq_ok]
  constructor
  · rintro ⟨_, ⟨mutable, rfl⟩, staged, _, ⟨staging, rfl⟩, resolution, _, ⟨resolving, rfl⟩, _, rfl, _,
      rfl, _, rfl, rfl, rfl⟩
    exact ⟨mutable, staged, staging, resolution, resolving, rfl, rfl⟩
  · rintro ⟨mutable, staged, staging, resolution, resolving, rfl, rfl⟩
    exact ⟨_, ⟨mutable, rfl⟩, staged, _, ⟨staging, rfl⟩, resolution, _, ⟨resolving, rfl⟩, _, rfl, _,
      rfl, _, rfl, rfl, rfl⟩

theorem activate_eq_ok {result : CapabilityManifest} :
    activate text sha256 coordinate (some name) registry = .ok result final ↔
      registry.ensureMutable = .ok () ∧ registry.revisions.get? name = some result ∧
        result.identity.coordinate = coordinate ∧
          coordinate ∉ registry.projectionResolution.excludedCoordinates ∧
            registry.validateActive text sha256 (activationCandidate registry coordinate name) =
              .ok () ∧
              final = { registry with active := activationCandidate registry coordinate name } := by
  simp only [activate, Transaction.bind_eq_ok, query_eq_ok, write_eq_ok, exists_unit,
    Transaction.pure_eq_ok, raiseIf_eq_ok, not_not, revision_eq_ok,
    CapabilityRegistry.chosenRevision, Except.ok.injEq]
  constructor
  · rintro ⟨_, ⟨mutable, rfl⟩, chosen, _, ⟨rfl, rfl⟩, manifest, _, ⟨found, rfl⟩, _, ⟨matching, rfl⟩,
      _, ⟨included, rfl⟩, _, ⟨valid, rfl⟩, _, rfl, rfl, rfl⟩
    exact ⟨mutable, found, matching, included, valid, rfl⟩
  · rintro ⟨mutable, found, matching, included, valid, rfl⟩
    exact ⟨_, ⟨mutable, rfl⟩, name, _, ⟨rfl, rfl⟩, result, _, ⟨found, rfl⟩, _, ⟨matching, rfl⟩, _,
      ⟨included, rfl⟩, _, ⟨valid, rfl⟩, _, rfl, rfl, rfl⟩

/-! ## Revisions under their names -/

/-- Each revision is stored under its own name. -/
def Keyed (revisions : Dict String CapabilityManifest) : Prop :=
  ∀ name manifest, revisions.get? name = some manifest → manifest.identity.revision = name

theorem keyed_of_stage (keyed : Keyed revisions)
    (done : stage revisions additions = .ok staged) : Keyed staged := by
  induction additions generalizing revisions with
  | nil =>
      obtain rfl := CapabilityHub.pure_eq_ok.mp done
      exact keyed
  | cons addition additions ih =>
      rw [stage, List.foldlM_cons, CapabilityHub.bind_eq_ok] at done
      obtain ⟨middle, here, below⟩ := done
      simp only [CapabilityHub.bind_eq_ok, exists_unit, raiseIf_eq_ok,
        CapabilityHub.pure_eq_ok] at here
      obtain ⟨_, rfl⟩ := here
      apply ih _ below
      intro name manifest found
      rw [Dict.get?_set] at found
      split at found
      next same =>
        cases found
        exact same.symm
      · exact keyed name manifest found

theorem keyed_performAll (constructed : construct text sha256 policy = .ok initial)
    (calls : List Call) : Keyed (performAll text sha256 initial calls).revisions := by
  obtain rfl := construct_eq_ok.mp constructed
  have start : Keyed (emptyRegistry policy).revisions := by
    intro name manifest found
    cases found
  have step : ∀ registry final call, Keyed registry.revisions →
      Performed text sha256 registry call final → Keyed final.revisions := by
    intro registry final call keyed done
    cases done with
    | registered registers staging resolving => exact keyed_of_stage keyed staging
    | _ => exact keyed
  exact performAll_induction start step calls

/-- Revisions with names of their own are all staged, in their order. -/
theorem stage_fresh {entries : List (String × CapabilityManifest)}
    (keyed : ∀ entry ∈ entries, entry.2.identity.revision = entry.1)
    (fresh : (revisions.keys ++ entries.map Prod.fst).Nodup) :
    ∃ staged, stage revisions (entries.map Prod.snd) = .ok staged ∧
      staged.entries = revisions.entries ++ entries := by
  induction entries generalizing revisions with
  | nil => exact ⟨revisions, rfl, (List.append_nil _).symm⟩
  | cons entry entries ih =>
      obtain ⟨named, keyed⟩ := List.forall_mem_cons.mp keyed
      have absent : entry.1 ∉ revisions.keys := fun member =>
        (List.nodup_append.mp fresh).2.2 entry.1 member entry.1 (by simp) rfl
      have next := Dict.entries_set_of_notMem entry.2 absent
      have rest : ((revisions.set entry.1 entry.2).keys ++ entries.map Prod.fst).Nodup := by
        rw [Dict.keys, next, List.map_append, List.append_assoc]
        exact fresh
      obtain ⟨staged, done, same⟩ := ih keyed rest
      refine ⟨staged, ?_, ?_⟩
      · rw [List.map_cons, stage, List.foldlM_cons, CapabilityHub.bind_eq_ok]
        refine ⟨_, ?_, done⟩
        simp only [CapabilityHub.bind_eq_ok, exists_unit, raiseIf_eq_ok, named,
          Dict.get?_eq_none_iff.mpr absent, Option.any_none, Bool.false_eq_true, not_false_eq_true,
          true_and, CapabilityHub.pure_eq_ok]
      · rw [same, next, List.append_assoc]
        rfl

/-- The revisions of a registry, staged on none, are the same again. -/
theorem stage_revisions (keyed : Keyed revisions) :
    stage ∅ (revisions.entries.map Prod.snd) = .ok revisions := by
  have named : ∀ entry ∈ revisions.entries, entry.2.identity.revision = entry.1 :=
    fun entry member => keyed entry.1 entry.2 (Dict.mem_entries_iff.mp member)
  have fresh : ((∅ : Dict String CapabilityManifest).keys ++ revisions.keys).Nodup :=
    revisions.keys_nodup
  obtain ⟨staged, done, same⟩ := stage_fresh named fresh
  rw [done, Dict.ext_entries (same.trans (List.nil_append _))]

/-! ## Replaying activations -/

/-- The coordinates without which the revision cannot be active. -/
def required (registry : CapabilityRegistry) (name : String) : List String :=
  ((registry.revisions.get? name).map fun manifest =>
    (manifest.dependencies.filter fun dependency => !dependency.isOptional).map
      DependencySpec.coordinate).getD []

/-- Each activation comes after those of the coordinates it requires. -/
def InOrder (registry : CapabilityRegistry) : List String → List (String × String) → Prop
  | _, [] => True
  | done, entry :: rest => required registry entry.2 ⊆ done ∧
      InOrder registry (done ++ [entry.1]) rest

variable (text sha256) in
/-- The claims of every active revision can be extracted. -/
def Extractable (registry : CapabilityRegistry) : Prop :=
  ∀ coordinate manifest, registry.activeManifest coordinate = some manifest →
    ∃ claims, extractProjectionClaims text sha256 manifest = .ok claims

/-- Of consistent manifests, those with what they require are consistent. -/
theorem Consistent.restrict {selected part : String → Option CapabilityManifest}
    (consistent : Consistent text selected)
    (inside : ∀ coordinate manifest, part coordinate = some manifest →
      selected coordinate = some manifest) :
    Consistent text part ↔ ∀ coordinate manifest, part coordinate = some manifest →
      ∀ dependency ∈ manifest.dependencies, dependency.isOptional = false →
        (part dependency.coordinate).isSome := by
  have satisfied {dependency : DependencySpec} (holds : Satisfied text part dependency) :
      Satisfied text selected dependency := by
    obtain ⟨target, found, holds⟩ := holds
    exact ⟨target, inside _ target found, holds⟩
  constructor
  · intro valid coordinate manifest found dependency member needed
    obtain ⟨target, present, _⟩ := valid.complete coordinate manifest found dependency member needed
    rw [present, Option.isSome_some]
  · intro closed
    constructor
    · intro coordinate manifest found dependency member needed
      obtain ⟨target, present, holds⟩ := consistent.complete coordinate manifest
        (inside coordinate manifest found) dependency member needed
      obtain ⟨target', present'⟩ := Option.isSome_iff_exists.mp
        (closed coordinate manifest found dependency member needed)
      obtain rfl : target = target' := Option.some.inj (present.symm.trans (inside _ _ present'))
      exact ⟨target, present', holds⟩
    · intro coordinate walk
      apply consistent.acyclic coordinate
      apply Relation.TransGen.mono _ _ _ walk
      rintro one two ⟨manifest, found, dependency, member, same, holds⟩
      exact ⟨manifest, inside one manifest found, dependency, member, same, satisfied holds⟩
    · intro coordinate other manifest manifest' found found'
      exact consistent.exclusive coordinate other manifest manifest'
        (inside coordinate manifest found) (inside other manifest' found')

/-- The registry has the same revisions and excludes nothing. -/
structure Copy (registry base : CapabilityRegistry) : Prop where
  revisions : base.revisions = registry.revisions
  mutable : base.frozen = false
  isolates : base.projectionPolicy.strategy = .isolate
  admits : base.projectionResolution.excludedCoordinates = []

theorem mem_required {name other : String} (found : registry.revisions.get? name = some manifest) :
    other ∈ required registry name ↔ ∃ dependency ∈ manifest.dependencies,
      dependency.isOptional = false ∧ dependency.coordinate = other := by
  simp [required, found, and_assoc]

/-- Without a check on the collisions a map needs nothing but the claims. -/
theorem resolveActiveProjections_isolated (isolates : base.projectionPolicy.strategy = .isolate)
    {part : Dict String String} :
    (∃ resolution, base.resolveActiveProjections text sha256 part = .ok resolution) ↔
      ∀ coordinate name, part.get? coordinate = some name → ∃ manifest,
        base.revisions.get? name = some manifest ∧ ∃ claims,
          extractProjectionClaims text sha256 manifest = .ok claims := by
  simp only [CapabilityRegistry.resolveActiveProjections, CapabilityHub.bind_eq_ok]
  constructor
  · rintro ⟨resolution, manifests, collected, done⟩ coordinate name pointed
    obtain ⟨manifest, found⟩ := exists_mapM_eq_ok.mp ⟨manifests, collected⟩ (coordinate, name)
      (Dict.mem_entries_iff.mpr pointed)
    have member := (mem_of_mapM collected).mpr
      ⟨(coordinate, name), Dict.mem_entries_iff.mpr pointed, found⟩
    exact ⟨manifest, revision_eq_ok.mp found, (resolved done).extracts manifest member⟩
  · intro extracts
    have collects : ∃ manifests,
        part.entries.mapM (fun entry => base.revision entry.2) = .ok manifests := by
      apply exists_mapM_eq_ok.mpr
      rintro ⟨coordinate, name⟩ member
      obtain ⟨manifest, found, _⟩ := extracts coordinate name (Dict.mem_entries_iff.mp member)
      exact ⟨manifest, revision_eq_ok.mpr found⟩
    obtain ⟨manifests, collected⟩ := collects
    obtain ⟨resolution, done⟩ := (exists_isolated isolates).mpr fun manifest member => by
      obtain ⟨⟨coordinate, name⟩, inside, found⟩ := (mem_of_mapM collected).mp member
      obtain ⟨manifest', found', extracts⟩ := extracts coordinate name
        (Dict.mem_entries_iff.mp inside)
      obtain rfl := Option.some.inj ((revision_eq_ok.mp found).symm.trans found')
      exact extracts
    exact ⟨resolution, manifests, collected, done⟩

/-- A part of a valid map is valid when it has what its revisions require. -/
theorem validateActive_part (copy : Copy registry base) (valid : ActiveValid text registry)
    {part : Dict String String}
    (inside : ∀ coordinate name, part.get? coordinate = some name →
      registry.active.get? coordinate = some name) :
    base.validateActive text sha256 part = .ok () ↔
      ∀ coordinate name, part.get? coordinate = some name →
        required registry name ⊆ part.keys ∧ ∀ manifest,
          registry.revisions.get? name = some manifest →
            ∃ claims, extractProjectionClaims text sha256 manifest = .ok claims := by
  have known (coordinate name : String) (pointed : part.get? coordinate = some name) :
      ∃ manifest, registry.revisions.get? name = some manifest := by
    obtain ⟨manifest, found, _⟩ := valid.registered coordinate name
      (inside coordinate name pointed)
    exact ⟨manifest, found⟩
  have points (coordinate : String) (manifest : CapabilityManifest) :
      (part.get? coordinate).bind registry.revisions.get? = some manifest ↔
        ∃ name, part.get? coordinate = some name ∧
          registry.revisions.get? name = some manifest := Option.bind_eq_some_iff
  rw [validateActive_eq_ok, resolveActiveProjections_isolated copy.isolates, copy.revisions,
    valid.consistent.restrict]
  · constructor
    · rintro ⟨_, closed, extracts⟩ coordinate name pointed
      obtain ⟨manifest, found, extracts⟩ := extracts coordinate name pointed
      refine ⟨fun other member => ?_, fun manifest' found' => ?_⟩
      · obtain ⟨dependency, declared, needed, rfl⟩ := (mem_required found).mp member
        have present := closed coordinate manifest ((points _ _).mpr ⟨name, pointed, found⟩)
          dependency declared needed
        obtain ⟨target, present⟩ := Option.isSome_iff_exists.mp present
        obtain ⟨name', pointed', _⟩ := (points _ _).mp present
        exact Dict.mem_keys_of_get? pointed'
      · obtain rfl := Option.some.inj (found.symm.trans found')
        exact extracts
    · intro ready
      refine ⟨known, fun coordinate manifest present dependency member needed => ?_,
        fun coordinate name pointed => ?_⟩
      · obtain ⟨name, pointed, found⟩ := (points _ _).mp present
        have inside := (ready coordinate name pointed).1
          ((mem_required found).mpr ⟨dependency, member, needed, rfl⟩)
        obtain ⟨name', pointed'⟩ := Dict.get?_isSome_iff.mpr inside
        obtain ⟨target, found'⟩ := known _ name' pointed'
        rw [(points _ _).mpr ⟨name', pointed', found'⟩, Option.isSome_some]
      · obtain ⟨manifest, found⟩ := known coordinate name pointed
        exact ⟨manifest, found, (ready coordinate name pointed).2 manifest found⟩
  · intro coordinate manifest present
    obtain ⟨name, pointed, found⟩ := (points _ _).mp present
    exact Option.bind_eq_some_iff.mpr ⟨name, inside coordinate name pointed, found⟩

theorem activationCandidate_of_admits
    (admits : base.projectionResolution.excludedCoordinates = []) :
    activationCandidate base coordinate name = base.active.set coordinate name := by
  apply Dict.ext_entries
  rw [activationCandidate, Dict.filterKeys, admits]
  exact List.filter_eq_self.mpr fun entry _ => by simp

/-- No active coordinate requires itself. -/
theorem not_mem_required_self (valid : ActiveValid text registry)
    (pointed : registry.active.get? coordinate = some name) :
    coordinate ∉ required registry name := by
  intro member
  obtain ⟨manifest, found, _⟩ := valid.registered coordinate name pointed
  obtain ⟨dependency, declared, needed, same⟩ := (mem_required found).mp member
  have active : registry.activeManifest coordinate = some manifest :=
    Option.bind_eq_some_iff.mpr ⟨name, pointed, found⟩
  apply valid.consistent.acyclic coordinate
  exact Relation.TransGen.single ⟨manifest, active, dependency, declared, same,
    valid.consistent.complete coordinate manifest active dependency declared needed⟩

/-- A valid part with one more activation is valid if it has what the revision requires. -/
theorem validateActive_set (copy : Copy registry base) (valid : ActiveValid text registry)
    {part : Dict String String} (fresh : coordinate ∉ part.keys)
    (inside : ∀ other name', (part.set coordinate name).get? other = some name' →
      registry.active.get? other = some name')
    (ready : base.validateActive text sha256 part = .ok ()) :
    base.validateActive text sha256 (part.set coordinate name) = .ok () ↔
      required registry name ⊆ part.keys ∧ ∀ manifest,
        registry.revisions.get? name = some manifest →
          ∃ claims, extractProjectionClaims text sha256 manifest = .ok claims := by
  have pointed := inside coordinate name Dict.get?_set_self
  have earlier (other name' : String) (pointed' : part.get? other = some name') :
      (part.set coordinate name).get? other = some name' := by
    rw [Dict.get?_set_of_ne, pointed']
    rintro rfl
    exact fresh (Dict.mem_keys_of_get? pointed')
  have checked := (validateActive_part copy valid fun other name' pointed =>
    inside other name' (earlier other name' pointed)).mp ready
  rw [validateActive_part copy valid inside]
  constructor
  · intro all
    obtain ⟨closed, extracts⟩ := all coordinate name Dict.get?_set_self
    refine ⟨fun other member => ?_, extracts⟩
    rcases Dict.mem_keys_set.mp (closed member) with rfl | present
    · exact absurd member (not_mem_required_self valid pointed)
    · exact present
  · rintro ⟨closed, extracts⟩ other name' pointed'
    rw [Dict.get?_set] at pointed'
    split at pointed'
    · cases pointed'
      exact ⟨fun _ member => Dict.mem_keys_set.mpr (.inr (closed member)), extracts⟩
    · obtain ⟨closed, extracts⟩ := checked other name' pointed'
      exact ⟨fun _ member => Dict.mem_keys_set.mpr (.inr (closed member)), extracts⟩

/-- One activation of the replay. -/
theorem activate_copy (copy : Copy registry base) (valid : ActiveValid text registry)
    {part : Dict String String} (pointed : registry.active.get? coordinate = some name) :
    ({ base with active := part }).after (activate text sha256 coordinate (some name)) = .ok final ↔
      base.validateActive text sha256 (part.set coordinate name) = .ok () ∧
        final = { base with active := part.set coordinate name } := by
  obtain ⟨manifest, found, matching⟩ := valid.registered coordinate name pointed
  have candidate : activationCandidate { base with active := part } coordinate name =
      part.set coordinate name := activationCandidate_of_admits copy.admits
  simp only [after_eq_ok, activate_eq_ok, candidate]
  constructor
  · rintro ⟨result, _, _, _, _, passed, rfl⟩
    exact ⟨passed, rfl⟩
  · rintro ⟨passed, rfl⟩
    refine ⟨manifest, ?_, copy.revisions ▸ found, matching, ?_, passed, rfl⟩
    · simp [CapabilityRegistry.ensureMutable, copy.mutable]
    · simp [copy.admits]

/-- The replay returns when every activation finds what it requires. -/
theorem replay_eq_ok (copy : Copy registry base) (valid : ActiveValid text registry)
    {part : Dict String String} {rest : List (String × String)}
    (split : registry.active.entries = part.entries ++ rest)
    (ready : base.validateActive text sha256 part = .ok ()) :
    ({ base with active := part }).replay text sha256 rest = .ok final ↔
      InOrder registry part.keys rest ∧
        (∀ entry ∈ rest, ∀ manifest, registry.revisions.get? entry.2 = some manifest →
          ∃ claims, extractProjectionClaims text sha256 manifest = .ok claims) ∧
          final = { base with active := registry.active } ∧
            base.validateActive text sha256 registry.active = .ok () := by
  induction rest generalizing part with
  | nil =>
      obtain rfl : registry.active = part := Dict.ext_entries (split.trans (List.append_nil _))
      rw [CapabilityRegistry.replay, List.foldlM_nil, CapabilityHub.pure_eq_ok]
      simp [InOrder, ready, eq_comm]
  | cons entry rest ih =>
      obtain ⟨coordinate, name⟩ := entry
      have distinct := registry.active.nodup
      rw [split, List.map_append] at distinct
      have fresh : coordinate ∉ part.keys := fun member =>
        (List.nodup_append.mp distinct).2.2 coordinate member coordinate (by simp) rfl
      have written := Dict.entries_set_of_notMem name fresh
      have split' : registry.active.entries = (part.set coordinate name).entries ++ rest := by
        rw [split, written, List.append_assoc]
        rfl
      have inside (other name' : String)
          (pointed : (part.set coordinate name).get? other = some name') :
          registry.active.get? other = some name' := by
        rw [← Dict.mem_entries_iff, split']
        exact List.mem_append_left _ (Dict.mem_entries_iff.mpr pointed)
      have keys : (part.set coordinate name).keys = part.keys ++ [coordinate] := by
        rw [Dict.keys, written, List.map_append]
        rfl
      have pointed := inside coordinate name Dict.get?_set_self
      have next := validateActive_set copy valid fresh inside ready
      rw [CapabilityRegistry.replay, List.foldlM_cons, CapabilityHub.bind_eq_ok, InOrder,
        List.forall_mem_cons, ← keys]
      simp only [activate_copy copy valid pointed]
      constructor
      · rintro ⟨middle, ⟨passed, rfl⟩, done⟩
        obtain ⟨closed, extracts⟩ := next.mp passed
        obtain ⟨ordered, others, rfl, checked⟩ := (ih split' passed).mp done
        exact ⟨⟨closed, ordered⟩, ⟨extracts, others⟩, rfl, checked⟩
      · rintro ⟨⟨closed, ordered⟩, ⟨extracts, others⟩, rfl, checked⟩
        have passed := next.mpr ⟨closed, extracts⟩
        exact ⟨_, ⟨passed, rfl⟩, (ih split' passed).mpr ⟨ordered, others, rfl, checked⟩⟩

/-! ## The replacement -/

/-- A new registry with all revisions of the running one. -/
theorem registerMany_revisions (keyed : Keyed registry.revisions)
    (steady : Steady text sha256 policy registry) :
    ∃ base, (emptyRegistry isolatePolicy).after (registerMany text sha256
        (registry.revisions.entries.map Prod.snd)) = .ok base ∧
      Copy registry base ∧ base.active = ∅ := by
  obtain ⟨resolution, done⟩ := (@exists_isolated text sha256 _ isolatePolicy rfl).mpr
    (resolved steady.resolution).extracts
  refine ⟨_, after_eq_ok.mpr ⟨_, registerMany_eq_ok.mpr
    ⟨rfl, registry.revisions, stage_revisions keyed, resolution, done, rfl, rfl⟩⟩, ?_, rfl⟩
  exact ⟨rfl, rfl, rfl, (resolved done).excluded_eq_nil (by decide)⟩

/-- The excluded coordinates of a new registry that isolates. -/
theorem admits_of_registerMany
    (done : (emptyRegistry isolatePolicy).after (registerMany text sha256 additions) = .ok base) :
    base.projectionResolution.excludedCoordinates = [] ∧ base.active = ∅ := by
  obtain ⟨_, done⟩ := after_eq_ok.mp done
  obtain ⟨_, staged, _, resolution, resolving, _, rfl⟩ := registerMany_eq_ok.mp done
  exact ⟨(resolved resolving).excluded_eq_nil (by decide), rfl⟩

/-- A replay that returns has set every activation. -/
theorem replay_frame (admits : base.projectionResolution.excludedCoordinates = [])
    {activations : List (String × String)}
    (done : base.replay text sha256 activations = .ok final) :
    final = { base with
      active := activations.foldl (fun written entry => written.set entry.1 entry.2) base.active } := by
  induction activations generalizing base with
  | nil => exact (CapabilityHub.pure_eq_ok.mp done).symm
  | cons entry activations ih =>
      rw [CapabilityRegistry.replay, List.foldlM_cons, CapabilityHub.bind_eq_ok] at done
      obtain ⟨middle, here, below⟩ := done
      obtain ⟨_, here⟩ := after_eq_ok.mp here
      obtain ⟨_, _, _, _, _, rfl⟩ := activate_eq_ok.mp here
      rw [activationCandidate_of_admits admits] at below
      refine ih ?_ below
      exact admits

/-- Activations that return leave alone what they do not name. -/
theorem activateNamed_frame (admits : base.projectionResolution.excludedCoordinates = [])
    {names : List String} (done : base.activateNamed text sha256 names = .ok final) :
    final.revisions = base.revisions ∧ ∀ coordinate,
      (∀ name ∈ names, ∀ manifest, base.revisions.get? name = some manifest →
        manifest.identity.coordinate ≠ coordinate) →
          final.active.get? coordinate = base.active.get? coordinate := by
  induction names generalizing base with
  | nil =>
      obtain rfl := CapabilityHub.pure_eq_ok.mp done
      exact ⟨rfl, fun _ _ => rfl⟩
  | cons name names ih =>
      rw [CapabilityRegistry.activateNamed, List.foldlM_cons, CapabilityHub.bind_eq_ok] at done
      obtain ⟨middle, activated, below⟩ := done
      obtain ⟨manifest, known, activated⟩ := CapabilityHub.bind_eq_ok.mp activated
      obtain ⟨_, activated⟩ := after_eq_ok.mp activated
      obtain ⟨_, _, _, _, _, rfl⟩ := activate_eq_ok.mp activated
      rw [activationCandidate_of_admits admits] at below
      obtain ⟨revisions, kept⟩ := ih (by exact admits) below
      refine ⟨revisions, fun coordinate unnamed => ?_⟩
      obtain ⟨here, others⟩ := List.forall_mem_cons.mp unnamed
      have apart := here manifest (revision_eq_ok.mp known)
      exact (kept coordinate others).trans (Dict.get?_set_of_ne apart.symm)

theorem installValidated_eq_ok {manifests : List CapabilityManifest} {names : List String}
    {candidate : CapabilityRegistry} :
    installValidated text sha256 manifests names registry = .ok candidate final ↔
      ∃ additions, validateForAdmission text sha256 manifests = .ok additions ∧
        ∃ base, (emptyRegistry isolatePolicy).after (registerMany text sha256
            (registry.revisions.entries.map Prod.snd ++ additions)) = .ok base ∧
          ∃ replayed, base.replay text sha256 registry.active.entries = .ok replayed ∧
            replayed.activateNamed text sha256 names = .ok candidate ∧
              candidate.validateActive text sha256 candidate.active = .ok () ∧
                registry = final := by
  simp only [installValidated, Transaction.bind_eq_ok, query_eq_ok, exists_unit,
    Transaction.pure_eq_ok, construct_eq, Except.ok.injEq]
  constructor
  · rintro ⟨additions, _, ⟨admitted, rfl⟩, _, _, ⟨rfl, rfl⟩, base, _, ⟨registered, rfl⟩, replayed, _,
      ⟨done, rfl⟩, _, _, ⟨activated, rfl⟩, _, ⟨checked, rfl⟩, rfl, rfl⟩
    exact ⟨additions, admitted, base, registered, replayed, done, activated, checked, rfl⟩
  · rintro ⟨additions, admitted, base, registered, replayed, done, activated, checked, rfl⟩
    exact ⟨additions, _, ⟨admitted, rfl⟩, _, _, ⟨rfl, rfl⟩, base, _, ⟨registered, rfl⟩, replayed, _,
      ⟨done, rfl⟩, _, _, ⟨activated, rfl⟩, _, ⟨checked, rfl⟩, rfl, rfl⟩

theorem validateForAdmission_nil : validateForAdmission text sha256 [] = .ok [] := rfl

/-- Installing nothing. -/
theorem installValidated_nil (valid : ActiveValid text registry)
    (keyed : Keyed registry.revisions) (steady : Steady text sha256 policy registry) :
    (∃ candidate final, installValidated text sha256 [] [] registry = .ok candidate final ∧
      candidate.revisions = registry.revisions ∧ candidate.active = registry.active) ↔
    InOrder registry [] registry.active.entries ∧ Extractable text sha256 registry := by
  obtain ⟨base, registered, copy, inactive⟩ := registerMany_revisions keyed steady
  have ready : base.validateActive text sha256 ∅ = .ok () := by
    apply (validateActive_part copy valid fun _ _ found => by cases found).mpr
    intro _ _ found
    cases found
  have whole : { base with active := ∅ } = base := by rw [← inactive]
  have replays {final : CapabilityRegistry} := @replay_eq_ok text sha256 registry base final copy valid ∅ registry.active.entries rfl ready
  rw [whole] at replays
  have extractable : Extractable text sha256 registry ↔
      ∀ entry ∈ registry.active.entries, ∀ manifest,
        registry.revisions.get? entry.2 = some manifest →
          ∃ claims, extractProjectionClaims text sha256 manifest = .ok claims := by
    constructor
    · intro extracts entry member manifest found
      exact extracts entry.1 manifest
        (Option.bind_eq_some_iff.mpr ⟨entry.2, Dict.mem_entries_iff.mp member, found⟩)
    · intro extracts coordinate manifest active
      obtain ⟨name, pointed, found⟩ := Option.bind_eq_some_iff.mp active
      exact extracts (coordinate, name) (Dict.mem_entries_iff.mpr pointed) manifest found
  simp only [installValidated_eq_ok, validateForAdmission_nil, Except.ok.injEq]
  constructor
  · rintro ⟨candidate, final, ⟨additions, rfl, base', registered', replayed, done, _, _, _⟩, _⟩
    rw [List.append_nil, registered, Except.ok.injEq] at registered'
    subst registered'
    obtain ⟨inOrder, extracts, _⟩ := replays.mp done
    exact ⟨inOrder, extractable.mpr extracts⟩
  · rintro ⟨inOrder, extracts⟩
    have checked : base.validateActive text sha256 registry.active = .ok () := by
      apply (validateActive_part copy valid fun _ _ found => found).mpr
      intro coordinate name pointed
      refine ⟨fun other member => ?_, fun manifest found =>
        extracts coordinate manifest (Option.bind_eq_some_iff.mpr ⟨name, pointed, found⟩)⟩
      obtain ⟨manifest, found, _⟩ := valid.registered coordinate name pointed
      obtain ⟨dependency, declared, needed, rfl⟩ := (mem_required found).mp member
      obtain ⟨target, present, _⟩ := valid.consistent.complete coordinate manifest
        (Option.bind_eq_some_iff.mpr ⟨name, pointed, found⟩) dependency declared needed
      obtain ⟨name', pointed', _⟩ := Option.bind_eq_some_iff.mp present
      exact Dict.mem_keys_of_get? pointed'
    refine ⟨{ base with active := registry.active }, registry, ⟨[], rfl, base, ?_, _,
      replays.mpr ⟨inOrder, extractable.mp extracts, rfl, checked⟩, rfl, checked, rfl⟩,
      copy.revisions, rfl⟩
    rw [List.append_nil, registered]

/-- An installation that returns has only activated what it names. -/
theorem installValidated_frame {manifests : List CapabilityManifest} {names : List String}
    {candidate : CapabilityRegistry}
    (done : installValidated text sha256 manifests names registry = .ok candidate final)
    (unnamed : ∀ name ∈ names, ∀ manifest, candidate.revisions.get? name = some manifest →
      manifest.identity.coordinate ≠ coordinate) :
    candidate.active.get? coordinate = registry.active.get? coordinate := by
  obtain ⟨additions, _, base, registered, replayed, replaying, activated, _, _⟩ :=
    installValidated_eq_ok.mp done
  obtain ⟨admits, inactive⟩ := admits_of_registerMany registered
  obtain rfl := replay_frame admits replaying
  obtain ⟨revisions, kept⟩ := activateNamed_frame (by exact admits) activated
  rw [revisions] at unnamed
  rw [kept coordinate unnamed, inactive, ← Dict.ofEntries,
    Dict.get?_ofEntries _ registry.active.nodup]

theorem atomic_installValidated {manifests : List CapabilityManifest} {names : List String} :
    Atomic (installValidated text sha256 manifests names) := by
  iterate 6
    apply Atomic.query_bind
    intro _
  exact total_pure.atomic

/-- **Installing into a running registry.** After any calls on a new registry, installing nothing
gives the same revisions and activations exactly when every activation comes after those it
requires and the claims of the active revisions can be extracted. Any other installation keeps
the running registry, and the activations of the coordinates it does not name. -/
theorem install_preserves (text : PythonText) (sha256 : Bytes → Bytes)
    (policy : ProjectionPolicy) (initial registry : CapabilityRegistry)
    (constructed : construct text sha256 policy = .ok initial) (calls : List Call)
    (reached : performAll text sha256 initial calls = registry) :
    ((∃ candidate final, installValidated text sha256 [] [] registry = .ok candidate final ∧
        candidate.revisions = registry.revisions ∧ candidate.active = registry.active) ↔
      InOrder registry [] registry.active.entries ∧ Extractable text sha256 registry) ∧
    ∀ manifests names,
      (installValidated text sha256 manifests names).stateAfter registry = registry ∧
        ∀ candidate final,
          installValidated text sha256 manifests names registry = .ok candidate final →
            ∀ coordinate, (∀ name ∈ names, ∀ manifest,
                candidate.revisions.get? name = some manifest →
                  manifest.identity.coordinate ≠ coordinate) →
              candidate.active.get? coordinate = registry.active.get? coordinate := by
  subst reached
  have steady : Steady text sha256 policy (performAll text sha256 initial calls) :=
    performAll_induction (steady_of_construct constructed) (fun _ _ _ steady done => done.steady steady)
      calls
  refine ⟨installValidated_nil steady.valid (keyed_performAll constructed calls) steady,
    fun manifests names => ⟨?_, fun candidate final done coordinate => installValidated_frame done⟩⟩
  rw [stateAfter]
  cases done : installValidated text sha256 manifests names (performAll text sha256 initial calls) with
  | ok candidate final =>
      obtain ⟨_, _, _, _, _, _, _, _, same⟩ := installValidated_eq_ok.mp done
      exact same.symm
  | error error final => exact atomic_installValidated _ _ _ done

/-- The dependency of the revision `d/a@2` stands after it. -/
def reorderedCalls : List Call :=
  [.registerMany [skill "a" "1" "x" [], skill "a" "2" "x" [{ coordinate := "d/b" }],
      skill "b" "1" "y" []],
    .activate "d/a" (some "d/a@1#"), .activate "d/b" none, .activate "d/a" none]

theorem installValidated_of_reordered :
    (installValidated asciiText id [] []).outcome
        (performAll asciiText id (emptyRegistry isolatePolicy) reorderedCalls) =
      .error (dependencyError "missing_dependency" "Required dependency is not active."
        [("capability", .text "d/a"), ("dependency", .text "d/b")]) := by
  have raises : ((installValidated asciiText id [] []).outcome
      (performAll asciiText id (emptyRegistry isolatePolicy) reorderedCalls)).map (fun _ => ()) =
        .error (dependencyError "missing_dependency" "Required dependency is not active."
          [("capability", .text "d/a"), ("dependency", .text "d/b")]) := by
    decide +kernel
  cases outcome : (installValidated asciiText id [] []).outcome
      (performAll asciiText id (emptyRegistry isolatePolicy) reorderedCalls) with
  | ok candidate => simp [outcome, Except.map] at raises
  | error error => simpa [outcome, Except.map] using raises

theorem install_preserves_dependent :
    (∃ candidate final, installValidated asciiText id [] []
        (performAll asciiText id (emptyRegistry isolatePolicy) dependentCalls) =
          .ok candidate final ∧
      candidate.revisions =
        (performAll asciiText id (emptyRegistry isolatePolicy) dependentCalls).revisions ∧
      candidate.active =
        (performAll asciiText id (emptyRegistry isolatePolicy) dependentCalls).active) ↔
    InOrder (performAll asciiText id (emptyRegistry isolatePolicy) dependentCalls) []
        (performAll asciiText id (emptyRegistry isolatePolicy) dependentCalls).active.entries ∧
      Extractable asciiText id
        (performAll asciiText id (emptyRegistry isolatePolicy) dependentCalls) :=
  (install_preserves asciiText id isolatePolicy _ _ construct_eq dependentCalls rfl).1

end CapabilityHub.Registry
