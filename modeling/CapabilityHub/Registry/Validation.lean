import CapabilityHub.Registry.Registry

/-! # What the validation of a selection establishes

The checks of `_validate_dependencies` and `_validate_conflicts` pass exactly when the
selected manifests are consistent: every required dependency is selected at a version that
satisfies it, no coordinate depends on itself along satisfied dependencies, and no conflict
is declared under two coordinates.
-/

namespace CapabilityHub.Registry

variable (text : PythonText) (selected : String → Option CapabilityManifest)

/-- The dependency is selected, at a version that satisfies its constraint. -/
def Satisfied (dependency : DependencySpec) : Prop :=
  ∃ target, selected dependency.coordinate = some target ∧
    satisfies text target.identity.version dependency = true

/-- An edge of the graph of satisfied dependencies. -/
def DependsOn (coordinate other : String) : Prop :=
  ∃ manifest, selected coordinate = some manifest ∧
    ∃ dependency ∈ manifest.dependencies, dependency.coordinate = other ∧
      Satisfied text selected dependency

structure Consistent : Prop where
  complete : ∀ coordinate manifest, selected coordinate = some manifest →
    ∀ dependency ∈ manifest.dependencies, dependency.isOptional = false →
      Satisfied text selected dependency
  acyclic : ∀ coordinate, ¬Relation.TransGen (DependsOn text selected) coordinate coordinate
  exclusive : ∀ coordinate other manifest manifest',
    selected coordinate = some manifest → selected other = some manifest' →
      ∀ conflict ∈ manifest.conflicts, conflict ∈ manifest'.conflicts → coordinate = other

variable {text} {selected : Dict String CapabilityManifest} {requireActive : Bool} {coordinate : String}
  {manifest : CapabilityManifest} {dependency : DependencySpec} {targets : List String}

/-! ## Dependencies -/

instance : Decidable (Satisfied text selected.get? dependency) :=
  match found : selected.get? dependency.coordinate with
  | none => isFalse fun ⟨_, present, _⟩ => by rw [found] at present; cases present
  | some target =>
      decidable_of_iff (satisfies text target.identity.version dependency = true)
        ⟨fun holds => ⟨target, found, holds⟩, fun ⟨other, present, holds⟩ => by
          rw [found, Option.some.injEq] at present
          rwa [present]⟩

theorem checkDependency_eq_ok :
    checkDependency text selected requireActive coordinate dependency = .ok targets ↔
      (dependency.isOptional = true ∨ Satisfied text selected.get? dependency) ∧
        (if Satisfied text selected.get? dependency then [dependency.coordinate] else []) = targets := by
  rw [checkDependency]
  cases found : selected.get? dependency.coordinate with
  | none =>
      have missing : ¬Satisfied text selected.get? dependency := fun ⟨_, present, _⟩ => by
        rw [found] at present
        cases present
      cases optional : dependency.isOptional <;> simp [missing]
  | some target =>
      have satisfied : Satisfied text selected.get? dependency ↔
          satisfies text target.identity.version dependency = true := by
        simp [Satisfied, found]
      by_cases holds : satisfies text target.identity.version dependency = true
      · simp [satisfied, holds]
      · cases optional : dependency.isOptional <;> simp [satisfied, holds]

/-- The targets of a manifest in the graph. -/
def targetsOf (text : PythonText) (selected : Dict String CapabilityManifest)
    (manifest : CapabilityManifest) : List String :=
  (sortedBy (fun dependency : DependencySpec => dependency.coordinate)
    manifest.dependencies).flatMap fun dependency =>
      if Satisfied text selected.get? dependency then [dependency.coordinate] else []

theorem checkDependencies_eq_ok :
    checkDependencies text selected requireActive coordinate manifest = .ok targets ↔
      (∀ dependency ∈ manifest.dependencies, dependency.isOptional = false →
        Satisfied text selected.get? dependency) ∧ targetsOf text selected manifest = targets := by
  rw [checkDependencies, bind_eq_ok]
  simp only [mapM_eq_ok fun _ _ => checkDependency_eq_ok, pure_eq_ok, mem_sortedBy, and_assoc,
    exists_and_left, exists_eq_left', targetsOf, List.flatMap_def]
  apply and_congr_left
  intro _
  apply forall₂_congr
  intro dependency _
  cases dependency.isOptional <;> simp

theorem mem_targetsOf {other : String} (found : selected.get? coordinate = some manifest) :
    other ∈ targetsOf text selected manifest ↔ DependsOn text selected.get? coordinate other := by
  simp only [targetsOf, List.mem_flatMap, mem_sortedBy, DependsOn, found, Option.some.injEq,
    exists_eq_left']
  apply exists_congr
  intro dependency
  by_cases satisfied : Satisfied text selected.get? dependency
  · simp [satisfied, eq_comm]
  · simp [satisfied]

/-- The graph that is searched for a cycle. -/
def dependencyGraph (text : PythonText) (selected : Dict String CapabilityManifest) :
    Dict String (List String) :=
  Dict.ofEntries ((sortedBy Prod.fst selected.entries).map fun entry =>
    (entry.1, targetsOf text selected entry.2))

theorem get?_dependencyGraph :
    (dependencyGraph text selected).get? coordinate =
      (selected.get? coordinate).map (targetsOf text selected) := by
  have keys : (((sortedBy Prod.fst selected.entries).map fun entry =>
      (entry.1, targetsOf text selected entry.2)).map Prod.fst).Nodup := by
    rw [List.map_map]
    exact ((perm_sortedBy Prod.fst selected.entries).map Prod.fst).nodup_iff.mpr selected.nodup
  apply Option.ext
  intro targets
  rw [dependencyGraph, Dict.get?_ofEntries _ keys, ← Dict.mem_entries_iff, List.mem_map]
  simp only [mem_sortedBy, Prod.mk.injEq, Prod.exists, Dict.mem_entries_iff, Option.map_eq_some_iff]
  constructor
  · rintro ⟨_, manifest, found, rfl, rfl⟩
    exact ⟨manifest, found, rfl⟩
  · rintro ⟨manifest, found, rfl⟩
    exact ⟨coordinate, manifest, found, rfl, rfl⟩

theorem mem_keys_dependencyGraph :
    coordinate ∈ (dependencyGraph text selected).keys ↔ coordinate ∈ selected.keys := by
  rw [← Dict.get?_isSome_iff, ← Dict.get?_isSome_iff, get?_dependencyGraph]
  cases selected.get? coordinate <;> simp

theorem mem_getD_dependencyGraph {other : String} :
    other ∈ (dependencyGraph text selected).getD coordinate [] ↔
      DependsOn text selected.get? coordinate other := by
  rw [Dict.getD, get?_dependencyGraph]
  cases found : selected.get? coordinate with
  | none => simp [DependsOn, found]
  | some manifest => exact mem_targetsOf found

/-- The search passes exactly when no coordinate depends on itself. -/
theorem raiseOnCycle_eq_ok : raiseOnCycle (dependencyGraph text selected) = .ok () ↔
    ∀ coordinate, ¬Relation.TransGen (DependsOn text selected.get?) coordinate coordinate := by
  have edges : (fun source target => target ∈ (dependencyGraph text selected).getD source []) =
      DependsOn text selected.get? := by
    funext source target
    exact propext mem_getD_dependencyGraph
  have source {one two : String} (edge : DependsOn text selected.get? one two) :
      one ∈ selected.keys ∧ two ∈ selected.keys := by
    obtain ⟨manifest, found, dependency, _, rfl, target, present, _⟩ := edge
    exact ⟨Dict.mem_keys_of_get? found, Dict.mem_keys_of_get? present⟩
  have closed : DepthFirst.Closed (fun node => (dependencyGraph text selected).getD node [])
      (sortedBy id (dependencyGraph text selected).keys) := by
    intro node _ target edge
    rw [mem_sortedBy, mem_keys_dependencyGraph]
    exact (source (mem_getD_dependencyGraph.mp edge)).2
  have searched := DepthFirst.raiseOnCycle_eq_ok_iff closed
  rw [DepthFirst.Acyclic, edges] at searched
  have everywhere : (∀ node ∈ sortedBy id (dependencyGraph text selected).keys,
      ¬Relation.TransGen (DependsOn text selected.get?) node node) ↔
      ∀ node, ¬Relation.TransGen (DependsOn text selected.get?) node node := by
    refine ⟨fun inside node walk => inside node ?_ walk, fun all node _ => all node⟩
    rw [mem_sortedBy, mem_keys_dependencyGraph]
    obtain ⟨next, edge, _⟩ := Relation.TransGen.head'_iff.mp walk
    exact (source edge).1
  rw [← everywhere, ← searched, raiseOnCycle]
  split
  next finished found => simp [found]
  next cycle found => simp [found]

theorem validateDependencies_eq_ok :
    validateDependencies text selected requireActive = .ok () ↔
      (∀ coordinate manifest, selected.get? coordinate = some manifest →
        ∀ dependency ∈ manifest.dependencies, dependency.isOptional = false →
          Satisfied text selected.get? dependency) ∧
      ∀ coordinate, ¬Relation.TransGen (DependsOn text selected.get?) coordinate coordinate := by
  have round (entry : String × CapabilityManifest) (node : String × List String) :
      (do
        let targets ← checkDependencies text selected requireActive entry.1 entry.2
        pure (entry.1, targets)) = Except.ok node ↔
      (∀ dependency ∈ entry.2.dependencies, dependency.isOptional = false →
        Satisfied text selected.get? dependency) ∧
        (entry.1, targetsOf text selected entry.2) = node := by
    simp only [bind_eq_ok, checkDependencies_eq_ok, pure_eq_ok, and_assoc, exists_and_left,
      exists_eq_left']
  rw [validateDependencies, bind_eq_ok]
  simp only [mapM_eq_ok round, and_assoc, exists_and_left, exists_eq_left']
  rw [← dependencyGraph, raiseOnCycle_eq_ok]
  apply and_congr_left
  intro _
  simp only [mem_sortedBy, Prod.forall, Dict.mem_entries_iff]

/-! ## Conflicts -/

theorem mem_declaredConflicts {conflict : ConflictSpec} :
    (coordinate, conflict) ∈ declaredConflicts selected ↔
      ∃ manifest, selected.get? coordinate = some manifest ∧ conflict ∈ manifest.conflicts := by
  simp only [declaredConflicts, List.mem_flatMap, mem_sortedBy, List.mem_map, Prod.mk.injEq,
    Prod.exists, Dict.mem_entries_iff]
  constructor
  · rintro ⟨_, manifest, found, _, member, rfl, rfl⟩
    exact ⟨manifest, found, member⟩
  · rintro ⟨manifest, found, member⟩
    exact ⟨coordinate, manifest, found, conflict, member, rfl, rfl⟩

variable {sha256 : Bytes → Bytes} {claims claims' : Dict (String × String) String}

theorem claimConflict_eq_ok {conflict : ConflictSpec} :
    claimConflict sha256 claims (coordinate, conflict) = .ok claims' ↔
      (∀ previous, claims.get? (conflict.conflictType, conflict.value) = some previous →
        previous = coordinate) ∧
        claims.set (conflict.conflictType, conflict.value) coordinate = claims' := by
  rw [claimConflict]
  cases claims.get? (conflict.conflictType, conflict.value) with
  | none => simp
  | some previous => by_cases same : previous = coordinate <;> simp [same]

/-- No declared conflict is claimed already under another coordinate, and no two of them are
the same under different coordinates. -/
theorem foldlM_claimConflict_eq_ok {declared : List (String × ConflictSpec)} :
    (∃ claims', declared.foldlM (claimConflict sha256) claims = .ok claims') ↔
      (∀ pair ∈ declared, ∀ previous,
        claims.get? (pair.2.conflictType, pair.2.value) = some previous → previous = pair.1) ∧
        declared.Pairwise fun first second => first.2 = second.2 → first.1 = second.1 := by
  induction declared generalizing claims with
  | nil => simp [pure, Except.pure]
  | cons head declared ih =>
      obtain ⟨coordinate, conflict⟩ := head
      have sameKey (other : ConflictSpec) : conflict = other ↔
          (other.conflictType, other.value) = (conflict.conflictType, conflict.value) := by
        cases conflict
        cases other
        simp [eq_comm]
      have follow : (∃ claims', ((coordinate, conflict) :: declared).foldlM
            (claimConflict sha256) claims = .ok claims') ↔
          (∀ previous, claims.get? (conflict.conflictType, conflict.value) = some previous →
            previous = coordinate) ∧ ∃ claims', declared.foldlM (claimConflict sha256)
              (claims.set (conflict.conflictType, conflict.value) coordinate) = .ok claims' := by
        simp only [List.foldlM_cons, bind_eq_ok, claimConflict_eq_ok, and_assoc, exists_and_left,
          exists_eq_left']
      rw [follow, ih, List.forall_mem_cons, List.pairwise_cons]
      constructor
      · rintro ⟨here, later, pairs⟩
        refine ⟨⟨here, fun pair member previous claimed => ?_⟩, fun pair member same => ?_, pairs⟩
        · have written := later pair member
          rw [Dict.get?_set] at written
          by_cases same : conflict = pair.2
          · rw [if_pos ((sameKey _).mp same)] at written
            rw [(sameKey _).mp same] at claimed
            exact (here previous claimed).trans (written coordinate rfl)
          · rw [if_neg fun equal => same ((sameKey _).mpr equal)] at written
            exact written previous claimed
        · have written := later pair member
          rw [Dict.get?_set, if_pos ((sameKey _).mp same)] at written
          exact written coordinate rfl
      · rintro ⟨⟨here, later⟩, apart, pairs⟩
        refine ⟨here, fun pair member previous claimed => ?_, pairs⟩
        rw [Dict.get?_set] at claimed
        by_cases same : conflict = pair.2
        · rw [if_pos ((sameKey _).mp same), Option.some.injEq] at claimed
          exact claimed ▸ apart pair member same
        · rw [if_neg fun equal => same ((sameKey _).mpr equal)] at claimed
          exact later pair member previous claimed

theorem validateConflicts_eq_ok : validateConflicts sha256 selected = .ok () ↔
    ∀ coordinate other manifest manifest', selected.get? coordinate = some manifest →
      selected.get? other = some manifest' →
        ∀ conflict ∈ manifest.conflicts, conflict ∈ manifest'.conflicts → coordinate = other := by
  have folded : validateConflicts sha256 selected = .ok () ↔
      (declaredConflicts selected).Pairwise fun first second =>
        first.2 = second.2 → first.1 = second.1 := by
    have searched : (∃ claims', (declaredConflicts selected).foldlM (claimConflict sha256) ∅ =
        .ok claims') ↔ _ := foldlM_claimConflict_eq_ok
    simp only [Dict.get?_empty, reduceCtorEq, false_implies, implies_true, true_and] at searched
    rw [← searched, validateConflicts, bind_eq_ok]
    simp [pure, Except.pure]
  have symmetric : Std.Symm fun first second : String × ConflictSpec =>
      first.2 = second.2 → first.1 = second.1 :=
    ⟨fun _ _ related same => (related same.symm).symm⟩
  rw [folded]
  constructor
  · intro pairs coordinate other manifest manifest' found found' conflict member member'
    exact pairs.forall_of_forall (fun _ _ _ => rfl)
      (mem_declaredConflicts.mpr ⟨manifest, found, member⟩)
      (mem_declaredConflicts.mpr ⟨manifest', found', member'⟩) rfl
  · intro exclusive
    apply List.pairwise_of_forall_mem_list
    rintro ⟨coordinate, conflict⟩ declared ⟨other, conflict'⟩ declared' rfl
    obtain ⟨manifest, found, member⟩ := mem_declaredConflicts.mp declared
    obtain ⟨manifest', found', member'⟩ := mem_declaredConflicts.mp declared'
    exact exclusive coordinate other manifest manifest' found found' conflict member member'

end CapabilityHub.Registry
