import CapabilityHub.Updates.Manager

/-! # Where updates can go on

A revision that is trusted and consistent can be made active where nothing else is staged for its
coordinate and every other pointer resolves; a staged revision that did not pass its check, and a
pointer that no longer resolves, block it for good (`CapabilityHub.Updates.Managed.progresses`).
-/

namespace CapabilityHub.Updates.Managed

open Transaction Registry

section

variable {text : PythonText} {sha256 : Bytes → Bytes} {system : Managed}
  {coordinate other revision : String} {manifest : CapabilityManifest}

theorem revision_eq_ok {registry : CapabilityRegistry} :
    registry.revision revision = .ok manifest ↔ registry.revisions.get? revision = some manifest := by
  rw [CapabilityRegistry.revision]
  cases registry.revisions.get? revision <;> simp

theorem resolves_iff {entry : String × String} : system.Resolves entry ↔
    ∃ manifest, system.manager.registry.revision entry.2 = .ok manifest ∧
      manifest.identity.coordinate = entry.1 := by
  simp only [Resolves, Option.map_eq_some_iff, revision_eq_ok]

/-! ## The check of the pointers -/

/-- The manifests of entries that resolve, coordinate by coordinate. -/
theorem mapM_revision {entries : List (String × String)}
    (resolve : ∀ entry ∈ entries, system.Resolves entry) :
    ∃ manifests, (entries.map Prod.snd).mapM system.manager.registry.revision = .ok manifests ∧
      manifests.map (·.identity.coordinate) = entries.map Prod.fst := by
  induction entries with
  | nil => exact ⟨[], rfl, rfl⟩
  | cons entry entries ih =>
      obtain ⟨first, rest⟩ := List.forall_mem_cons.mp resolve
      obtain ⟨manifest, found, same⟩ := resolves_iff.mp first
      obtain ⟨manifests, done, coordinates⟩ := ih rest
      refine ⟨manifest :: manifests, mapM_cons_eq_ok.mpr ⟨_, _, found, done, rfl⟩, ?_⟩
      rw [List.map_cons, List.map_cons, same, coordinates]

/-- Two lists of manifests, one for each coordinate, select the same. -/
theorem selectedManifestValues_congr {manifests manifests' : List CapabilityManifest}
    (nodup : (manifests.map (·.identity.coordinate)).Nodup)
    (perm : manifests.Perm manifests') :
    selectedManifestValues text manifests = selectedManifestValues text manifests' := by
  have coordinates := sortedSet_congr fun item =>
    (perm.map fun manifest => manifest.identity.coordinate).mem_iff (a := item)
  have filtered (coordinate : String) :
      manifests.filter (fun manifest => manifest.identity.coordinate = coordinate) =
        manifests'.filter fun manifest => manifest.identity.coordinate = coordinate := by
    have here := perm.filter fun manifest => decide (manifest.identity.coordinate = coordinate)
    have single := nodup.sublist
      ((List.filter_sublist (p := fun manifest : CapabilityManifest =>
        decide (manifest.identity.coordinate = coordinate)) (l := manifests)).map
          (·.identity.coordinate))
    have member := fun manifest (member : manifest ∈ manifests.filter fun manifest =>
      decide (manifest.identity.coordinate = coordinate)) =>
        of_decide_eq_true (List.mem_filter.mp member).2
    generalize manifests.filter (fun manifest =>
      decide (manifest.identity.coordinate = coordinate)) = selected at here single member ⊢
    match selected with
    | [] => exact here.nil_eq
    | [manifest] => exact here.singleton_eq
    | first :: second :: rest =>
        refine absurd ?_ (List.nodup_cons.mp single).1
        refine List.mem_map.mpr ⟨second, List.mem_cons_self, ?_⟩
        exact (member second (by simp)).trans (member first (by simp)).symm
  rw [selectedManifestValues, selectedManifestValues, coordinates]
  simp only [filtered]

/-- What the pointers are checked for does not depend on their order. -/
theorem validateSelected_congr {entries entries' : List (String × String)}
    (nodup : (entries.map Prod.fst).Nodup) (perm : entries.Perm entries')
    (resolve : ∀ entry ∈ entries, system.Resolves entry) :
    system.manager.registry.validateSelected text sha256 (entries.map Prod.snd) =
      system.manager.registry.validateSelected text sha256 (entries'.map Prod.snd) := by
  obtain ⟨manifests, done, coordinates⟩ := mapM_revision resolve
  obtain ⟨manifests', done', coordinates'⟩ :=
    mapM_revision fun entry member => resolve entry (perm.mem_iff.mpr member)
  have single : (manifests.map (·.identity.coordinate)).Nodup := by rwa [coordinates]
  have single' : (manifests'.map (·.identity.coordinate)).Nodup := by
    rw [coordinates']
    exact (perm.map Prod.fst).nodup_iff.mp nodup
  have same : manifests.Perm manifests' := by
    refine (List.perm_ext_iff_of_nodup (.of_map _ single) (.of_map _ single')).mpr fun manifest => ?_
    rw [mem_of_mapM done, mem_of_mapM done']
    simp only [(perm.map Prod.snd).mem_iff]
  rw [CapabilityRegistry.validateSelected, CapabilityRegistry.validateSelected, done, done']
  dsimp only [bind, Except.bind]
  rw [selectedManifestValues_congr single same]

theorem validatePointers_eq_ok {pointers : Dict String String} :
    system.manager.validatePointers text sha256 pointers = .ok () ↔
      (∀ entry ∈ (system.manager.registry.active.merge pointers).entries, system.Resolves entry) ∧
        system.manager.registry.validateSelected text sha256
          ((system.manager.registry.active.merge pointers).entries.map Prod.snd) = .ok () := by
  rw [Manager.validatePointers, CapabilityHub.bind_eq_ok, exists_unit]
  refine and_congr_left fun _ => CapabilityHub.forM_eq_ok.trans (forall₂_congr fun entry _ => ?_)
  simp only [CapabilityHub.bind_eq_ok, raiseIf_eq_ok, not_not, ne_eq, resolves_iff]

/-- The check passes where all pointers resolve and the revision is consistent. -/
theorem validatePointers_set (consistent : system.ConsistentWith text sha256 coordinate revision)
    (here : system.Resolves (coordinate, revision)) (others : system.OthersResolve coordinate) :
    system.manager.validatePointers text sha256
      (system.updates.activePointers.set coordinate revision) = .ok () := by
  have all : ∀ entry ∈ (system.pointersWith coordinate revision).entries, system.Resolves entry := by
    intro ⟨other, pointer⟩ member
    have found := Dict.mem_entries_iff.mp member
    rw [pointersWith, Dict.get?_merge, Dict.get?_set] at found
    split at found
    next same =>
      obtain rfl := Option.some.inj found
      rwa [same]
    next different =>
      rw [← Dict.get?_merge] at found
      exact others other pointer different found
  refine validatePointers_eq_ok.mpr ⟨all, ?_⟩
  rw [ConsistentWith, List.filter_eq_self.mpr fun entry member => decide_eq_true (all entry member)]
    at consistent
  exact consistent

/-! ## The way to an active revision -/

/-- The system with another row of the coordinate. -/
def withRow (system : Managed) (coordinate : String) (row : UpdateState) : Managed :=
  { system with updates := system.updates.set coordinate row }

/-- The row of the coordinate. -/
def row (system : Managed) (coordinate : String) : UpdateState := system.updates.readState coordinate

@[simp] theorem row_withRow {state : UpdateState} :
    (system.withRow coordinate state).row coordinate = state := by
  rw [row, withRow, readState_set, if_pos rfl]

theorem names_of_resolves (here : system.Resolves (coordinate, revision)) :
    coordinate ≠ "" ∧ revision ≠ "" := by
  obtain ⟨manifest, found, same⟩ := resolves_iff.mp here
  have coordinateNamed : manifest.identity.coordinate ≠ "" := by
    intro empty
    have text := congrArg String.toList empty
    simp [CapabilityIdentity.coordinate, String.toList_append] at text
  refine ⟨fun empty => coordinateNamed (same.trans empty), ?_⟩
  rw [← system.manager.keyed revision manifest (revision_eq_ok.mp found)]
  intro empty
  have text := congrArg String.toList empty
  simp [CapabilityIdentity.revision, String.toList_append] at text

theorem activePointers_withRow {state : UpdateState}
    (kept : state.activeRevision = (system.row coordinate).activeRevision) :
    (system.withRow coordinate state).updates.activePointers = system.updates.activePointers := by
  refine Dict.filterMapValues_set ?_
  rw [kept, row, CapabilityUpdates.readState, Dict.getD]
  cases system.updates.get? coordinate <;> rfl

theorem step_of_ok {call : ManagerCall} {state : UpdateState} {final : CapabilityUpdates}
    (done : system.manager.perform text sha256 call system.updates = .ok state final) :
    system.step text sha256 (.call call) = { system with updates := final } := by
  rw [step, stateAfter, done]

/-- What is trusted passes the checks before the store. -/
theorem perform_trusted (trusted : system.Trusted coordinate revision) (expected : Option String)
    (passed : Bool) (updates : CapabilityUpdates) :
    system.manager.perform text sha256 (.stage revision expected) updates =
        SQLiteUpdateStore.stage coordinate revision expected updates ∧
      system.manager.perform text sha256 (.recordHealth revision passed) updates =
        SQLiteUpdateStore.recordHealth coordinate revision passed updates ∧
      system.manager.perform text sha256 (.activate revision expected) updates =
        SQLiteUpdateStore.activate coordinate revision expected
          (system.manager.validatePointers text sha256) updates := by
  obtain ⟨here, verified⟩ := trusted
  obtain ⟨manifest, found, rfl⟩ := resolves_iff.mp here
  dsimp only at found
  simp only [Manager.perform, Manager.stage, Manager.recordHealth, Manager.activate, query_bind,
    found, verified, and_self]

theorem step_stage (trusted : system.Trusted coordinate revision)
    (vacant : (system.row coordinate).stagedRevision ∈ [none, some revision]) :
    ∃ health, system.step text sha256 (.call (.stage revision (system.active coordinate))) =
      system.withRow coordinate { system.row coordinate with
        stagedRevision := some revision, healthStatus := health } := by
  have done := stage_eq_ok.mpr ⟨names_of_resolves trusted.1, rfl, vacant, rfl, rfl⟩
  exact ⟨_, step_of_ok ((perform_trusted trusted _ true _).1.trans done)⟩

theorem step_recordHealth (trusted : system.Trusted coordinate revision)
    (staged : (system.row coordinate).stagedRevision = some revision) :
    system.step text sha256 (.call (.recordHealth revision true)) =
      system.withRow coordinate { system.row coordinate with healthStatus := some .passed } := by
  exact step_of_ok ((perform_trusted trusted none true _).2.1.trans
    (recordHealth_eq_ok.mpr ⟨names_of_resolves trusted.1, staged, rfl, rfl⟩))

theorem step_activate (trusted : system.Trusted coordinate revision)
    (staged : (system.row coordinate).stagedRevision = some revision)
    (healthy : (system.row coordinate).healthStatus = some .passed)
    (valid : system.manager.validatePointers text sha256
      (system.updates.activePointers.set coordinate revision) = .ok ()) :
    system.step text sha256 (.call (.activate revision (system.active coordinate))) =
      system.withRow coordinate
        { activeRevision := some revision, previousRevision := system.active coordinate } := by
  have done := activate_eq_ok.mpr ⟨⟨rfl, staged, healthy⟩, valid, rfl, rfl⟩
  exact step_of_ok ((perform_trusted trusted _ true _).2.2.trans done)

/-- Stage, check and activate. -/
theorem canActivate_of_free (trusted : system.Trusted coordinate revision)
    (consistent : system.ConsistentWith text sha256 coordinate revision)
    (others : system.OthersResolve coordinate)
    (vacant : (system.row coordinate).stagedRevision ∈ [none, some revision]) :
    system.CanActivate text sha256 coordinate revision := by
  have valid := validatePointers_set consistent trusted.1 others
  obtain ⟨health, staging⟩ : ∃ health,
      system.step text sha256 (.call (.stage revision (system.active coordinate))) =
        system.withRow coordinate { system.row coordinate with
          stagedRevision := some revision, healthStatus := health } := step_stage trusted vacant
  let staged := system.withRow coordinate { system.row coordinate with
    stagedRevision := some revision, healthStatus := health }
  have stagedRow : staged.row coordinate = { system.row coordinate with
    stagedRevision := some revision, healthStatus := health } := row_withRow
  have checking : staged.step text sha256 (.call (.recordHealth revision true)) =
      staged.withRow coordinate { staged.row coordinate with healthStatus := some .passed } :=
    step_recordHealth trusted (by rw [stagedRow])
  let checked := staged.withRow coordinate { staged.row coordinate with healthStatus := some .passed }
  have checkedRow : checked.row coordinate = { system.row coordinate with
      stagedRevision := some revision, healthStatus := some .passed } := by
    rw [row_withRow, stagedRow]
  have kept : (checked.row coordinate).activeRevision = (system.row coordinate).activeRevision := by
    rw [checkedRow]
  have stagedPointers : staged.updates.activePointers = system.updates.activePointers :=
    activePointers_withRow rfl
  have pointers : checked.updates.activePointers = staged.updates.activePointers :=
    activePointers_withRow rfl
  have activating : checked.step text sha256 (.call (.activate revision (checked.active coordinate))) =
      checked.withRow coordinate
        { activeRevision := some revision, previousRevision := checked.active coordinate } :=
    step_activate trusted (by rw [checkedRow]) (by rw [checkedRow]) (by rw [pointers, stagedPointers]; exact valid)
  refine ⟨[.stage revision (system.active coordinate), .recordHealth revision true,
    .activate revision (system.active coordinate)], ?_, ?_⟩
  · simp [ManagerCall.Promotes]
  · simp only [after, run, List.map_cons, List.map_nil, List.foldl_cons, List.foldl_nil]
    have same : system.active coordinate = checked.active coordinate := kept.symm
    rw [staging, checking, same, activating]
    exact congrArg UpdateState.activeRevision row_withRow

theorem get?_activePointers_withRow {state : UpdateState} (different : other ≠ coordinate) :
    (system.withRow coordinate state).updates.activePointers.get? other =
      system.updates.activePointers.get? other := by
  rw [CapabilityUpdates.activePointers, Dict.get?_filterMapValues, withRow, Dict.get?_set,
    if_neg different, CapabilityUpdates.activePointers, Dict.get?_filterMapValues]

theorem othersResolve_withRow {state : UpdateState} (others : system.OthersResolve coordinate) :
    (system.withRow coordinate state).OthersResolve coordinate := by
  intro other pointer different found
  rw [Dict.get?_merge, get?_activePointers_withRow different] at found
  exact others other pointer different (Dict.get?_merge.trans found)

/-- The row of the coordinate has no say in what its own revision is consistent with. -/
theorem consistentWith_withRow {state : UpdateState}
    (consistent : system.ConsistentWith text sha256 coordinate revision) :
    (system.withRow coordinate state).ConsistentWith text sha256 coordinate revision := by
  have same (key : String) : (system.pointersWith coordinate revision).get? key =
      ((system.withRow coordinate state).pointersWith coordinate revision).get? key := by
    rw [pointersWith, pointersWith, Dict.get?_merge, Dict.get?_merge, Dict.get?_set, Dict.get?_set]
    split
    next => rfl
    next different => rw [get?_activePointers_withRow different]; rfl
  have perm := (Dict.entries_perm same).filter fun entry => decide (system.Resolves entry)
  refine (validateSelected_congr ?_ perm fun entry member =>
    of_decide_eq_true (List.mem_filter.mp member).2).symm.trans consistent
  exact (system.pointersWith coordinate revision).nodup.sublist (List.filter_sublist.map Prod.fst)

/-- What is staged and passed gives way, as it can be activated first. -/
theorem canActivate (trusted : system.Trusted coordinate revision)
    (consistent : system.ConsistentWith text sha256 coordinate revision)
    (others : system.OthersResolve coordinate)
    (vacant : system.Vacant text sha256 coordinate revision) :
    system.CanActivate text sha256 coordinate revision := by
  rcases vacant with free | ⟨other, staged, healthy, trusted', consistent'⟩
  · exact canActivate_of_free trusted consistent others free
  · have activating := step_activate trusted' staged healthy
      (validatePointers_set consistent' trusted'.1 others)
    let moved := system.withRow coordinate
      { activeRevision := some other, previousRevision := system.active coordinate }
    have vacant : (moved.row coordinate).stagedRevision ∈ [none, some revision] := by
      rw [row_withRow]
      exact List.mem_cons_self
    obtain ⟨calls, promote, made⟩ : moved.CanActivate text sha256 coordinate revision :=
      canActivate_of_free trusted (consistentWith_withRow consistent)
        (othersResolve_withRow others) vacant
    refine ⟨.activate other (system.active coordinate) :: calls, ?_, ?_⟩
    · exact List.forall_mem_cons.mpr ⟨trivial, promote⟩
    · rw [after, List.map_cons, run, List.foldl_cons, activating]
      exact made

/-! ## What blocks the way -/

/-- What each of the calls keeps, all of them keep. -/
theorem after_invariant {holds : Managed → Prop} {calls : List ManagerCall} (start : holds system)
    (each : ∀ call ∈ calls, ∀ system, holds system → holds (system.step text sha256 (.call call))) :
    holds (system.after text sha256 calls) := by
  induction calls generalizing system with
  | nil => exact start
  | cons call calls ih =>
      obtain ⟨first, rest⟩ := List.forall_mem_cons.mp each
      exact ih (first system start) rest

/-- What a promoting call makes of a row. -/
inductive Promoted (text : PythonText) (sha256 : Bytes → Bytes) (system : Managed)
    (revision coordinate : String) : UpdateState → Prop
  | kept : Promoted text sha256 system revision coordinate (system.row coordinate)
  | staged {named : String} (unstaged : (system.row coordinate).stagedRevision = none) :
      Promoted text sha256 system revision coordinate { system.row coordinate with
        stagedRevision := some named, healthStatus := some .pending }
  | checked {named : String} {passed : Bool}
      (staged : (system.row coordinate).stagedRevision = some named)
      (here : system.Resolves (coordinate, named)) (promotes : passed = true → named = revision) :
      Promoted text sha256 system revision coordinate { system.row coordinate with
        healthStatus := some (if passed then .passed else .failed) }
  | activated {named : String} (healthy : (system.row coordinate).healthStatus = some .passed)
      (valid : system.manager.validatePointers text sha256
        (system.updates.activePointers.set coordinate named) = .ok ()) :
      Promoted text sha256 system revision coordinate
        { activeRevision := some named, previousRevision := system.active coordinate }

theorem atomic_managerPerform (manager : Manager) (call : ManagerCall) :
    Atomic (manager.perform text sha256 call) := by
  cases call with
  | bootstrapActive coordinate revision =>
      exact .query_bind fun _ => .query_bind fun _ =>
        atomic_perform (.bootstrapActive coordinate revision)
  | stage revision expected =>
      exact .query_bind fun manifest => .query_bind fun _ =>
        atomic_perform (.stage manifest.identity.coordinate revision expected)
  | recordHealth revision passed =>
      exact .query_bind fun manifest => .query_bind fun _ =>
        atomic_perform (.recordHealth manifest.identity.coordinate revision passed)
  | activate revision expected =>
      exact .query_bind fun manifest => .query_bind fun _ =>
        atomic_perform (.activate manifest.identity.coordinate revision expected _)
  | rollback coordinate expected => exact atomic_perform (.rollback coordinate expected _)

/-- A promoting call that returns. -/
theorem promoted_of_ok {call : ManagerCall} {state : UpdateState} {final : CapabilityUpdates}
    (promotes : call.Promotes revision)
    (done : system.manager.perform text sha256 call system.updates = .ok state final) :
    Promoted text sha256 system revision coordinate (final.readState coordinate) := by
  cases call with
  | stage named expected =>
      simp only [Manager.perform, Manager.stage, Transaction.bind_eq_ok, query_eq_ok] at done
      obtain ⟨manifest, _, ⟨_, rfl⟩, _, _, ⟨_, rfl⟩, done⟩ := done
      obtain ⟨_, _, free, rfl, rfl⟩ := stage_eq_ok.mp done
      rw [readState_set]
      split
      next same =>
        subst same
        rcases List.mem_cons.mp free with unstaged | rest
        · rw [if_neg (by rw [unstaged]; exact fun same => by cases same)]
          exact .staged unstaged
        · have staged := List.mem_singleton.mp rest
          rw [if_pos staged, ← staged]
          exact .kept
      next => exact .kept
  | recordHealth named passed =>
      simp only [Manager.perform, Manager.recordHealth, Transaction.bind_eq_ok, query_eq_ok] at done
      obtain ⟨manifest, _, ⟨found, rfl⟩, _, _, ⟨_, rfl⟩, done⟩ := done
      obtain ⟨_, staged, rfl, rfl⟩ := recordHealth_eq_ok.mp done
      rw [readState_set]
      split
      next same =>
        subst same
        exact .checked staged (resolves_iff.mpr ⟨manifest, found, rfl⟩) promotes
      next => exact .kept
  | activate named expected =>
      simp only [Manager.perform, Manager.activate, Transaction.bind_eq_ok, query_eq_ok] at done
      obtain ⟨manifest, _, ⟨_, rfl⟩, _, _, ⟨_, rfl⟩, done⟩ := done
      obtain ⟨⟨_, _, healthy⟩, valid, rfl, rfl⟩ := activate_eq_ok.mp done
      rw [readState_set]
      split
      next same =>
        subst same
        exact .activated healthy valid
      next => exact .kept
  | bootstrapActive | rollback => exact absurd promotes id

theorem promoted_step {call : ManagerCall} (promotes : call.Promotes revision) :
    Promoted text sha256 system revision coordinate
      ((system.step text sha256 (.call call)).row coordinate) := by
  rw [step, stateAfter]
  cases done : system.manager.perform text sha256 call system.updates with
  | ok state final => exact promoted_of_ok promotes done
  | error error final =>
      rw [atomic_managerPerform _ _ _ _ _ done]
      exact .kept

/-- Another revision is staged, and did not pass. -/
structure Occupied (coordinate other : String) (pointer : Option String) (system : Managed) :
    Prop where
  staged : (system.row coordinate).stagedRevision = some other
  unhealthy : (system.row coordinate).healthStatus ≠ some .passed
  active : (system.row coordinate).activeRevision = pointer

theorem Occupied.step {pointer : Option String} {call : ManagerCall}
    (occupied : Occupied coordinate other pointer system) (different : other ≠ revision)
    (promotes : call.Promotes revision) :
    Occupied coordinate other pointer (system.step text sha256 (.call call)) := by
  have promoted : Promoted text sha256 system revision coordinate
      ((system.step text sha256 (.call call)).row coordinate) := promoted_step promotes
  generalize next : system.step text sha256 (.call call) = system' at promoted ⊢
  generalize row : system'.row coordinate = state at promoted
  obtain ⟨staged, unhealthy, active⟩ := occupied
  cases promoted with
  | kept => exact ⟨by rw [row, staged], by rwa [row], by rw [row, active]⟩
  | staged unstaged =>
      rw [staged] at unstaged
      contradiction
  | @checked named passed staged' _ promotes =>
      obtain rfl := Option.some.inj (staged.symm.trans staged')
      refine ⟨by rw [row, staged], ?_, by rw [row, active]⟩
      rw [row]
      cases passed with
      | true => exact absurd (promotes rfl) different
      | false => exact nofun
  | activated healthy => exact absurd healthy unhealthy

/-- The pointer of another coordinate does not resolve, and nothing there can replace it. -/
structure Unresolved (coordinate revision other dangling : String) (pointer : Option String)
    (system : Managed) : Prop where
  here : system.Resolves (coordinate, revision)
  missing : ¬system.Resolves (other, dangling)
  dangles : (system.row other).activeRevision = some dangling
  unhealthy : (system.row other).healthStatus ≠ some .passed
  active : (system.row coordinate).activeRevision = pointer

/-- No other coordinate is activated next to a pointer that does not resolve. -/
theorem resolves_of_valid {pointer : String} (different : other ≠ coordinate)
    (dangles : (system.row other).activeRevision = some pointer)
    (valid : system.manager.validatePointers text sha256
      (system.updates.activePointers.set coordinate revision) = .ok ()) :
    system.Resolves (other, pointer) := by
  refine (validatePointers_eq_ok.mp valid).1 _ (Dict.mem_entries_iff.mpr ?_)
  have active : system.updates.activePointers.get? other = some pointer := by
    rw [CapabilityUpdates.activePointers, Dict.get?_filterMapValues]
    rw [row, CapabilityUpdates.readState, Dict.getD] at dangles
    cases found : system.updates.get? other with
    | none =>
        rw [found] at dangles
        contradiction
    | some state =>
        rw [found] at dangles
        exact dangles
  rw [Dict.get?_merge, Dict.get?_set, if_neg different, active]
  rfl

theorem Unresolved.step {dangling : String} {pointer : Option String} {call : ManagerCall}
    (unresolved : Unresolved coordinate revision other dangling pointer system)
    (different : other ≠ coordinate) (promotes : call.Promotes revision) :
    Unresolved coordinate revision other dangling pointer
      (system.step text sha256 (.call call)) := by
  obtain ⟨here, missing, dangles, unhealthy, active⟩ := unresolved
  have there : Promoted text sha256 system revision other
      ((system.step text sha256 (.call call)).row other) := promoted_step promotes
  have near : Promoted text sha256 system revision coordinate
      ((system.step text sha256 (.call call)).row coordinate) := promoted_step promotes
  generalize row : (system.step text sha256 (.call call)).row other = state at there
  generalize row' : (system.step text sha256 (.call call)).row coordinate = state' at near
  have stays : state.activeRevision = some dangling ∧ state.healthStatus ≠ some .passed := by
    cases there with
    | kept => exact ⟨dangles, unhealthy⟩
    | staged => exact ⟨dangles, nofun⟩
    | @checked named passed _ resolves promotes =>
        refine ⟨dangles, ?_⟩
        cases passed with
        | false => exact nofun
        | true =>
            obtain rfl := promotes rfl
            exact absurd (Option.some.inj (resolves.symm.trans here)) different
    | activated healthy => exact absurd healthy unhealthy
  have keeps : state'.activeRevision = pointer := by
    cases near with
    | activated _ valid => exact absurd (resolves_of_valid different dangles valid) missing
    | _ => exact active
  exact ⟨here, missing, by rw [row]; exact stays.1, by rw [row]; exact stays.2,
    by rw [row']; exact keeps⟩

/-- A staged revision that did not pass blocks all others. -/
theorem active_of_occupied (staged : (system.row coordinate).stagedRevision = some other)
    (different : other ≠ revision)
    (unhealthy : (system.row coordinate).healthStatus ≠ some .passed) {calls : List ManagerCall}
    (promote : ∀ call ∈ calls, call.Promotes revision) :
    (system.after text sha256 calls).active coordinate = system.active coordinate := by
  have start : Occupied coordinate other (system.active coordinate) system :=
    ⟨staged, unhealthy, rfl⟩
  exact (after_invariant start fun call member _ occupied =>
    occupied.step different (promote call member)).active

/-- A pointer that does not resolve blocks all other coordinates. -/
theorem active_of_unresolved {dangling : String} (here : system.Resolves (coordinate, revision))
    (dangles : system.active other = some dangling)
    (missing : ¬system.Resolves (other, dangling)) (different : other ≠ coordinate)
    (unhealthy : (system.row other).healthStatus ≠ some .passed) {calls : List ManagerCall}
    (promote : ∀ call ∈ calls, call.Promotes revision) :
    (system.after text sha256 calls).active coordinate = system.active coordinate := by
  have start : Unresolved coordinate revision other dangling (system.active coordinate) system :=
    ⟨here, missing, dangles, unhealthy, rfl⟩
  exact (after_invariant start fun call member _ unresolved =>
    unresolved.step different (promote call member)).active

end

/-- **Staged updates go on where the way is open, and stay where it is blocked.** -/
theorem progresses (text : PythonText) (sha256 : Bytes → Bytes) (system : Managed) :
    system.Progresses text sha256 where
  activates := fun _ _ => canActivate
  occupied := fun _ _ _ staged different unhealthy _ =>
    active_of_occupied staged different unhealthy
  unresolved := fun _ _ _ _ here dangles missing different unhealthy _ =>
    active_of_unresolved here dangles missing different unhealthy

/-! ## Dead ends -/

/-- A manager of the skills, which trusts every artifact. -/
def trusting (skills : List CapabilityManifest) : Manager where
  registry := performAll asciiText id (emptyRegistry isolatePolicy) [.registerMany skills]
  keyed := keyed_performAll construct_eq _
  verifyArtifact := fun _ => .ok ()

def first : CapabilityManifest := skill "a" "1" "x" []

/-- A first revision did not pass its check; its correction is never staged. -/
def failed : Managed :=
  run (step asciiText id) ⟨trusting [first, skill "a" "2" "x" []], ∅⟩
    [.call (.stage "d/a@1#" none), .call (.recordHealth "d/a@1#" false)]

/-- An active capability was removed; no other one is activated. -/
def removed : Managed :=
  run (step asciiText id) ⟨trusting [first, skill "b" "1" "y" []], ∅⟩
    [.call (.bootstrapActive "d/b" "d/b@1#"), .restart (trusting [first])]

/-- **A failed check and a removed capability block updates for good.** -/
theorem dead_ends : ¬failed.NeverDeadEnds asciiText id ∧ ¬removed.NeverDeadEnds asciiText id := by
  refine ⟨fun never => ?_, fun never => ?_⟩
  · obtain ⟨calls, promote, active⟩ := never "d/a" "d/a@2#" ⟨by decide +kernel, rfl⟩
      (by decide +kernel)
    have row : failed.row "d/a" =
        { stagedRevision := some "d/a@1#", healthStatus := some .failed } := by decide +kernel
    have stays : (failed.after asciiText id calls).active "d/a" = failed.active "d/a" :=
      active_of_occupied (by rw [row]) (by decide) (by rw [row]; decide) promote
    have inactive : failed.active "d/a" = none := congrArg UpdateState.activeRevision row
    rw [active, inactive] at stays
    contradiction
  · obtain ⟨calls, promote, active⟩ := never "d/a" "d/a@1#" ⟨by decide +kernel, rfl⟩
      (by decide +kernel)
    have there : removed.row "d/b" = { activeRevision := some "d/b@1#" } := by decide +kernel
    have here : removed.row "d/a" = {} := by decide +kernel
    have dangles : removed.active "d/b" = some "d/b@1#" :=
      congrArg UpdateState.activeRevision there
    have registered : removed.Resolves ("d/a", "d/a@1#") := by decide +kernel
    have stays : (removed.after asciiText id calls).active "d/a" = removed.active "d/a" :=
      active_of_unresolved registered dangles (by decide +kernel) (by decide)
        (by rw [there]; decide) promote
    have inactive : removed.active "d/a" = none := congrArg UpdateState.activeRevision here
    rw [active, inactive] at stays
    contradiction

end CapabilityHub.Updates.Managed
