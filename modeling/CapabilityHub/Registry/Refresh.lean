import CapabilityHub.Registry.Install

/-! # Activating a catalog

`LocalCatalogMonitor._build_snapshot` activates the registered manifests of a catalog in rounds,
until a round activates none. What is active then is valid and nothing that is left can be added.
Where no capability has a choice, it is the least set that is closed under satisfied dependencies,
in whatever order the catalog comes (`CapabilityHub.Registry.activatePending_settles`).
-/

namespace CapabilityHub.Registry

open Transaction

variable (text : PythonText) (sha256 : Bytes → Bytes)

/-- What one round over `pending` has done so far. -/
structure Pass where
  registry : CapabilityRegistry
  activationErrors : Dict String CapabilityHubError
  remaining : List CapabilityManifest := []
  progress : Bool := false

/-- The body of the loop over `pending`. -/
def attempt (pass : Pass) (manifest : CapabilityManifest) : Except Raised Pass :=
  match activate text sha256 manifest.identity.coordinate (some manifest.identity.revision)
      pass.registry with
  | .ok _ registry =>
      .ok { pass with
        registry := registry
        activationErrors := pass.activationErrors.erase manifest.identity.revision
        progress := true }
  | .error (.hub error) registry =>
      .ok { pass with
        registry := registry
        activationErrors := pass.activationErrors.set manifest.identity.revision error
        remaining := pass.remaining ++ [manifest] }
  | .error raised _ => .error raised

/-- The registered manifests that are to be activated. -/
def selectPending (registry : CapabilityRegistry) (inactiveCoordinates : List String)
    (updatePointers : Dict String String) (manifests : List CapabilityManifest) :
    List CapabilityManifest :=
  manifests.filter fun manifest =>
    manifest.identity.revision ∈ registry.revisions.keys ∧
      manifest.identity.coordinate ∉ inactiveCoordinates ∧
        updatePointers.getD manifest.identity.coordinate manifest.identity.revision =
          manifest.identity.revision

section Rounds

variable {text sha256} {pass after : Pass} {pending : List CapabilityManifest}
  {registry : CapabilityRegistry}

/-- What a round does with each manifest. -/
structure Rounded (pass : Pass) (pending : List CapabilityManifest) (after : Pass) : Prop where
  /-- What remains comes from the round. -/
  remains : ∃ kept, after.remaining = pass.remaining ++ kept ∧ kept.Sublist pending ∧
    (after.progress = true → pass.progress = false → kept.length < pending.length) ∧
    (after.progress = false → kept = pending)
  /-- Progress is not taken back. -/
  progress : pass.progress = true → after.progress = true

theorem attempt_rounded {manifest : CapabilityManifest}
    (done : attempt text sha256 pass manifest = .ok after) : Rounded pass [manifest] after := by
  unfold attempt at done
  split at done
  · cases done
    exact ⟨⟨[], (List.append_nil _).symm, List.nil_sublist _, fun _ _ => Nat.zero_lt_one, fun idle => by cases idle⟩,
      fun _ => rfl⟩
  · cases done
    exact ⟨⟨[manifest], rfl, List.Sublist.refl _, fun now before => by simp [before] at now,
      fun _ => rfl⟩, id⟩
  · cases done

theorem foldlM_attempt_rounded (done : pending.foldlM (attempt text sha256) pass = .ok after) :
    Rounded pass pending after := by
  induction pending generalizing pass with
  | nil =>
      obtain rfl := CapabilityHub.pure_eq_ok.mp done
      exact ⟨⟨[], (List.append_nil _).symm, List.Sublist.refl _,
        fun now before => by simp [before] at now, fun _ => rfl⟩, id⟩
  | cons manifest pending ih =>
      rw [List.foldlM_cons, CapabilityHub.bind_eq_ok] at done
      obtain ⟨middle, here, below⟩ := done
      obtain ⟨⟨kept, remains, sub, shorter, all⟩, forward⟩ := attempt_rounded here
      obtain ⟨⟨kept', remains', sub', shorter', all'⟩, forward'⟩ := ih below
      have length := sub.length_le
      have length' := sub'.length_le
      refine ⟨⟨kept ++ kept', ?_, sub.append sub', fun now before => ?_, fun none => ?_⟩,
        fun before => forward' (forward before)⟩
      · rw [remains', remains, List.append_assoc]
      · rw [List.length_append, List.length_cons]
        cases moved : middle.progress with
        | true =>
            have less := shorter moved before
            simp only [List.length_cons, List.length_nil] at less
            omega
        | false =>
            have less := shorter' now moved
            simp only [List.length_cons, List.length_nil] at length
            omega
      · have still : middle.progress = false := by
          cases moved : middle.progress with
          | true => exact absurd (forward' moved) (by simp [none])
          | false => rfl
        rw [all still, all' none]
        rfl

/-- A round that activates a manifest leaves fewer. -/
theorem length_remaining {errors : Dict String CapabilityHubError}
    (done : pending.foldlM (attempt text sha256) ⟨registry, errors, [], false⟩ = .ok after)
    (progress : after.progress = true) : after.remaining.length < pending.length := by
  obtain ⟨kept, remains, _, shorter, _⟩ := (foldlM_attempt_rounded done).remains
  rw [remains, List.nil_append]
  exact shorter progress rfl

end Rounds

/-- The registry, the errors and the manifests that are left when the loop ends. -/
structure Activations where
  registry : CapabilityRegistry
  activationErrors : Dict String CapabilityHubError
  pending : List CapabilityManifest

/-- `while pending`, with the errors of the rounds before. -/
def activatePending (registry : CapabilityRegistry)
    (activationErrors : Dict String CapabilityHubError) (pending : List CapabilityManifest) :
    Except Raised Activations :=
  if pending.isEmpty then .ok ⟨registry, activationErrors, pending⟩
  else
    match done : pending.foldlM (attempt text sha256) ⟨registry, activationErrors, [], false⟩ with
    | .error raised => .error raised
    | .ok pass =>
        if progress : pass.progress = true then
          activatePending pass.registry pass.activationErrors pass.remaining
        else .ok ⟨pass.registry, pass.activationErrors, pending⟩
termination_by pending.length
decreasing_by exact length_remaining done progress

/-! ## The errors of an activation -/

/-- Whatever the work raises is a `CapabilityHubError`. -/
def RaisesHub {α : Type} (work : Except Raised α) : Prop :=
  ∀ raised, work = .error raised → ∃ error, raised = .hub error

section RaisesHub

variable {α β : Type} {work : Except Raised α} {next : α → Except Raised β}

theorem raisesHub_of_ok {value : α} (done : work = .ok value) : RaisesHub work := by
  intro raised failed
  rw [done] at failed
  cases failed

theorem raisesHub_error {error : CapabilityHubError} :
    RaisesHub (.error (.hub error) : Except Raised α) := by
  intro raised failed
  cases failed
  exact ⟨error, rfl⟩

theorem raisesHub_raiseIf {condition : Prop} [Decidable condition] {error : CapabilityHubError} :
    RaisesHub (raiseIf condition (.hub error)) := by
  unfold raiseIf
  split
  · exact raisesHub_error
  · exact raisesHub_of_ok rfl

theorem RaisesHub.bind (first : RaisesHub work) (rest : ∀ value, work = .ok value →
    RaisesHub (next value)) : RaisesHub (work >>= next) := by
  intro raised failed
  cases result : work with
  | ok value =>
      rw [result] at failed
      exact rest value result raised failed
  | error error =>
      rw [result] at failed
      cases failed
      exact first _ result

theorem raisesHub_mapM {items : List α} {f : α → Except Raised β}
    (each : ∀ item ∈ items, RaisesHub (f item)) : RaisesHub (items.mapM f) := by
  induction items with
  | nil => exact raisesHub_of_ok rfl
  | cons first items ih =>
      rw [List.mapM_cons]
      have each := List.forall_mem_cons.mp each
      exact each.1.bind fun _ _ => (ih each.2).bind fun _ _ => raisesHub_of_ok rfl

theorem raisesHub_foldlM {items : List α} {f : β → α → Except Raised β} {start : β}
    (each : ∀ state item, RaisesHub (f state item)) : RaisesHub (items.foldlM f start) := by
  induction items generalizing start with
  | nil => exact raisesHub_of_ok rfl
  | cons first items ih =>
      rw [List.foldlM_cons]
      exact (each start first).bind fun _ _ => ih

end RaisesHub

variable {text : PythonText} {sha256 : Bytes → Bytes} {registry : CapabilityRegistry}
  {active : Dict String String} {coordinate name : String}

theorem raisesHub_revision : RaisesHub (registry.revision name) := by
  unfold CapabilityRegistry.revision
  split
  · exact raisesHub_of_ok rfl
  · exact raisesHub_error

theorem raisesHub_validateDependencies {selected : Dict String CapabilityManifest}
    {requireActive : Bool} : RaisesHub (validateDependencies text selected requireActive) := by
  have dependency (coordinate : String) (dependency : DependencySpec) :
      RaisesHub (checkDependency text selected requireActive coordinate dependency) := by
    unfold checkDependency
    repeat' split
    all_goals first
      | exact raisesHub_of_ok rfl
      | exact raisesHub_error
  have cycle (graph : Dict String (List String)) : RaisesHub (raiseOnCycle graph) := by
    unfold raiseOnCycle
    split
    · exact raisesHub_of_ok rfl
    · exact raisesHub_error
  refine (raisesHub_mapM fun entry _ => ?_).bind fun _ _ => cycle _
  refine RaisesHub.bind ?_ fun _ _ => raisesHub_of_ok rfl
  exact (raisesHub_mapM fun _ _ => dependency _ _).bind fun _ _ => raisesHub_of_ok rfl

theorem raisesHub_validateConflicts {selected : Dict String CapabilityManifest} :
    RaisesHub (validateConflicts sha256 selected) := by
  refine (raisesHub_foldlM fun claims declared => ?_).bind fun _ _ => raisesHub_of_ok rfl
  unfold claimConflict
  dsimp only
  repeat' split
  all_goals first
    | exact raisesHub_of_ok rfl
    | exact raisesHub_error

/-- A resolution of manifests with claims raises only what the policy raises. -/
theorem raisesHub_resolveProjections {manifests : List CapabilityManifest} {policy : ProjectionPolicy}
    (extracts : ∀ manifest ∈ manifests, ∃ claims,
      extractProjectionClaims text sha256 manifest = .ok claims) :
    RaisesHub (resolveProjections text sha256 manifests policy) := by
  unfold resolveProjections
  refine (raisesHub_mapM fun manifest member => ?_).bind fun extracted _ => ?_
  · obtain ⟨claims, extracted⟩ := extracts manifest ((mem_sortedBy _).mp member)
    exact raisesHub_of_ok extracted
  · refine RaisesHub.bind ?_ fun _ _ => raisesHub_of_ok rfl
    unfold checkCollisions
    repeat' split
    all_goals first
      | exact raisesHub_of_ok rfl
      | exact raisesHub_error
      | exact raisesHub_raiseIf

theorem raisesHub_validateActive (extracts : ∀ coordinate name manifest,
      active.get? coordinate = some name → registry.revisions.get? name = some manifest →
        ∃ claims, extractProjectionClaims text sha256 manifest = .ok claims) :
    RaisesHub (registry.validateActive text sha256 active) := by
  unfold CapabilityRegistry.validateActive
  refine RaisesHub.bind ?_ fun selected _ => raisesHub_validateDependencies.bind fun _ _ =>
    raisesHub_validateConflicts.bind fun _ _ => RaisesHub.bind ?_ fun _ _ => raisesHub_of_ok rfl
  · exact (raisesHub_mapM fun _ _ => raisesHub_revision.bind fun _ _ => raisesHub_of_ok rfl).bind
      fun _ _ => raisesHub_of_ok rfl
  · unfold CapabilityRegistry.resolveActiveProjections
    refine (raisesHub_mapM fun _ _ => raisesHub_revision).bind fun manifests collected => ?_
    refine raisesHub_resolveProjections fun manifest member => ?_
    obtain ⟨⟨coordinate, name⟩, inside, found⟩ := (mem_of_mapM collected).mp member
    exact extracts coordinate name manifest (Dict.mem_entries_iff.mp inside)
      (revision_eq_ok.mp found)

theorem hub_of_query_bind {α β : Type} {read : CapabilityRegistry → Except Raised α}
    {next : α → Method β} {raised : Raised} {final : CapabilityRegistry}
    (first : RaisesHub (read registry))
    (rest : ∀ value, read registry = .ok value → next value registry = .error raised final →
      ∃ error, raised = .hub error)
    (failed : (query read >>= next) registry = .error raised final) :
    ∃ error, raised = .hub error := by
  rw [query_bind] at failed
  cases result : read registry with
  | ok value =>
      rw [result] at failed
      exact rest value result failed
  | error error =>
      rw [result] at failed
      cases failed
      exact first _ result

/-- An activation among manifests with claims raises a `CapabilityHubError`. -/
theorem hub_of_activate {raised : Raised} {final : CapabilityRegistry}
    (extracts : ∀ other name' manifest,
      (activationCandidate registry coordinate name).get? other = some name' →
        registry.revisions.get? name' = some manifest →
          ∃ claims, extractProjectionClaims text sha256 manifest = .ok claims)
    (failed : activate text sha256 coordinate (some name) registry = .error raised final) :
    ∃ error, raised = .hub error := by
  have choice : registry.chosenRevision text coordinate (some name) = .ok name := rfl
  unfold activate at failed
  refine hub_of_query_bind raisesHub_raiseIf (fun _ _ failed => ?_) failed
  refine hub_of_query_bind (raisesHub_of_ok choice) (fun chosen chose failed => ?_) failed
  obtain rfl := Except.ok.inj (choice.symm.trans chose)
  refine hub_of_query_bind raisesHub_revision (fun manifest _ failed => ?_) failed
  refine hub_of_query_bind raisesHub_raiseIf (fun _ _ failed => ?_) failed
  refine hub_of_query_bind raisesHub_raiseIf (fun _ _ failed => ?_) failed
  refine hub_of_query_bind (raisesHub_validateActive extracts) (fun _ _ failed => ?_) failed
  cases failed

/-! ## What the rounds do -/

variable (text sha256) in
/-- One of the manifests is activated. -/
def Activates (manifests : List CapabilityManifest) (registry final : CapabilityRegistry) : Prop :=
  ∃ manifest ∈ manifests, ∃ result, activate text sha256 manifest.identity.coordinate
    (some manifest.identity.revision) registry = .ok result final

variable (text sha256) in
/-- The manifest cannot be activated. -/
def Refused (registry : CapabilityRegistry) (manifest : CapabilityManifest) : Prop :=
  ∀ result final, activate text sha256 manifest.identity.coordinate
    (some manifest.identity.revision) registry ≠ .ok result final

variable (text sha256) in
/-- The manifest is activated on the way. -/
def Activated (manifests : List CapabilityManifest) (registry final : CapabilityRegistry)
    (manifest : CapabilityManifest) : Prop :=
  ∃ before after result, Relation.ReflTransGen (Activates text sha256 manifests) registry before ∧
    activate text sha256 manifest.identity.coordinate (some manifest.identity.revision) before =
      .ok result after ∧
    Relation.ReflTransGen (Activates text sha256 manifests) after final

variable {manifests pending : List CapabilityManifest} {pass after : Pass}
  {manifest : CapabilityManifest} {final : CapabilityRegistry}

theorem Activated.head {before : CapabilityRegistry}
    (step : Relation.ReflTransGen (Activates text sha256 manifests) before registry)
    (activated : Activated text sha256 manifests registry final manifest) :
    Activated text sha256 manifests before final manifest := by
  obtain ⟨middle, after, result, steps, done, rest⟩ := activated
  exact ⟨middle, after, result, step.trans steps, done, rest⟩

theorem Activated.tail {last : CapabilityRegistry}
    (activated : Activated text sha256 manifests registry final manifest)
    (steps : Relation.ReflTransGen (Activates text sha256 manifests) final last) :
    Activated text sha256 manifests registry last manifest := by
  obtain ⟨middle, after, result, before, done, rest⟩ := activated
  exact ⟨middle, after, result, before, done, rest.trans steps⟩

/-- What a round does with the registry. -/
structure Attempted (text : PythonText) (sha256 : Bytes → Bytes)
    (manifests : List CapabilityManifest) (pass : Pass) (pending : List CapabilityManifest)
    (after : Pass) : Prop where
  steps : Relation.ReflTransGen (Activates text sha256 manifests) pass.registry after.registry
  each : ∀ manifest ∈ pending, manifest ∈ after.remaining ∨
    Activated text sha256 manifests pass.registry after.registry manifest
  still : after.progress = false → after.registry = pass.registry ∧
    ∀ manifest ∈ pending, Refused text sha256 pass.registry manifest

theorem mem_remaining (rounded : Rounded pass pending after) (member : manifest ∈ pass.remaining) :
    manifest ∈ after.remaining := by
  obtain ⟨kept, remains, _⟩ := rounded.remains
  rw [remains]
  exact List.mem_append_left _ member

theorem foldlM_attempt_attempted (among : pending ⊆ manifests)
    (done : pending.foldlM (attempt text sha256) pass = .ok after) :
    Attempted text sha256 manifests pass pending after := by
  induction pending generalizing pass with
  | nil =>
      obtain rfl := CapabilityHub.pure_eq_ok.mp done
      exact ⟨.refl, fun _ member => absurd member List.not_mem_nil,
        fun _ => ⟨rfl, fun _ member => absurd member List.not_mem_nil⟩⟩
  | cons manifest pending ih =>
      rw [List.foldlM_cons, CapabilityHub.bind_eq_ok] at done
      obtain ⟨middle, here, below⟩ := done
      have later := ih (List.cons_subset.mp among).2 below
      have rounded := foldlM_attempt_rounded below
      unfold attempt at here
      split at here
      next result next activated =>
        cases here
        have step : Relation.ReflTransGen (Activates text sha256 manifests) pass.registry next :=
          .single ⟨manifest, among List.mem_cons_self, result, activated⟩
        refine ⟨step.trans later.steps, List.forall_mem_cons.mpr ⟨.inr ?_, fun other member => ?_⟩,
          fun none => absurd (rounded.progress rfl) (by simp [none])⟩
        · exact ⟨_, next, result, .refl, activated, later.steps⟩
        · exact (later.each other member).imp_right fun activated => activated.head step
      next error next refused =>
        cases here
        obtain rfl := atomic_activate _ _ _ refused
        refine ⟨later.steps, List.forall_mem_cons.mpr ⟨.inl ?_, later.each⟩, fun none => ?_⟩
        · exact mem_remaining rounded (List.mem_append_right _ (List.mem_singleton_self _))
        · refine ⟨(later.still none).1, List.forall_mem_cons.mpr ⟨fun result final done => ?_,
            (later.still none).2⟩⟩
          rw [refused] at done
          cases done
      · cases here

/-- What the loop does with the registry. -/
structure Looped (text : PythonText) (sha256 : Bytes → Bytes)
    (manifests : List CapabilityManifest) (registry : CapabilityRegistry)
    (pending : List CapabilityManifest) (outcome : Activations) : Prop where
  steps : Relation.ReflTransGen (Activates text sha256 manifests) registry outcome.registry
  each : ∀ manifest ∈ pending, manifest ∈ outcome.pending ∨
    Activated text sha256 manifests registry outcome.registry manifest
  refused : ∀ manifest ∈ outcome.pending, Refused text sha256 outcome.registry manifest

theorem activatePending_looped {errors : Dict String CapabilityHubError} {outcome : Activations}
    (among : pending ⊆ manifests)
    (done : activatePending text sha256 registry errors pending = .ok outcome) :
    Looped text sha256 manifests registry pending outcome := by
  fun_induction activatePending text sha256 registry errors pending with
  | case1 registry errors pending empty =>
      cases done
      obtain rfl := List.isEmpty_iff.mp empty
      exact ⟨.refl, fun _ member => absurd member List.not_mem_nil,
        fun _ member => absurd member List.not_mem_nil⟩
  | case2 => cases done
  | case3 registry errors pending some pass round progress ih =>
      have attempted := foldlM_attempt_attempted among round
      obtain ⟨kept, remains, sub, _⟩ := (foldlM_attempt_rounded round).remains
      have looped := ih (List.Subset.trans (remains ▸ sub.subset) among) done
      refine ⟨attempted.steps.trans looped.steps, fun manifest member => ?_, looped.refused⟩
      rcases attempted.each manifest member with left | activated
      · exact (looped.each manifest left).imp_right fun activated =>
          activated.head attempted.steps
      · exact .inr (activated.tail looped.steps)
  | case4 registry errors pending some pass round still =>
      cases done
      have attempted := foldlM_attempt_attempted among round
      obtain ⟨same, refused⟩ := attempted.still (eq_false_of_ne_true still)
      exact ⟨attempted.steps, fun manifest member => .inl member, same ▸ refused⟩

/-! ## The states that are reached -/

/-- A state of the loop that started from a registry. -/
structure Reached (text : PythonText) (sha256 : Bytes → Bytes)
    (origin registry : CapabilityRegistry) : Prop where
  same : registry = { origin with active := registry.active }
  valid : registry.validateActive text sha256 registry.active = .ok ()
  pointed : ∀ coordinate name, registry.active.get? coordinate = some name →
    ∃ manifest, registry.revisions.get? name = some manifest ∧
      manifest.identity.coordinate = coordinate

variable {origin : CapabilityRegistry}

theorem Reached.step (reached : Reached text sha256 origin registry)
    {result : CapabilityManifest}
    (done : activate text sha256 coordinate (some name) registry = .ok result final) :
    Reached text sha256 origin final := by
  obtain ⟨_, found, own, _, valid, rfl⟩ := activate_eq_ok.mp done
  refine ⟨?_, valid, fun other name' pointed => ?_⟩
  · rw [reached.same]
  · rw [activationCandidate, Dict.get?_filterKeys, Dict.get?_set] at pointed
    split at pointed
    · split at pointed
      next same =>
        cases pointed
        exact ⟨result, found, own.trans same.symm⟩
      · exact reached.pointed other name' pointed
    · cases pointed

theorem Reached.steps (reached : Reached text sha256 origin registry)
    (steps : Relation.ReflTransGen (Activates text sha256 manifests) registry final) :
    Reached text sha256 origin final := by
  induction steps with
  | refl => exact reached
  | tail _ step ih =>
      obtain ⟨_, _, _, done⟩ := step
      exact ih.step done

variable (text sha256) in
/-- The claims of the manifests can be extracted, as they are registered. -/
def Claimable (registry : CapabilityRegistry) (manifests : List CapabilityManifest) : Prop :=
  ∀ manifest ∈ manifests, ∀ found,
    registry.revisions.get? manifest.identity.revision = some found →
      ∃ claims, extractProjectionClaims text sha256 found = .ok claims

theorem Reached.attempts (reached : Reached text sha256 origin pass.registry)
    (claimable : Claimable text sha256 origin [manifest]) :
    ∃ after, attempt text sha256 pass manifest = .ok after ∧
      Reached text sha256 origin after.registry := by
  unfold attempt
  cases activated : activate text sha256 manifest.identity.coordinate
      (some manifest.identity.revision) pass.registry with
  | ok result next => exact ⟨_, rfl, reached.step activated⟩
  | error raised next =>
      obtain rfl := atomic_activate _ _ _ activated
      have hub : ∃ error, raised = .hub error := by
        refine hub_of_activate (fun other name' found pointed registered => ?_) activated
        rw [activationCandidate, Dict.get?_filterKeys, Dict.get?_set] at pointed
        split at pointed
        · split at pointed
          · cases pointed
            rw [reached.same] at registered
            exact claimable manifest (List.mem_singleton_self _) found registered
          · exact extracts_of_validateActive reached.valid other found
              (Option.bind_eq_some_iff.mpr ⟨name', pointed, registered⟩)
        · cases pointed
      obtain ⟨error, rfl⟩ := hub
      exact ⟨_, rfl, reached⟩

theorem Reached.rounds (reached : Reached text sha256 origin pass.registry)
    (claimable : Claimable text sha256 origin pending) :
    ∃ after, pending.foldlM (attempt text sha256) pass = .ok after ∧
      Reached text sha256 origin after.registry := by
  induction pending generalizing pass with
  | nil => exact ⟨pass, rfl, reached⟩
  | cons manifest pending ih =>
      have parts := List.forall_mem_cons.mp claimable
      obtain ⟨middle, here, reached⟩ := reached.attempts (List.forall_mem_singleton.mpr parts.1)
      obtain ⟨after, below, reached⟩ := ih reached parts.2
      refine ⟨after, ?_, reached⟩
      rw [List.foldlM_cons, CapabilityHub.bind_eq_ok]
      exact ⟨middle, here, below⟩

/-- The loop ends. -/
theorem Reached.loops {errors : Dict String CapabilityHubError}
    (reached : Reached text sha256 origin registry)
    (claimable : Claimable text sha256 origin pending) :
    ∃ outcome, activatePending text sha256 registry errors pending = .ok outcome := by
  fun_induction activatePending text sha256 registry errors pending with
  | case1 => exact ⟨_, rfl⟩
  | case2 registry errors pending some raised round =>
      have start : Reached text sha256 origin (Pass.mk registry errors [] false).registry := reached
      obtain ⟨after, done, _⟩ := start.rounds claimable
      rw [round] at done
      cases done
  | case3 registry errors pending some pass round progress ih =>
      have start : Reached text sha256 origin (Pass.mk registry errors [] false).registry := reached
      obtain ⟨after, done, reached⟩ := start.rounds claimable
      obtain rfl := Except.ok.inj (round.symm.trans done)
      obtain ⟨kept, remains, sub, _⟩ := (foldlM_attempt_rounded round).remains
      have among : pass.remaining ⊆ pending := remains ▸ sub.subset
      exact ih reached fun manifest member => claimable manifest (among member)
  | case4 => exact ⟨_, rfl⟩

/-! ## One more manifest -/

section Extended

variable {selected : String → Option CapabilityManifest}

/-- The selection with one more manifest. -/
def extended (selected : String → Option CapabilityManifest) (coordinate : String)
    (manifest : CapabilityManifest) : String → Option CapabilityManifest :=
  fun other => if other = coordinate then some manifest else selected other

theorem satisfied_extended {dependency : DependencySpec} (other : dependency.coordinate ≠ coordinate) :
    Satisfied text (extended selected coordinate manifest) dependency ↔
      Satisfied text selected dependency := by
  rw [Satisfied, extended, if_neg other, Satisfied]

/-- A manifest that can be added has what it requires. -/
theorem Consistent.satisfied_of_extended
    (consistent : Consistent text (extended selected coordinate manifest))
    (required : ∀ dependency ∈ manifest.dependencies, dependency.isOptional = false) :
    ∀ dependency ∈ manifest.dependencies, Satisfied text selected dependency := by
  intro dependency member
  have here : extended selected coordinate manifest coordinate = some manifest := if_pos rfl
  have satisfied := consistent.complete coordinate manifest here dependency member
    (required dependency member)
  -- a manifest that requires its own coordinate would be a cycle
  have other : dependency.coordinate ≠ coordinate := fun same =>
    consistent.acyclic coordinate (.single ⟨manifest, here, dependency, member, same, satisfied⟩)
  exact (satisfied_extended other).mp satisfied

/-- A manifest of a new coordinate can be added when it has what it requires. -/
theorem Consistent.extended (consistent : Consistent text selected)
    (fresh : selected coordinate = none)
    (required : ∀ other manifest, selected other = some manifest →
      ∀ dependency ∈ manifest.dependencies, dependency.isOptional = false)
    (free : manifest.conflicts = [] ∧
      ∀ other manifest, selected other = some manifest → manifest.conflicts = [])
    (satisfied : ∀ dependency ∈ manifest.dependencies, Satisfied text selected dependency) :
    Consistent text (extended selected coordinate manifest) := by
  have away {dependency : DependencySpec} (holds : Satisfied text selected dependency) :
      dependency.coordinate ≠ coordinate := by
    intro same
    obtain ⟨target, found, _⟩ := holds
    rw [same, fresh] at found
    cases found
  -- every manifest of the larger selection has its dependencies in the smaller one
  have inside {other : String} {found : CapabilityManifest}
      (present : Registry.extended selected coordinate manifest other = some found) :
      ∀ dependency ∈ found.dependencies, Satisfied text selected dependency := by
    rw [Registry.extended] at present
    split at present
    · cases present
      exact satisfied
    · exact fun dependency member =>
        consistent.complete other found present dependency member
          (required other found present dependency member)
  have edge {one two : String}
      (depends : DependsOn text (Registry.extended selected coordinate manifest) one two) :
      two ≠ coordinate ∧ (one ≠ coordinate → DependsOn text selected one two) := by
    obtain ⟨found, present, dependency, member, rfl, _⟩ := depends
    have holds := inside present dependency member
    refine ⟨away holds, fun apart => ⟨found, ?_, dependency, member, rfl, holds⟩⟩
    rwa [Registry.extended, if_neg apart] at present
  constructor
  · intro other found present dependency member _
    have holds := inside present dependency member
    exact (satisfied_extended (away holds)).mpr holds
  · intro node walk
    have path {one two : String} (apart : one ≠ coordinate)
        (walk : Relation.TransGen
          (DependsOn text (Registry.extended selected coordinate manifest)) one two) :
        Relation.TransGen (DependsOn text selected) one two := by
      induction walk with
      | single last => exact .single ((edge last).2 apart)
      | @tail middle _ before last ih =>
          obtain ⟨_, _, step⟩ := Relation.TransGen.tail'_iff.mp before
          exact .tail ih ((edge last).2 (edge step).1)
    have apart : node ≠ coordinate := by
      obtain ⟨_, _, step⟩ := Relation.TransGen.tail'_iff.mp walk
      exact (edge step).1
    exact consistent.acyclic node (path apart walk)
  · intro one two first second present present' conflict member
    have none : first.conflicts = [] := by
      rw [Registry.extended] at present
      split at present
      · cases present
        exact free.1
      · exact free.2 one first present
    rw [none] at member
    exact absurd member List.not_mem_nil

end Extended

/-! ## The least closed set -/

/-- Each coordinate has one revision, nothing conflicts and every dependency is required. -/
structure Determined (registry : CapabilityRegistry) : Prop where
  single : ∀ name name' manifest manifest', registry.revisions.get? name = some manifest →
    registry.revisions.get? name' = some manifest' →
      manifest.identity.coordinate = manifest'.identity.coordinate → name = name'
  free : ∀ name manifest, registry.revisions.get? name = some manifest → manifest.conflicts = []
  required : ∀ name manifest, registry.revisions.get? name = some manifest →
    ∀ dependency ∈ manifest.dependencies, dependency.isOptional = false

/-- The least set that has what is active, and every listed manifest that is registered and whose
dependencies are in the set at versions that satisfy them. -/
inductive Served (text : PythonText) (registry : CapabilityRegistry)
    (manifests : List CapabilityManifest) : String → Prop
  | active {coordinate name : String} (pointed : registry.active.get? coordinate = some name) :
      Served text registry manifests coordinate
  | activated {manifest found : CapabilityManifest} (listed : manifest ∈ manifests)
      (registered : registry.revisions.get? manifest.identity.revision = some found)
      (own : found.identity.coordinate = manifest.identity.coordinate)
      (satisfied : ∀ dependency ∈ found.dependencies, ∃ name target,
        registry.revisions.get? name = some target ∧
          target.identity.coordinate = dependency.coordinate ∧
            satisfies text target.identity.version dependency = true)
      (served : ∀ dependency ∈ found.dependencies,
        Served text registry manifests dependency.coordinate) :
      Served text registry manifests manifest.identity.coordinate

/-- The registry of the loop: it isolates collisions and excludes nothing. -/
structure Open (origin : CapabilityRegistry) : Prop where
  isolates : origin.projectionPolicy.strategy = .isolate
  admits : origin.projectionResolution.excludedCoordinates = []

namespace Reached

variable (reached : Reached text sha256 origin registry) (determined : Determined origin)
include reached

theorem revisions : registry.revisions = origin.revisions := by rw [reached.same]

/-- A coordinate and the manifest it is active with. -/
theorem activeManifest_eq_some {found : CapabilityManifest} :
    registry.activeManifest coordinate = some found ↔
      ∃ name, registry.active.get? coordinate = some name ∧
        origin.revisions.get? name = some found := by
  rw [CapabilityRegistry.activeManifest, Option.bind_eq_some_iff, reached.revisions]

theorem consistent : Consistent text registry.activeManifest :=
  (validateActive_eq_ok.mp reached.valid).2.1

theorem candidate (opened : Open origin) :
    activationCandidate registry coordinate name = registry.active.set coordinate name := by
  apply activationCandidate_of_admits
  rw [reached.same]
  exact opened.admits

/-- The manifests of a candidate for the active map. -/
theorem bind_candidate {found : CapabilityManifest}
    (registered : origin.revisions.get? name = some found) :
    (fun other => ((registry.active.set coordinate name).get? other).bind registry.revisions.get?) =
      extended registry.activeManifest coordinate found := by
  funext other
  rw [Dict.get?_set, extended]
  split
  · rw [Option.bind_some, reached.revisions, registered]
  · rfl

include determined

/-- The coordinate of a registered manifest is active with this manifest, if with any. -/
theorem active_eq {found : CapabilityManifest}
    (registered : origin.revisions.get? name = some found)
    (own : found.identity.coordinate = coordinate) {name' : String}
    (pointed : registry.active.get? coordinate = some name') : name' = name := by
  obtain ⟨manifest, present, coordinates⟩ := reached.pointed coordinate name' pointed
  rw [reached.revisions] at present
  exact determined.single name' name manifest found present registered
    (coordinates.trans own.symm)

/-- A capability that is activated has what it requires. -/
theorem satisfied_of_activate (opened : Open origin) {result : CapabilityManifest}
    (done : activate text sha256 coordinate (some name) registry = .ok result final) :
    ∀ dependency ∈ result.dependencies, Satisfied text registry.activeManifest dependency := by
  obtain ⟨_, registered, own, _, valid, _⟩ := activate_eq_ok.mp done
  rw [reached.candidate opened] at valid
  rw [reached.revisions] at registered
  have consistent := (validateActive_eq_ok.mp valid).2.1
  rw [reached.bind_candidate registered] at consistent
  exact consistent.satisfied_of_extended (determined.required name result registered)

/-- A capability that has what it requires can be activated. -/
theorem exists_activate (opened : Open origin) (mutable : origin.frozen = false)
    {found : CapabilityManifest} (registered : origin.revisions.get? name = some found)
    (own : found.identity.coordinate = coordinate)
    (claims : ∃ claims, extractProjectionClaims text sha256 found = .ok claims)
    (satisfied : ∀ dependency ∈ found.dependencies,
      Satisfied text registry.activeManifest dependency) :
    ∃ result final, activate text sha256 coordinate (some name) registry = .ok result final := by
  have registered' : registry.revisions.get? name = some found := by rwa [reached.revisions]
  refine ⟨found, _, activate_eq_ok.mpr ⟨?_, registered', own, ?_, ?_, rfl⟩⟩
  · rw [CapabilityRegistry.ensureMutable, raiseIf_eq_ok, reached.same, mutable]
    exact Bool.false_ne_true
  · rw [reached.same, opened.admits]
    exact List.not_mem_nil
  rw [reached.candidate opened]
  have known : ∀ other name', (registry.active.set coordinate name).get? other = some name' →
      ∃ manifest, registry.revisions.get? name' = some manifest ∧
        ∃ claims, extractProjectionClaims text sha256 manifest = .ok claims := by
    intro other name' pointed
    rw [Dict.get?_set] at pointed
    split at pointed
    · cases pointed
      exact ⟨found, registered', claims⟩
    · obtain ⟨manifest, present, _⟩ := reached.pointed other name' pointed
      exact ⟨manifest, present, extracts_of_validateActive reached.valid other manifest
        (Option.bind_eq_some_iff.mpr ⟨name', pointed, present⟩)⟩
  refine validateActive_eq_ok.mpr ⟨fun other name' pointed => ?_, ?_, ?_⟩
  · obtain ⟨manifest, present, _⟩ := known other name' pointed
    exact ⟨manifest, present⟩
  · rw [reached.bind_candidate registered]
    cases present : registry.activeManifest coordinate with
    | some other =>
        -- it is active already, so the selection is the same
        obtain ⟨name', pointed, listed⟩ := reached.activeManifest_eq_some.mp present
        obtain rfl := reached.active_eq determined registered own pointed
        obtain rfl := Option.some.inj (registered.symm.trans listed)
        have same : extended registry.activeManifest coordinate found = registry.activeManifest := by
          funext other
          rw [extended]
          split
          next here => rw [here, present]
          · rfl
        rw [same]
        exact reached.consistent
    | none =>
        refine reached.consistent.extended present (fun other manifest active => ?_)
          ⟨determined.free name found registered, fun other manifest active => ?_⟩ satisfied
        · obtain ⟨name', _, registered'⟩ := reached.activeManifest_eq_some.mp active
          exact determined.required name' manifest registered'
        · obtain ⟨name', _, registered'⟩ := reached.activeManifest_eq_some.mp active
          exact determined.free name' manifest registered'
  · refine (resolveActiveProjections_isolated ?_).mpr known
    rw [reached.same]
    exact opened.isolates

/-- What is active stays active. -/
theorem grows (opened : Open origin) {result : CapabilityManifest}
    (done : activate text sha256 coordinate (some name) registry = .ok result final)
    {other name' : String} (pointed : registry.active.get? other = some name') :
    final.active.get? other = some name' := by
  obtain ⟨_, registered, own, _, _, rfl⟩ := activate_eq_ok.mp done
  rw [reached.revisions] at registered
  rw [reached.candidate opened, Dict.get?_set]
  split
  next same =>
    have here := reached.active_eq determined registered own (same ▸ pointed)
    rw [here]
  · exact pointed

theorem grows_steps (opened : Open origin)
    (steps : Relation.ReflTransGen (Activates text sha256 manifests) registry final)
    {other name' : String} (pointed : registry.active.get? other = some name') :
    final.active.get? other = some name' := by
  induction steps with
  | refl => exact pointed
  | tail before step ih =>
      obtain ⟨manifest, _, result, done⟩ := step
      exact (reached.steps before).grows determined opened done ih

/-- What is activated is in the set. -/
theorem served (opened : Open origin)
    (before : ∀ coordinate name, registry.active.get? coordinate = some name →
      Served text origin manifests coordinate)
    (steps : Relation.ReflTransGen (Activates text sha256 manifests) registry final) :
    ∀ coordinate name, final.active.get? coordinate = some name →
      Served text origin manifests coordinate := by
  induction steps with
  | refl => exact before
  | @tail middle last steps step ih =>
      obtain ⟨manifest, listed, result, done⟩ := step
      have there := reached.steps steps
      have satisfied := there.satisfied_of_activate determined opened done
      obtain ⟨_, registered, own, _, _, rfl⟩ := activate_eq_ok.mp done
      rw [there.revisions] at registered
      intro coordinate name pointed
      rw [there.candidate opened, Dict.get?_set] at pointed
      split at pointed
      next same =>
        subst same
        refine .activated listed registered own (fun dependency member => ?_) fun dependency member => ?_
        · obtain ⟨target, active, holds⟩ := satisfied dependency member
          obtain ⟨name', pointed', present⟩ := there.activeManifest_eq_some.mp active
          obtain ⟨target', present', named⟩ := there.pointed dependency.coordinate name' pointed'
          rw [there.revisions, present] at present'
          obtain rfl := Option.some.inj present'
          exact ⟨name', target, present, named, holds⟩
        · obtain ⟨target, active, _⟩ := satisfied dependency member
          obtain ⟨name', pointed', _⟩ := there.activeManifest_eq_some.mp active
          exact ih dependency.coordinate name' pointed'
      · exact ih coordinate name pointed

/-- What is active in the end, if the registry can be changed. -/
theorem active_iff_served (opened : Open origin) (mutable : origin.frozen = false)
    (start : registry.active = origin.active) (claimable : Claimable text sha256 origin pending)
    {outcome : Activations} (looped : Looped text sha256 pending registry pending outcome) :
    (∃ name, outcome.registry.active.get? coordinate = some name) ↔
      Served text origin pending coordinate := by
  have settled := reached.steps looped.steps
  constructor
  · intro active
    obtain ⟨name, pointed⟩ := active
    exact reached.served determined opened (fun _ _ pointed => .active (start ▸ pointed)) looped.steps
      coordinate name pointed
  · intro served
    induction served with
    | @active coordinate name pointed =>
        exact ⟨name, reached.grows_steps determined opened looped.steps (start ▸ pointed)⟩
    | @activated manifest found listed registered own satisfied _ ih =>
        rcases looped.each manifest listed with left | activated
        · -- what is left could be activated, as all that it requires is active
          have ready : ∀ dependency ∈ found.dependencies,
              Satisfied text outcome.registry.activeManifest dependency := by
            intro dependency member
            obtain ⟨name, target, present, named, holds⟩ := satisfied dependency member
            obtain ⟨name', pointed⟩ := ih dependency member
            have same := settled.active_eq determined present named pointed
            exact ⟨target, settled.activeManifest_eq_some.mpr ⟨name', pointed, same ▸ present⟩, holds⟩
          obtain ⟨result, final, done⟩ := settled.exists_activate determined opened mutable registered
            own (claimable manifest listed found registered) ready
          exact absurd done (looped.refused manifest left result final)
        · obtain ⟨before, after, result, steps, done, rest⟩ := activated
          have there := reached.steps steps
          obtain ⟨_, _, _, _, _, same⟩ := activate_eq_ok.mp done
          have pointed : after.active.get? manifest.identity.coordinate =
              some manifest.identity.revision := by
            rw [same, there.candidate opened, Dict.get?_set_self]
          exact ⟨_, (there.step done).grows_steps determined opened rest pointed⟩

omit determined in
/-- A registry that is frozen does not change. -/
theorem still (frozen : origin.frozen = true)
    (steps : Relation.ReflTransGen (Activates text sha256 manifests) registry final) :
    final = registry := by
  induction steps with
  | refl => rfl
  | tail before step ih =>
      obtain ⟨_, _, _, done⟩ := step
      have mutable := (activate_eq_ok.mp done).1
      rw [CapabilityRegistry.ensureMutable, raiseIf_eq_ok, ih, reached.same] at mutable
      exact absurd frozen mutable

end Reached

theorem Served.mono {manifests' : List CapabilityManifest} (among : manifests ⊆ manifests')
    (served : Served text registry manifests coordinate) :
    Served text registry manifests' coordinate := by
  induction served with
  | active pointed => exact .active pointed
  | activated listed registered own satisfied _ ih =>
      exact .activated (among listed) registered own satisfied ih

/-! ## Activating a catalog -/

/-- What the loop makes of the pending manifests of a catalog. -/
structure Settles (text : PythonText) (sha256 : Bytes → Bytes) (registry : CapabilityRegistry)
    (pending : List CapabilityManifest) (outcome : Activations) : Prop where
  /-- `validate_active` accepts the activations. -/
  valid : outcome.registry.validateActive text sha256 outcome.registry.active = .ok ()
  /-- None of the manifests that are left can be activated. -/
  refused : ∀ manifest ∈ outcome.pending, Refused text sha256 outcome.registry manifest
  /-- Where no capability has a choice, the active coordinates are the least closed set. -/
  least : Determined registry → registry.frozen = false → ∀ coordinate,
    (∃ name, outcome.registry.active.get? coordinate = some name) ↔
      Served text registry pending coordinate

variable {policy : ProjectionPolicy} {initial : CapabilityRegistry} {calls : List Call}

theorem open_of_construct (constructed : construct text sha256 isolatePolicy = .ok initial) :
    Open (performAll text sha256 initial calls) ∧
      ActiveValid text (performAll text sha256 initial calls) := by
  have steady : Steady text sha256 isolatePolicy (performAll text sha256 initial calls) :=
    performAll_induction (steady_of_construct constructed)
      (fun _ _ _ steady done => done.steady steady) calls
  refine ⟨⟨by rw [steady.configured]; rfl, ?_⟩, steady.valid⟩
  exact (resolved steady.resolution).excluded_eq_nil (by decide)

/-- The loop settles in every state that satisfies `validate_active`. -/
theorem exists_settles {errors : Dict String CapabilityHubError} (opened : Open registry)
    (active : ActiveValid text registry)
    (valid : registry.validateActive text sha256 registry.active = .ok ())
    (claimable : Claimable text sha256 registry pending) :
    ∃ outcome, activatePending text sha256 registry errors pending = .ok outcome ∧
      Settles text sha256 registry pending outcome ∧
      Looped text sha256 pending registry pending outcome := by
  have reached : Reached text sha256 registry registry := ⟨rfl, valid, active.registered⟩
  obtain ⟨outcome, done⟩ := reached.loops claimable
  have looped := activatePending_looped (List.Subset.refl _) done
  exact ⟨outcome, done, ⟨(reached.steps looped.steps).valid, looped.refused,
    fun determined mutable coordinate =>
      reached.active_iff_served determined opened mutable rfl claimable looped⟩, looped⟩

/-- The order of the pending manifests decides nothing. -/
theorem active_of_perm {pending' : List CapabilityManifest} {outcome outcome' : Activations}
    (opened : Open registry) (active : ActiveValid text registry)
    (valid : registry.validateActive text sha256 registry.active = .ok ())
    (determined : Determined registry) (claimable : Claimable text sha256 registry pending)
    (perm : pending.Perm pending') (looped : Looped text sha256 pending registry pending outcome)
    (looped' : Looped text sha256 pending' registry pending' outcome') (coordinate : String) :
    outcome'.registry.active.get? coordinate = outcome.registry.active.get? coordinate := by
  have reached : Reached text sha256 registry registry := ⟨rfl, valid, active.registered⟩
  cases frozen : registry.frozen with
  | true => rw [reached.still frozen looped.steps, reached.still frozen looped'.steps]
  | false =>
      have claimable' : Claimable text sha256 registry pending' := fun manifest member =>
        claimable manifest (perm.mem_iff.mpr member)
      have same : (∃ name, outcome'.registry.active.get? coordinate = some name) ↔
          ∃ name, outcome.registry.active.get? coordinate = some name := by
        rw [reached.active_iff_served determined opened frozen rfl claimable looped,
          reached.active_iff_served determined opened frozen rfl claimable' looped']
        exact ⟨Served.mono perm.symm.subset, Served.mono perm.subset⟩
      cases here : outcome.registry.active.get? coordinate with
      | none =>
          cases there : outcome'.registry.active.get? coordinate with
          | none => rfl
          | some name' =>
              obtain ⟨name, pointed⟩ := same.mp ⟨name', there⟩
              rw [here] at pointed
              cases pointed
      | some name =>
          obtain ⟨name', there⟩ := same.mpr ⟨name, here⟩
          have settled := reached.steps looped.steps
          obtain ⟨found, registered, own⟩ := settled.pointed coordinate name here
          rw [settled.revisions] at registered
          rw [there, (reached.steps looped'.steps).active_eq determined registered own there]

/-- Registrations activate nothing. -/
theorem active_performAll (registers : ∀ call ∈ calls, ∃ additions, call.registered = some additions) :
    (performAll text sha256 registry calls).active = registry.active := by
  induction calls generalizing registry with
  | nil => rfl
  | cons call calls ih =>
      obtain ⟨⟨additions, registered⟩, rest⟩ := List.forall_mem_cons.mp registers
      rw [performAll, List.foldl_cons, ← performAll, ih rest, stateAfter]
      cases done : perform text sha256 call registry with
      | error error final => rw [atomic_perform call registry error final done]
      | ok result final =>
          cases performed done with
          | registered => rfl
          | activated => cases registered
          | deactivated => cases registered
          | frozen => cases registered

/-- The registry that the monitor has only registered manifests in satisfies `validate_active`. -/
theorem validateActive_registered
    (constructed : construct text sha256 isolatePolicy = .ok initial)
    (registers : ∀ call ∈ calls, ∃ additions, call.registered = some additions) :
    (performAll text sha256 initial calls).validateActive text sha256
      (performAll text sha256 initial calls).active = .ok () := by
  have none : (performAll text sha256 initial calls).active = ∅ := by
    rw [active_performAll registers, construct_eq_ok.mp constructed]
    rfl
  have opened : Open (performAll text sha256 initial calls) ∧ ActiveValid text _ :=
    open_of_construct constructed
  refine validateActive_eq_ok.mpr ⟨fun coordinate name pointed => ?_, opened.2.consistent,
    (resolveActiveProjections_isolated opened.1.isolates).mpr fun coordinate name pointed => ?_⟩
  · rw [none] at pointed
    cases pointed
  · rw [none] at pointed
    cases pointed

/-- **Activating a catalog.** In every state of the monitor's registry that satisfies
`validate_active`, and for every catalog whose claims can be extracted, the loop over the pending
manifests ends and settles, in any order of a catalog without choices on the same activations. -/
theorem activatePending_settles (text : PythonText) (sha256 : Bytes → Bytes)
    (initial : CapabilityRegistry) (constructed : construct text sha256 isolatePolicy = .ok initial)
    (calls : List Call) (registry : CapabilityRegistry)
    (state : performAll text sha256 initial calls = registry)
    (valid : registry.validateActive text sha256 registry.active = .ok ())
    (inactiveCoordinates : List String) (updatePointers : Dict String String)
    (manifests : List CapabilityManifest) (claimable : Claimable text sha256 registry manifests) :
    ∃ outcome, activatePending text sha256 registry ∅
        (selectPending registry inactiveCoordinates updatePointers manifests) = .ok outcome ∧
      Settles text sha256 registry
        (selectPending registry inactiveCoordinates updatePointers manifests) outcome ∧
      (Determined registry → ∀ manifests', manifests.Perm manifests' →
        ∃ outcome', activatePending text sha256 registry ∅
            (selectPending registry inactiveCoordinates updatePointers manifests') = .ok outcome' ∧
          ∀ coordinate, outcome'.registry.active.get? coordinate =
            outcome.registry.active.get? coordinate) := by
  subst state
  obtain ⟨opened, active⟩ := open_of_construct constructed
  have among {manifests : List CapabilityManifest}
      (claimable : Claimable text sha256 (performAll text sha256 initial calls) manifests) :
      Claimable text sha256 (performAll text sha256 initial calls)
        (selectPending (performAll text sha256 initial calls) inactiveCoordinates updatePointers
          manifests) :=
    fun manifest member => claimable manifest (List.mem_of_mem_filter member)
  obtain ⟨outcome, done, settles, looped⟩ :=
    exists_settles opened active valid (among claimable)
  refine ⟨outcome, done, settles, fun determined manifests' perm => ?_⟩
  have claimable' : Claimable text sha256 (performAll text sha256 initial calls) manifests' :=
    fun manifest member => claimable manifest (perm.mem_iff.mpr member)
  obtain ⟨outcome', done', _, looped'⟩ := exists_settles opened active valid (among claimable')
  exact ⟨outcome', done', active_of_perm opened active valid determined (among claimable)
    (perm.filter _) looped looped'⟩

/-- A capability and the one it depends on are registered. -/
def catalogCalls : List Call :=
  [.registerMany [skill "a" "1" "x" [{ coordinate := "d/b" }], skill "b" "1" "y" []]]

theorem activatePending_settles_dependent : ∃ outcome, activatePending asciiText id
    (performAll asciiText id (emptyRegistry isolatePolicy) catalogCalls) ∅
      (selectPending (performAll asciiText id (emptyRegistry isolatePolicy) catalogCalls) [] ∅
        [skill "a" "1" "x" [{ coordinate := "d/b" }], skill "b" "1" "y" []]) = .ok outcome ∧
    Settles asciiText id (performAll asciiText id (emptyRegistry isolatePolicy) catalogCalls)
      (selectPending (performAll asciiText id (emptyRegistry isolatePolicy) catalogCalls) [] ∅
        [skill "a" "1" "x" [{ coordinate := "d/b" }], skill "b" "1" "y" []]) outcome := by
  have registers : ∀ call ∈ catalogCalls, ∃ additions, call.registered = some additions := by
    intro call member
    rw [List.mem_singleton.mp member]
    exact ⟨_, rfl⟩
  have claims : ∀ manifest ∈ [skill "a" "1" "x" [{ coordinate := "d/b" }], skill "b" "1" "y" []],
      (((performAll asciiText id (emptyRegistry isolatePolicy) catalogCalls).revisions.get?
        manifest.identity.revision).all fun found =>
          (extractProjectionClaims asciiText id found).toOption.isSome) = true := by
    decide +kernel
  obtain ⟨outcome, done, settles, _⟩ := activatePending_settles asciiText id _ construct_eq
    catalogCalls _ rfl (validateActive_registered construct_eq registers) [] ∅
    [skill "a" "1" "x" [{ coordinate := "d/b" }], skill "b" "1" "y" []]
    fun manifest member found registered => by
      have checked := claims manifest member
      rw [registered, Option.all_some] at checked
      cases extracted : extractProjectionClaims asciiText id found with
      | ok claims => exact ⟨claims, rfl⟩
      | error raised =>
          rw [extracted] at checked
          cases checked
  exact ⟨outcome, done, settles⟩

end CapabilityHub.Registry
