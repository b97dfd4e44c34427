import CapabilityHub.Authorization.Grants

/-! # What an intersection grants

Of the constraints of an accepted document, those of a file system have roots and nothing else, and
the others have no roots. An intersection of the others is that of their sets, in any order.
-/

namespace CapabilityHub.Authorization

variable {platform : Platform} {permission : String} {constraint : PermissionConstraint String}
  {normal : PermissionConstraint PurePath}

/-! ## Constraints in their normal form -/

@[simp] theorem isPopulated_roots {values : List PurePath} :
    (FieldValue.roots values).isPopulated = (values ≠ [] : Bool) := rfl

@[simp] theorem isPopulated_names {values : Finset String} :
    (FieldValue.names values).isPopulated = (values ≠ ∅ : Bool) := rfl

/-- A constraint of a file system has roots and nothing else. -/
theorem checkCategory_filesystem : checkCategory .filesystem normal = .ok () ↔
    normal.pathRoots ≠ [] ∧ normal = { pathRoots := normal.pathRoots } := by
  obtain ⟨roots, hosts, methods, commands, profiles, aliases⟩ := normal
  simp only [checkCategory, bind_eq_ok, raiseIf_eq_ok, exists_unit, not_not]
  by_cases none : roots = []
  · simp [none]
  by_cases hosts = ∅ <;> by_cases methods = ∅ <;> by_cases commands = ∅ <;>
    by_cases profiles = ∅ <;> by_cases aliases = ∅ <;> simp [*]

theorem pathRoots_of_checkCategory {category : PermissionCategory} (other : category ≠ .filesystem)
    (checked : checkCategory category normal = .ok ()) : normal.pathRoots = [] := by
  by_contra populated
  simp only [checkCategory, bind_eq_ok, raiseIf_eq_ok, exists_unit, not_not] at checked
  have first := congrArg List.head? checked.2
  cases category <;> simp [populated] at first other

theorem checkAll_empty {check : String → Option String} : checkAll check ∅ = .ok ∅ := by
  simp [checkAll, raiseIf, ok_bind]

theorem eq_empty_of_checkAll {check : String → Option String} {values : Finset String}
    (checked : checkAll check values = .ok ∅) : values = ∅ := by
  obtain ⟨_, fine, same⟩ := bind_eq_ok.mp checked
  refine Finset.eq_empty_of_forall_notMem fun value member => ?_
  cases result : check value with
  | none => exact raiseIf_eq_ok.mp fine ⟨value, member, result⟩
  | some kept =>
      have inside : kept ∈ values.biUnion fun value => (check value).toFinset :=
        Finset.mem_biUnion.mpr ⟨value, member, by simp [result]⟩
      rw [Except.ok.inj same] at inside
      exact absurd inside (Finset.notMem_empty kept)

theorem mem_supported_of_filesystem (filesystem : permission ∈ filesystemPermissions) :
    permission ∈ supportedPermissions := by
  simp only [supportedPermissions, Finset.mem_union]
  tauto

theorem permissionCategory_eq_filesystem :
    permissionCategory permission = .filesystem ↔ permission ∈ filesystemPermissions := by
  unfold permissionCategory
  split
  next member => simp [member]
  next other =>
    simp only [other, iff_false]
    repeat' split
    all_goals exact fun same => by cases same

/-- The roots of a constraint of another permission are none. -/
theorem pathRoots_of_normalizedGrant (other : permission ∉ filesystemPermissions)
    (normalized : ParameterAuthorizer.normalizedGrant platform permission constraint = .ok normal) :
    constraint.pathRoots = [] ∧ normal.pathRoots = [] := by
  simp only [ParameterAuthorizer.normalizedGrant, normalizeConstraint, bind_eq_ok, raiseIf_eq_ok,
    exists_unit] at normalized
  obtain ⟨_, roots, resolved, hosts, _, commands, _, profiles, _, aliases, _, _, checked, same⟩ :=
    normalized
  cases same
  have none := pathRoots_of_checkCategory (mt permissionCategory_eq_filesystem.mp other) checked
  cases none
  exact ⟨List.length_eq_zero_iff.mp (length_mapM resolved).symm, rfl⟩

/-- A constraint of a file system is kept where it has roots and nothing else, and each can be
resolved. -/
theorem normalizedGrant_filesystem (filesystem : permission ∈ filesystemPermissions) :
    ParameterAuthorizer.normalizedGrant platform permission constraint = .ok normal ↔
      constraint.pathRoots ≠ [] ∧ constraint = { pathRoots := constraint.pathRoots } ∧
        constraint.pathRoots.mapM (root platform) = .ok normal.pathRoots ∧
        normal = { pathRoots := normal.pathRoots } := by
  have category := permissionCategory_eq_filesystem.mpr filesystem
  have supported := mem_supported_of_filesystem filesystem
  simp only [ParameterAuthorizer.normalizedGrant, normalizeConstraint, bind_eq_ok, raiseIf_eq_ok,
    exists_unit, category, checkCategory_filesystem, not_not, supported, true_and]
  constructor
  · rintro ⟨roots, resolved, hosts, hosts', commands, commands', profiles, profiles', aliases,
      aliases', _, ⟨some, only⟩, same⟩
    cases same
    simp only [PermissionConstraint.mk.injEq, true_and] at only
    obtain ⟨rfl, noMethods, rfl, rfl, rfl⟩ := only
    have given : constraint = { pathRoots := constraint.pathRoots } := by
      obtain ⟨given, givenHosts, givenMethods, givenCommands, givenProfiles, givenAliases⟩ := constraint
      obtain rfl := eq_empty_of_checkAll hosts'
      obtain rfl := Finset.image_eq_empty.mp noMethods
      obtain rfl := eq_empty_of_checkAll commands'
      obtain rfl := eq_empty_of_checkAll profiles'
      obtain rfl := eq_empty_of_checkAll aliases'
      rfl
    refine ⟨fun none => some ?_, given, resolved, ?_⟩
    · rw [none] at resolved
      exact (pure_eq_ok.mp resolved).symm
    · rw [noMethods]
  · rintro ⟨some, only, resolved, same⟩
    rw [only, same]
    refine ⟨normal.pathRoots, resolved, ∅, checkAll_empty, ∅, checkAll_empty, ∅, checkAll_empty, ∅,
      checkAll_empty, Finset.empty_subset _, ⟨fun none => some ?_, rfl⟩, rfl⟩
    rw [none] at resolved
    exact List.length_eq_zero_iff.mp (length_mapM resolved).symm

/-! ## Intersections -/

variable {items items' : List (PermissionConstraint String)} {first : PermissionConstraint String}
  {rest : List (PermissionConstraint String)}

/-- Each of the constraints has a root that the path is below. -/
def survives (items : List (PermissionConstraint String)) (root : String) : Bool :=
  ∀ item ∈ items, ∃ candidate ∈ item.pathRoots,
    (PurePath.parse root).isRelativeTo (PurePath.parse candidate)

/-- The names that a field has in all the constraints. -/
def common (field : PermissionConstraint String → Finset String) :
    List (PermissionConstraint String) → Finset String
  | [] => ∅
  | first :: rest => rest.foldl (fun values item => values ∩ field item) (field first)

/-- What the constraints have in common apart from roots. -/
def shared (items : List (PermissionConstraint String)) : PermissionConstraint String where
  hosts := common (·.hosts) items
  httpMethods := common (·.httpMethods) items
  commands := common (·.commands) items
  profiles := common (·.profiles) items
  secretAliases := common (·.secretAliases) items

/-- What is left of the roots of one constraint. -/
def survivors (items : List (PermissionConstraint String)) (first : PermissionConstraint String) :
    List String :=
  first.pathRoots.filter (survives items)

/-- What the first of the constraints makes of all of them. -/
def merged (items : List (PermissionConstraint String)) (first : PermissionConstraint String) :
    PermissionConstraint String :=
  { shared items with pathRoots := survivors items first }

theorem isRelativeTo_self (path : PurePath) : path.isRelativeTo path :=
  decide_eq_true ⟨rfl, List.prefix_refl _⟩

theorem survives_cons {root : String} (member : root ∈ first.pathRoots) :
    survives (first :: rest) root = survives rest root := by
  have here : ∃ candidate ∈ first.pathRoots,
      (PurePath.parse root).isRelativeTo (PurePath.parse candidate) :=
    ⟨root, member, isRelativeTo_self _⟩
  exact decide_eq_decide.mpr (by rw [List.forall_mem_cons]; exact and_iff_right here)

theorem intersect_cons : intersect platform permission (first :: rest) =
    match ParameterAuthorizer.normalizedGrant platform permission (merged (first :: rest) first) with
    | .ok _ => .ok (some (merged (first :: rest) first))
    | .error .valueError => .ok none
    | .error fault => .error fault := by
  have left : first.pathRoots.filter (survives rest) = survivors (first :: rest) first :=
    List.filter_congr fun root member => (survives_cons member).symm
  rw [merged, ← left]
  rfl

theorem mem_common {field : PermissionConstraint String → Finset String} {value : String}
    (some : items ≠ []) : value ∈ common field items ↔ ∀ item ∈ items, value ∈ field item := by
  cases items with
  | nil => exact absurd rfl some
  | cons first rest =>
      rw [common, List.forall_mem_cons]
      generalize field first = values
      induction rest generalizing values with
      | nil => simp
      | cons second rest ih =>
          rw [List.foldl_cons, ih (List.cons_ne_nil _ _), Finset.mem_inter, List.forall_mem_cons,
            and_assoc]

theorem shared_perm (perm : items.Perm items') : shared items = shared items' := by
  have same : ∀ field, common field items = common field items' := by
    intro field
    by_cases none : items = []
    · subst none
      rw [List.nil_perm.mp perm]
    · have none' : items' ≠ [] := fun none' => none (List.perm_nil.mp (none' ▸ perm))
      ext value
      rw [mem_common none, mem_common none']
      exact forall_congr' fun item => imp_congr_left perm.mem_iff
  simp only [shared, same]

theorem survives_perm (perm : items.Perm items') : survives items = survives items' := by
  funext root
  exact decide_eq_decide.mpr (forall_congr' fun item => imp_congr_left perm.mem_iff)

theorem intersect_of_kept (kept : ParameterAuthorizer.normalizedGrant platform permission
      (merged (first :: rest) first) = .ok normal) :
    intersect platform permission (first :: rest) = .ok (some (merged (first :: rest) first)) := by
  rw [intersect_cons, kept]

theorem intersect_of_refused (refused : ParameterAuthorizer.normalizedGrant platform permission
      (merged (first :: rest) first) = .error .valueError) :
    intersect platform permission (first :: rest) = .ok none := by
  rw [intersect_cons, refused]

theorem raises_checkAll {check : String → Option String} {values : Finset String} :
    ∀ fault, checkAll check values = .error fault → fault = .valueError :=
  raises_bind (raises_raiseIf rfl) fun _ _ failed => by cases failed

/-- Without roots, only a value can be wrong. -/
theorem raises_normalizedGrant (rootless : constraint.pathRoots = []) :
    ∀ fault, ParameterAuthorizer.normalizedGrant platform permission constraint = .error fault →
      fault = .valueError := by
  refine raises_bind (raises_raiseIf rfl) fun _ => ?_
  unfold normalizeConstraint
  rw [rootless]
  refine raises_bind (fun _ failed => by cases failed) fun _ => ?_
  refine raises_bind raises_checkAll fun _ => ?_
  refine raises_bind raises_checkAll fun _ => ?_
  refine raises_bind raises_checkAll fun _ => ?_
  refine raises_bind raises_checkAll fun _ => ?_
  refine raises_bind (raises_raiseIf rfl) fun _ => ?_
  refine raises_bind ?_ fun _ _ failed => by cases failed
  exact raises_bind (raises_raiseIf rfl) fun _ => raises_raiseIf rfl

/-- Constraints of a file system grant what is left of the roots of the first. -/
theorem intersect_filesystem (filesystem : permission ∈ filesystemPermissions)
    (kept : ∀ item ∈ first :: rest, ∃ normal,
      ParameterAuthorizer.normalizedGrant platform permission item = .ok normal) :
    (survivors (first :: rest) first = [] ∧
      intersect platform permission (first :: rest) = .ok none) ∨
    survivors (first :: rest) first ≠ [] ∧ ∃ roots,
      (survivors (first :: rest) first).mapM (root platform) = .ok roots ∧
      intersect platform permission (first :: rest) = .ok (some (merged (first :: rest) first)) ∧
      ParameterAuthorizer.normalizedGrant platform permission (merged (first :: rest) first) =
        .ok { pathRoots := roots } := by
  have nothing : shared (first :: rest) = {} := by
    have empty : ∀ field : PermissionConstraint String → Finset String,
        (∀ roots, field { pathRoots := roots } = ∅) → common field (first :: rest) = ∅ := by
      intro field blank
      refine Finset.eq_empty_of_forall_notMem fun value member => ?_
      obtain ⟨normal, normalized⟩ := kept first List.mem_cons_self
      have here := (mem_common (List.cons_ne_nil _ _)).mp member first List.mem_cons_self
      rw [((normalizedGrant_filesystem filesystem).mp normalized).2.1, blank] at here
      exact Finset.notMem_empty value here
    simp only [shared, empty, implies_true]
  have shape : merged (first :: rest) first = { pathRoots := survivors (first :: rest) first } := by
    rw [merged, nothing]
  obtain ⟨normal, normalized⟩ := kept first List.mem_cons_self
  have resolved := ((normalizedGrant_filesystem filesystem).mp normalized).2.2.1
  obtain ⟨roots, done⟩ : ∃ roots,
      (survivors (first :: rest) first).mapM (root platform) = .ok roots := by
    refine exists_mapM_eq_ok.mpr fun root member => ?_
    exact exists_mapM_eq_ok.mp ⟨_, resolved⟩ root (List.mem_filter.mp member).1
  by_cases none : survivors (first :: rest) first = []
  · refine .inl ⟨none, intersect_of_refused ?_⟩
    have refused : ∀ normal, ParameterAuthorizer.normalizedGrant platform permission
        (merged (first :: rest) first) ≠ .ok normal := by
      intro normal kept
      refine ((normalizedGrant_filesystem filesystem).mp kept).1 ?_
      rw [shape]
      exact none
    cases outcome : ParameterAuthorizer.normalizedGrant platform permission
        (merged (first :: rest) first) with
    | ok normal => exact absurd outcome (refused normal)
    | error fault =>
        have rootless : (merged (first :: rest) first).pathRoots = [] := by
          rw [shape]
          exact none
        rw [raises_normalizedGrant rootless fault outcome]
  · have normal : ParameterAuthorizer.normalizedGrant platform permission
        (merged (first :: rest) first) = .ok { pathRoots := roots } := by
      rw [normalizedGrant_filesystem filesystem, shape]
      exact ⟨none, rfl, done, rfl⟩
    exact .inr ⟨none, roots, done, intersect_of_kept normal, normal⟩

/-- What the constraints together grant, in its normal form. -/
def combined (platform : Platform) (permission : String)
    (items : List (PermissionConstraint String)) : Option (PermissionConstraint PurePath) :=
  match intersect platform permission items with
  | .ok (some constraint) =>
      (ParameterAuthorizer.normalizedGrant platform permission constraint).toOption
  | _ => none

theorem normalizedGrant_of_intersect
    (done : intersect platform permission items = .ok (some constraint)) :
    ∃ normal, ParameterAuthorizer.normalizedGrant platform permission constraint = .ok normal := by
  cases items with
  | nil => cases done
  | cons first rest =>
      rw [intersect_cons] at done
      cases outcome : ParameterAuthorizer.normalizedGrant platform permission
          (merged (first :: rest) first) with
      | ok normal =>
          rw [outcome] at done
          cases done
          exact ⟨normal, outcome⟩
      | error fault =>
          rw [outcome] at done
          cases fault <;> cases done

theorem combined_eq_some : combined platform permission items = some normal ↔
    ∃ constraint, intersect platform permission items = .ok (some constraint) ∧
      ParameterAuthorizer.normalizedGrant platform permission constraint = .ok normal := by
  refine ⟨fun found => ?_, fun found => ?_⟩
  · rw [combined] at found
    split at found
    next constraint done =>
      obtain ⟨normal', kept⟩ := normalizedGrant_of_intersect done
      rw [kept] at found
      cases found
      exact ⟨constraint, done, kept⟩
    next => cases found
  · obtain ⟨constraint, done, kept⟩ := found
    rw [combined, done]
    change (ParameterAuthorizer.normalizedGrant platform permission constraint).toOption = _
    rw [kept]
    rfl

/-- Constraints that an authorizer takes can be intersected. -/
theorem intersect_total (kept : ∀ item ∈ items, ∃ normal,
      ParameterAuthorizer.normalizedGrant platform permission item = .ok normal) :
    ∃ result, intersect platform permission items = .ok result := by
  cases items with
  | nil => exact ⟨none, rfl⟩
  | cons first rest =>
      by_cases filesystem : permission ∈ filesystemPermissions
      · rcases intersect_filesystem filesystem kept with ⟨_, done⟩ | ⟨_, _, _, done, _⟩
        · exact ⟨_, done⟩
        · exact ⟨_, done⟩
      · obtain ⟨normal, normalized⟩ := kept first List.mem_cons_self
        have rootless : (merged (first :: rest) first).pathRoots = [] := by
          change first.pathRoots.filter _ = []
          rw [(pathRoots_of_normalizedGrant filesystem normalized).1]
          rfl
        cases outcome : ParameterAuthorizer.normalizedGrant platform permission
            (merged (first :: rest) first) with
        | ok normal => exact ⟨_, intersect_of_kept outcome⟩
        | error fault =>
            obtain rfl := raises_normalizedGrant rootless fault outcome
            exact ⟨_, intersect_of_refused outcome⟩

end CapabilityHub.Authorization
