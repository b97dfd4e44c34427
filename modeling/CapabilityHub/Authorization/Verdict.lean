import CapabilityHub.Authorization.Granting
import CapabilityHub.Data.FirstOf

/-! # What an authorization comes to

The permissions of a file system are granted below the roots of the first manifest that declares
them, as far as these lie below a root of each of the others. Where nothing else refuses a call, the
first manifests of these permissions decide it.
-/

namespace CapabilityHub.Authorization

variable {platform : Platform} {granted granted' : String → PermissionConstraint PurePath}
  {required permissions : Finset String} {arguments : List (String × Json)}

/-! ## Reasons -/

theorem orderedReasons_eq_nil {reasons : List String} : orderedReasons reasons = [] ↔ reasons = [] := by
  refine ⟨fun none => ?_, fun none => by rw [none]; rfl⟩
  refine List.eq_nil_iff_forall_not_mem.mpr fun reason member => ?_
  have inside : reason ∈ orderedReasons reasons :=
    (mem_sortedBy _).mpr (List.mem_dedup.mpr member)
  rw [none] at inside
  exact List.not_mem_nil inside

/-- What the arguments ask of a file system, as far as anything does. -/
def asked (platform : Platform) (arguments : List (String × Json)) : PathArgument :=
  pathArgument platform (arguments.lookup "path")

/-- The path is below a root of each permission. -/
def Inside (granted : String → PermissionConstraint PurePath) (permissions : Finset String)
    (path : PurePath) : Prop :=
  ∀ permission ∈ permissions, ∃ root ∈ (granted permission).pathRoots, path.isRelativeTo root

/-- A file system is asked for something, and reading the path raises. -/
def Failing (platform : Platform) (required : Finset String) (arguments : List (String × Json))
    (fault : Fault) : Prop :=
  required ∩ filesystemPermissions ≠ ∅ ∧ asked platform arguments = .failed fault

theorem argumentReasons_of_failing {fault : Fault}
    (failing : Failing platform required arguments fault) :
    argumentReasons platform granted required arguments = .error fault := by
  have failed : pathArgument platform (arguments.lookup "path") = .failed fault := failing.2
  rw [argumentReasons, if_neg failing.1, pathReasons, failed]
  rfl

theorem argumentReasons_of_reading (reading : ∀ fault, ¬Failing platform required arguments fault) :
    ∃ reasons, argumentReasons platform granted required arguments = .ok reasons ∧
      (reasons = [] ↔ declarationReasons platform required arguments = [] ∧
        valueReasons platform granted required arguments = [] ∧
        (required ∩ filesystemPermissions = ∅ ∨ ∃ path, asked platform arguments = .selected path ∧
          Inside granted (required ∩ filesystemPermissions) path)) := by
  by_cases nothing : required ∩ filesystemPermissions = ∅
  · refine ⟨_, by rw [argumentReasons, if_pos nothing]; rfl, ?_⟩
    simp [orderedReasons_eq_nil, nothing]
  · have paths : ∃ reasons, pathReasons platform granted (required ∩ filesystemPermissions)
        (arguments.lookup "path") = .ok reasons ∧ (reasons = [] ↔ ∃ path,
          asked platform arguments = .selected path ∧
            Inside granted (required ∩ filesystemPermissions) path) := by
      have other : ∀ fault, asked platform arguments ≠ .failed fault :=
        fun fault failed => reading fault ⟨nothing, failed⟩
      rw [pathReasons]
      unfold asked at other ⊢
      cases found : pathArgument platform (arguments.lookup "path") with
      | refused reason => exact ⟨[reason], rfl, by simp⟩
      | failed fault => exact absurd found (other fault)
      | selected path =>
          by_cases inside : Inside granted (required ∩ filesystemPermissions) path
          · exact ⟨[], if_pos inside, by simp [inside]⟩
          · exact ⟨_, if_neg inside, by simp [inside]⟩
    obtain ⟨reasons, done, none⟩ := paths
    refine ⟨_, by rw [argumentReasons, if_neg nothing, done]; rfl, ?_⟩
    rw [orderedReasons_eq_nil, List.append_eq_nil_iff, List.append_eq_nil_iff, none]
    simp only [nothing, false_or]
    tauto

/-- The reasons apart from the path do not depend on the roots. -/
theorem valueReasons_congr (same : ∀ permission ∈ required, permission ∉ filesystemPermissions →
      granted permission = granted' permission) :
    valueReasons platform granted required arguments =
      valueReasons platform granted' required arguments := by
  have among : ∀ group : Finset String, Disjoint group filesystemPermissions →
      ∀ permission ∈ required ∩ group, granted permission = granted' permission := by
    intro group apart permission member
    obtain ⟨inside, grouped⟩ := Finset.mem_inter.mp member
    exact same permission inside (Finset.disjoint_left.mp apart grouped)
  have any : ∀ (group : Finset String) (field : PermissionConstraint PurePath → Finset String)
      (value : String), Disjoint group filesystemPermissions →
      ((∃ name ∈ required ∩ group, value ∉ field (granted name)) ↔
        ∃ name ∈ required ∩ group, value ∉ field (granted' name)) := by
    intro group field value apart
    exact exists_congr fun name => and_congr_right fun member => by
      rw [among group apart name member]
  have network := any networkPermissions
  have process := any processPermissions
  have secret := any secretPermissions
  have apart : Disjoint networkPermissions filesystemPermissions ∧
      Disjoint processPermissions filesystemPermissions ∧
      Disjoint secretPermissions filesystemPermissions := by decide
  simp only [valueReasons, networkReasons, processReasons, secretReasons,
    network (·.hosts) _ apart.1, network (·.httpMethods) _ apart.1,
    process (·.commands) _ apart.2.1, process (·.profiles) _ apart.2.1,
    secret (·.secretAliases) _ apart.2.2]

namespace ParameterAuthorizer

variable {authorizer : ParameterAuthorizer} {manifest : CapabilityManifest}
  {dependencies : List CapabilityManifest}

/-- An authorization goes on to the arguments where every permission is granted. -/
theorem allowed_authorize :
    (authorizer.authorize platform manifest dependencies arguments).map (·.allowed) =
      if ParameterAuthorizer.required (manifest :: dependencies) ⊆ supportedPermissions ∧
          ParameterAuthorizer.required (manifest :: dependencies) ⊆ authorizer.grants.keys.toFinset then
        (argumentReasons platform authorizer.granted
          (ParameterAuthorizer.required (manifest :: dependencies)) arguments).map List.isEmpty
      else .ok false := by
  unfold authorize ParameterAuthorizer.decide
  generalize ParameterAuthorizer.required (manifest :: dependencies) = required
  have empty : ∀ reasons, (orderedReasons reasons = [] : Bool) = reasons.isEmpty := by
    intro reasons
    rw [decide_eq_decide.mpr orderedReasons_eq_nil, Bool.eq_iff_iff, decide_eq_true_iff,
      List.isEmpty_iff]
  by_cases supported : required ⊆ supportedPermissions
  · by_cases held : required ⊆ authorizer.grants.keys.toFinset
    · rw [if_pos ⟨supported, held⟩]
      simp only [Finset.sdiff_eq_empty_iff_subset, supported, held, if_true, List.append_nil,
        List.nil_append]
      cases argumentReasons platform authorizer.granted required arguments with
      | ok reasons => exact congrArg Except.ok (empty reasons)
      | error fault => rfl
    · rw [if_neg fun both => held both.2]
      simp only [Finset.sdiff_eq_empty_iff_subset, supported, held, if_true, if_false,
        List.nil_append, List.cons_ne_nil]
      exact congrArg Except.ok (empty (["permission_not_granted"] ++ []))
  · rw [if_neg fun both => supported both.1]
    simp only [Finset.sdiff_eq_empty_iff_subset, supported, if_false, List.cons_append,
      List.nil_append, List.cons_ne_nil]
    exact congrArg Except.ok (empty _)

end ParameterAuthorizer

namespace PrincipalPolicyAuthorizer

variable {providers : ProviderGrants} {permission : String} {manifest : CapabilityManifest}
  {manifests manifests' dependencies : List CapabilityManifest}

/-! ## What depends on the order -/

/-- The permissions of a file system that a manifest declares. -/
def filesystemOf (manifest : CapabilityManifest) : List String :=
  manifest.permissions.filter (· ∈ filesystemPermissions)

/-- What is left of the roots of a manifest where it comes first. -/
def rootsOf (providers : ProviderGrants) (manifests : List CapabilityManifest) (permission : String)
    (manifest : CapabilityManifest) : List String :=
  ((constraintOf providers manifest permission).map
    (survivors (items providers manifests permission))).getD []

/-- Where the manifest comes first, some of its roots are left, and the path, if one is read, is
below one of them. -/
def Covers (platform : Platform) (providers : ProviderGrants) (manifests : List CapabilityManifest)
    (arguments : List (String × Json)) (permission : String) (manifest : CapabilityManifest) : Prop :=
  rootsOf providers manifests permission manifest ≠ [] ∧
    ∀ path, asked platform arguments = .selected path →
      ∃ text ∈ rootsOf providers manifests permission manifest,
        ∃ kept, root platform text = .ok kept ∧ path.isRelativeTo kept

/-- The constraint of a permission that has no roots: what all the constraints have in common. -/
def rootless (platform : Platform) (providers : ProviderGrants)
    (manifests : List CapabilityManifest) (permission : String) :
    Option (PermissionConstraint PurePath) :=
  (ParameterAuthorizer.normalizedGrant platform permission
    (shared (items providers manifests permission))).toOption

/-- Nothing but the roots of a file system can refuse the call. -/
structure Passes (platform : Platform) (providers : ProviderGrants)
    (manifests : List CapabilityManifest) (arguments : List (String × Json)) : Prop where
  supported : ParameterAuthorizer.required manifests ⊆ supportedPermissions
  granted : ∀ permission ∈ ParameterAuthorizer.required manifests,
    ¬Lacking providers manifests permission
  common : ∀ permission ∈ ParameterAuthorizer.required manifests,
    permission ∉ filesystemPermissions →
      ∃ normal, rootless platform providers manifests permission = some normal
  arguments : (∃ fault, Failing platform (ParameterAuthorizer.required manifests) arguments fault) ∨
    declarationReasons platform (ParameterAuthorizer.required manifests) arguments = [] ∧
      valueReasons platform
        (fun permission => (rootless platform providers manifests permission).getD {})
        (ParameterAuthorizer.required manifests) arguments = [] ∧
      (ParameterAuthorizer.required manifests ∩ filesystemPermissions = ∅ ∨
        ∃ path, asked platform arguments = .selected path)

theorem mem_required : permission ∈ ParameterAuthorizer.required manifests ↔
    ∃ manifest ∈ manifests, permission ∈ manifest.permissions := by
  rw [ParameterAuthorizer.required, List.mem_toFinset, List.mem_flatMap]

theorem mem_filesystemOf : permission ∈ filesystemOf manifest ↔
    permission ∈ manifest.permissions ∧ permission ∈ filesystemPermissions := by
  rw [filesystemOf, List.mem_filter, decide_eq_true_eq]

/-- A permission that no provider lacks has a constraint of every manifest that declares it. -/
theorem constraintOf_of_held (held : ¬Lacking providers manifests permission)
    (member : manifest ∈ manifests) (declares : permission ∈ manifest.permissions) :
    ∃ constraint, constraintOf providers manifest permission = some constraint := by
  cases found : constraintOf providers manifest permission with
  | none => exact absurd ⟨manifest, member, declares, found⟩ held
  | some constraint => exact ⟨constraint, rfl⟩

/-- The constraints of a permission begin with that of the first manifest that declares it. -/
theorem items_of_first (filesystem : permission ∈ filesystemPermissions)
    (first : firstOf filesystemOf manifests permission = some manifest)
    {constraint : PermissionConstraint String}
    (granted : constraintOf providers manifest permission = some constraint) :
    ∃ rest, items providers manifests permission = constraint :: rest := by
  induction manifests with
  | nil => cases first
  | cons head tail ih =>
      have split : items providers (head :: tail) permission =
          (head.permissions.map (head, ·)).filterMap (item? providers permission) ++
            items providers tail permission := by
        rw [items, declared, List.flatMap_cons, List.filterMap_append]
        rfl
      rw [split]
      by_cases declares : permission ∈ head.permissions
      · rw [firstOf_cons (mem_filesystemOf.mpr ⟨declares, filesystem⟩)] at first
        obtain rfl := Option.some.inj first
        have each : ∀ item ∈ (head.permissions.map (head, ·)).filterMap (item? providers permission),
            item = constraint := by
          intro item member
          obtain ⟨entry, inside, found⟩ := List.mem_filterMap.mp member
          obtain ⟨name, _, rfl⟩ := List.mem_map.mp inside
          rw [item?, Option.ite_none_right_eq_some] at found
          exact Option.some.inj (found.2.symm.trans granted)
        have here : constraint ∈
            (head.permissions.map (head, ·)).filterMap (item? providers permission) :=
          List.mem_filterMap.mpr ⟨(head, permission), List.mem_map_of_mem declares, by
            rw [item?, if_pos rfl, granted]⟩
        cases listed : (head.permissions.map (head, ·)).filterMap (item? providers permission) with
        | nil =>
            rw [listed] at here
            exact absurd here List.not_mem_nil
        | cons item rest =>
            rw [listed] at each
            exact ⟨rest ++ items providers tail permission, by
              rw [each item List.mem_cons_self, List.cons_append]⟩
      · have nothing : (head.permissions.map (head, ·)).filterMap (item? providers permission) = [] := by
          refine List.eq_nil_iff_forall_not_mem.mpr fun item member => ?_
          obtain ⟨entry, inside, found⟩ := List.mem_filterMap.mp member
          obtain ⟨name, name', rfl⟩ := List.mem_map.mp inside
          rw [item?, Option.ite_none_right_eq_some] at found
          exact declares (found.1 ▸ name')
        rw [nothing, List.nil_append]
        refine ih ?_
        have unserved : ¬∃ item ∈ [head], permission ∈ filesystemOf item := by
          intro found
          obtain ⟨item, member, serves⟩ := found
          rw [List.mem_singleton.mp member] at serves
          exact declares (mem_filesystemOf.mp serves).1
        rw [← firstOf_append_of_unserved unserved]
        exact first

theorem combined_rootless (accepted : Accepted platform providers)
    (other : permission ∉ filesystemPermissions)
    (held : ¬Lacking providers manifests permission)
    (among : permission ∈ ParameterAuthorizer.required manifests) :
    combined platform permission (items providers manifests permission) =
      rootless platform providers manifests permission := by
  obtain ⟨manifest, member, declares⟩ := mem_required.mp among
  obtain ⟨constraint, granted⟩ := constraintOf_of_held held member declares
  have inside : constraint ∈ items providers manifests permission :=
    mem_items.mpr ⟨manifest, member, declares, granted⟩
  have kept := @Accepted.items _ _ permission manifests accepted
  rw [combined, rootless]
  cases listed : items providers manifests permission with
  | nil =>
      rw [listed] at inside
      exact absurd inside List.not_mem_nil
  | cons first rest =>
      rw [listed] at kept
      obtain ⟨normal, normalized⟩ := kept first List.mem_cons_self
      have same : merged (first :: rest) first = shared (first :: rest) := by
        rw [merged, survivors, (pathRoots_of_normalizedGrant other normalized).1]
        rfl
      rw [intersect_cons, same]
      cases outcome : ParameterAuthorizer.normalizedGrant platform permission
          (shared (first :: rest)) with
      | ok normal =>
          change (ParameterAuthorizer.normalizedGrant platform permission
            (shared (first :: rest))).toOption = _
          rw [outcome]
      | error fault =>
          obtain rfl := raises_normalizedGrant rfl fault outcome
          rfl

/-- Where the first manifest that declares a permission covers the path, the permission is granted
below the roots that are left of that manifest. -/
theorem combined_filesystem (accepted : Accepted platform providers)
    (filesystem : permission ∈ filesystemPermissions)
    (first : firstOf filesystemOf manifests permission = some manifest)
    (held : ¬Lacking providers manifests permission) :
    (rootsOf providers manifests permission manifest = [] ∧
      combined platform permission (items providers manifests permission) = none) ∨
    rootsOf providers manifests permission manifest ≠ [] ∧ ∃ roots,
      (rootsOf providers manifests permission manifest).mapM (root platform) = .ok roots ∧
      combined platform permission (items providers manifests permission) =
        some { pathRoots := roots } := by
  obtain ⟨member, serves⟩ := firstOf_eq_some first
  obtain ⟨constraint, granted⟩ := constraintOf_of_held held member (mem_filesystemOf.mp serves).1
  obtain ⟨rest, listed⟩ := items_of_first filesystem first granted
  have left : rootsOf providers manifests permission manifest =
      survivors (constraint :: rest) constraint := by
    rw [rootsOf, granted, listed]
    rfl
  have kept := @Accepted.items _ _ permission manifests accepted
  rw [listed] at kept ⊢
  rw [left]
  rcases intersect_filesystem filesystem kept with ⟨none, done⟩ | ⟨some, roots, resolved, done, normal⟩
  · exact .inl ⟨none, by rw [combined, done]⟩
  · exact .inr ⟨some, roots, resolved, combined_eq_some.mpr ⟨_, done, normal⟩⟩

/-! ## What an authorization comes to -/

/-- The authorizer grants what the manifests have in common. -/
def Grants (platform : Platform) (providers : ProviderGrants) (manifests : List CapabilityManifest)
    (authorizer : ParameterAuthorizer) : Prop :=
  ∀ permission normal, authorizer.grants.get? permission = some normal ↔
    ¬Lacking providers manifests permission ∧
      combined platform permission (items providers manifests permission) = some normal

variable {authorizer : ParameterAuthorizer}

theorem exists_first (among : permission ∈ ParameterAuthorizer.required manifests)
    (filesystem : permission ∈ filesystemPermissions) :
    ∃ first, firstOf filesystemOf manifests permission = some first := by
  obtain ⟨manifest, member, declares⟩ := mem_required.mp among
  exact exists_firstOf ⟨manifest, member, mem_filesystemOf.mpr ⟨declares, filesystem⟩⟩

theorem Grants.rootless (accepted : Accepted platform providers)
    (grants : Grants platform providers manifests authorizer)
    (held : ¬Lacking providers manifests permission)
    (among : permission ∈ ParameterAuthorizer.required manifests)
    (other : permission ∉ filesystemPermissions) :
    authorizer.grants.get? permission = rootless platform providers manifests permission := by
  apply Option.ext
  intro normal
  rw [grants, combined_rootless accepted other held among]
  exact and_iff_right held

theorem Grants.filesystem (accepted : Accepted platform providers)
    (grants : Grants platform providers manifests authorizer)
    (held : ¬Lacking providers manifests permission)
    (filesystem : permission ∈ filesystemPermissions)
    (first : firstOf filesystemOf manifests permission = some manifest)
    (left : rootsOf providers manifests permission manifest ≠ []) :
    ∃ roots, (rootsOf providers manifests permission manifest).mapM (root platform) = .ok roots ∧
      authorizer.grants.get? permission = some { pathRoots := roots } := by
  rcases combined_filesystem accepted filesystem first held with ⟨none, _⟩ | ⟨_, roots, resolved, done⟩
  · exact absurd none left
  · exact ⟨roots, resolved, (grants permission _).mpr ⟨held, done⟩⟩

/-- What the authorizer grants is what the manifests require, where nothing is lacking and something
is left of each constraint. -/
theorem Grants.subset_keys (accepted : Accepted platform providers)
    (grants : Grants platform providers manifests authorizer) :
    ParameterAuthorizer.required manifests ⊆ authorizer.grants.keys.toFinset ↔
      (∀ permission ∈ ParameterAuthorizer.required manifests,
        ¬Lacking providers manifests permission) ∧
      (∀ permission ∈ ParameterAuthorizer.required manifests, permission ∉ filesystemPermissions →
        ∃ normal, PrincipalPolicyAuthorizer.rootless platform providers manifests permission =
          some normal) ∧
      ∀ permission ∈ filesystemPermissions, ∀ first,
        firstOf filesystemOf manifests permission = some first →
          rootsOf providers manifests permission first ≠ [] := by
  have key : ∀ permission, permission ∈ authorizer.grants.keys.toFinset ↔
      ∃ normal, authorizer.grants.get? permission = some normal := by
    intro permission
    rw [List.mem_toFinset, Dict.get?_isSome_iff]
  refine ⟨fun subset => ?_, fun all permission among => ?_⟩
  · have held : ∀ permission ∈ ParameterAuthorizer.required manifests,
        ¬Lacking providers manifests permission := by
      intro permission among
      obtain ⟨normal, found⟩ := (key permission).mp (subset among)
      exact ((grants permission normal).mp found).1
    refine ⟨held, fun permission among other => ?_, fun permission filesystem first found => ?_⟩
    · rw [← grants.rootless accepted (held permission among) among other]
      exact (key permission).mp (subset among)
    · intro none
      have serves := firstOf_eq_some found
      have among : permission ∈ ParameterAuthorizer.required manifests :=
        mem_required.mpr ⟨first, serves.1, (mem_filesystemOf.mp serves.2).1⟩
      obtain ⟨normal, granted⟩ := (key permission).mp (subset among)
      rcases combined_filesystem accepted filesystem found (held permission among) with
        ⟨_, nothing⟩ | ⟨some, _⟩
      · rw [((grants permission normal).mp granted).2] at nothing
        cases nothing
      · exact some none
  · rw [key]
    by_cases filesystem : permission ∈ filesystemPermissions
    · obtain ⟨first, found⟩ := exists_first among filesystem
      obtain ⟨roots, _, granted⟩ := grants.filesystem accepted (all.1 permission among) filesystem
        found (all.2.2 permission filesystem first found)
      exact ⟨_, granted⟩
    · rw [grants.rootless accepted (all.1 permission among) among filesystem]
      exact all.2.1 permission among filesystem

/-- The path is below the roots that are granted exactly where the first manifests cover it. -/
theorem Grants.inside_iff (accepted : Accepted platform providers)
    (grants : Grants platform providers manifests authorizer)
    (held : ∀ permission ∈ ParameterAuthorizer.required manifests,
      ¬Lacking providers manifests permission)
    (left : ∀ permission ∈ filesystemPermissions, ∀ first,
      firstOf filesystemOf manifests permission = some first →
        rootsOf providers manifests permission first ≠ [])
    {path : PurePath} (selected : asked platform arguments = .selected path) :
    Inside authorizer.granted (ParameterAuthorizer.required manifests ∩ filesystemPermissions) path ↔
      GoodFirst filesystemOf (Covers platform providers manifests arguments) manifests := by
  have below : ∀ permission ∈ ParameterAuthorizer.required manifests,
      permission ∈ filesystemPermissions → ∀ first,
      firstOf filesystemOf manifests permission = some first →
      ((∃ root ∈ (authorizer.granted permission).pathRoots, path.isRelativeTo root) ↔
        Covers platform providers manifests arguments permission first) := by
    intro permission among filesystem first found
    obtain ⟨roots, resolved, granted⟩ := grants.filesystem accepted (held permission among)
      filesystem found (left permission filesystem first found)
    rw [ParameterAuthorizer.granted, granted]
    change (∃ root ∈ roots, path.isRelativeTo root) ↔ _
    refine ⟨fun inside => ⟨left permission filesystem first found, fun other same => ?_⟩,
      fun covers => ?_⟩
    · obtain ⟨kept, member, inside⟩ := inside
      obtain ⟨text, among', done⟩ := (mem_of_mapM resolved).mp member
      rw [selected] at same
      cases same
      exact ⟨text, among', kept, done, inside⟩
    · obtain ⟨text, among', kept, done, inside⟩ := covers.2 path selected
      exact ⟨kept, (mem_of_mapM resolved).mpr ⟨text, among', done⟩, inside⟩
  refine ⟨fun inside permission first found => ?_, fun good permission member => ?_⟩
  · obtain ⟨member, serves⟩ := firstOf_eq_some found
    obtain ⟨declares, filesystem⟩ := mem_filesystemOf.mp serves
    have among : permission ∈ ParameterAuthorizer.required manifests :=
      mem_required.mpr ⟨first, member, declares⟩
    exact (below permission among filesystem first found).mp
      (inside permission (Finset.mem_inter.mpr ⟨among, filesystem⟩))
  · obtain ⟨among, filesystem⟩ := Finset.mem_inter.mp member
    obtain ⟨first, found⟩ := exists_first among filesystem
    exact (below permission among filesystem first found).mpr (good permission first found)

/-- What the call comes to where nothing refuses it. -/
def answer (platform : Platform) (required : Finset String) (arguments : List (String × Json)) :
    Except Fault Bool :=
  if required ∩ filesystemPermissions = ∅ then .ok true
  else match asked platform arguments with
    | .failed fault => .error fault
    | _ => .ok true

theorem answer_ne {required : Finset String} : answer platform required arguments ≠ .ok false := by
  rw [answer]
  split
  · exact fun same => by cases same
  · split <;> exact fun same => by cases same

/-- The call goes through where nothing but roots can refuse it and the first manifests cover the
path; otherwise it is refused. -/
theorem allowed_authorize (accepted : Accepted platform providers) (manifest : CapabilityManifest)
    (dependencies : List CapabilityManifest) (arguments : List (String × Json)) :
    ((Passes platform providers (manifest :: dependencies) arguments ∧
        GoodFirst filesystemOf (Covers platform providers (manifest :: dependencies) arguments)
          (manifest :: dependencies)) ∧
      (authorize platform providers manifest dependencies arguments).map (·.allowed) =
        answer platform (ParameterAuthorizer.required (manifest :: dependencies)) arguments) ∨
    (¬(Passes platform providers (manifest :: dependencies) arguments ∧
        GoodFirst filesystemOf (Covers platform providers (manifest :: dependencies) arguments)
          (manifest :: dependencies)) ∧
      (authorize platform providers manifest dependencies arguments).map (·.allowed) = .ok false) := by
  obtain ⟨authorizer, done, grants⟩ := forManifests_spec accepted (manifest :: dependencies)
  have grants : Grants platform providers (manifest :: dependencies) authorizer := grants
  rw [authorize, done, ok_bind, ParameterAuthorizer.allowed_authorize]
  generalize manifest :: dependencies = manifests at grants ⊢
  by_cases permitted : ParameterAuthorizer.required manifests ⊆ supportedPermissions ∧
      ParameterAuthorizer.required manifests ⊆ authorizer.grants.keys.toFinset
  · rw [if_pos permitted]
    obtain ⟨held, common, left⟩ := (grants.subset_keys accepted).mp permitted.2
    have values : valueReasons platform authorizer.granted (ParameterAuthorizer.required manifests)
        arguments = valueReasons platform
          (fun permission => (rootless platform providers manifests permission).getD {})
          (ParameterAuthorizer.required manifests) arguments :=
      valueReasons_congr fun permission among other => by
        rw [ParameterAuthorizer.granted,
          grants.rootless accepted (held permission among) among other]
    by_cases failing : ∃ fault,
        Failing platform (ParameterAuthorizer.required manifests) arguments fault
    · refine .inl ⟨⟨⟨permitted.1, held, common, .inl failing⟩, ?_⟩, ?_⟩
      · obtain ⟨fault, _, failed⟩ := failing
        intro permission first found
        refine ⟨left permission ?_ first found, fun path selected => ?_⟩
        · exact (mem_filesystemOf.mp (firstOf_eq_some found).2).2
        · rw [failed] at selected
          cases selected
      · obtain ⟨fault, failing⟩ := failing
        rw [argumentReasons_of_failing failing, answer, if_neg failing.1, failing.2]
        rfl
    · obtain ⟨reasons, done, none⟩ := @argumentReasons_of_reading platform authorizer.granted _ _
        fun fault failed => failing ⟨fault, failed⟩
      rw [done]
      rw [values] at none
      by_cases nothing : reasons = []
      · obtain ⟨declared, valued, paths⟩ := none.mp nothing
        refine .inl ⟨⟨⟨permitted.1, held, common, .inr ⟨declared, valued, ?_⟩⟩, ?_⟩, ?_⟩
        · exact paths.imp_right fun found => ⟨found.choose, found.choose_spec.1⟩
        · rcases paths with empty | ⟨path, selected, inside⟩
          · intro permission first found
            obtain ⟨member, serves⟩ := firstOf_eq_some found
            obtain ⟨declares, filesystem⟩ := mem_filesystemOf.mp serves
            have among := Finset.mem_inter.mpr
              ⟨mem_required.mpr ⟨first, member, declares⟩, filesystem⟩
            rw [empty] at among
            exact absurd among (Finset.notMem_empty permission)
          · exact (grants.inside_iff accepted held left selected).mp inside
        · rw [nothing, answer]
          rcases paths with empty | ⟨path, selected, _⟩
          · rw [if_pos empty]
            rfl
          · rw [selected, ite_self]
            rfl
      · refine .inr ⟨fun both => nothing (none.mpr ?_), ?_⟩
        · obtain ⟨declared, valued, paths⟩ := both.1.arguments.resolve_left failing
          refine ⟨declared, valued, paths.imp_right fun found => ?_⟩
          obtain ⟨path, selected⟩ := found
          exact ⟨path, selected, (grants.inside_iff accepted held left selected).mpr both.2⟩
        · exact congrArg Except.ok (List.isEmpty_eq_false_iff.mpr nothing)
  · rw [if_neg permitted]
    refine .inr ⟨fun both => permitted ⟨both.1.supported, ?_⟩, rfl⟩
    refine (grants.subset_keys accepted).mpr ⟨both.1.granted, both.1.common, ?_⟩
    exact fun permission _ first found => (both.2 permission first found).1

end PrincipalPolicyAuthorizer

end CapabilityHub.Authorization
