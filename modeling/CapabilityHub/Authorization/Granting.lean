import CapabilityHub.Authorization.Intersection

/-! # What the manifests are granted together

Every constraint of an accepted document is one that an authorizer takes, so that `_for` always
returns. It grants the permissions that no provider lacks and whose constraints leave something in
common.
-/

namespace CapabilityHub.Authorization.PrincipalPolicyAuthorizer

variable {platform : Platform} {providers : ProviderGrants} {permission : String}
  {manifests : List CapabilityManifest}

/-! ## Accepted documents -/

/-- Every constraint of the document is one that an authorizer takes. -/
def Accepted (platform : Platform) (providers : ProviderGrants) : Prop :=
  ∀ manifest permission constraint, constraintOf providers manifest permission = some constraint →
    ∃ normal, ParameterAuthorizer.normalizedGrant platform permission constraint = .ok normal

theorem normalizedGrant_of_decodeConstraint {raw : Json} {constraint : PermissionConstraint String}
    (decoded : decodeConstraint platform permission raw = .ok constraint) :
    ∃ normal, ParameterAuthorizer.normalizedGrant platform permission constraint = .ok normal := by
  cases raw with
  | obj raw =>
      simp only [decodeConstraint, bind_eq_ok] at decoded
      obtain ⟨_, _, _, _, _, _, _, _, _, _, _, _, _, _, normal, kept, same⟩ := decoded
      exact ⟨normal, Except.ok.inj same ▸ kept⟩
  | _ => cases decoded

theorem normalizedGrant_of_decodeGrants {grants : Json} {constraint : PermissionConstraint String}
    {decoded : Dict String (PermissionConstraint String)}
    (done : decodeGrants platform grants = .ok decoded)
    (found : decoded.get? permission = some constraint) :
    ∃ normal, ParameterAuthorizer.normalizedGrant platform permission constraint = .ok normal := by
  cases grants with
  | obj grants =>
      obtain ⟨entries, each, same⟩ := bind_eq_ok.mp done
      obtain rfl := Except.ok.inj same
      obtain ⟨grant, _, made⟩ := (mem_of_mapM each).mp (Dict.mem_of_get?_ofEntries found)
      obtain ⟨constraint', made, same⟩ := map_eq_ok.mp made
      cases same
      exact normalizedGrant_of_decodeConstraint made
  | _ => cases done

theorem accepted_of_decodeDocument {document : Json}
    (decoded : decodeDocument platform document = .ok providers) : Accepted platform providers := by
  intro manifest permission constraint found
  cases document with
  | obj fields =>
      obtain ⟨entries, each, same⟩ := bind_eq_ok.mp decoded
      obtain rfl := Except.ok.inj same
      rw [constraintOf, Dict.getD] at found
      cases granted : (Dict.ofEntries entries).get? manifest.provider with
      | none =>
          rw [granted] at found
          cases found
      | some grants =>
          rw [granted] at found
          obtain ⟨field, _, made⟩ := (mem_of_mapM each).mp (Dict.mem_of_get?_ofEntries granted)
          obtain ⟨_, _, made⟩ := bind_eq_ok.mp made
          obtain ⟨grants', granting, same⟩ := map_eq_ok.mp made
          obtain rfl : grants' = grants := congrArg Prod.snd same
          exact normalizedGrant_of_decodeGrants granting found
  | _ => cases decoded

/-! ## The collection -/

/-- What a permission has of one declaration. -/
def item? (providers : ProviderGrants) (permission : String) (entry : CapabilityManifest × String) :
    Option (PermissionConstraint String) :=
  if entry.2 = permission then constraintOf providers entry.1 permission else none

/-- The constraints of a permission, in the order of the manifests. -/
def items (providers : ProviderGrants) (manifests : List CapabilityManifest) (permission : String) :
    List (PermissionConstraint String) :=
  (declared manifests).filterMap (item? providers permission)

/-- A provider lacks the permission. -/
def Lacking (providers : ProviderGrants) (manifests : List CapabilityManifest)
    (permission : String) : Prop :=
  ∃ manifest ∈ manifests, permission ∈ manifest.permissions ∧
    constraintOf providers manifest permission = none

theorem mem_declared {entry : CapabilityManifest × String} : entry ∈ declared manifests ↔
    entry.1 ∈ manifests ∧ entry.2 ∈ entry.1.permissions := by
  rw [declared, List.mem_flatMap]
  refine ⟨fun found => ?_, fun both => ⟨entry.1, both.1, List.mem_map_of_mem both.2⟩⟩
  obtain ⟨manifest, member, among⟩ := found
  obtain ⟨permission, inside, rfl⟩ := List.mem_map.mp among
  exact ⟨member, inside⟩

theorem getD_collect (collected : Collected) (entry : CapabilityManifest × String) :
    (collect providers collected entry).constraints.getD permission [] =
      collected.constraints.getD permission [] ++ (item? providers permission entry).toList := by
  by_cases same : entry.2 = permission
  · subst same
    rw [item?, if_pos rfl, collect]
    cases found : constraintOf providers entry.1 entry.2 with
    | none => exact (List.append_nil _).symm
    | some constraint =>
        rw [Dict.getD_set, if_pos rfl]
        rfl
  · rw [item?, if_neg same, collect]
    cases constraintOf providers entry.1 entry.2 with
    | none => exact (List.append_nil _).symm
    | some constraint =>
        rw [Dict.getD_set, if_neg (Ne.symm same)]
        exact (List.append_nil _).symm

theorem mem_missing_collect (collected : Collected) (entry : CapabilityManifest × String) :
    permission ∈ (collect providers collected entry).missing ↔ permission ∈ collected.missing ∨
      entry.2 = permission ∧ constraintOf providers entry.1 permission = none := by
  rw [collect]
  cases found : constraintOf providers entry.1 entry.2 with
  | none =>
      rw [List.mem_cons, or_comm]
      refine or_congr_right ⟨fun same => ?_, fun both => both.1.symm⟩
      exact ⟨same.symm, same ▸ found⟩
  | some constraint =>
      refine (or_iff_left fun both => ?_).symm
      rw [both.1, both.2] at found
      cases found

theorem get?_collect_ne_nil {collected : Collected}
    (some : ∀ permission, collected.constraints.get? permission ≠ some [])
    (entry : CapabilityManifest × String) :
    (collect providers collected entry).constraints.get? permission ≠ Option.some [] := by
  rw [collect]
  cases constraintOf providers entry.1 entry.2 with
  | none => exact some permission
  | some constraint =>
      rw [Dict.get?_set]
      split
      · exact fun same => List.append_ne_nil_of_right_ne_nil _ (List.cons_ne_nil _ _)
          (Option.some.inj same)
      · exact some permission

/-- What the loop over all the manifests collects. -/
theorem foldl_collect (entries : List (CapabilityManifest × String)) (collected : Collected)
    (some : ∀ permission, collected.constraints.get? permission ≠ some []) :
    (∀ permission, (entries.foldl (collect providers) collected).constraints.getD permission [] =
        collected.constraints.getD permission [] ++ entries.filterMap (item? providers permission)) ∧
      (∀ permission, permission ∈ (entries.foldl (collect providers) collected).missing ↔
        permission ∈ collected.missing ∨
          ∃ entry ∈ entries, entry.2 = permission ∧ constraintOf providers entry.1 permission = none) ∧
      ∀ permission,
        (entries.foldl (collect providers) collected).constraints.get? permission ≠ Option.some [] := by
  induction entries generalizing collected with
  | nil => exact ⟨fun _ => (List.append_nil _).symm, fun _ => by simp, some⟩
  | cons entry rest ih =>
      obtain ⟨constraints, missing, kept⟩ :=
        ih (collect providers collected entry) fun _ => get?_collect_ne_nil some entry
      refine ⟨fun permission => ?_, fun permission => ?_, kept⟩
      · rw [List.foldl_cons, constraints, getD_collect, List.append_assoc, List.filterMap_cons]
        cases item? providers permission entry <;> rfl
      · rw [List.foldl_cons, missing, mem_missing_collect, or_assoc, List.exists_mem_cons_iff]

theorem mem_items {constraint : PermissionConstraint String} :
    constraint ∈ items providers manifests permission ↔ ∃ manifest ∈ manifests,
      permission ∈ manifest.permissions ∧
        constraintOf providers manifest permission = some constraint := by
  simp only [items, List.mem_filterMap, mem_declared, item?, Option.ite_none_right_eq_some]
  refine ⟨fun found => ?_, fun found => ?_⟩
  · obtain ⟨entry, ⟨member, inside⟩, rfl, granted⟩ := found
    exact ⟨entry.1, member, inside, granted⟩
  · obtain ⟨manifest, member, inside, granted⟩ := found
    exact ⟨(manifest, permission), ⟨member, inside⟩, rfl, granted⟩

theorem Accepted.items (accepted : Accepted platform providers) :
    ∀ item ∈ items providers manifests permission, ∃ normal,
      ParameterAuthorizer.normalizedGrant platform permission item = .ok normal := by
  intro item member
  obtain ⟨manifest, _, _, granted⟩ := mem_items.mp member
  exact accepted manifest permission item granted

/-- `_for` grants what each permission has in common, unless a provider lacks it. -/
theorem forManifests_spec (accepted : Accepted platform providers)
    (manifests : List CapabilityManifest) :
    ∃ authorizer, forManifests platform providers manifests = .ok authorizer ∧
      ∀ permission normal, authorizer.grants.get? permission = some normal ↔
        ¬Lacking providers manifests permission ∧
          combined platform permission (items providers manifests permission) = some normal := by
  obtain ⟨constraints, missing, some⟩ := @foldl_collect providers (declared manifests) {}
    fun permission found => by cases found
  generalize collecting : (declared manifests).foldl (collect providers) {} = collected
    at constraints missing some
  have lacking : ∀ permission, permission ∈ collected.missing ↔
      Lacking providers manifests permission := by
    intro permission
    rw [missing]
    refine ⟨fun found => ?_, fun found => ?_⟩
    · obtain ⟨entry, member, rfl, absent⟩ := found.resolve_left List.not_mem_nil
      exact ⟨entry.1, (mem_declared.mp member).1, (mem_declared.mp member).2, absent⟩
    · obtain ⟨manifest, member, inside, absent⟩ := found
      exact .inr ⟨(manifest, permission), mem_declared.mpr ⟨member, inside⟩, rfl, absent⟩
  have listed : ∀ permission list, collected.constraints.get? permission = Option.some list →
      list = items providers manifests permission := by
    intro permission list found
    have same := constraints permission
    rw [Dict.getD, found] at same
    exact same
  obtain ⟨combinations, combining⟩ : ∃ combinations,
      collected.constraints.traverseItems (intersect platform) = .ok combinations := by
    refine Dict.exists_traverseItems.mpr fun permission list found => ?_
    rw [listed permission list found]
    exact intersect_total accepted.items
  have granted : ∀ permission constraint,
      ((combinations.filterKeys (· ∉ collected.missing)).filterMapValues id).get? permission =
        Option.some constraint ↔ ¬Lacking providers manifests permission ∧
          intersect platform permission (items providers manifests permission) =
            .ok (Option.some constraint) := by
    intro permission constraint
    rw [Dict.get?_filterMapValues, Dict.get?_filterKeys, Option.bind_eq_some_iff]
    simp only [decide_eq_true_eq, Option.ite_none_right_eq_some, lacking, id_eq,
      Dict.get?_traverseItems combining]
    refine ⟨fun found => ?_, fun both => ?_⟩
    · obtain ⟨_, ⟨held, list, found, done⟩, rfl⟩ := found
      rw [listed permission list found] at done
      exact ⟨held, done⟩
    · refine ⟨_, ⟨both.1, items providers manifests permission, ?_, both.2⟩, rfl⟩
      have same : collected.constraints.getD permission [] = items providers manifests permission :=
        constraints permission
      rw [Dict.getD] at same
      cases found : collected.constraints.get? permission with
      | none =>
          rw [found] at same
          rw [← same] at both
          cases both.2
      | some list => rw [listed permission list found]
  obtain ⟨normalized, normalizing⟩ : ∃ normalized,
      ((combinations.filterKeys (· ∉ collected.missing)).filterMapValues id).traverseItems
        (ParameterAuthorizer.normalizedGrant platform) = .ok normalized := by
    refine Dict.exists_traverseItems.mpr fun permission constraint found => ?_
    exact normalizedGrant_of_intersect ((granted permission constraint).mp found).2
  refine ⟨⟨normalized⟩, ?_, fun permission normal => ?_⟩
  · rw [forManifests, collecting]
    refine bind_eq_ok.mpr ⟨combinations, combining, ?_⟩
    exact map_eq_ok.mpr ⟨normalized, normalizing, rfl⟩
  · rw [Dict.get?_traverseItems normalizing, combined_eq_some, ← exists_and_left]
    exact exists_congr fun constraint => by rw [granted, and_assoc]

end CapabilityHub.Authorization.PrincipalPolicyAuthorizer
