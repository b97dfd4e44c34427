import CapabilityHub.Registry.Projections

/-! # What a resolution decides

A resolution in terms of the manifests it is for: which of them claim a resource, when the
claims of two coordinates collide, and which coordinates a policy excludes.
-/

namespace CapabilityHub.Registry

variable {text : PythonText} {sha256 : Bytes → Bytes} {manifest other : CapabilityManifest}
  {manifests : List CapabilityManifest} {policy : ProjectionPolicy}
  {resolution : ProjectionResolution} {claims : List ProjectionClaim} {claim : ProjectionClaim}
  {resource : String × String} {coordinate : String}

/-! ## The claims of one manifest -/

variable (text sha256) in
/-- The claims of the manifest can be extracted, and the resource is among them. -/
def Claims (manifest : CapabilityManifest) (resource : String × String) : Prop :=
  ∃ claims, extractProjectionClaims text sha256 manifest = .ok claims ∧
    resource ∈ claims.map ProjectionClaim.resource

theorem coordinate_of_mem (extracted : extractProjectionClaims text sha256 manifest = .ok claims)
    (member : claim ∈ claims) : claim.coordinate = manifest.identity.coordinate := by
  rw [extractProjectionClaims, bind_eq_ok] at extracted
  obtain ⟨driver, _, extracted⟩ := extracted
  rw [← pure_eq_ok.mp extracted] at member
  obtain ⟨value, _, rfl⟩ := List.mem_map.mp member
  rfl

/-! ## The claims of all of them -/

/-- A resolution as it is built: the claims, the checks on the collisions, the decisions. -/
theorem resolveProjections_eq_ok :
    resolveProjections text sha256 manifests policy = .ok resolution ↔
      ∃ extracted, (sortedBy (fun manifest : CapabilityManifest =>
          toLex (manifest.identity.coordinate, manifest.identity.revision)) manifests).mapM
            (extractProjectionClaims text sha256) = .ok extracted ∧
        checkCollisions policy (collisionsOf (sortedBy claimOrder extracted.flatten)) = .ok () ∧
        ⟨policy.strategy, sortedBy claimOrder extracted.flatten,
          collisionsOf (sortedBy claimOrder extracted.flatten),
          (sortedBy claimOrder extracted.flatten).map
            (decideClaim sha256 policy (collisionsOf (sortedBy claimOrder extracted.flatten)))⟩ =
          resolution := by
  simp only [resolveProjections, bind_eq_ok, exists_unit, pure_eq_ok]

/-- The parts of a resolution agree with each other and with the manifests. -/
structure Resolved (text : PythonText) (sha256 : Bytes → Bytes)
    (manifests : List CapabilityManifest) (policy : ProjectionPolicy)
    (resolution : ProjectionResolution) : Prop where
  extracts : ∀ manifest ∈ manifests, ∃ claims,
    extractProjectionClaims text sha256 manifest = .ok claims
  mem_claims : ∀ claim, claim ∈ resolution.claims ↔ ∃ manifest ∈ manifests, ∃ claims,
    extractProjectionClaims text sha256 manifest = .ok claims ∧ claim ∈ claims
  collisions : resolution.collisions = collisionsOf resolution.claims
  admitted : checkCollisions policy resolution.collisions = .ok ()
  decisions : resolution.decisions =
    resolution.claims.map (decideClaim sha256 policy resolution.collisions)

theorem resolved (done : resolveProjections text sha256 manifests policy = .ok resolution) :
    Resolved text sha256 manifests policy resolution := by
  obtain ⟨extracted, collected, admitted, rfl⟩ := resolveProjections_eq_ok.mp done
  refine ⟨fun manifest member => ?_, fun claim => ?_, rfl, admitted, rfl⟩
  · exact exists_mapM_eq_ok.mp ⟨extracted, collected⟩ manifest ((mem_sortedBy _).mpr member)
  · simp only [mem_sortedBy, List.mem_flatten, mem_of_mapM collected]
    constructor
    · rintro ⟨claims, ⟨manifest, member, found⟩, inside⟩
      exact ⟨manifest, member, claims, found, inside⟩
    · rintro ⟨manifest, member, claims, found, inside⟩
      exact ⟨claims, ⟨manifest, member, found⟩, inside⟩

/-- Without a check on the collisions a resolution needs nothing but the claims. -/
theorem exists_isolated (isolates : policy.strategy = .isolate) :
    (∃ resolution, resolveProjections text sha256 manifests policy = .ok resolution) ↔
      ∀ manifest ∈ manifests, ∃ claims,
        extractProjectionClaims text sha256 manifest = .ok claims := by
  constructor
  · rintro ⟨resolution, done⟩
    exact (resolved done).extracts
  · intro extracts
    obtain ⟨extracted, collected⟩ := exists_mapM_eq_ok.mpr fun manifest member =>
      extracts manifest ((mem_sortedBy (fun manifest : CapabilityManifest =>
        toLex (manifest.identity.coordinate, manifest.identity.revision))).mp member)
    exact ⟨_, resolveProjections_eq_ok.mpr
      ⟨extracted, collected, by simp only [checkCollisions, isolates], rfl⟩⟩

/-! ## Collisions -/

theorem mem_claimants : coordinate ∈ claimants claims resource ↔
    ∃ claim ∈ claims, claim.resource = resource ∧ claim.coordinate = coordinate := by
  simp [claimants, and_assoc]

/-- A list without repetition has two members exactly when two of them differ. -/
theorem one_lt_length_iff {α : Type} {items : List α} (nodup : items.Nodup) :
    1 < items.length ↔ ∃ first ∈ items, ∃ second ∈ items, first ≠ second := by
  cases items with
  | nil => simp
  | cons head items =>
      cases items with
      | nil => simp
      | cons next items =>
          have apart : head ≠ next := fun same => (List.nodup_cons.mp nodup).1 (by simp [same])
          simp only [List.length_cons, Nat.lt_add_left_iff_pos, Nat.zero_lt_succ, true_iff]
          exact ⟨head, by simp, next, by simp, apart⟩

/-- Two coordinates claim the resource. -/
def Contested (claims : List ProjectionClaim) (resource : String × String) : Prop :=
  ∃ first ∈ claims, ∃ second ∈ claims, first.resource = resource ∧ second.resource = resource ∧
    first.coordinate ≠ second.coordinate

theorem one_lt_claimants : 1 < (claimants claims resource).length ↔ Contested claims resource := by
  rw [claimants, one_lt_length_iff (nodup_sortedSet _), ← claimants]
  constructor
  · rintro ⟨_, claimant, _, claimant', apart⟩
    obtain ⟨first, member, same, rfl⟩ := mem_claimants.mp claimant
    obtain ⟨second, member', same', rfl⟩ := mem_claimants.mp claimant'
    exact ⟨first, member, second, member', same, same', apart⟩
  · rintro ⟨first, member, second, member', same, same', apart⟩
    exact ⟨_, mem_claimants.mpr ⟨first, member, same, rfl⟩, _,
      mem_claimants.mpr ⟨second, member', same', rfl⟩, apart⟩

theorem mem_collisionsOf {collision : ProjectionCollision} :
    collision ∈ collisionsOf claims ↔ Contested claims collision.resource ∧
      collision.coordinates = claimants claims collision.resource := by
  rw [collisionsOf, List.mem_filterMap]
  constructor
  · rintro ⟨resource, _, kept⟩
    split at kept
    next several =>
      cases kept
      exact ⟨one_lt_claimants.mp several, rfl⟩
    · cases kept
  · rintro ⟨contested, coordinates⟩
    have several := one_lt_claimants.mpr contested
    obtain ⟨first, member, _, _, same, _⟩ := contested
    refine ⟨collision.resource, ?_, ?_⟩
    · rw [mem_sortedBy, List.mem_dedup]
      exact same ▸ List.mem_map_of_mem member
    · rw [if_pos several, ← coordinates]
      rfl

theorem mem_resources_collisionsOf :
    resource ∈ (collisionsOf claims).map ProjectionCollision.resource ↔
      Contested claims resource := by
  rw [List.mem_map]
  constructor
  · rintro ⟨collision, member, rfl⟩
    exact (mem_collisionsOf.mp member).1
  · intro contested
    exact ⟨⟨resource.1, resource.2, claimants claims resource⟩,
      mem_collisionsOf.mpr ⟨contested, rfl⟩, rfl⟩

/-! ## Decisions -/

theorem claim_decideClaim {collisions : List ProjectionCollision} :
    (decideClaim sha256 policy collisions claim).claim = claim := by
  rw [decideClaim]
  split
  · rfl
  · split
    · rfl
    · rfl
    · split <;> rfl

theorem decideClaim_excluded {collisions : List ProjectionCollision} :
    (decideClaim sha256 policy collisions claim).action = .excluded ↔
      claim.resource ∈ collisions.map ProjectionCollision.resource ∧
        (policy.strategy = .deny ∨ policy.strategy = .selectOne) ∧
          policy.selectedCoordinate ≠ some claim.coordinate := by
  rw [decideClaim]
  by_cases collides : claim.resource ∈ collisions.map ProjectionCollision.resource
  · rw [if_neg (not_not.mpr collides)]
    cases policy.strategy with
    | namespaced => simp
    | isolate => simp
    | deny => by_cases chosen : policy.selectedCoordinate = some claim.coordinate <;>
        simp [chosen, collides]
    | selectOne => by_cases chosen : policy.selectedCoordinate = some claim.coordinate <;>
        simp [chosen, collides]
  · simp [collides]

namespace Resolved

variable (resolved : Resolved text sha256 manifests policy resolution)
include resolved

/-- Two manifests with different coordinates claim the resource. -/
theorem contested_iff : Contested resolution.claims resource ↔
    ∃ first ∈ manifests, ∃ second ∈ manifests, Claims text sha256 first resource ∧
      Claims text sha256 second resource ∧
        first.identity.coordinate ≠ second.identity.coordinate := by
  constructor
  · rintro ⟨first, member, second, member', rfl, same, apart⟩
    obtain ⟨one, inside, claims, extracted, found⟩ := (resolved.mem_claims first).mp member
    obtain ⟨two, inside', claims', extracted', found'⟩ := (resolved.mem_claims second).mp member'
    refine ⟨one, inside, two, inside', ⟨claims, extracted, List.mem_map_of_mem found⟩,
      ⟨claims', extracted', same ▸ List.mem_map_of_mem found'⟩, ?_⟩
    rwa [← coordinate_of_mem extracted found, ← coordinate_of_mem extracted' found']
  · rintro ⟨one, inside, two, inside', ⟨claims, extracted, found⟩, ⟨claims', extracted', found'⟩,
      apart⟩
    obtain ⟨first, found, same⟩ := List.mem_map.mp found
    obtain ⟨second, found', same'⟩ := List.mem_map.mp found'
    refine ⟨first, (resolved.mem_claims first).mpr ⟨one, inside, claims, extracted, found⟩,
      second, (resolved.mem_claims second).mpr ⟨two, inside', claims', extracted', found'⟩,
      same, same', ?_⟩
    rwa [coordinate_of_mem extracted found, coordinate_of_mem extracted' found']

/-- Under `deny` no resource is contested. -/
theorem not_contested (denies : policy.strategy = .deny) : ¬Contested resolution.claims resource := by
  intro contested
  have admitted := resolved.admitted
  have member := mem_resources_collisionsOf.mpr contested
  rw [← resolved.collisions] at member
  simp only [checkCollisions, denies] at admitted
  cases collisions : resolution.collisions with
  | nil => simp [collisions] at member
  | cons collision rest => simp [collisions] at admitted

/-- Under `select-one` the selected coordinate claims every contested resource. -/
theorem selected_claims (selects : policy.strategy = .selectOne)
    (contested : Contested resolution.claims resource) :
    ∃ manifest ∈ manifests, Claims text sha256 manifest resource ∧
      policy.selectedCoordinate = some manifest.identity.coordinate := by
  obtain ⟨selected, chosen⟩ := policy.selects.mp selects
  have admitted := resolved.admitted
  simp only [checkCollisions, selects, chosen, raiseIf_eq_ok, not_exists, not_and, not_not,
    Option.getD_some] at admitted
  have member : (⟨resource.1, resource.2, claimants resolution.claims resource⟩ :
      ProjectionCollision) ∈ resolution.collisions := by
    rw [resolved.collisions]
    exact mem_collisionsOf.mpr ⟨contested, rfl⟩
  obtain ⟨claim, inside, same, rfl⟩ := mem_claimants.mp (admitted _ member)
  obtain ⟨manifest, member, claims, extracted, found⟩ := (resolved.mem_claims claim).mp inside
  rw [coordinate_of_mem extracted found] at chosen
  exact ⟨manifest, member, ⟨claims, extracted, same ▸ List.mem_map_of_mem found⟩, chosen⟩

/-- The coordinates excluded: those other than the selected one that claim a contested resource. -/
theorem mem_excluded (selects : policy.strategy = .selectOne) :
    coordinate ∈ resolution.excludedCoordinates ↔
      policy.selectedCoordinate ≠ some coordinate ∧ ∃ claim ∈ resolution.claims,
        claim.coordinate = coordinate ∧ Contested resolution.claims claim.resource := by
  rw [ProjectionResolution.excludedCoordinates, resolved.decisions, List.mem_map]
  constructor
  · rintro ⟨decision, member, rfl⟩
    obtain ⟨member, excluded⟩ := List.mem_filter.mp member
    obtain ⟨claim, inside, rfl⟩ := List.mem_map.mp member
    obtain ⟨collides, _, other⟩ := decideClaim_excluded.mp (of_decide_eq_true excluded)
    rw [resolved.collisions, mem_resources_collisionsOf] at collides
    rw [claim_decideClaim]
    exact ⟨other, claim, inside, rfl, collides⟩
  · rintro ⟨other, claim, inside, rfl, contested⟩
    refine ⟨decideClaim sha256 policy resolution.collisions claim, List.mem_filter.mpr
      ⟨List.mem_map_of_mem inside, decide_eq_true (decideClaim_excluded.mpr ⟨?_, ?_, other⟩)⟩,
      by rw [claim_decideClaim]⟩
    · rwa [resolved.collisions, mem_resources_collisionsOf]
    · exact .inr selects

/-- No other strategy excludes a coordinate. -/
theorem excluded_eq_nil (others : policy.strategy ≠ .selectOne) :
    resolution.excludedCoordinates = [] := by
  rw [ProjectionResolution.excludedCoordinates, resolved.decisions, List.map_eq_nil_iff,
    List.filter_eq_nil_iff]
  intro decision member excluded
  obtain ⟨claim, _, rfl⟩ := List.mem_map.mp member
  obtain ⟨collides, strategy, _⟩ := decideClaim_excluded.mp (of_decide_eq_true excluded)
  rw [resolved.collisions, mem_resources_collisionsOf] at collides
  exact resolved.not_contested (strategy.resolve_right others) collides

end Resolved

end CapabilityHub.Registry
