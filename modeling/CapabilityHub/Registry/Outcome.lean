import CapabilityHub.Registry.Registry
import CapabilityHub.Registry.Resolution
import CapabilityHub.Service.Intent

/-! # The outcome of a resolution

Manifests that a coordinate and a revision name have one resolution, in whatever order they come.
A decision keeps the identifiers of different coordinates apart, excludes all but the selected
one, and the collisions are the resources that several coordinates claim
(`CapabilityHub.Registry.resolution_outcome`).
-/

namespace CapabilityHub.Registry

variable {text : PythonText} {sha256 : Bytes → Bytes} {manifest : CapabilityManifest}
  {manifests manifests' : List CapabilityManifest} {policy : ProjectionPolicy}
  {resolution : ProjectionResolution} {claims : List ProjectionClaim}
  {claim other : ProjectionClaim}

/-! ## The order of the manifests -/

/-- The coordinate and the revision tell the manifests apart. -/
def Named (manifests : List CapabilityManifest) : Prop :=
  ∀ first ∈ manifests, ∀ second ∈ manifests,
    first.identity.coordinate = second.identity.coordinate →
      first.identity.revision = second.identity.revision → first = second

theorem resolveProjections_perm (named : Named manifests) (perm : manifests.Perm manifests') :
    resolveProjections text sha256 manifests policy =
      resolveProjections text sha256 manifests' policy := by
  have ordered : sortedBy (fun manifest : CapabilityManifest =>
      toLex (manifest.identity.coordinate, manifest.identity.revision)) manifests =
      sortedBy (fun manifest => toLex (manifest.identity.coordinate, manifest.identity.revision))
        manifests' := by
    refine sortedBy_congr _ perm fun first member second member' same => ?_
    have parts := Prod.ext_iff.mp (toLex.injective same)
    exact named first member second member' parts.1 parts.2
  unfold resolveProjections
  rw [ordered]

/-! ## Identifiers -/

/-- Texts without a NUL are told from what follows the first NUL. -/
theorem eq_of_append_nul {start start' rest rest' : List Char} (plain : '\x00' ∉ start)
    (plain' : '\x00' ∉ start') (same : start ++ '\x00' :: rest = start' ++ '\x00' :: rest') :
    start = start' ∧ rest = rest' := by
  induction start generalizing start' with
  | nil =>
      cases start' with
      | nil => exact ⟨rfl, (List.cons.inj same).2⟩
      | cons char start' => exact absurd (List.mem_cons.mpr (.inl (List.cons.inj same).1)) plain'
  | cons char start ih =>
      cases start' with
      | nil => exact absurd (List.mem_cons.mpr (.inl (List.cons.inj same).1.symm)) plain
      | cons char' start' =>
          have parts := List.cons.inj same
          obtain ⟨starts, rests⟩ := ih (fun inside => plain (List.mem_cons_of_mem _ inside))
            (fun inside => plain' (List.mem_cons_of_mem _ inside)) parts.2
          exact ⟨congrArg₂ List.cons parts.1 starts, rests⟩

/-- Identifiers of claim types without a NUL tell the type and the text apart. -/
theorem resourceId_injective (injective : Function.Injective sha256)
    {claimType claimType' normalized normalized' : String} (plain : '\x00' ∉ claimType.toList)
    (plain' : '\x00' ∉ claimType'.toList)
    (same : resourceId sha256 claimType normalized = resourceId sha256 claimType' normalized') :
    claimType = claimType' ∧ normalized = normalized' := by
  have texts : "capabilityhub-projection-v1\x00" ++ claimType ++ "\x00" ++ normalized =
      "capabilityhub-projection-v1\x00" ++ claimType' ++ "\x00" ++ normalized' :=
    References.encodeUtf8_injective (injective (hex_injective ((String.append_right_inj _).mp same)))
  have chars := congrArg String.toList texts
  simp only [String.toList_append, List.append_assoc, List.append_cancel_left_eq] at chars
  obtain ⟨types, normals⟩ := eq_of_append_nul plain plain' chars
  exact ⟨String.toList_inj.mp types, String.toList_inj.mp normals⟩

/-- An identifier has no NUL. -/
theorem plain_resourceId (claimType normalized : String) :
    '\x00' ∉ (resourceId sha256 claimType normalized).toList := by
  rw [resourceId, String.toList_append, List.mem_append]
  intro inside
  rcases inside with inside | inside
  · exact absurd inside (by decide)
  · exact nul_notMem_hex _ inside

/-- The types of resources that a manifest can claim. -/
def claimTypes : List String :=
  ["identity", "projection_name", "permission_namespace", "port", "filesystem_root", "http_route"]

/-- A claim type has neither a NUL nor a colon. -/
theorem plain_of_claimTypes : ∀ claimType ∈ claimTypes,
    '\x00' ∉ claimType.toList ∧ ':' ∉ claimType.toList := by decide

theorem type_portClaims {config : List (String × Json)} {values : List (String × String)}
    (made : portClaims config = .ok values) : ∀ value ∈ values, value.1 = "port" := by
  unfold portClaims at made
  split at made
  · cases made
    exact fun value member => absurd member List.not_mem_nil
  · cases made
    exact fun value member => absurd member List.not_mem_nil
  · split at made
    · cases made
      exact fun value member => by rw [List.mem_singleton.mp member]
    · cases made
  · cases made

theorem type_rootClaims {config : List (String × Json)} {values : List (String × String)}
    (made : rootClaims text config = .ok values) : ∀ value ∈ values, value.1 = "filesystem_root" := by
  unfold rootClaims at made
  split at made
  · cases made
    exact fun value member => absurd member List.not_mem_nil
  · cases made
    exact fun value member => absurd member List.not_mem_nil
  · split at made
    · cases made
    · cases made
      exact fun value member => by rw [List.mem_singleton.mp member]
  · cases made

theorem type_httpClaim {scheme host basePath : String} {port : Nat} {operation : Json}
    {value : String × String} (made : httpClaim text scheme host basePath port operation = .ok value) :
    value.1 = "http_route" := by
  unfold httpClaim at made
  split at made
  · split at made
    · obtain ⟨_, _, made⟩ := bind_eq_ok.mp made
      rw [← pure_eq_ok.mp made]
    · cases made
  · cases made

theorem type_httpClaims {config : List (String × Json)} {values : List (String × String)}
    (made : httpClaims text config = .ok values) : ∀ value ∈ values, value.1 = "http_route" := by
  unfold httpClaims at made
  repeat' split at made
  all_goals try contradiction
  all_goals obtain ⟨_, _, made⟩ := bind_eq_ok.mp made
  all_goals try contradiction
  all_goals
    intro value member
    obtain ⟨entry, _, claimed⟩ := (mem_of_mapM made).mp member
    exact type_httpClaim claimed

theorem type_metadataClaims {metadata : List (String × Json)} {values : List (String × String)}
    (made : metadataClaims text metadata = .ok values) : ∀ value ∈ values, value.1 ∈ claimTypes := by
  unfold metadataClaims at made
  repeat' split at made
  all_goals try contradiction
  · cases made
    exact fun value member => absurd member List.not_mem_nil
  · cases made
    exact fun value member => absurd member List.not_mem_nil
  · simp only [driverClaims, bind_eq_ok, pure_eq_ok] at made
    obtain ⟨ports, madePorts, roots, madeRoots, routes, madeRoutes, rfl⟩ := made
    intro value member
    rw [List.mem_append, List.mem_append] at member
    rcases member with (port | root) | route
    · rw [type_portClaims madePorts value port]
      decide
    · rw [type_rootClaims madeRoots value root]
      decide
    · rw [routeClaims] at madeRoutes
      split at madeRoutes
      · rw [type_httpClaims madeRoutes value route]
        decide
      · cases madeRoutes
        exact absurd route List.not_mem_nil

/-- An extracted claim is one of a known type, with the identifier of some text. -/
theorem resource_of_mem (extracted : extractProjectionClaims text sha256 manifest = .ok claims)
    (member : claim ∈ claims) : claim.claimType ∈ claimTypes ∧
      ∃ normalized, claim.resourceId = resourceId sha256 claim.claimType normalized := by
  rw [extractProjectionClaims, bind_eq_ok] at extracted
  obtain ⟨driver, made, extracted⟩ := extracted
  rw [← pure_eq_ok.mp extracted] at member
  obtain ⟨value, listed, rfl⟩ := List.mem_map.mp member
  refine ⟨?_, value.2, rfl⟩
  rw [mem_sortedBy, List.mem_dedup] at listed
  rcases List.mem_append.mp listed with listed | driven
  · rcases List.mem_append.mp listed with listed | permitted
    · rcases List.mem_cons.mp listed with rfl | operated
      · simp [claimTypes]
      · obtain ⟨operation, _, rfl⟩ := List.mem_map.mp operated
        simp [claimTypes]
    · obtain ⟨permission, _, rfl⟩ := List.mem_map.mp permitted
      simp [claimTypes]
  · exact type_metadataClaims made value driven

/-- A claim as it is extracted. -/
def Projected (sha256 : Bytes → Bytes) (claim : ProjectionClaim) : Prop :=
  claim.claimType ∈ claimTypes ∧
    ∃ normalized, claim.resourceId = resourceId sha256 claim.claimType normalized

theorem Resolved.projected (resolved : Resolved text sha256 manifests policy resolution)
    (member : claim ∈ resolution.claims) : Projected sha256 claim := by
  obtain ⟨manifest, _, claims, extracted, inside⟩ := (resolved.mem_claims claim).mp member
  exact resource_of_mem extracted inside

section Derived

variable {action : String} (plain : '\x00' ∉ action.toList)
include plain

theorem plain_derived (projected : Projected sha256 claim) :
    '\x00' ∉ (action ++ ":" ++ claim.claimType).toList := by
  simp only [String.toList_append, List.mem_append, not_or]
  exact ⟨⟨plain, by decide⟩, (plain_of_claimTypes _ projected.1).1⟩

/-- A derived identifier is none that was extracted. -/
theorem derived_ne_original (injective : Function.Injective sha256)
    (projected : Projected sha256 claim) (projected' : Projected sha256 other) :
    derivedResourceId sha256 action claim ≠ other.resourceId := by
  intro same
  obtain ⟨normalized, original⟩ := projected'.2
  rw [original, derivedResourceId] at same
  have types := (resourceId_injective injective (plain_derived plain projected)
    (plain_of_claimTypes _ projected'.1).1 same).1
  apply (plain_of_claimTypes _ projected'.1).2
  rw [← types]
  simp [String.toList_append]

/-- Derived identifiers tell coordinates apart. -/
theorem derived_injective (injective : Function.Injective sha256)
    (projected : Projected sha256 claim) (projected' : Projected sha256 other)
    (same : derivedResourceId sha256 action claim = derivedResourceId sha256 action other) :
    claim.coordinate = other.coordinate := by
  have texts := (resourceId_injective injective (plain_derived plain projected)
    (plain_derived plain projected') same).2
  obtain ⟨normalized, original⟩ := projected.2
  obtain ⟨normalized', original'⟩ := projected'.2
  rw [original, original'] at texts
  have chars := congrArg String.toList texts
  simp only [String.toList_append, List.append_assoc] at chars
  exact String.toList_inj.mp
    (eq_of_append_nul (plain_resourceId _ _) (plain_resourceId _ _) chars).2

end Derived

/-! ## Decisions -/

/-- What a resolution does to the claims of the manifests. -/
structure Outcome (text : PythonText) (sha256 : Bytes → Bytes)
    (manifests : List CapabilityManifest) (policy : ProjectionPolicy)
    (resolution : ProjectionResolution) : Prop where
  /-- Two coordinates have no effective identifier of one type in common. -/
  apart : policy.strategy = .namespaced ∨ policy.strategy = .isolate →
    ∀ first ∈ resolution.decisions, ∀ second ∈ resolution.decisions,
      first.claim.claimType = second.claim.claimType →
        first.claim.coordinate ≠ second.claim.coordinate →
          first.effectiveResourceId ≠ second.effectiveResourceId
  /-- A derived identifier is not an original one. -/
  derived : policy.strategy = .namespaced ∨ policy.strategy = .isolate →
    ∀ decision ∈ resolution.decisions, decision.action ≠ .allow →
      ∀ claim ∈ resolution.claims, decision.effectiveResourceId ≠ claim.resourceId
  /-- The selected coordinate is not excluded, and the others that claim a colliding resource are. -/
  selected : policy.strategy = .selectOne →
    (∀ coordinate, policy.selectedCoordinate = some coordinate →
      coordinate ∉ resolution.excludedCoordinates) ∧
    ∀ decision ∈ resolution.decisions,
      decision.claim.resource ∈ resolution.collisions.map ProjectionCollision.resource →
        (decision.action = .excluded ↔
          policy.selectedCoordinate ≠ some decision.claim.coordinate)
  /-- The collisions are the resources that two coordinates claim. -/
  collisions : ∀ resource, resource ∈ resolution.collisions.map ProjectionCollision.resource ↔
    ∃ first ∈ manifests, ∃ second ∈ manifests, Claims text sha256 first resource ∧
      Claims text sha256 second resource ∧ first.identity.coordinate ≠ second.identity.coordinate
  /-- A collision lists all coordinates that claim its resource. -/
  coordinates : ∀ collision ∈ resolution.collisions, ∀ coordinate,
    coordinate ∈ collision.coordinates ↔
      ∃ manifest ∈ manifests, manifest.identity.coordinate = coordinate ∧
        Claims text sha256 manifest collision.resource

namespace Resolved

variable (resolved : Resolved text sha256 manifests policy resolution)
include resolved

theorem mem_decisions {decision : ProjectionDecision} : decision ∈ resolution.decisions ↔
    ∃ claim ∈ resolution.claims, decideClaim sha256 policy resolution.collisions claim = decision := by
  rw [resolved.decisions, List.mem_map]

theorem mem_collisions {resource : String × String} :
    resource ∈ resolution.collisions.map ProjectionCollision.resource ↔
      Contested resolution.claims resource := by
  rw [resolved.collisions, mem_resources_collisionsOf]

/-- A claim of a contested resource gets the derived identifier under these strategies. -/
theorem decideClaim_derived (derives : policy.strategy = .namespaced ∨ policy.strategy = .isolate) :
    ∃ action : String, '\x00' ∉ action.toList ∧ ∀ claim,
      (Contested resolution.claims claim.resource →
        (decideClaim sha256 policy resolution.collisions claim).effectiveResourceId =
          derivedResourceId sha256 action claim) ∧
      (¬Contested resolution.claims claim.resource →
        decideClaim sha256 policy resolution.collisions claim =
          ⟨claim, .allow, claim.resourceId⟩) := by
  rcases derives with strategy | strategy
  · refine ⟨"namespace", by decide, fun claim => ⟨fun contested => ?_, fun free => ?_⟩⟩
    · rw [decideClaim, if_neg (not_not.mpr (resolved.mem_collisions.mpr contested)), strategy]
    · rw [decideClaim, if_pos (mt resolved.mem_collisions.mp free)]
  · refine ⟨"isolate", by decide, fun claim => ⟨fun contested => ?_, fun free => ?_⟩⟩
    · rw [decideClaim, if_neg (not_not.mpr (resolved.mem_collisions.mpr contested)), strategy]
    · rw [decideClaim, if_pos (mt resolved.mem_collisions.mp free)]

theorem apart (injective : Function.Injective sha256)
    (derives : policy.strategy = .namespaced ∨ policy.strategy = .isolate)
    (member : claim ∈ resolution.claims) (member' : other ∈ resolution.claims)
    (types : claim.claimType = other.claimType) (apart : claim.coordinate ≠ other.coordinate) :
    (decideClaim sha256 policy resolution.collisions claim).effectiveResourceId ≠
      (decideClaim sha256 policy resolution.collisions other).effectiveResourceId := by
  obtain ⟨action, plain, decided⟩ := resolved.decideClaim_derived derives
  have projected := resolved.projected member
  have projected' := resolved.projected member'
  by_cases contested : Contested resolution.claims claim.resource
  · rw [(decided claim).1 contested]
    by_cases contested' : Contested resolution.claims other.resource
    · rw [(decided other).1 contested']
      exact fun same => apart (derived_injective plain injective projected projected' same)
    · rw [(decided other).2 contested']
      exact derived_ne_original plain injective projected projected'
  · rw [(decided claim).2 contested]
    by_cases contested' : Contested resolution.claims other.resource
    · rw [(decided other).1 contested']
      exact (derived_ne_original plain injective projected' projected).symm
    · rw [(decided other).2 contested']
      exact fun same => contested ⟨claim, member, other, member', rfl,
        Prod.ext types.symm same.symm, apart⟩

/-- The outcome of any resolution. -/
theorem outcome (injective : Function.Injective sha256) :
    Outcome text sha256 manifests policy resolution where
  apart derives first member second member' types apart := by
    obtain ⟨claim, inside, rfl⟩ := resolved.mem_decisions.mp member
    obtain ⟨other, inside', rfl⟩ := resolved.mem_decisions.mp member'
    rw [claim_decideClaim, claim_decideClaim] at types apart
    exact resolved.apart injective derives inside inside' types apart
  derived derives decision member changed claim inside := by
    obtain ⟨own, inside', rfl⟩ := resolved.mem_decisions.mp member
    obtain ⟨action, plain, decided⟩ := resolved.decideClaim_derived derives
    by_cases contested : Contested resolution.claims own.resource
    · rw [(decided own).1 contested]
      exact derived_ne_original plain injective (resolved.projected inside')
        (resolved.projected inside)
    · exact absurd (congrArg ProjectionDecision.action ((decided own).2 contested)) changed
  selected selects := by
    refine ⟨fun coordinate chosen excluded => ?_, fun decision member collides => ?_⟩
    · exact ((resolved.mem_excluded selects).mp excluded).1 chosen
    · obtain ⟨claim, inside, rfl⟩ := resolved.mem_decisions.mp member
      rw [claim_decideClaim] at collides ⊢
      rw [decideClaim_excluded]
      exact ⟨fun excluded => excluded.2.2, fun other => ⟨collides, .inr selects, other⟩⟩
  collisions resource := by rw [resolved.mem_collisions, resolved.contested_iff]
  coordinates collision member coordinate := by
    rw [resolved.collisions] at member
    rw [(mem_collisionsOf.mp member).2, mem_claimants]
    constructor
    · intro claimed
      obtain ⟨claim, inside, same, rfl⟩ := claimed
      obtain ⟨manifest, listed, claims, extracted, found⟩ := (resolved.mem_claims claim).mp inside
      exact ⟨manifest, listed, (coordinate_of_mem extracted found).symm, claims, extracted,
        same ▸ List.mem_map_of_mem found⟩
    · intro claimed
      obtain ⟨manifest, listed, rfl, claims, extracted, found⟩ := claimed
      obtain ⟨claim, inside, same⟩ := List.mem_map.mp found
      exact ⟨claim, (resolved.mem_claims claim).mpr ⟨manifest, listed, claims, extracted, inside⟩,
        same, coordinate_of_mem extracted inside⟩

end Resolved

/-- **The outcome of a resolution.** It does not depend on the order of manifests that their
coordinates and revisions tell apart, and it treats every resource by the policy. -/
theorem resolution_outcome (injective : Function.Injective sha256)
    (manifests : List CapabilityManifest) (policy : ProjectionPolicy) :
    (Named manifests → ∀ manifests', manifests.Perm manifests' →
      resolveProjections text sha256 manifests policy =
        resolveProjections text sha256 manifests' policy) ∧
    ∀ resolution, resolveProjections text sha256 manifests policy = .ok resolution →
      Outcome text sha256 manifests policy resolution :=
  ⟨fun named _ perm => resolveProjections_perm named perm,
    fun _ done => (resolved done).outcome injective⟩

/-- A capability that offers one operation. -/
def offering (name operation : String) : CapabilityManifest where
  identity := ⟨"demo", name, "1.0.0", ""⟩
  kind := .cli
  summary := "Writes."
  provider := "cli"
  operations := [{ name := operation, operationType := .execute }]

theorem resolution_outcome_shared :
    resolveProjections asciiText id [offering "pen" "write", offering "ink" "write"] isolatePolicy =
      resolveProjections asciiText id [offering "ink" "write", offering "pen" "write"]
        isolatePolicy ∧
    ∃ resolution, resolveProjections asciiText id
        [offering "pen" "write", offering "ink" "write"] isolatePolicy = .ok resolution ∧
      Outcome asciiText id [offering "pen" "write", offering "ink" "write"] isolatePolicy
        resolution := by
  have outcome := @resolution_outcome asciiText _ Function.injective_id
    [offering "pen" "write", offering "ink" "write"] isolatePolicy
  have named : Named [offering "pen" "write", offering "ink" "write"] := by
    have apart : (offering "pen" "write").identity.coordinate ≠
        (offering "ink" "write").identity.coordinate := by decide
    intro first member second member' same _
    simp only [List.mem_cons, List.not_mem_nil, or_false] at member member'
    rcases member with rfl | rfl <;> rcases member' with rfl | rfl
    · rfl
    · exact absurd same apart
    · exact absurd same.symm apart
    · rfl
  have isolated : (∃ resolution, resolveProjections asciiText id
      [offering "pen" "write", offering "ink" "write"] isolatePolicy = .ok resolution) ↔ _ :=
    exists_isolated rfl
  obtain ⟨resolution, done⟩ := isolated.mpr fun manifest member => by
    simp only [List.mem_cons, List.not_mem_nil, or_false] at member
    rcases member with rfl | rfl
    · exact ⟨_, rfl⟩
    · exact ⟨_, rfl⟩
  exact ⟨outcome.1 named _ (List.Perm.swap _ _ _), resolution, done, outcome.2 resolution done⟩

/-- A capability with a revision that says nothing of its driver. -/
def configured (config : List (String × Json)) : CapabilityManifest where
  identity := ⟨"demo", "tool", "1.0.0", ""⟩
  kind := .cli
  summary := "Runs."
  provider := "cli"
  operations := []
  metadata := [("driver", .obj [("name", .str "cli"), ("config", .obj config)])]

/-- Of two manifests of one revision the first one decides the error. -/
theorem order_decides_error :
    [configured [("port", .int 0)], configured [("root", .str "")]].Perm
      [configured [("root", .str "")], configured [("port", .int 0)]] ∧
    resolveProjections asciiText id [configured [("port", .int 0)], configured [("root", .str "")]]
        isolatePolicy = .error (projectionError "invalid_projected_port" none) ∧
    resolveProjections asciiText id [configured [("root", .str "")], configured [("port", .int 0)]]
        isolatePolicy = .error (projectionError "invalid_projected_filesystem_root" none) := by
  have order (first second : List (String × Json)) :
      sortedBy (fun manifest : CapabilityManifest => toLex (manifest.identity.coordinate,
        manifest.identity.revision)) [configured first, configured second] =
        [configured first, configured second] := by
    have le : toLex ((configured first).identity.coordinate, (configured first).identity.revision) ≤
        toLex ((configured second).identity.coordinate, (configured second).identity.revision) :=
      le_refl _
    simp only [sortedBy, List.insertionSort_cons, List.insertionSort_nil, List.orderedInsert, le,
      if_true]
  refine ⟨List.Perm.swap _ _ _, ?_, ?_⟩
  · unfold resolveProjections
    rw [order]
    rfl
  · unfold resolveProjections
    rw [order]
    rfl

end CapabilityHub.Registry
