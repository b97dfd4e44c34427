import CapabilityHub.Registry.Activation
import CapabilityHub.Registry.Resolution

/-! # Exclusive projections

Under `deny` no two active coordinates ever claim the same resource. Under `select-one` the
coordinates to exclude are computed at registration, over the highest revision of each
coordinate, while a pointer may be at an older one. Active claims stay exclusive exactly as
long as every activation is covered: each coordinate that shares a claim with the selected one
in the new map does so, with any claim, among the highest revisions too
(`CapabilityHub.Registry.exclusive_iff_covered`).
-/

namespace CapabilityHub.Registry

variable (text : PythonText) (sha256 : Bytes → Bytes)

/-- No resource is claimed by two of the selected manifests. -/
def Exclusive (selected : String → Option CapabilityManifest) : Prop :=
  ∀ coordinate other manifest manifest', selected coordinate = some manifest →
    selected other = some manifest' → ∀ resource, Claims text sha256 manifest resource →
      Claims text sha256 manifest' resource → coordinate = other

/-- The highest registered revision of the coordinate claims a resource that the highest
registered revision of another coordinate claims. -/
def Contends (registry : CapabilityRegistry) (coordinate : String) : Prop :=
  ∃ first ∈ selectedManifestValues text (registry.revisions.entries.map Prod.snd),
    ∃ second ∈ selectedManifestValues text (registry.revisions.entries.map Prod.snd),
      first.identity.coordinate = coordinate ∧ second.identity.coordinate ≠ coordinate ∧
        ∃ resource, Claims text sha256 first resource ∧ Claims text sha256 second resource

/-- The map of an activation before the excluded coordinates are dropped. -/
def pointedManifest (registry : CapabilityRegistry) (coordinate revision : String)
    (other : String) : Option CapabilityManifest :=
  ((registry.active.set coordinate revision).get? other).bind registry.revisions.get?

/-- Each coordinate that would share a claim with the selected one contends with another among
the highest registered revisions. -/
def Covered (registry : CapabilityRegistry) (coordinate revision : String) : Prop :=
  ∀ selected other manifest manifest',
    registry.projectionPolicy.selectedCoordinate = some selected → other ≠ selected →
      pointedManifest registry coordinate revision selected = some manifest →
        pointedManifest registry coordinate revision other = some manifest' →
          (∃ resource, Claims text sha256 manifest resource ∧
            Claims text sha256 manifest' resource) → Contends text sha256 registry other

variable {text sha256} {registry final : CapabilityRegistry} {manifest other : CapabilityManifest}
  {claims : List ProjectionClaim} {fields : List (String × Json)} {name : String}

/-! ## Claims of equal manifests -/

theorem mappingGet_numericFields :
    mappingGet (numericFields fields) name = (mappingGet fields name).map Json.numeric := by
  induction fields with
  | nil => rfl
  | cons entry fields ih =>
      obtain ⟨key, value⟩ := entry
      rw [mappingGet] at ih ⊢
      rw [mappingGet] at ih ⊢
      rw [numericFields, List.lookup_cons, List.lookup_cons, ih]
      split <;> rfl

/-- The manifest with the truth values in its metadata as numbers. -/
def normal (manifest : CapabilityManifest) : CapabilityManifest :=
  { manifest with metadata := numericFields manifest.metadata }

theorem portClaims_numeric {result : List (String × String)}
    (done : portClaims fields = .ok result) : portClaims (numericFields fields) = .ok result := by
  rw [portClaims] at done ⊢
  rw [mappingGet_numericFields]
  cases found : mappingGet fields "port" with
  | none => simpa [found] using done
  | some value => cases value <;> simp_all [Json.numeric]

theorem rootClaims_numeric {result : List (String × String)}
    (done : rootClaims text fields = .ok result) :
    rootClaims text (numericFields fields) = .ok result := by
  rw [rootClaims] at done ⊢
  rw [mappingGet_numericFields]
  cases found : mappingGet fields "root" with
  | none => simpa [found] using done
  | some value => cases value <;> simp_all [Json.numeric]

theorem httpClaim_numeric {scheme host basePath : String} {port : Nat} {operation : Json}
    {claim : String × String}
    (done : httpClaim text scheme host basePath port operation = .ok claim) :
    httpClaim text scheme host basePath port operation.numeric = .ok claim := by
  cases operation with
  | obj raw =>
      rw [Json.numeric]
      rw [httpClaim] at done ⊢
      simp only [mappingGet_numericFields]
      cases method : mappingGet raw "method" with
      | none => simp [method] at done
      | some value =>
          cases value with
          | str verb =>
              cases path : mappingGet raw "path" with
              | none => simp [method, path] at done
              | some value =>
                  cases value with
                  | str route => simpa [method, path, Json.numeric] using done
                  | _ => simp [method, path] at done
          | _ => simp [method] at done
  | _ => simp [httpClaim] at done

theorem mapM_httpClaim_numeric {scheme host basePath : String} {port : Nat}
    {result : List (String × String)}
    (done : (fields.mapM fun entry => httpClaim text scheme host basePath port entry.2) =
      .ok result) :
    ((numericFields fields).mapM fun entry => httpClaim text scheme host basePath port entry.2) =
      .ok result := by
  induction fields generalizing result with
  | nil => exact done
  | cons entry fields ih =>
      obtain ⟨first, rest, here, below, rfl⟩ := mapM_cons_eq_ok.mp done
      exact mapM_cons_eq_ok.mpr ⟨first, rest, httpClaim_numeric here, ih below, rfl⟩

theorem httpClaims_numeric {result : List (String × String)}
    (done : httpClaims text fields = .ok result) :
    httpClaims text (numericFields fields) = .ok result := by
  rw [httpClaims] at done ⊢
  simp only [mappingGet_numericFields]
  cases url : mappingGet fields "baseUrl" with
  | none => simp [url] at done
  | some value =>
      cases value with
      | str baseUrl =>
          cases found : mappingGet fields "operations" with
          | none => simp [url, found] at done
          | some value =>
              cases value with
              | obj operations =>
                  simp only [url, found, Option.map_some, Json.numeric] at done ⊢
                  cases split : text.urlsplit baseUrl with
                  | none => simp [split] at done
                  | some parsed =>
                      cases port : parsed.port with
                      | none => simp [split, port] at done
                      | some given =>
                          cases hostname : parsed.hostname with
                          | none => simp [split, port, hostname] at done
                          | some host =>
                              simp only [split, port, hostname, CapabilityHub.bind_eq_ok,
                                exists_unit] at done ⊢
                              obtain ⟨admitted, done⟩ := done
                              refine ⟨admitted, ?_⟩
                              cases encoded : text.idna (text.casefold host) with
                              | none => simp [encoded] at done
                              | some ascii =>
                                  simp only [encoded] at done ⊢
                                  exact mapM_httpClaim_numeric done
              | _ => simp [url, found] at done
      | _ => simp [url] at done

theorem driverClaims_numeric {result : List (String × String)}
    (done : driverClaims text name fields = .ok result) :
    driverClaims text name (numericFields fields) = .ok result := by
  simp only [driverClaims, CapabilityHub.bind_eq_ok] at done ⊢
  obtain ⟨port, atPort, root, atRoot, routes, atRoutes, last⟩ := done
  refine ⟨port, portClaims_numeric atPort, root, rootClaims_numeric atRoot, routes, ?_, last⟩
  rw [routeClaims] at atRoutes ⊢
  by_cases http : name = "http-api"
  · rw [if_pos http] at atRoutes ⊢
    exact httpClaims_numeric atRoutes
  · rwa [if_neg http] at atRoutes ⊢

theorem metadataClaims_numeric {result : List (String × String)}
    (done : metadataClaims text fields = .ok result) :
    metadataClaims text (numericFields fields) = .ok result := by
  rw [metadataClaims] at done ⊢
  simp only [mappingGet_numericFields]
  cases found : mappingGet fields "driver" with
  | none => simpa [found] using done
  | some value =>
      cases value with
      | null => simpa [found, Json.numeric] using done
      | obj driver =>
          simp only [found, Option.map_some, Json.numeric, mappingGet_numericFields] at done ⊢
          have config : ((mappingGet driver "config").map Json.numeric).getD (.obj []) =
              ((mappingGet driver "config").getD (.obj [])).numeric := by
            cases mappingGet driver "config" <;> rfl
          rw [config]
          cases named : mappingGet driver "name" with
          | none => simp [named] at done
          | some value =>
              cases value with
              | str name =>
                  cases configured : (mappingGet driver "config").getD (.obj []) with
                  | obj config =>
                      simp only [named, configured, Option.map_some, Json.numeric] at done ⊢
                      split at done
                      · cases done
                      next named => rw [if_neg named, driverClaims_numeric done]
                  | _ => simp [named, configured] at done
              | _ => simp [named] at done
      | _ => simp [found] at done

/-- Reading truth values as numbers keeps the claims of a manifest that has any. -/
theorem extract_normal (done : extractProjectionClaims text sha256 manifest = .ok claims) :
    extractProjectionClaims text sha256 (normal manifest) = .ok claims := by
  rw [extractProjectionClaims, CapabilityHub.bind_eq_ok] at done ⊢
  obtain ⟨driver, read, last⟩ := done
  exact ⟨driver, metadataClaims_numeric read, last⟩

theorem Alike.extract (alike : Alike manifest other) :
    extractProjectionClaims text sha256 (normal manifest) =
      extractProjectionClaims text sha256 (normal other) := by
  have operations (names : CapabilityManifest) :
      (names.operations.map fun operation => ("projection_name", text.casefold operation.name)) =
        (names.operations.map OperationSpec.name).map fun name =>
          ("projection_name", text.casefold name) := by
    rw [List.map_map]
    rfl
  simp only [extractProjectionClaims, normal, operations, alike.identity, alike.kind,
    alike.operations, alike.permissions, alike.metadata]

variable {resource : String × String} {selected before after : String → Option CapabilityManifest}
  {policy : ProjectionPolicy} {initial : CapabilityRegistry} {coordinate revision : String}

theorem Claims.normal (claims : Claims text sha256 manifest resource) :
    Claims text sha256 (normal manifest) resource := by
  obtain ⟨claims, extracted, member⟩ := claims
  exact ⟨claims, extract_normal extracted, member⟩

theorem claims_of_normal (extracts : ∃ claims,
      extractProjectionClaims text sha256 manifest = .ok claims)
    (claimed : Claims text sha256 (Registry.normal manifest) resource) :
    Claims text sha256 manifest resource := by
  obtain ⟨claims, extracted⟩ := extracts
  obtain ⟨claims', extracted', member⟩ := claimed
  rw [extract_normal extracted, Except.ok.injEq] at extracted'
  exact ⟨claims, extracted, extracted' ▸ member⟩

theorem Alike.claims_iff (alike : Alike manifest other) :
    Claims text sha256 (Registry.normal manifest) resource ↔
      Claims text sha256 (Registry.normal other) resource := by
  rw [Claims, Claims, alike.extract]

variable (text sha256) in
/-- The selected manifests are exclusive, also where a truth value stands for a port. -/
def ExclusiveNormal (selected : String → Option CapabilityManifest) : Prop :=
  ∀ coordinate other manifest manifest', selected coordinate = some manifest →
    selected other = some manifest' → ∀ resource, Claims text sha256 (normal manifest) resource →
      Claims text sha256 (normal manifest') resource → coordinate = other

theorem ExclusiveNormal.exclusive (exclusive : ExclusiveNormal text sha256 selected) :
    Exclusive text sha256 selected :=
  fun coordinate other manifest manifest' found found' resource claims claims' =>
    exclusive coordinate other manifest manifest' found found' resource claims.normal claims'.normal

theorem Exclusive.exclusiveNormal (exclusive : Exclusive text sha256 selected)
    (extracts : ∀ coordinate manifest, selected coordinate = some manifest →
      ∃ claims, extractProjectionClaims text sha256 manifest = .ok claims) :
    ExclusiveNormal text sha256 selected :=
  fun coordinate other manifest manifest' found found' resource claims claims' =>
    exclusive coordinate other manifest manifest' found found' resource
      (claims_of_normal (extracts coordinate manifest found) claims)
      (claims_of_normal (extracts other manifest' found') claims')

/-- Exclusive manifests stay so when some are replaced by equal ones and others are dropped. -/
theorem ExclusiveNormal.mono (exclusive : ExclusiveNormal text sha256 before)
    (source : ∀ coordinate manifest, after coordinate = some manifest →
      ∃ manifest', before coordinate = some manifest' ∧ Alike manifest' manifest) :
    ExclusiveNormal text sha256 after := by
  intro coordinate other manifest manifest' found found' resource claims claims'
  obtain ⟨first, earlier, alike⟩ := source coordinate manifest found
  obtain ⟨second, earlier', alike'⟩ := source other manifest' found'
  exact exclusive coordinate other first second earlier earlier' resource
    (alike.claims_iff.mpr claims) (alike'.claims_iff.mpr claims')

/-! ## The resolution of a registry -/

/-- The registry is valid, and its resolution is that of the highest registered revisions. -/
structure Steady (text : PythonText) (sha256 : Bytes → Bytes) (policy : ProjectionPolicy)
    (registry : CapabilityRegistry) : Prop where
  valid : ActiveValid text registry
  configured : registry.projectionPolicy = policy
  resolution : resolveProjections text sha256
    (selectedManifestValues text (registry.revisions.entries.map Prod.snd)) policy =
      .ok registry.projectionResolution

theorem steady_of_construct (constructed : construct text sha256 policy = .ok initial) :
    Steady text sha256 policy initial := by
  refine ⟨activeValid_of_construct constructed, ?_, ?_⟩
  · rw [construct_eq_ok.mp constructed, emptyRegistry]
  · rw [construct, CapabilityHub.bind_eq_ok] at constructed
    obtain ⟨resolution, done, built⟩ := constructed
    obtain rfl := CapabilityHub.pure_eq_ok.mp built
    exact done

theorem Performed.steady {call : Call} (performed : Performed text sha256 registry call final)
    (steady : Steady text sha256 policy registry) : Steady text sha256 policy final := by
  refine ⟨performed.activeValid steady.valid, ?_, ?_⟩
  · cases performed <;> exact steady.configured
  · cases performed with
    | registered registers staging resolving => exact steady.configured ▸ resolving
    | _ => exact steady.resolution

/-- The excluded coordinates, in terms of the registered revisions. -/
theorem Steady.mem_excluded (steady : Steady text sha256 policy registry)
    (selects : policy.strategy = .selectOne) :
    coordinate ∈ registry.projectionResolution.excludedCoordinates ↔
      policy.selectedCoordinate ≠ some coordinate ∧ Contends text sha256 registry coordinate := by
  have resolution := resolved steady.resolution
  rw [resolution.mem_excluded selects]
  apply and_congr_right
  intro _
  constructor
  · rintro ⟨claim, inside, rfl, contested⟩
    obtain ⟨first, member, claims, extracted, found⟩ := (resolution.mem_claims claim).mp inside
    have claimed : Claims text sha256 first claim.resource :=
      ⟨claims, extracted, List.mem_map_of_mem found⟩
    have named := coordinate_of_mem extracted found
    obtain ⟨one, inside, two, inside', claims, claims', apart⟩ :=
      resolution.contested_iff.mp contested
    by_cases same : one.identity.coordinate = claim.coordinate
    · exact ⟨first, member, two, inside', named.symm, fun equal => apart (same.trans equal.symm),
        _, claimed, claims'⟩
    · exact ⟨first, member, one, inside, named.symm, same, _, claimed, claims⟩
  · rintro ⟨first, member, second, member', rfl, apart, resource, claimed, claimed'⟩
    have contested : Contested registry.projectionResolution.claims resource :=
      resolution.contested_iff.mpr
        ⟨first, member, second, member', claimed, claimed', fun same => apart same.symm⟩
    obtain ⟨claims, extracted, found⟩ := claimed
    obtain ⟨claim, inside, rfl⟩ := List.mem_map.mp found
    exact ⟨claim, (resolution.mem_claims claim).mpr ⟨first, member, claims, extracted, inside⟩,
      coordinate_of_mem extracted inside, contested⟩

/-! ## Validated maps -/

/-- The manifests of a validated map have been resolved by the policy. -/
theorem resolved_of_validateActive {active : Dict String String}
    (valid : registry.validateActive text sha256 active = .ok ()) :
    ∃ manifests resolution, (∀ manifest, manifest ∈ manifests ↔ ∃ coordinate name,
        active.get? coordinate = some name ∧ registry.revisions.get? name = some manifest) ∧
      Resolved text sha256 manifests registry.projectionPolicy resolution := by
  obtain ⟨_, _, resolution, done⟩ := validateActive_eq_ok.mp valid
  rw [CapabilityRegistry.resolveActiveProjections, CapabilityHub.bind_eq_ok] at done
  obtain ⟨manifests, collected, done⟩ := done
  refine ⟨manifests, resolution, fun manifest => ?_, resolved done⟩
  rw [mem_of_mapM collected]
  simp only [revision_eq_ok, Prod.exists, Dict.mem_entries_iff]

/-- The claims of a validated map can be extracted. -/
theorem extracts_of_validateActive {active : Dict String String}
    (valid : registry.validateActive text sha256 active = .ok ()) (coordinate : String)
    (manifest : CapabilityManifest)
    (found : (active.get? coordinate).bind registry.revisions.get? = some manifest) :
    ∃ claims, extractProjectionClaims text sha256 manifest = .ok claims := by
  obtain ⟨manifests, resolution, members, resolved⟩ := resolved_of_validateActive valid
  obtain ⟨name, pointed, found⟩ := Option.bind_eq_some_iff.mp found
  exact resolved.extracts manifest ((members manifest).mpr ⟨coordinate, name, pointed, found⟩)

/-- Under `deny` a validated map of registered revisions is exclusive. -/
theorem exclusive_of_deny (denies : registry.projectionPolicy.strategy = .deny)
    {active : Dict String String}
    (registered : ∀ coordinate name, active.get? coordinate = some name →
      ∃ manifest, registry.revisions.get? name = some manifest ∧
        manifest.identity.coordinate = coordinate)
    (valid : registry.validateActive text sha256 active = .ok ()) :
    Exclusive text sha256 fun coordinate =>
      (active.get? coordinate).bind registry.revisions.get? := by
  obtain ⟨manifests, resolution, members, resolved⟩ := resolved_of_validateActive valid
  have named {coordinate : String} {manifest : CapabilityManifest}
      (found : (active.get? coordinate).bind registry.revisions.get? = some manifest) :
      manifest ∈ manifests ∧ manifest.identity.coordinate = coordinate := by
    obtain ⟨name, pointed, found⟩ := Option.bind_eq_some_iff.mp found
    obtain ⟨manifest', found', same⟩ := registered coordinate name pointed
    rw [found, Option.some.injEq] at found'
    exact ⟨(members manifest).mpr ⟨coordinate, name, pointed, found⟩, found' ▸ same⟩
  intro coordinate other manifest manifest' found found' resource claims claims'
  obtain ⟨member, same⟩ := named found
  obtain ⟨member', same'⟩ := named found'
  by_contra apart
  apply resolved.not_contested denies
  exact resolved.contested_iff.mpr ⟨manifest, member, manifest', member', claims, claims', by
    rwa [same, same']⟩

/-! ## Activations -/

section Activation

variable {active : Dict String String}
  (steady : Steady text sha256 policy registry)
  (found : registry.revisions.get? revision = some manifest)
  (matching : manifest.identity.coordinate = coordinate)
include steady found matching

/-- The map of an activation points at registered revisions. -/
theorem registered_of_activation (other name : String)
    (pointed : (registry.active.set coordinate revision).get? other = some name) :
    ∃ manifest, registry.revisions.get? name = some manifest ∧
      manifest.identity.coordinate = other := by
  rw [Dict.get?_set] at pointed
  split at pointed
  next same =>
    cases pointed
    exact ⟨manifest, found, same ▸ matching⟩
  · exact steady.valid.registered other name pointed

/-- Under `select-one` the map an activation writes is exclusive exactly when it is covered. -/
theorem exclusive_iff_of_activation (selects : policy.strategy = .selectOne)
    (valid : registry.validateActive text sha256
      (activationCandidate registry coordinate revision) = .ok ()) :
    (Exclusive text sha256 fun other =>
      ((activationCandidate registry coordinate revision).get? other).bind
        registry.revisions.get?) ↔ Covered text sha256 registry coordinate revision := by
  have kept (other : String) :
      ((activationCandidate registry coordinate revision).get? other).bind
          registry.revisions.get? =
        if other ∈ registry.projectionResolution.excludedCoordinates then none
        else pointedManifest registry coordinate revision other := by
    rw [activationCandidate, Dict.get?_filterKeys, pointedManifest]
    by_cases excluded : other ∈ registry.projectionResolution.excludedCoordinates <;>
      simp [excluded]
  constructor
  · intro exclusive selected other manifest manifest' chosen apart atSelected atOther
    rintro ⟨resource, claims, claims'⟩
    rw [steady.configured] at chosen
    by_contra alone
    have present : selected ∉ registry.projectionResolution.excludedCoordinates :=
      fun excluded => ((steady.mem_excluded selects).mp excluded).1 chosen
    have remains : other ∉ registry.projectionResolution.excludedCoordinates :=
      fun excluded => alone ((steady.mem_excluded selects).mp excluded).2
    apply apart
    apply exclusive other selected manifest' manifest _ _ resource claims' claims
    · exact (kept other).trans (by rw [if_neg remains, atOther])
    · exact (kept selected).trans (by rw [if_neg present, atSelected])
  · intro covered first second manifest manifest' atFirst atSecond resource claims claims'
    obtain ⟨manifests, resolution, members, resolved⟩ := resolved_of_validateActive valid
    have pointed {other : String} {manifest : CapabilityManifest}
        (present : ((activationCandidate registry coordinate revision).get? other).bind
          registry.revisions.get? = some manifest) :
        other ∉ registry.projectionResolution.excludedCoordinates ∧
          pointedManifest registry coordinate revision other = some manifest := by
      rw [kept] at present
      split at present
      · cases present
      next remains => exact ⟨remains, present⟩
    have named {other : String} {manifest : CapabilityManifest}
        (present : ((activationCandidate registry coordinate revision).get? other).bind
          registry.revisions.get? = some manifest) : manifest.identity.coordinate = other := by
      obtain ⟨name, pointed, known⟩ := Option.bind_eq_some_iff.mp (pointed present).2
      obtain ⟨manifest', known', same⟩ := registered_of_activation steady found matching other name
        pointed
      rw [known, Option.some.injEq] at known'
      exact known' ▸ same
    have member {other : String} {manifest : CapabilityManifest}
        (present : ((activationCandidate registry coordinate revision).get? other).bind
          registry.revisions.get? = some manifest) : manifest ∈ manifests := by
      obtain ⟨name, pointed, known⟩ := Option.bind_eq_some_iff.mp present
      exact (members manifest).mpr ⟨other, name, pointed, known⟩
    by_contra apart
    have contested := resolved.contested_iff.mpr ⟨manifest, member atFirst, manifest',
      member atSecond, claims, claims', by rwa [named atFirst, named atSecond]⟩
    rw [← steady.configured] at selects
    obtain ⟨winner, inside, wins, chosen⟩ := resolved.selected_claims selects contested
    obtain ⟨place, name, pointed', known⟩ := (members winner).mp inside
    have atWinner := Option.bind_eq_some_iff.mpr ⟨name, pointed', known⟩
    obtain rfl := named atWinner
    -- one of the two is not the selected coordinate, so it had to be dropped
    have loser {other : String} {manifest : CapabilityManifest}
        (present : ((activationCandidate registry coordinate revision).get? other).bind
          registry.revisions.get? = some manifest)
        (claims : Claims text sha256 manifest resource) :
        other = winner.identity.coordinate := by
      by_contra different
      have contends := covered _ other winner manifest chosen different (pointed atWinner).2
        (pointed present).2 ⟨resource, wins, claims⟩
      apply (pointed present).1
      rw [steady.configured] at selects chosen
      exact (steady.mem_excluded selects).mpr
        ⟨fun same => different (Option.some.inj (same.symm.trans chosen)), contends⟩
    exact apart ((loser atFirst claims).trans (loser atSecond claims').symm)

end Activation

/-! ## Runs -/

variable (text sha256) in
/-- An activation is covered; no other call needs to be. -/
def CoveredCall (registry : CapabilityRegistry) : Call → Prop
  | .activate coordinate chosen => ∀ revision,
      registry.chosenRevision text coordinate chosen = .ok revision →
        Covered text sha256 registry coordinate revision
  | _ => True

/-- A covered call keeps the active claims exclusive. -/
theorem Performed.exclusiveNormal {call : Call} (exclusive : policy.strategy = .deny ∨
      policy.strategy = .selectOne)
    (performed : Performed text sha256 registry call final)
    (steady : Steady text sha256 policy registry)
    (before : ExclusiveNormal text sha256 registry.activeManifest)
    (covered : CoveredCall text sha256 registry call) :
    ExclusiveNormal text sha256 final.activeManifest := by
  cases performed with
  | registered registers staging resolving =>
      apply before.mono
      intro coordinate manifest found
      obtain ⟨name, pointed, found⟩ := Option.bind_eq_some_iff.mp found
      obtain ⟨manifest', found', _⟩ := steady.valid.registered coordinate name pointed
      obtain ⟨last, kept, alike⟩ := kept_of_stage staging name manifest' found'
      obtain rfl : last = manifest := Option.some.inj (kept.symm.trans found)
      exact ⟨manifest', Option.bind_eq_some_iff.mpr ⟨name, pointed, found'⟩, alike⟩
  | @activated coordinate revision chosen manifest choice found matching included valid =>
      refine Exclusive.exclusiveNormal ?_ (extracts_of_validateActive valid)
      rcases exclusive with denies | selects
      · rw [← steady.configured] at denies
        apply exclusive_of_deny denies _ valid
        intro other name pointed
        apply registered_of_activation steady found matching other name
        rw [activationCandidate, Dict.get?_filterKeys] at pointed
        split at pointed
        · exact pointed
        · cases pointed
      · exact (exclusive_iff_of_activation steady found matching selects valid).mpr
          (covered revision choice)
  | @deactivated coordinate valid =>
      apply before.mono
      intro other manifest found
      obtain ⟨name, pointed, found⟩ := Option.bind_eq_some_iff.mp found
      rw [Dict.get?_erase] at pointed
      split at pointed
      · cases pointed
      · exact ⟨manifest, Option.bind_eq_some_iff.mpr ⟨name, pointed, found⟩, .refl⟩
  | frozen => exact before

/-- An activation that leaves the active claims exclusive was covered. -/
theorem Performed.covered {call : Call} (performed : Performed text sha256 registry call final)
    (steady : Steady text sha256 policy registry)
    (after : Exclusive text sha256 final.activeManifest) :
    CoveredCall text sha256 registry call := by
  cases performed with
  | @activated coordinate revision chosen manifest choice found matching included valid =>
      intro revision' choice'
      rw [choice, Except.ok.injEq] at choice'
      subst choice'
      by_cases selects : policy.strategy = .selectOne
      · exact (exclusive_iff_of_activation steady found matching selects valid).mp after
      · intro selected _ _ _ picked
        rw [steady.configured] at picked
        exact absurd (policy.selects.mpr ⟨selected, picked⟩) selects
  | @registered call _ _ _ registers =>
      cases call with
      | activate coordinate chosen => cases registers
      | _ => trivial
  | _ => trivial

/-- **Exclusive projections.** Under `deny` or `select-one`, the active claims of a new registry
stay exclusive through a sequence of calls exactly when each activation that returns is covered
where it is made. Under `deny` every activation is. -/
theorem exclusive_iff_covered (text : PythonText) (sha256 : Bytes → Bytes)
    (policy : ProjectionPolicy) (initial : CapabilityRegistry)
    (constructed : construct text sha256 policy = .ok initial)
    (exclusive : policy.strategy = .deny ∨ policy.strategy = .selectOne) (calls : List Call) :
    (∀ before, before <+: calls →
      Exclusive text sha256 (performAll text sha256 initial before).activeManifest) ↔
    ∀ before call final, before ++ [call] <+: calls →
      perform text sha256 call (performAll text sha256 initial before) = .ok () final →
        CoveredCall text sha256 (performAll text sha256 initial before) call := by
  have steady (calls : List Call) :
      Steady text sha256 policy (performAll text sha256 initial calls) :=
    performAll_induction (steady_of_construct constructed)
      (fun _ _ _ steady done => done.steady steady) calls
  have last (before : List Call) (call : Call) :
      performAll text sha256 initial (before ++ [call]) =
        (perform text sha256 call).stateAfter (performAll text sha256 initial before) :=
    performAll_append before [call]
  constructor
  · intro holds before call final inside done
    apply (performed done).covered (steady before)
    have after := holds (before ++ [call]) inside
    rwa [last, Transaction.stateAfter, done] at after
  · intro covered before inside
    apply ExclusiveNormal.exclusive
    induction before using List.reverseRecOn with
    | nil =>
        obtain rfl := construct_eq_ok.mp constructed
        intro coordinate other manifest manifest' found
        cases found
    | append_singleton before call ih =>
        have earlier := ih ((List.prefix_append before [call]).trans inside)
        rw [last, Transaction.stateAfter]
        cases done : perform text sha256 call (performAll text sha256 initial before) with
        | ok result final =>
            exact (performed done).exclusiveNormal exclusive (steady before) earlier
              (covered before call final inside done)
        | error error final =>
            obtain rfl := atomic_perform call _ error final done
            exact earlier

def selectShared : ProjectionPolicy where
  strategy := .selectOne
  selectedCoordinate := some "d/s"
  selects := by simp
  chosen := by simp

/-- The revision of `d/a` that is activated offers the operation of `d/s`; its highest revision
does not. -/
def loserCalls : List Call :=
  [.registerMany [skill "a" "1" "x" [], skill "a" "2" "y" [], skill "s" "1" "x" []],
    .activate "d/a" (some "d/a@1#"), .activate "d/s" none]

theorem exclusive_iff_covered_loser :
    (∀ before, before <+: loserCalls →
      Exclusive asciiText id
        (performAll asciiText id (emptyRegistry selectShared) before).activeManifest) ↔
    ∀ before call final, before ++ [call] <+: loserCalls →
      perform asciiText id call (performAll asciiText id (emptyRegistry selectShared) before) =
          .ok () final →
        CoveredCall asciiText id (performAll asciiText id (emptyRegistry selectShared) before) call :=
  exclusive_iff_covered asciiText id selectShared _ construct_eq (.inr rfl) _

theorem claims_iff {resource : String × String} : Claims text sha256 manifest resource ↔
    (extractProjectionClaims text sha256 manifest).toOption.any (fun claims => claims.any
      fun claim => claim.resource.1 == resource.1 && claim.resource.2 == resource.2) = true := by
  unfold Claims
  cases extractProjectionClaims text sha256 manifest with
  | ok claims => simp [Except.toOption, Prod.ext_iff]
  | error raised => simp [Except.toOption]

instance {resource : String × String} : Decidable (Claims text sha256 manifest resource) :=
  decidable_of_iff' _ claims_iff

theorem loser_stays_active : ¬Exclusive asciiText id
    (performAll asciiText id (emptyRegistry selectShared) loserCalls).activeManifest := by
  intro exclusive
  have claims : ∀ coordinate ∈ ["d/a", "d/s"],
      ((performAll asciiText id (emptyRegistry selectShared) loserCalls).activeManifest
        coordinate).any (fun manifest =>
          Claims asciiText id manifest ("projection_name", resourceId id "projection_name" "x")) =
        true := by
    decide +kernel
  obtain ⟨manifest, found, first⟩ := (Option.any_eq_true _ _).mp (claims "d/a" (by simp))
  obtain ⟨manifest', found', second⟩ := (Option.any_eq_true _ _).mp (claims "d/s" (by simp))
  have same := exclusive _ _ manifest manifest' found found' _ (of_decide_eq_true first)
    (of_decide_eq_true second)
  exact absurd same (by decide)

end CapabilityHub.Registry
