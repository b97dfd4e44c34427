import CapabilityHub.ReferenceSize
import CapabilityHub.Search.Agreement
import CapabilityHub.Service.Discovery

/-! # Hidden capabilities

Two registries may differ in all activations that a caller may not see: its searches give the same
responses, errors and charges, apart from the references that are issued
(`CapabilityHub.Service.search_hides`).
-/

namespace CapabilityHub.Service

open Search

variable {service service' : CapabilityHubService} {context : ServiceContext} {grants : List String}
  {coordinate revision : String} {manifest : CapabilityManifest}

/-- An activation that a caller may see. -/
structure Visible (service : CapabilityHubService) (context : ServiceContext) (grants : List String)
    (coordinate revision : String) (manifest : CapabilityManifest) : Prop where
  active : service.registry.active.get? coordinate = some revision
  registered : service.registry.revisions.get? revision = some manifest
  seen : sees service context grants manifest = .ok true

/-- Each active revision is registered. -/
def Grounded (service : CapabilityHubService) : Prop :=
  ∀ coordinate revision, service.registry.active.get? coordinate = some revision →
    ∃ manifest, service.registry.revisions.get? revision = some manifest

/-- A registry after some calls on a new one. -/
def Reached (text : PythonText) (sha256 : Bytes → Bytes)
    (registry : Registry.CapabilityRegistry) : Prop :=
  ∃ policy calls, registry = Registry.performAll text sha256 (Registry.emptyRegistry policy) calls

theorem grounded_of_reached {text : PythonText} {sha256 : Bytes → Bytes}
    (reached : Reached text sha256 service.registry) : Grounded service := by
  intro coordinate revision active
  obtain ⟨policy, calls, equal⟩ := reached
  have valid := (Registry.activation_invariant text sha256 policy _ Registry.construct_eq calls).1
  rw [equal] at active ⊢
  obtain ⟨manifest, registered, _⟩ := valid.registered coordinate revision active
  exact ⟨manifest, registered⟩

/-! ## Visible revisions -/

theorem sees_eq_ok (grounded : Grounded service) (manifest : CapabilityManifest) :
    ∃ seen, sees service context grants manifest = .ok seen := by
  rw [sees]
  cases context.parameterAuthorizer with
  | none => exact ⟨_, rfl⟩
  | some authorize =>
      have found : ∃ dependencies, service.dependencyManifests manifest = .ok dependencies := by
        rw [CapabilityHubService.dependencyManifests, exists_mapM_eq_ok]
        intro dependency member
        have listed := of_decide_eq_true (List.mem_filter.mp member).2
        obtain ⟨entry, member, named⟩ := List.mem_map.mp listed
        have active := Dict.mem_entries_iff.mp member
        rw [named] at active
        obtain ⟨target, registered⟩ := grounded _ _ active
        refine ⟨target, ?_⟩
        rw [CapabilityHubService.activeRevision, active, Option.bind_some, registered]
      obtain ⟨dependencies, found⟩ := found
      exact ⟨_, by rw [found]; rfl⟩

/-- The revisions that are shown are those of the visible activations. -/
theorem visibleRevisions_eq_ok (grounded : Grounded service) :
    ∃ visible, visibleRevisions service context grants = .ok visible ∧
      ∀ revision, revision ∈ visible ↔
        ∃ coordinate manifest, Visible service context grants coordinate revision manifest := by
  have found : ∃ entries, (service.registry.active.entries.mapM fun entry => do
      let manifest ← service.registry.revision entry.2
      let seen ← sees service context grants manifest
      pure (entry.2, seen)) = .ok entries := by
    rw [exists_mapM_eq_ok]
    intro entry member
    obtain ⟨manifest, registered⟩ := grounded entry.1 entry.2 (Dict.mem_entries_iff.mp member)
    obtain ⟨seen, shown⟩ := @sees_eq_ok _ context grants grounded manifest
    exact ⟨_, bind_eq_ok.mpr ⟨manifest, Registry.revision_eq_ok.mpr registered,
      bind_eq_ok.mpr ⟨seen, shown, rfl⟩⟩⟩
  obtain ⟨entries, found⟩ := found
  refine ⟨_, bind_eq_ok.mpr ⟨entries, found, rfl⟩, fun revision => ?_⟩
  have listed : (revision, true) ∈ entries ↔
      ∃ coordinate manifest, Visible service context grants coordinate revision manifest := by
    rw [mem_of_mapM found]
    simp only [bind_eq_ok, pure_eq_ok, Prod.mk.injEq]
    constructor
    · intro given
      obtain ⟨entry, member, manifest, registered, seen, shown, rfl, rfl⟩ := given
      exact ⟨entry.1, manifest, Dict.mem_entries_iff.mp member, Registry.revision_eq_ok.mp registered,
        shown⟩
    · intro given
      obtain ⟨coordinate, manifest, visible⟩ := given
      exact ⟨(coordinate, revision), Dict.mem_entries_iff.mpr visible.active, manifest,
        Registry.revision_eq_ok.mpr visible.registered, true, visible.seen, rfl, rfl⟩
  rw [← listed, List.mem_map]
  constructor
  · intro given
    obtain ⟨entry, member, rfl⟩ := given
    obtain ⟨inside, shown⟩ := List.mem_filter.mp member
    rwa [show (entry.1, true) = entry from Prod.ext rfl shown.symm]
  · intro inside
    exact ⟨_, List.mem_filter.mpr ⟨inside, rfl⟩, rfl⟩

/-! ## Rankings -/

section

variable {text : WordText} {engine : LexicalCapabilitySearch} {request : SearchRequest}
  {selectedKinds : Option (List CapabilityKind)} {queryTerms : List String} {visible : List String}

/-- What is ranked of an active manifest that is allowed, if it matches. -/
def rankOf (text : WordText) (ranking : SearchRankingConfig)
    (selectedKinds : Option (List CapabilityKind)) (queryTerms : List String) (coordinate : String)
    (manifest : CapabilityManifest) : Option Ranked :=
  if selectedKinds.any fun kinds => manifest.kind ∉ kinds then none
  else if (metadataEligibility manifest ranking).eligible = false then none
  else
    let scored := scoreOf text ranking.weights manifest queryTerms
    if queryTerms ≠ [] ∧ scored.1 = 0 then none else some ⟨scored.1, coordinate, manifest, scored.2⟩

theorem coordinate_of_rankOf {ranking : SearchRankingConfig} {ranked : Ranked}
    (found : rankOf text ranking selectedKinds queryTerms coordinate manifest = some ranked) :
    ranked.coordinate = coordinate := by
  rw [rankOf] at found
  split at found
  · cases found
  · split at found
    · cases found
    · dsimp only at found
      split at found
      · cases found
      · obtain rfl := Option.some.inj found
        rfl

/-- What is ranked of an entry of the active map. -/
def rankedEntry (text : WordText) (engine : LexicalCapabilitySearch)
    (selectedKinds : Option (List CapabilityKind)) (queryTerms visible : List String)
    (entry : String × String) : Option Ranked :=
  if entry.2 ∈ visible then
    (engine.registry.revisions.get? entry.2).bind
      (rankOf text engine.ranking selectedKinds queryTerms entry.1)
  else none

theorem rankEntry_eq_ok (allowed : request.allowedRevisions = some visible)
    (plain : request.eligibility = none) {entry : String × String}
    (registered : ∃ manifest, engine.registry.revisions.get? entry.2 = some manifest) :
    rankEntry text engine request selectedKinds queryTerms entry =
      .ok (rankedEntry text engine selectedKinds queryTerms visible entry) := by
  obtain ⟨manifest, registered⟩ := registered
  have decided : decideEligibility engine request manifest =
      .ok (metadataEligibility manifest engine.ranking) := by
    rw [decideEligibility, plain]
  by_cases shown : entry.2 ∈ visible
  · have admitted : ¬(some visible).any (fun allowed => entry.2 ∉ allowed) = true := by simpa using shown
    rw [rankEntry, rankedEntry, allowed, if_neg admitted, if_pos shown, Registry.CapabilityRegistry.revision,
      registered, Option.bind_some, rankOf]
    change (if selectedKinds.any (fun kinds => manifest.kind ∉ kinds) = true then Except.ok none
      else decideEligibility engine request manifest >>= _) = _
    rw [decided]
    split
    · rfl
    · change (if (metadataEligibility manifest engine.ranking).eligible = false then Except.ok none
        else _) = _
      split
      · rfl
      · rfl
  · have hidden : (some visible).any (fun allowed => entry.2 ∉ allowed) = true := by simpa using shown
    rw [rankEntry, rankedEntry, allowed, if_neg shown, if_pos hidden]

/-- What is ranked of the active map, in the order of its entries. -/
def rankedEntries (text : WordText) (engine : LexicalCapabilitySearch)
    (selectedKinds : Option (List CapabilityKind)) (queryTerms visible : List String) : List Ranked :=
  (sortedBy Prod.fst engine.registry.active.entries).filterMap
    (rankedEntry text engine selectedKinds queryTerms visible)

/-- The key of a ranking. -/
def rankKey (entry : Ranked) : Int ×ₗ (String ×ₗ String) :=
  toLex (-(entry.score : Int), toLex (entry.coordinate, entry.manifest.identity.revision))

theorem rankAll_eq_ok (allowed : request.allowedRevisions = some visible)
    (plain : request.eligibility = none)
    (grounded : ∀ coordinate revision, engine.registry.active.get? coordinate = some revision →
      ∃ manifest, engine.registry.revisions.get? revision = some manifest) :
    rankAll text engine request selectedKinds queryTerms =
      .ok (sortedBy rankKey (rankedEntries text engine selectedKinds queryTerms visible)) := by
  have each : ∀ entry ∈ sortedBy Prod.fst engine.registry.active.entries,
      rankEntry text engine request selectedKinds queryTerms entry =
        .ok (rankedEntry text engine selectedKinds queryTerms visible entry) := by
    intro entry member
    have active := Dict.mem_entries_iff.mp ((mem_sortedBy Prod.fst).mp member)
    exact rankEntry_eq_ok allowed plain (grounded entry.1 entry.2 active)
  rw [rankAll, mapM_of_ok each]
  change Except.ok (sortedBy rankKey (List.filterMap id _)) = _
  rw [List.filterMap_map]
  rfl

theorem nodup_rankedEntries : (rankedEntries text engine selectedKinds queryTerms visible).Nodup := by
  have coordinates (entries : List (String × String)) :
      ((entries.filterMap (rankedEntry text engine selectedKinds queryTerms visible)).map
        Ranked.coordinate).Sublist (entries.map Prod.fst) := by
    induction entries with
    | nil => exact List.Sublist.refl _
    | cons entry entries ih =>
        rw [List.filterMap_cons]
        cases found : rankedEntry text engine selectedKinds queryTerms visible entry with
        | none => exact ih.cons _
        | some ranked =>
            have named : ranked.coordinate = entry.1 := by
              rw [rankedEntry] at found
              split at found
              · obtain ⟨manifest, _, found⟩ := Option.bind_eq_some_iff.mp found
                exact coordinate_of_rankOf found
              · cases found
            rw [List.map_cons, List.map_cons, named]
            exact ih.cons_cons _
  have keys : ((sortedBy Prod.fst engine.registry.active.entries).map Prod.fst).Nodup :=
    ((perm_sortedBy Prod.fst _).map Prod.fst).nodup_iff.mpr engine.registry.active.nodup
  exact List.Nodup.of_map _ ((coordinates _).nodup keys)

end

/-- What is ranked of the visible activations. -/
theorem mem_rankedEntries {text : WordText} {selectedKinds : Option (List CapabilityKind)}
    {queryTerms visible : List String} {ranked : Ranked}
    (shown : ∀ revision, revision ∈ visible ↔
      ∃ coordinate manifest, Visible service context grants coordinate revision manifest) :
    ranked ∈ rankedEntries text service.engine selectedKinds queryTerms visible ↔
      ∃ coordinate revision manifest, Visible service context grants coordinate revision manifest ∧
        rankOf text {} selectedKinds queryTerms coordinate manifest = some ranked := by
  rw [rankedEntries, List.mem_filterMap]
  constructor
  · intro given
    obtain ⟨entry, member, found⟩ := given
    rw [rankedEntry] at found
    split at found
    next inside =>
      obtain ⟨manifest, registered, found⟩ := Option.bind_eq_some_iff.mp found
      obtain ⟨coordinate, manifest', visible⟩ := (shown entry.2).mp inside
      have same := Option.some.inj (registered.symm.trans visible.registered)
      subst same
      exact ⟨entry.1, entry.2, manifest, ⟨Dict.mem_entries_iff.mp ((mem_sortedBy Prod.fst).mp member),
        visible.registered, visible.seen⟩, found⟩
    next => cases found
  · intro given
    obtain ⟨coordinate, revision, manifest, visible, found⟩ := given
    refine ⟨(coordinate, revision),
      (mem_sortedBy Prod.fst).mpr (Dict.mem_entries_iff.mpr visible.active), ?_⟩
    rw [rankedEntry, if_pos ((shown revision).mpr ⟨coordinate, manifest, visible⟩)]
    exact Option.bind_eq_some_iff.mpr ⟨manifest, visible.registered, found⟩

/-- The same activations are visible. -/
def SameVisible (service service' : CapabilityHubService) (context : ServiceContext) (grants : List String) :
    Prop :=
  ∀ coordinate revision manifest, Visible service context grants coordinate revision manifest ↔
    Visible service' context grants coordinate revision manifest

/-- **One ranking.** What is ranked is given by the visible activations. -/
theorem rankedEntries_congr {text : WordText} {selectedKinds : Option (List CapabilityKind)}
    {queryTerms visible visible' : List String} (same : SameVisible service service' context grants)
    (shown : ∀ revision, revision ∈ visible ↔
      ∃ coordinate manifest, Visible service context grants coordinate revision manifest)
    (shown' : ∀ revision, revision ∈ visible' ↔
      ∃ coordinate manifest, Visible service' context grants coordinate revision manifest) :
    sortedBy rankKey (rankedEntries text service.engine selectedKinds queryTerms visible) =
      sortedBy rankKey (rankedEntries text service'.engine selectedKinds queryTerms visible') := by
  apply sortedBy_congr
  · refine (List.perm_ext_iff_of_nodup nodup_rankedEntries nodup_rankedEntries).mpr fun ranked => ?_
    rw [mem_rankedEntries shown, mem_rankedEntries shown']
    simp only [same _ _ _]
  · intro first member second member' equal
    obtain ⟨coordinate, revision, manifest, visible, found⟩ := (mem_rankedEntries shown).mp member
    obtain ⟨coordinate', revision', manifest', visible', found'⟩ := (mem_rankedEntries shown).mp member'
    have coordinates : first.coordinate = second.coordinate :=
      congrArg (fun key => (ofLex (ofLex key).2).1) equal
    rw [coordinate_of_rankOf found, coordinate_of_rankOf found'] at coordinates
    subst coordinates
    obtain rfl := Option.some.inj (visible.active.symm.trans visible'.active)
    obtain rfl := Option.some.inj (visible.registered.symm.trans visible'.registered)
    exact Option.some.inj (found.symm.trans found')

/-! ## Two searches -/

/-- What a client gets of two searches that differ in their references only. -/
structure SameOutcome {σ : Type} (rel : String → String → Prop) (first second : CallOutcome σ SearchResponse) :
    Prop where
  result : Agree (SameResponse rel) first.result second.result
  ledger : first.ledger = second.ledger
  events : first.events = second.events

/-- What is found alike is charged and noted alike. -/
theorem SameOutcome.of_agree {σ : Type} {rel : String → String → Prop}
    {spend : Budget.RawAmounts → σ → Except Raised Unit × σ} {taskId : String} {ledger : σ}
    {found found' : Except Raised SearchResponse} (agree : Agree (SameResponse rel) found found') :
    SameOutcome rel
      (concludeCall (failureEvent taskId "search" none) (searchEvent taskId)
        (charge spend searchCharge found ledger))
      (concludeCall (failureEvent taskId "search" none) (searchEvent taskId)
        (charge spend searchCharge found' ledger)) := by
  cases agree with
  | error error => exact ⟨.error error, rfl, rfl⟩
  | @ok response response' same =>
      have amounts : searchCharge response = searchCharge response' := by
        rw [searchCharge, searchCharge, same.portableTokens, same.payloadBytes]
      have noted : searchEvent taskId response = searchEvent taskId response' := by
        rw [searchEvent, searchEvent, same.portableTokens, same.payloadBytes, same.totalMatches,
          same.truncated, same.cards.length_eq]
      rw [charge, charge, amounts]
      cases spend (searchCharge response') ledger with
      | mk paid left =>
          cases paid with
          | ok _ =>
              rw [concludeCall, concludeCall, noted]
              exact ⟨.ok same, rfl, rfl⟩
          | error error => exact ⟨.error error, rfl, rfl⟩

/-- **Searches reveal visible capabilities only.** Where two registries have the same visible activations,
a search gives the same response apart from the signatures and times of its references, or the same error,
and is charged and noted the same. -/
theorem search_hides {σ : Type} (pythonText : PythonText) (sha256 mac mac' : Bytes → Bytes)
    (text : WordText) (spend : Budget.RawAmounts → σ → Except Raised Unit × σ)
    (service : CapabilityHubService) (registry : Registry.CapabilityRegistry) (context : ServiceContext)
    (grants : List String) (times times' : Nat → ℚ) (call : SearchCall) (ledger : σ)
    (reached : Reached pythonText sha256 service.registry) (reached' : Reached pythonText sha256 registry)
    (same : SameVisible service { service with registry := registry } context grants)
    (macs : ∀ message message', (mac message).length = (mac' message').length)
    (width : ∀ round, References.SameWidth service.loadRefTtl (times round) (times' round)) :
    SameOutcome (References.SameBindings mac mac')
      (service.search context grants text mac times spend call ledger)
      ({ service with registry := registry }.search context grants text mac' times' spend call ledger) := by
  have grounded := grounded_of_reached reached
  have grounded' : Grounded { service with registry := registry } := grounded_of_reached reached'
  obtain ⟨visible, found, shown⟩ := @visibleRevisions_eq_ok _ context grants grounded
  obtain ⟨visible', found', shown'⟩ := @visibleRevisions_eq_ok _ context grants grounded'
  have ranks (selectedKinds : Option (List CapabilityKind)) (queryTerms : List String) :
      rankAll text service.engine (call.request context.referenceScope visible) selectedKinds queryTerms =
        rankAll text { service with registry := registry }.engine
          (call.request context.referenceScope visible') selectedKinds queryTerms := by
    have one : rankAll text service.engine (call.request context.referenceScope visible) selectedKinds
        queryTerms = .ok (sortedBy rankKey (rankedEntries text service.engine selectedKinds queryTerms
          visible)) := rankAll_eq_ok rfl rfl grounded
    have other : rankAll text { service with registry := registry }.engine
        (call.request context.referenceScope visible') selectedKinds queryTerms =
        .ok (sortedBy rankKey (rankedEntries text { service with registry := registry }.engine
          selectedKinds queryTerms visible')) := rankAll_eq_ok rfl rfl grounded'
    rw [one, other, rankedEntries_congr same shown shown']
  apply SameOutcome.of_agree
  have guards : CapabilityHubService.guardDependencies { service with registry := registry } .search =
      service.guardDependencies .search := rfl
  rw [findCapabilities, findCapabilities, found, found', guards]
  refine Agree.after fun _ => ?_
  rw [ok_bind, ok_bind]
  refine agree_search rfl rfl rfl rfl ranks (fun reference reference' related => ?_) fun round revision =>
    References.agree_issue macs (width round)
  obtain ⟨_, _, _, _, _, sizes⟩ := related
  exact sizes

/-! ## A capability that needs a permission -/

section Network

open Registry (emptyRegistry isolatePolicy)

/-- Neither an empty registry nor this one has anything to see. -/
theorem sameVisible_network :
    SameVisible networkCatalog { networkCatalog with registry := emptyRegistry isolatePolicy } offline [] := by
  have active : networkRegistry.active.entries = [("d/b", "d/b@1#")] := by decide +kernel
  have bound : (networkRegistry.revisions.get? "d/b@1#").map CapabilityManifest.permissions =
      some ["network"] := by decide +kernel
  intro coordinate revision manifest
  constructor
  · intro visible
    have listed := Dict.mem_entries_iff.mpr visible.active
    rw [registry_networkCatalog, active] at listed
    obtain ⟨rfl, rfl⟩ := Prod.mk.inj (List.mem_singleton.mp listed)
    have found := visible.registered
    rw [registry_networkCatalog] at found
    have seen : decide (manifest.permissions ⊆ []) = true := Except.ok.inj visible.seen
    rw [found, Option.map_some, Option.some.injEq] at bound
    rw [bound] at seen
    cases seen
  · intro visible
    cases visible.active

theorem sameWidth_natCast {ttlSeconds start start' : Nat}
    (now : decimals start = decimals start')
    (later : decimals (start + ttlSeconds) = decimals (start' + ttlSeconds)) :
    References.SameWidth ttlSeconds start start' := by
  have whole (value : Nat) : truncate value = value := by simp [truncate]
  rw [References.SameWidth, whole, whole, ← Nat.cast_add, ← Nat.cast_add, size_natCast, size_natCast,
    size_natCast, size_natCast]
  exact ⟨now, later⟩

/-- A search with and without the hidden skill, under two keys and at two times. -/
theorem search_hides_network :
    SameOutcome (References.SameBindings (fun _ => List.replicate 32 0) fun _ => List.replicate 32 1)
      (networkCatalog.search offline [] ⟨Char.isAlphanum, String.toLower⟩ (fun _ => List.replicate 32 0)
        (fun _ => (1000 : Nat)) (fun _ spent => (.ok (), spent + 1)) { query := "x", taskId := "task" } 0)
      ({ networkCatalog with registry := emptyRegistry isolatePolicy }.search offline []
        ⟨Char.isAlphanum, String.toLower⟩ (fun _ => List.replicate 32 1) (fun _ => (2000 : Nat))
        (fun _ spent => (.ok (), spent + 1)) { query := "x", taskId := "task" } 0) :=
  search_hides asciiText id _ _ _ (fun _ spent => (.ok (), spent + 1)) networkCatalog
    (emptyRegistry isolatePolicy) offline [] _ _ _ 0 ⟨isolatePolicy, _, registry_networkCatalog⟩
    ⟨isolatePolicy, [], rfl⟩ sameVisible_network (fun _ _ => rfl)
    fun _ => sameWidth_natCast (by decide) (by decide)

end Network

end CapabilityHub.Service
