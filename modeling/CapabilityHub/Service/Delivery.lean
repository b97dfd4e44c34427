import CapabilityHub.Service.Loading

/-! # What is measured and what is delivered

`service_adapter.py` writes the responses of the service for its clients. A search is delivered as it was
measured; of a load, some of what was measured and charged is never delivered
(`CapabilityHub.Service.dispatch_metered_iff`).
-/

namespace CapabilityHub.Service

open Search (SearchResponse WordText searchJson)

/-- `_loaded_json`. -/
def loadedJson (loaded : LoadedCapability) : Json := .obj [
  ("execution_ref", .str loaded.executionRef),
  ("omitted_sections", .arr (loaded.omittedSections.map .str)),
  ("operations", .arr (loaded.operations.map operationJson)),
  ("permissions", .arr (loaded.permissions.map .str)), ("portable_tokens", .int loaded.portableTokens),
  ("revision", .str loaded.revision), ("sections", .arr (loaded.sections.map sectionJson))]

/-- A call of a client whose response is metered. -/
inductive MeteredCall where
  | search (call : SearchCall)
  | load (call : LoadCall)

def MeteredCall.IsSearch : MeteredCall → Prop
  | .search _ => True
  | .load _ => False

def MeteredCall.maxOutputTokens : MeteredCall → Int
  | .search call => call.maxOutputTokens
  | .load call => call.maxOutputTokens

/-- What a call is charged for a measure. -/
def MeteredCall.amounts : MeteredCall → PayloadMeasurement → Budget.RawAmounts
  | .search _, measure =>
      [(.str "portable_tokens", .int measure.portableTokens), (.str "bytes", .int measure.utf8Bytes)]
  | .load _, measure => [(.str "bytes", .int measure.utf8Bytes), (.str "loads", .int 1),
      (.str "portable_tokens", .int measure.portableTokens)]

/-- What a response states of a measure. -/
def MeteredCall.statements : MeteredCall → PayloadMeasurement → List (String × Json)
  | .search _, measure => [("portable_tokens", .int measure.portableTokens),
      ("payload_bytes", .int measure.utf8Bytes)]
  | .load _, measure => [("portable_tokens", .int measure.portableTokens)]

/-- What the service has measured, and what the client gets. -/
structure Delivery where
  measured : Json
  delivered : Json

section

variable (sha256 mac : Bytes → Bytes) (text : WordText) (service : CapabilityHubService)
  (context : ServiceContext) (grants : List String) (searchTimes : Nat → ℚ) (loadTimes : LoadTimes)

/-- `_search` and `_load`. What the reasoning router does to the ledger before the call, and whether it
records the result, are arguments. -/
def dispatch {σ : Type} (spend : Budget.RawAmounts → σ → Except Raised Unit × σ)
    (applied : σ → Except Raised Unit × σ) (recorded : Except Raised Unit) (call : MeteredCall) (start : σ) :
    Except Raised Delivery × σ :=
  match applied start with
  | (.error raised, ledger) => (.error raised, ledger)
  | (.ok _, ledger) =>
      match call with
      | .search call =>
          let outcome := service.search context grants text mac searchTimes spend call ledger
          (do
            let response ← outcome.result
            recorded
            pure ⟨response.payload ⟨response.payloadBytes, response.portableTokens⟩, searchJson response⟩,
            outcome.ledger)
      | .load call =>
          let outcome := service.load sha256 mac context call loadTimes spend ledger
          (do
            let loaded ← outcome.result
            recorded
            pure ⟨loadedDict loaded.1, loadedJson loaded.1⟩, outcome.ledger)

end

/-- The value of a member of an object. -/
def member? : Json → String → Option Json
  | .obj fields, name => mappingGet fields name
  | _, _ => none

/-- **Metered**: a document states its own measure, which is what was charged and is within the limit. -/
structure Metered {σ : Type} (spend : Budget.RawAmounts → σ → Except Raised Unit × σ) (call : MeteredCall)
    (final : σ) (document : Json) : Prop where
  stated : ∀ statement ∈ call.statements (measureText (canonicalJson document)),
    member? document statement.1 = some statement.2
  charged : ∃ ledger, spend (call.amounts (measureText (canonicalJson document))) ledger = (.ok (), final)
  within : (measureText (canonicalJson document)).portableTokens ≤ call.maxOutputTokens

/-! ## Searches -/

variable {sha256 mac : Bytes → Bytes} {text : WordText} {service : CapabilityHubService}
  {context : ServiceContext} {grants : List String} {searchTimes : Nat → ℚ} {loadTimes : LoadTimes}
  {σ : Type} {spend : Budget.RawAmounts → σ → Except Raised Unit × σ}

theorem charge_eq_ok {α : Type} {amounts : α → Budget.RawAmounts} {found : Except Raised α}
    {start final : σ} {result : α} (done : charge spend amounts found start = (.ok result, final)) :
    found = .ok result ∧ spend (amounts result) start = (.ok (), final) := by
  cases found with
  | error raised => cases done
  | ok response =>
      rw [charge] at done
      cases spent : spend (amounts response) start with
      | mk answer left =>
          rw [spent] at done
          cases answer with
          | error raised => cases done
          | ok value =>
              cases done
              exact ⟨rfl, spent⟩

theorem concludeCall_eq_ok {α : Type} {failed : CapabilityHubError → Event} {succeeded : α → Event}
    {charged : Except Raised α × σ} {result : α}
    (done : (concludeCall failed succeeded charged).result = .ok result) :
    charged = (.ok result, (concludeCall failed succeeded charged).ledger) := by
  obtain ⟨answer, left⟩ := charged
  cases answer with
  | error raised => cases done
  | ok value =>
      cases done
      rfl

/-- The answer of a search is a measured response within the budget. -/
theorem packAll_eq_ok {issueAt : Nat → String → Except Raised String} {limits : Search.SearchLimits}
    {envelope : Search.Envelope} {ranked : List Search.Ranked} {response : SearchResponse}
    (done : Search.packAll issueAt limits envelope ranked = .ok response) :
    measureText (canonicalJson (response.payload ⟨response.payloadBytes, response.portableTokens⟩)) =
        ⟨response.payloadBytes, response.portableTokens⟩ ∧
      response.portableTokens ≤ limits.maxOutputTokens := by
  simp only [Search.packAll, bind_eq_ok, exists_unit, raiseIf_eq_ok, pure_eq_ok] at done
  obtain ⟨packed, _, answer, answered, tokens, _, rfl⟩ := done
  obtain ⟨same, measured⟩ := Search.response_eq_ok answered
  rw [← same] at measured
  exact ⟨measured, Int.not_lt.mp tokens⟩

theorem search_eq_ok {call : SearchCall} {response : SearchResponse} {start : σ}
    (done : (service.search context grants text mac searchTimes spend call start).result = .ok response) :
    measureText (canonicalJson (response.payload ⟨response.payloadBytes, response.portableTokens⟩)) =
        ⟨response.payloadBytes, response.portableTokens⟩ ∧
      spend (searchCharge response) start =
        (.ok (), (service.search context grants text mac searchTimes spend call start).ledger) ∧
      response.portableTokens ≤ call.maxOutputTokens := by
  obtain ⟨found, spent⟩ := charge_eq_ok (concludeCall_eq_ok done)
  simp only [findCapabilities, bind_eq_ok] at found
  obtain ⟨_, _, visible, _, found⟩ := found
  simp only [Search.LexicalCapabilitySearch.search, bind_eq_ok] at found
  obtain ⟨kinds, _, ranked, _, packed⟩ := found
  have answer := packAll_eq_ok packed
  exact ⟨answer.1, spent, answer.2⟩

/-! ## Loads -/

/-- Only the digits of its tokens make a response longer. -/
theorem size_stating (parts : LoadParts) (known : Nat) :
    (loadedDict (parts.stating known)).size + 1 = (loadedDict (parts.stating 0)).size + decimals known := by
  have zero : (Json.int (0 : Nat)).size = 1 := rfl
  simp only [loadedDict, LoadParts.stating, size_obj, fieldsSize, zero]
  rw [size_natCast known]
  omega

/-- A load states the measure of what the service has measured. -/
theorem response_eq_ok {parts : LoadParts} {loaded : LoadedCapability × Nat}
    (done : parts.response = .ok loaded) :
    measureText (canonicalJson (loadedDict loaded.1)) = ⟨loaded.2, loaded.1.portableTokens⟩ := by
  simp only [LoadParts.response, bind_eq_ok, pure_eq_ok] at done
  obtain ⟨known, settled, rfl⟩ := done
  have large : 1 ≤ (loadedDict (parts.stating 0)).size := by
    rw [loadedDict, size_obj]
    exact Nat.le_trans (by decide) (Nat.le_add_left 2 _)
  have low (bytes : Nat) : 1 ≤ decimals (measureOf bytes).portableTokens := decimals_pos
  have sized (known : PayloadMeasurement) := size_stating parts known.portableTokens
  exact @measured_of_settleM (fun known => loadedDict (parts.stating known.portableTokens))
    (fun known => decimals known.portableTokens) known slow_quarterDecimals low large sized settled

theorem load_eq_ok {call : LoadCall} {loaded : LoadedCapability × Nat} {start : σ}
    (done : (service.load sha256 mac context call loadTimes spend start).result = .ok loaded) :
    measureText (canonicalJson (loadedDict loaded.1)) = ⟨loaded.2, loaded.1.portableTokens⟩ ∧
      spend (loadCharge loaded) start =
        (.ok (), (service.load sha256 mac context call loadTimes spend start).ledger) ∧
      loaded.1.portableTokens ≤ call.maxOutputTokens := by
  rw [CapabilityHubService.load] at done ⊢
  cases target : loadTarget mac service context call loadTimes with
  | error raised =>
      rw [target] at done
      cases done
  | ok manifest =>
      rw [target] at done
      obtain ⟨found, spent⟩ := charge_eq_ok (concludeCall_eq_ok done)
      simp only [loadManifest, bind_eq_ok, exists_unit, raiseIf_eq_ok, pure_eq_ok] at found
      obtain ⟨_, _, handles, _, executionRef, _, answer, answered, tokens, rfl⟩ := found
      exact ⟨response_eq_ok answered, spent, Int.not_lt.mp tokens⟩

/-- What is delivered of a load is smaller than what was measured. -/
theorem size_loadedJson (loaded : LoadedCapability) :
    (loadedJson loaded).size + 4 ≤ (loadedDict loaded).size := by
  simp only [loadedJson, loadedDict, size_obj, fieldsSize]
  have quoted (text : String) : 2 ≤ quotedSize text := Nat.le_add_left 2 _
  have first := quoted "notices"
  have second := quoted "rehydration_handles"
  omega

/-! ## Metered and delivered -/

theorem metered_payload {call : SearchCall} {response : SearchResponse} {start final : σ}
    (measured : measureText (canonicalJson (response.payload ⟨response.payloadBytes, response.portableTokens⟩)) =
      ⟨response.payloadBytes, response.portableTokens⟩)
    (spent : spend (searchCharge response) start = (.ok (), final))
    (fits : response.portableTokens ≤ call.maxOutputTokens) :
    Metered spend (.search call) final
      (response.payload ⟨response.payloadBytes, response.portableTokens⟩) where
  stated := by
    rw [measured]
    intro statement member
    rcases List.mem_cons.mp member with rfl | member
    · rfl
    · obtain rfl := List.mem_singleton.mp member
      rfl
  charged := by
    rw [measured]
    exact ⟨start, spent⟩
  within := by
    rw [measured]
    exact fits

theorem metered_loadedDict {call : LoadCall} {loaded : LoadedCapability × Nat} {start final : σ}
    (measured : measureText (canonicalJson (loadedDict loaded.1)) = ⟨loaded.2, loaded.1.portableTokens⟩)
    (spent : spend (loadCharge loaded) start = (.ok (), final))
    (fits : loaded.1.portableTokens ≤ call.maxOutputTokens) :
    Metered spend (.load call) final (loadedDict loaded.1) where
  stated := by
    rw [measured]
    intro statement member
    obtain rfl := List.mem_singleton.mp member
    rfl
  charged := by
    rw [measured]
    exact ⟨start, spent⟩
  within := by
    rw [measured]
    exact fits

/-- What is delivered of a load does not state its own measure. -/
theorem not_metered_loadedJson {call : LoadCall} {loaded : LoadedCapability × Nat} {final : σ}
    (measured : measureText (canonicalJson (loadedDict loaded.1)) = ⟨loaded.2, loaded.1.portableTokens⟩) :
    ¬Metered spend (.load call) final (loadedJson loaded.1) := by
  intro metered
  have stated := metered.stated _ (List.mem_singleton_self _)
  have same : (loaded.1.portableTokens : Int) =
      (measureText (canonicalJson (loadedJson loaded.1))).portableTokens :=
    Json.int.inj (Option.some.inj stated)
  rw [measureText_canonicalJson] at same measured
  have smaller := size_loadedJson loaded.1
  have tokens : ((loadedDict loaded.1).size + 3) / 4 = loaded.1.portableTokens :=
    congrArg PayloadMeasurement.portableTokens measured
  have fewer : (measureOf (loadedJson loaded.1).size).portableTokens =
      ((loadedJson loaded.1).size + 3) / 4 := rfl
  omega

/-! ## A load that returns -/

theorem printable_stating {parts : LoadParts} {known : Nat}
    (printable : (loadedDict (parts.stating 0)).printable = true) (short : known < 10 ^ maxStrDigits) :
    (loadedDict (parts.stating known)).printable = true := by
  have own : (Json.int known).printable = true := by
    rw [Json.printable, Int.natAbs_natCast]
    exact decide_eq_true short
  simp only [loadedDict, LoadParts.stating, Json.printable, printableFields, Bool.and_eq_true] at printable own ⊢
  simp only [own, printable, and_self]

/-- A response of some texts and small numbers can be measured. -/
theorem exists_response {parts : LoadParts}
    (printable : (loadedDict (parts.stating 0)).printable = true)
    (small : (loadedDict (parts.stating 0)).size ≤ 10 ^ maxStrDigits) :
    ∃ loaded, parts.response = .ok loaded := by
  have step (known : PayloadMeasurement) (short : known.portableTokens < 10 ^ maxStrDigits) :
      ∃ found, measureJson (loadedDict (parts.stating known.portableTokens)) = .ok found ∧
        found.portableTokens < 10 ^ maxStrDigits := by
    refine ⟨measureText (canonicalJson (loadedDict (parts.stating known.portableTokens))), ?_, ?_⟩
    · rw [measureJson, printable_stating printable short]
      rfl
    · rw [measureText_canonicalJson]
      have sized := size_stating parts known.portableTokens
      have digits : decimals known.portableTokens ≤ maxStrDigits := (decimals_le_iff (by decide)).mpr short
      have large : maxStrDigits < 10 ^ maxStrDigits := Nat.lt_pow_self (by decide)
      have tokens : (measureOf (loadedDict (parts.stating known.portableTokens)).size).portableTokens =
          ((loadedDict (parts.stating known.portableTokens)).size + 3) / 4 := rfl
      omega
  obtain ⟨known, settled⟩ := @exists_settleM _ _ _ _
    (fun known : PayloadMeasurement => known.portableTokens < 10 ^ maxStrDigits) 4 ⟨0, 0⟩ (by positivity) step
  refine ⟨(parts.stating known.portableTokens, known.utf8Bytes), ?_⟩
  rw [LoadParts.response, settled]
  rfl

/-- The tokens of a response are about a third of the bytes of the rest. -/
theorem portableTokens_le {parts : LoadParts} {loaded : LoadedCapability × Nat}
    (done : parts.response = .ok loaded) :
    3 * loaded.1.portableTokens ≤ (loadedDict (parts.stating 0)).size + 7 := by
  have measured := response_eq_ok done
  simp only [LoadParts.response, bind_eq_ok, pure_eq_ok] at done
  obtain ⟨known, _, rfl⟩ := done
  rw [measureText_canonicalJson] at measured
  have tokens : ((loadedDict (parts.stating known.portableTokens)).size + 3) / 4 = known.portableTokens :=
    congrArg PayloadMeasurement.portableTokens measured
  have sized := size_stating parts known.portableTokens
  have digits : decimals known.portableTokens ≤ known.portableTokens + 1 :=
    (decimals_le_iff (Nat.succ_pos _)).mpr
      ((Nat.lt_pow_self (by decide)).trans (Nat.pow_lt_pow_right (by decide) (Nat.lt_succ_self _)))
  have stated : (parts.stating known.portableTokens).portableTokens = known.portableTokens := rfl
  dsimp only at sized ⊢
  omega

theorem rehydrationTargets_all (manifest : CapabilityManifest) :
    rehydrationTargets manifest manifest.sections manifest.operations = [] := by
  have none (names : List String) : names.filter (· ∉ names) = [] := by
    rw [List.filter_eq_nil_iff]
    intro name member absent
    exact of_decide_eq_true absent member
  rw [rehydrationTargets, none, none]
  rfl

/-- The load of all of a skill without sensitive sections. -/
theorem loadManifest_skill {manifest : CapabilityManifest} {call : LoadCall}
    (skill : manifest.kind = .skill) (plain : manifest.sections = [])
    (sections : call.sectionNames = none) (operations : call.operationNames = none)
    {loaded : LoadedCapability × Nat}
    (answered : LoadParts.response ⟨manifest, manifest.sections, manifest.operations, "",
      (manifestNotices sha256 manifest).1, [], (manifestNotices sha256 manifest).2⟩ = .ok loaded)
    (fits : loaded.1.portableTokens ≤ call.maxOutputTokens) :
    loadManifest sha256 mac service context call loadTimes manifest = .ok loaded := by
  have selected : selectParts context call manifest = .ok (manifest.sections, manifest.operations) := by
    rw [selectParts, sections, operations, selectSections, selectOperations, plain]
    rfl
  have handles : rehydrationHandles sha256 mac service context manifest manifest.sections
      manifest.operations loadTimes.handleTimes = .ok [] := by
    rw [rehydrationHandles, rehydrationTargets_all]
    rfl
  have reference : executionReference mac service context loadTimes manifest = .ok "" := if_pos skill
  simp only [loadManifest, bind_eq_ok, exists_unit, raiseIf_eq_ok, pure_eq_ok]
  exact ⟨_, selected, [], handles, "", reference, loaded, answered, Int.not_lt.mpr fits, rfl⟩

/-- What the client asks of the skill. -/
def networkLoad (mac : Bytes → Bytes) : LoadCall where
  capabilityRef := References.referenceOf mac ⟨"d/b@1#", offline.referenceScope, "load", 1000, 1300⟩
  taskId := "task"

def thousand : LoadTimes := ⟨(1000 : Nat), fun _ => ((1000 : Nat), (1000 : Nat)), (1000 : Nat)⟩

theorem loadTarget_network {manifest : CapabilityManifest}
    (found : networkRegistry.revisions.get? "d/b@1#" = some manifest) :
    loadTarget mac networkCatalog offline (networkLoad mac) thousand = .ok manifest := by
  have scope : isAscii offline.referenceScope = true := isAscii_referenceScope (by decide)
  have given : offline.referenceScope ≠ "" := canonicalJson_ne_empty _
  have whole : truncate (1000 : Nat) = 1000 := by simp [truncate]
  have verified : References.verify mac (networkLoad mac).capabilityRef offline.referenceScope none "load"
      (1000 : Nat) = .ok ⟨"d/b@1#", offline.referenceScope, "load", 1000, 1300⟩ :=
    References.verify_same ⟨by decide, given, by decide, by decide⟩ (by rw [whole]; decide)
      (by rw [whole]; decide) scope (by decide +kernel) (by decide +kernel) (.inl rfl)
  have revision : networkCatalog.registry.revision "d/b@1#" = .ok manifest := by
    rw [registry_networkCatalog, Registry.CapabilityRegistry.revision, found]
  have coordinate : (networkRegistry.revisions.get? "d/b@1#").map
      (fun manifest => networkRegistry.active.get? manifest.identity.coordinate) = some (some "d/b@1#") := by
    decide +kernel
  rw [found, Option.map_some, Option.some.injEq] at coordinate
  have active : networkCatalog.activeManifest "d/b@1#" = .ok manifest := by
    rw [CapabilityHubService.activeManifest, revision, registry_networkCatalog]
    exact if_pos coordinate
  simp only [loadTarget, bind_eq_ok, exists_unit]
  exact ⟨rfl, rfl, _, verified, active⟩

/-- The skill is loaded. -/
theorem load_network : ∃ loaded, (networkCatalog.load (fun _ => []) mac offline (networkLoad mac) thousand
    (fun _ spent => (.ok (), spent + 1)) (0 : Nat)).result = .ok loaded := by
  have small : (networkRegistry.revisions.get? "d/b@1#").map (fun manifest =>
      let payload := loadedDict (LoadParts.stating ⟨manifest, manifest.sections, manifest.operations, "",
        (manifestNotices (fun _ => []) manifest).1, [], (manifestNotices (fun _ => []) manifest).2⟩ 0)
      decide (manifest.kind = .skill ∧ manifest.sections = [] ∧ payload.printable = true ∧
        payload.size ≤ 1000)) = some true := by
    decide +kernel
  obtain ⟨manifest, found, held⟩ := Option.map_eq_some_iff.mp small
  obtain ⟨skill, plain, printable, size⟩ := of_decide_eq_true held
  have large : 1000 ≤ 10 ^ maxStrDigits :=
    (by decide : 1000 ≤ 10 ^ 3).trans (Nat.pow_le_pow_right (by decide) (by decide))
  obtain ⟨loaded, answered⟩ := exists_response printable (size.trans large)
  have few := portableTokens_le answered
  have fits : (loaded.1.portableTokens : Int) ≤ (networkLoad mac).maxOutputTokens := by
    have limit : (networkLoad mac).maxOutputTokens = 2000 := rfl
    omega
  have done : loadManifest (fun _ => []) mac networkCatalog offline (networkLoad mac) thousand manifest =
      .ok loaded := loadManifest_skill skill plain rfl rfl answered fits
  refine ⟨loaded, ?_⟩
  rw [CapabilityHubService.load, loadTarget_network found]
  dsimp only
  rw [done]
  rfl

/-- The adapter's call for the skill, with a ledger that counts charges. -/
def dispatchNetwork : Except Raised Delivery × Nat :=
  dispatch (fun _ => []) id ⟨Char.isAlphanum, String.toLower⟩ networkCatalog offline [] (fun _ => 0) thousand
    (fun _ spent => (.ok (), spent + 1)) (fun spent => (.ok (), spent)) (.ok ()) (.load (networkLoad id)) 0

theorem dispatchNetwork_eq_ok : ∃ loaded, (networkCatalog.load (fun _ => []) id offline (networkLoad id)
      thousand (fun _ spent => (.ok (), spent + 1)) (0 : Nat)).result = .ok loaded ∧
    dispatchNetwork.1 = .ok ⟨loadedDict loaded.1, loadedJson loaded.1⟩ := by
  obtain ⟨loaded, done⟩ := @load_network id
  refine ⟨loaded, done, ?_⟩
  rw [dispatchNetwork, dispatch]
  dsimp only
  rw [done]
  rfl

/-- **Metered and delivered.** A search is delivered as it was measured and charged; a load never is. -/
theorem dispatch_metered_iff (sha256 mac : Bytes → Bytes) (text : WordText) (service : CapabilityHubService)
    (context : ServiceContext) (grants : List String) (searchTimes : Nat → ℚ) (loadTimes : LoadTimes)
    {σ : Type} (spend : Budget.RawAmounts → σ → Except Raised Unit × σ)
    (applied : σ → Except Raised Unit × σ) (recorded : Except Raised Unit) (call : MeteredCall) (start : σ)
    (delivery : Delivery)
    (done : (dispatch sha256 mac text service context grants searchTimes loadTimes spend applied recorded call
      start).1 = .ok delivery) :
    Metered spend call (dispatch sha256 mac text service context grants searchTimes loadTimes spend applied
        recorded call start).2 delivery.measured ∧
      ((Metered spend call (dispatch sha256 mac text service context grants searchTimes loadTimes spend applied
          recorded call start).2 delivery.delivered ∧ delivery.delivered = delivery.measured) ↔
        call.IsSearch) := by
  rw [dispatch] at done ⊢
  cases ready : applied start with
  | mk answer ledger =>
      rw [ready] at done
      cases answer with
      | error raised => cases done
      | ok value =>
          cases call with
          | search call =>
              simp only [bind_eq_ok, exists_unit, pure_eq_ok] at done
              obtain ⟨response, found, _, rfl⟩ := done
              obtain ⟨measured, spent, fits⟩ := search_eq_ok found
              have metered := metered_payload measured spent fits
              exact ⟨metered, iff_of_true ⟨metered, Search.searchJson_eq⟩ trivial⟩
          | load call =>
              simp only [bind_eq_ok, exists_unit, pure_eq_ok] at done
              obtain ⟨loaded, found, _, rfl⟩ := done
              obtain ⟨measured, spent, fits⟩ := load_eq_ok found
              exact ⟨metered_loadedDict measured spent fits,
                iff_of_false (fun both => not_metered_loadedJson measured both.1) id⟩

/-- The load of the skill. -/
theorem dispatch_metered_network : ∃ delivery, dispatchNetwork.1 = .ok delivery ∧
    Metered (fun _ spent => (.ok (), spent + 1)) (.load (networkLoad id)) dispatchNetwork.2
      delivery.measured ∧
    ((Metered (fun _ spent => (.ok (), spent + 1)) (.load (networkLoad id)) dispatchNetwork.2
      delivery.delivered ∧ delivery.delivered = delivery.measured) ↔
        (MeteredCall.load (networkLoad id)).IsSearch) := by
  obtain ⟨loaded, _, done⟩ := dispatchNetwork_eq_ok
  exact ⟨_, done, dispatch_metered_iff _ _ _ _ _ _ _ _ _ _ _ _ _ _ done⟩

/-- What is delivered of the skill does not state its own measure. -/
theorem not_metered_network : ∃ delivery, dispatchNetwork.1 = .ok delivery ∧
    ¬Metered (fun _ spent => (.ok (), spent + 1)) (.load (networkLoad id)) dispatchNetwork.2
      delivery.delivered := by
  obtain ⟨loaded, loads, done⟩ := dispatchNetwork_eq_ok
  exact ⟨_, done, not_metered_loadedJson (load_eq_ok loads).1⟩

end CapabilityHub.Service
