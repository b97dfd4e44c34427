import CapabilityHub.Data.Order
import CapabilityHub.Registry.Registry
import CapabilityHub.Search.Ranking
import Mathlib.Data.Prod.Lex
import Mathlib.Data.String.Basic

/-! # Search

`LexicalCapabilitySearch.search`: the active manifests that match are ranked, and cards are packed into the
response while it fits its budgets.
-/

namespace CapabilityHub.Search

/-- `_input`. -/
def inputError (code message : String) : Raised :=
  .hub { code := code, category := .input, safeMessage := message }

/-- `_budget_too_small`. -/
def budgetTooSmall (required : Nat) (maximum : Int) : Raised :=
  .hub {
    code := "search_output_budget_too_small"
    category := .budget
    safeMessage := "The search output budget cannot fit the response envelope."
    details := [("required_tokens", .number required), ("max_output_tokens", .number maximum)] }

/-- `_bytes_too_small`. -/
def bytesTooSmall (required : Nat) (maximum : Int) : Raised :=
  .hub {
    code := "search_output_bytes_too_small"
    category := .budget
    safeMessage := "The search byte budget cannot fit the response envelope."
    details := [("required_bytes", .number required), ("max_output_bytes", .number maximum)] }

/-- What a caller wants at most. -/
structure SearchLimits where
  limit : Int := 8
  maxOutputTokens : Int := 900
  maxOutputBytes : Int := 1000000
  maxCardBytes : Int := 64000
  includeCards : Bool := true

/-- What a caller asks for. -/
structure SearchRequest extends SearchLimits where
  query : String
  scope : String
  kinds : Option (List String) := none
  inventory : Option (List (String × Json)) := none
  allowedRevisions : Option (List String) := none
  /-- `none` where the callback raises. -/
  eligibility : Option (CapabilityManifest → Option SearchEligibility) := none

structure LexicalCapabilitySearch where
  registry : Registry.CapabilityRegistry
  ttl : Int := 300
  ranking : SearchRankingConfig := {}

/-- A manifest that matches. -/
structure Ranked where
  score : Nat
  coordinate : String
  manifest : CapabilityManifest
  reasons : List String

/-! ## The checks of a request -/

/-- `_normalize_kinds`. -/
def normalizeKinds : Option (List String) → Except Raised (Option (List CapabilityKind))
  | none => pure none
  | some kinds => do
      let selected ← kinds.mapM fun kind =>
        match CapabilityKind.all.find? fun known => known.value = kind with
        | some known => .ok known
        | none => .error (inputError "invalid_capability_kind" "Unknown capability kind.")
      pure (some selected)

/-- The checks of `search`, and the kinds that are selected. -/
def checkRequest (request : SearchRequest) : Except Raised (Option (List CapabilityKind)) := do
  raiseIf (request.scope = "") (inputError "invalid_search_scope" "Search scope must be non-empty.")
  raiseIf (request.limit < 1)
    (inputError "invalid_search_limit" "Search limit must be a positive integer.")
  raiseIf (request.maxOutputTokens < 1)
    (inputError "invalid_output_budget" "Search output budget must be a positive integer.")
  raiseIf (request.maxOutputBytes < 1 ∨ request.maxCardBytes < 1)
    (inputError "invalid_byte_budget" "Search byte budgets must be positive integers.")
  normalizeKinds request.kinds

/-! ## Ranking -/

section

variable (text : WordText) (engine : LexicalCapabilitySearch) (request : SearchRequest)
  (selectedKinds : Option (List CapabilityKind)) (queryTerms : List String)

/-- The eligibility of a manifest, with what the callback says. -/
def decideEligibility (manifest : CapabilityManifest) : Except Raised SearchEligibility :=
  let decision := metadataEligibility manifest engine.ranking
  match request.eligibility with
  | none => .ok decision
  | some callback =>
      match callback manifest with
      | none => .error (.hub {
          code := "search_eligibility_failed"
          category := .internal
          safeMessage := "Search eligibility could not be evaluated." })
      | some external => .ok (combineEligibility decision external)

/-- One active revision: how it is ranked, where it is. -/
def rankEntry (entry : String × String) : Except Raised (Option Ranked) :=
  if request.allowedRevisions.any fun allowed => entry.2 ∉ allowed then .ok none
  else do
    let manifest ← engine.registry.revision entry.2
    if selectedKinds.any fun kinds => manifest.kind ∉ kinds then .ok none
    else do
      let decision ← decideEligibility engine request manifest
      if decision.eligible = false then .ok none
      else
        let scored := scoreOf text engine.ranking.weights manifest queryTerms
        .ok (if queryTerms ≠ [] ∧ scored.1 = 0 then none
          else some ⟨scored.1, entry.1, manifest, scored.2⟩)

/-- The manifests that match, the best ones first. -/
def rankAll : Except Raised (List Ranked) := do
  let ranked ← (sortedBy Prod.fst engine.registry.active.entries).mapM fun entry =>
    rankEntry text engine request selectedKinds queryTerms entry
  pure (sortedBy (fun entry => toLex (-(entry.score : Int),
    toLex (entry.coordinate, entry.manifest.identity.revision))) ranked.reduceOption)

end

/-! ## Packing -/

/-- The sum of the section sizes that a manifest declares. -/
def declaredTokens (manifest : CapabilityManifest) : Int :=
  manifest.sections.foldl (fun total entry => total + entry.portableTokens) 0

/-- The card of a manifest. -/
def cardOf (ranked : Ranked) (capabilityRef : String) : SearchCard where
  capabilityRef := capabilityRef
  revision := ranked.manifest.identity.revision
  kind := ranked.manifest.kind
  summary := ranked.manifest.summary
  operations := ranked.manifest.operations.map OperationSpec.name
  risk := maximumSideEffect ranked.manifest.operations
  trustTier := ranked.manifest.trustTier
  estimatedLoadTokens := declaredTokens ranked.manifest
  matchReason := if ranked.reasons = [] then ["active_catalog"] else ranked.reasons

/-- How far the packing has come. -/
structure Packed where
  cards : List SearchCard
  truncated : Bool
  omitted : Bool

section

variable (issueAt : Nat → String → Except Raised String) (limits : SearchLimits) (envelope : Envelope)

/-- The loop over the ranked manifests. `issueAt` gives the reference of a revision in a round, and the
envelope says what every response of this search says. -/
def pack : Nat → Packed → List Ranked → Except Raised Packed
  | _, packed, [] => .ok packed
  | round, packed, ranked :: rest =>
      if packed.cards.length = limits.limit then .ok { packed with truncated := true }
      else do
        let capabilityRef ← issueAt round ranked.manifest.identity.revision
        let card := cardOf ranked capabilityRef
        let size ← measureJson (cardDict card)
        if limits.maxCardBytes < size.utf8Bytes then
          pack (round + 1) { packed with omitted := true } rest
        else do
          let candidate ← response
            { envelope with cards := packed.cards ++ [card], truncated := !rest.isEmpty }
          if limits.maxOutputTokens < candidate.portableTokens ∨
              limits.maxOutputBytes < candidate.payloadBytes then .ok { packed with truncated := true }
          else pack (round + 1) { packed with cards := packed.cards ++ [card] } rest

/-- The response with the cards of the ranked manifests. -/
def packAll (ranked : List Ranked) : Except Raised SearchResponse := do
  let packed ← pack issueAt limits envelope 0
    ⟨[], limits.includeCards && decide (limits.limit < ranked.length), false⟩
    (if limits.includeCards then ranked else [])
  let answer ← response
    { envelope with cards := packed.cards, truncated := packed.truncated || packed.omitted }
  raiseIf (limits.maxOutputTokens < answer.portableTokens)
    (budgetTooSmall answer.portableTokens limits.maxOutputTokens)
  raiseIf (limits.maxOutputBytes < answer.payloadBytes)
    (bytesTooSmall answer.payloadBytes limits.maxOutputBytes)
  pure answer

end

/-- What every response about some ranked manifests says. -/
def envelopeOf (ranked : List Ranked) (inventory : Option (List (String × Json))) : Envelope where
  cards := []
  totalMatches := ranked.length
  kindCounts := CapabilityKind.all.map fun kind =>
    (kind.value, (ranked.filter fun entry => entry.manifest.kind = kind).length)
  inventory := inventory

/-- `search`. -/
def LexicalCapabilitySearch.search (text : WordText) (issueAt : Nat → String → Except Raised String)
    (engine : LexicalCapabilitySearch) (request : SearchRequest) : Except Raised SearchResponse := do
  let selectedKinds ← checkRequest request
  let ranked ← rankAll text engine request selectedKinds (tokens text request.query).dedup
  packAll issueAt request.toSearchLimits (envelopeOf ranked request.inventory) ranked

end CapabilityHub.Search
