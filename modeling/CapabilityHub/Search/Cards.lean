import CapabilityHub.Data.Checks
import CapabilityHub.Data.JsonSize
import CapabilityHub.Errors
import CapabilityHub.Models

/-! # Search cards

`search.py`. A response states its own measure (`CapabilityHub.Search.response_eq_ok`), as the transports
deliver it.
-/

namespace CapabilityHub

/-- The place of a side effect in the order of `maximum_side_effect`. -/
def SideEffect.order : SideEffect → Nat
  | .none => 0
  | .read => 1
  | .reversibleWrite => 2
  | .irreversible => 3

/-- `maximum_side_effect`. -/
def maximumSideEffect (operations : List OperationSpec) : SideEffect :=
  operations.foldl (fun greatest operation =>
    if greatest.order < operation.sideEffect.order then operation.sideEffect else greatest) .none

/-- `measure_text` of `canonical_json`, which raises at an integer with too many digits. -/
def measureJson (value : Json) : Except Raised PayloadMeasurement := do
  raiseIf (value.printable = false) .valueError
  pure (measureText (canonicalJson value))

theorem measureJson_eq_ok {value : Json} {found : PayloadMeasurement} (done : measureJson value = .ok found) :
    found = measureText (canonicalJson value) := by
  simp only [measureJson, bind_eq_ok, exists_unit, raiseIf_eq_ok, pure_eq_ok] at done
  exact done.2.symm

/-- What four rounds find is the measure of the payload that states it, if only the digits of what it states
make the payload longer. -/
theorem measured_of_settleM {payload : PayloadMeasurement → Json} {written : PayloadMeasurement → Nat}
    {known : PayloadMeasurement} (slow : Slow fun bytes => written (measureOf bytes))
    (low : ∀ bytes, written ⟨0, 0⟩ ≤ written (measureOf bytes)) (large : written ⟨0, 0⟩ ≤ (payload ⟨0, 0⟩).size)
    (sized : ∀ known, (payload known).size + written ⟨0, 0⟩ = (payload ⟨0, 0⟩).size + written known)
    (settled : settleM (fun known => measureJson (payload known)) 4 ⟨0, 0⟩ = .ok known) :
    measureText (canonicalJson (payload known)) = known := by
  obtain ⟨base, sized⟩ : ∃ base, ∀ known, (payload known).size = base + written known := by
    refine ⟨(payload ⟨0, 0⟩).size - written ⟨0, 0⟩, fun known => ?_⟩
    have here := sized known
    omega
  have agrees (known found : PayloadMeasurement) (done : measureJson (payload known) = .ok found) :
      found = measureOf (base + written known) := by
    rw [measureJson_eq_ok done, measureText_canonicalJson, sized]
  have known_eq := settle_of_settleM agrees settled
  have fixed := @settle_measured written base slow (low _)
  rw [known_eq] at fixed
  rw [measureText_canonicalJson, sized]
  exact fixed

namespace Search

structure SearchCard where
  capabilityRef : String
  revision : String
  kind : CapabilityKind
  summary : String
  operations : List String
  risk : SideEffect
  trustTier : String
  estimatedLoadTokens : Int
  matchReason : List String

/-- `_card_dict`. -/
def cardDict (card : SearchCard) : Json := .obj [
  ("capability_ref", .str card.capabilityRef),
  ("estimated_load_tokens", .int card.estimatedLoadTokens), ("kind", .str card.kind.value),
  ("match_reason", .arr (card.matchReason.map .str)), ("operations", .arr (card.operations.map .str)),
  ("revision", .str card.revision), ("risk", .str card.risk.value), ("summary", .str card.summary),
  ("trust_tier", .str card.trustTier)]

/-- What a response says besides its measure. -/
structure Envelope where
  cards : List SearchCard
  truncated : Bool := false
  totalMatches : Nat := 0
  kindCounts : List (String × Nat) := []
  inventory : Option (List (String × Json)) := none

structure SearchResponse extends Envelope where
  portableTokens : Nat
  payloadBytes : Nat

/-- The inventory of a response, if it has one. -/
def inventoryFields : Option (List (String × Json)) → List (String × Json)
  | none => []
  | some inventory => [("inventory", .obj inventory)]

/-- The counts of kinds as an object. -/
def countsJson (kindCounts : List (String × Nat)) : Json :=
  .obj (kindCounts.map fun counted => (counted.1, .int counted.2))

/-- The object that `_response` measures in a round. -/
def Envelope.payload (envelope : Envelope) (known : PayloadMeasurement) : Json := .obj ([
  ("cards", .arr (envelope.cards.map cardDict)), ("kind_counts", countsJson envelope.kindCounts),
  ("payload_bytes", .int known.utf8Bytes), ("portable_tokens", .int known.portableTokens),
  ("total_matches", .int envelope.totalMatches), ("truncated", .bool envelope.truncated)] ++
  inventoryFields envelope.inventory)

/-- `_response`. -/
def response (envelope : Envelope) : Except Raised SearchResponse := do
  let known ← settleM (fun known => measureJson (envelope.payload known)) 4 ⟨0, 0⟩
  pure { envelope with portableTokens := known.portableTokens, payloadBytes := known.utf8Bytes }

/-- `_card_json`. -/
def cardJson (card : SearchCard) : Json := .obj [
  ("capability_ref", .str card.capabilityRef),
  ("estimated_load_tokens", .int card.estimatedLoadTokens), ("kind", .str card.kind.value),
  ("match_reason", .arr (card.matchReason.map .str)), ("operations", .arr (card.operations.map .str)),
  ("revision", .str card.revision), ("risk", .str card.risk.value), ("summary", .str card.summary),
  ("trust_tier", .str card.trustTier)]

/-- `_search_json`. -/
def searchJson (response : SearchResponse) : Json := .obj ([
  ("cards", .arr (response.cards.map cardJson)), ("kind_counts", countsJson response.kindCounts),
  ("payload_bytes", .int response.payloadBytes), ("portable_tokens", .int response.portableTokens),
  ("total_matches", .int response.totalMatches), ("truncated", .bool response.truncated)] ++
  inventoryFields response.inventory)

/-! ## Measured responses -/

variable {envelope : Envelope} {answer : SearchResponse}

/-- The digits of the numbers that a response states of itself. -/
def ownDigits (known : PayloadMeasurement) : Nat :=
  decimals known.portableTokens + decimals known.utf8Bytes

/-- Only the digits of its own measure make the payload of a response longer. -/
theorem size_payload (known : PayloadMeasurement) :
    (envelope.payload known).size + ownDigits ⟨0, 0⟩ = (envelope.payload ⟨0, 0⟩).size + ownDigits known := by
  simp only [Envelope.payload, List.cons_append, List.nil_append, size_obj, fieldsSize, size_natCast,
    ownDigits]
  omega

/-- **A measured response.** What is returned states the measure of the payload that states it. -/
theorem response_eq_ok (done : response envelope = .ok answer) :
    answer.toEnvelope = envelope ∧
      measureText (canonicalJson (envelope.payload ⟨answer.payloadBytes, answer.portableTokens⟩)) =
        ⟨answer.payloadBytes, answer.portableTokens⟩ := by
  simp only [response, bind_eq_ok, pure_eq_ok] at done
  obtain ⟨known, settled, rfl⟩ := done
  have large : 2 ≤ (envelope.payload ⟨0, 0⟩).size := by
    rw [Envelope.payload, Json.size]
    exact Nat.le_add_left 2 _
  have low (bytes : Nat) : ownDigits ⟨0, 0⟩ ≤ ownDigits (measureOf bytes) :=
    Nat.add_le_add (decimals_mono (Nat.zero_le _)) (decimals_mono (Nat.zero_le _))
  exact ⟨rfl, measured_of_settleM slow_bothDecimals low large size_payload settled⟩

theorem cardJson_eq (card : SearchCard) : cardJson card = cardDict card := rfl

/-- What is delivered of a response is what was measured. -/
theorem searchJson_eq : searchJson answer =
    answer.payload ⟨answer.payloadBytes, answer.portableTokens⟩ := rfl

end Search

end CapabilityHub
