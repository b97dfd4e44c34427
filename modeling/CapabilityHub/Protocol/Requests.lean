import CapabilityHub.Data.Checks
import CapabilityHub.Data.Json
import CapabilityHub.Data.Order
import CapabilityHub.Errors
import CapabilityHub.Text.Unicode
import Mathlib.Data.String.Basic

/-! # Requests of the client protocol

`parse_request` with the feature handshake that it negotiates. A request is read inside of a guard,
which turns what Python raises there into an error of the hub; the envelope is built after it.
-/

namespace CapabilityHub.Protocol

/-- What a statement may raise. -/
inductive Fault where
  | hub (error : CapabilityHubError)
  | keyError
  | typeError
  | valueError
  | recursionError
  deriving DecidableEq

/-! ## Handshakes -/

/-- What `_unique_non_empty` passes. -/
def UniqueNonEmpty (values : List String) : Prop := "" ∉ values ∧ values.Nodup

instance (values : List String) : Decidable (UniqueNonEmpty values) := inferInstanceAs (Decidable (_ ∧ _))

/-- What `FeatureHandshake` admits. -/
structure Advertisable (apiVersions supportedFeatures requiredFeatures : List String) : Prop where
  versions : apiVersions ≠ [] ∧ UniqueNonEmpty apiVersions
  features : supportedFeatures ≠ [] ∧ UniqueNonEmpty supportedFeatures
  required : UniqueNonEmpty requiredFeatures
  supported : requiredFeatures ⊆ supportedFeatures

structure FeatureHandshake where
  apiVersions : List String
  supportedFeatures : List String
  requiredFeatures : List String
  advertisable : Advertisable apiVersions supportedFeatures requiredFeatures

/-- `_unique_non_empty`. -/
def uniqueNonEmpty (values : List String) (allowEmpty : Bool) : Except Fault Unit := do
  raiseIf (values = [] ∧ allowEmpty = false) .valueError
  raiseIf ("" ∈ values) .valueError
  raiseIf (¬values.Nodup) .valueError

/-- `FeatureHandshake.__post_init__`. -/
def checkHandshake (apiVersions supportedFeatures requiredFeatures : List String) :
    Except Fault Unit := do
  uniqueNonEmpty apiVersions false
  uniqueNonEmpty supportedFeatures false
  uniqueNonEmpty requiredFeatures true
  raiseIf (¬requiredFeatures ⊆ supportedFeatures) .valueError

theorem uniqueNonEmpty_eq_ok {values : List String} {allowEmpty : Bool} :
    uniqueNonEmpty values allowEmpty = .ok () ↔
      (allowEmpty = false → values ≠ []) ∧ UniqueNonEmpty values := by
  rw [uniqueNonEmpty, UniqueNonEmpty]
  simp only [bind_eq_ok, exists_unit, raiseIf_eq_ok, not_and, not_not]
  tauto

theorem checkHandshake_eq_ok {apiVersions supportedFeatures requiredFeatures : List String} :
    checkHandshake apiVersions supportedFeatures requiredFeatures = .ok () ↔
      Advertisable apiVersions supportedFeatures requiredFeatures := by
  rw [checkHandshake]
  simp only [bind_eq_ok, exists_unit, uniqueNonEmpty_eq_ok, raiseIf_eq_ok, not_not, forall_const,
    Bool.true_eq_false, IsEmpty.forall_iff, true_and]
  constructor
  · rintro ⟨versions, supported, required, inside⟩
    exact ⟨versions, supported, required, inside⟩
  · rintro ⟨versions, supported, required, inside⟩
    exact ⟨versions, supported, required, inside⟩

/-- `FeatureHandshake(...)`. -/
def handshakeOf (apiVersions supportedFeatures requiredFeatures : List String) :
    Except Fault FeatureHandshake :=
  match checked : checkHandshake apiVersions supportedFeatures requiredFeatures with
  | .error fault => .error fault
  | .ok () => .ok ⟨apiVersions, supportedFeatures, requiredFeatures, checkHandshake_eq_ok.mp checked⟩

/-- `STREAMING` -/
def streaming : String := "transport.streaming"

/-- `CANCELLATION` -/
def cancellation : String := "transport.cancellation"

structure CompatibilityDecision where
  compatible : Bool
  selectedApiVersion : Option String
  enabledFeatures : List String
  unsupportedClientRequired : List String
  unsupportedServerRequired : List String
  ignoredClientOptional : List String
  reasonCodes : List String

/-- `decide_compatibility`. -/
def decideCompatibility (client server : FeatureHandshake) : CompatibilityDecision :=
  let selected := client.apiVersions.find? fun version => version ∈ server.apiVersions
  let unsupportedClient := sortedSet
    (client.requiredFeatures.filter fun feature => feature ∉ server.supportedFeatures)
  let unsupportedServer := sortedSet
    (server.requiredFeatures.filter fun feature => feature ∉ client.supportedFeatures)
  let reasons := (if selected = none then ["no_shared_api_version"] else []) ++
    (if unsupportedClient ≠ [] then ["unsupported_client_required_feature"] else []) ++
    (if unsupportedServer ≠ [] then ["unsupported_server_required_feature"] else [])
  { compatible := reasons = []
    selectedApiVersion := selected
    enabledFeatures :=
      if selected.getD "" = "" then []
      else sortedSet (client.supportedFeatures.filter fun feature => feature ∈ server.supportedFeatures)
    unsupportedClientRequired := unsupportedClient
    unsupportedServerRequired := unsupportedServer
    ignoredClientOptional := sortedSet (client.supportedFeatures.filter fun feature =>
      feature ∉ client.requiredFeatures ∧ feature ∉ server.supportedFeatures)
    reasonCodes := if reasons = [] then ["compatible"] else reasons }

structure ProtocolNegotiation where
  decision : CompatibilityDecision
  streaming : Bool
  cancellation : Bool

/-- `negotiate_protocol`. -/
def negotiateProtocol (client server : FeatureHandshake) : Except Fault ProtocolNegotiation := do
  let decision := decideCompatibility client server
  raiseIf (decision.compatible = false) (.hub {
    code := "incompatible_protocol"
    category := .input
    safeMessage := "Client and server protocol features are incompatible."
    details := [("reason_codes", .texts decision.reasonCodes),
      ("unsupported_client_required", .texts decision.unsupportedClientRequired),
      ("unsupported_server_required", .texts decision.unsupportedServerRequired)] })
  pure ⟨decision, streaming ∈ decision.enabledFeatures, cancellation ∈ decision.enabledFeatures⟩

/-! ## Envelopes -/

inductive AdapterKind where
  | cli
  | mcp
  | http
  | library

/-- What `_validate_identifier` passes. -/
def IsIdentifier (value : String) : Prop :=
  value ≠ "" ∧ value.length ≤ 256 ∧ value.toList.any isSpace = false

instance (value : String) : Decidable (IsIdentifier value) := inferInstanceAs (Decidable (_ ∧ _))

/-- `_validate_identifier`. -/
def validateIdentifier (value : String) : Except Fault Unit :=
  raiseIf (value = "" ∨ 256 < value.length ∨ value.toList.any isSpace = true) .valueError

theorem validateIdentifier_eq_ok {value : String} :
    validateIdentifier value = .ok () ↔ IsIdentifier value := by
  rw [validateIdentifier, raiseIf_eq_ok, not_or, not_or, Nat.not_lt, Bool.not_eq_true]
  rfl

/-- What `parse_request` reads inside of its guard. -/
structure RequestParts where
  handshake : FeatureHandshake
  requestId : String
  correlationId : String
  operation : String
  payload : List (String × Json)
  stream : Bool
  cancelTarget : Option String

/-- What `RequestEnvelope` admits. -/
structure RequestParts.Identified (parts : RequestParts) : Prop where
  requestId : IsIdentifier parts.requestId
  correlationId : IsIdentifier parts.correlationId
  operation : IsIdentifier parts.operation
  cancelTarget : ∀ target, parts.cancelTarget = some target → IsIdentifier target

structure RequestEnvelope where
  adapter : AdapterKind
  parts : RequestParts
  negotiation : ProtocolNegotiation
  identified : parts.Identified

/-- `RequestEnvelope.__post_init__`. -/
def checkEnvelope (parts : RequestParts) : Except Fault Unit := do
  validateIdentifier parts.requestId
  validateIdentifier parts.correlationId
  validateIdentifier parts.operation
  match parts.cancelTarget with
  | none => pure ()
  | some target => validateIdentifier target

theorem checkEnvelope_eq_ok {parts : RequestParts} : checkEnvelope parts = .ok () ↔ parts.Identified := by
  rw [checkEnvelope]
  simp only [bind_eq_ok, exists_unit, validateIdentifier_eq_ok]
  constructor
  · rintro ⟨request, correlation, operation, target⟩
    refine ⟨request, correlation, operation, fun name given => ?_⟩
    rw [given] at target
    exact validateIdentifier_eq_ok.mp target
  · rintro ⟨request, correlation, operation, target⟩
    refine ⟨request, correlation, operation, ?_⟩
    split
    · rfl
    next name given => exact validateIdentifier_eq_ok.mpr (target name given)

/-- `RequestEnvelope(...)`. -/
def envelopeOf (adapter : AdapterKind) (parts : RequestParts) (negotiation : ProtocolNegotiation) :
    Except Fault RequestEnvelope :=
  match checked : checkEnvelope parts with
  | .error fault => .error fault
  | .ok () => .ok ⟨adapter, parts, negotiation, checkEnvelope_eq_ok.mp checked⟩

/-! ## Reading -/

/-- `raw[key]`. -/
def item (raw : List (String × Json)) (key : String) : Except Fault Json :=
  match mappingGet raw key with
  | some value => .ok value
  | none => .error .keyError

/-- `raw.get(key, default)`. -/
def itemOr (raw : List (String × Json)) (key : String) (default : Json) : Json :=
  (mappingGet raw key).getD default

/-- `_mapping`. -/
def mapping : Json → Except Fault (List (String × Json))
  | .obj fields => .ok fields
  | _ => .error .typeError

/-- `_string`. -/
def string : Json → Except Fault String
  | .str text => .ok text
  | _ => .error .typeError

/-- `_boolean`. -/
def boolean : Json → Except Fault Bool
  | .bool given => .ok given
  | _ => .error .typeError

/-- `_strings`. -/
def strings (value : Json) (allowEmpty : Bool) : Except Fault (List String) :=
  match value with
  | .arr items => do
      let texts ← items.mapM string
      raiseIf (texts = [] ∧ allowEmpty = false) .valueError
      pure texts
  | _ => .error .typeError

mutual

/-- `_json_value`. Its calls nest at most as deep as the stack has room. -/
def jsonValue (room : Nat) (value : Json) : Except Fault Json :=
  match room with
  | 0 => .error .recursionError
  | room + 1 =>
      match value with
      | .arr items => do
          let copies ← jsonItems room items
          pure (.arr copies)
      | .obj fields => do
          let copies ← jsonFields room fields
          pure (.obj copies)
      | value => .ok value

def jsonItems (room : Nat) (items : List Json) : Except Fault (List Json) :=
  match items with
  | [] => .ok []
  | first :: rest => do
      let copy ← jsonValue room first
      let copies ← jsonItems room rest
      pure (copy :: copies)

def jsonFields (room : Nat) (fields : List (String × Json)) : Except Fault (List (String × Json)) :=
  match fields with
  | [] => .ok []
  | first :: rest => do
      let copy ← jsonValue room first.2
      let copies ← jsonFields room rest
      pure ((first.1, copy) :: copies)

end

/-- `_json_mapping`. -/
def jsonMapping (room : Nat) (value : Json) : Except Fault (List (String × Json)) := do
  let fields ← mapping value
  jsonFields room fields

/-- The handshake of a request. -/
def readHandshake (raw : List (String × Json)) : Except Fault FeatureHandshake := do
  let given ← item raw "handshake"
  let fields ← mapping given
  let apiVersions ← item fields "api_versions"
  let apiVersions ← strings apiVersions false
  let supportedFeatures ← item fields "supported_features"
  let supportedFeatures ← strings supportedFeatures false
  let requiredFeatures ← strings (itemOr fields "required_features" (.arr [])) true
  handshakeOf apiVersions supportedFeatures requiredFeatures

/-- The text under a key that has to be there. -/
def readText (raw : List (String × Json)) (key : String) : Except Fault String := do
  let given ← item raw key
  string given

/-- The target of a cancellation, if there is one. -/
def readCancelTarget (raw : List (String × Json)) : Except Fault (Option String) :=
  match itemOr raw "cancel_target" .null with
  | .null => .ok none
  | given => do
      let target ← string given
      pure (some target)

/-- The `try` of `parse_request`. -/
def readParts (room : Nat) (raw : List (String × Json)) : Except Fault RequestParts := do
  let handshake ← readHandshake raw
  let requestId ← readText raw "request_id"
  let correlationId ← readText raw "correlation_id"
  let operation ← readText raw "operation"
  let payload ← jsonMapping room (itemOr raw "payload" (.obj []))
  let stream ← boolean (itemOr raw "stream" (.bool false))
  let cancelTarget ← readCancelTarget raw
  pure ⟨handshake, requestId, correlationId, operation, payload, stream, cancelTarget⟩

def invalidRequestEnvelope : CapabilityHubError where
  code := "invalid_request_envelope"
  category := .input
  safeMessage := "The request envelope is invalid."

/-- `except (KeyError, TypeError, ValueError)`. -/
def guarded {α : Type} : Except Fault α → Except Fault α
  | .error .keyError | .error .typeError | .error .valueError => .error (.hub invalidRequestEnvelope)
  | outcome => outcome

/-- `parse_request`, with room for so many nested calls of `_json_value`. -/
def parseRequest (room : Nat) (adapter : AdapterKind) (raw : List (String × Json))
    (server : FeatureHandshake) : Except Fault RequestEnvelope := do
  let parts ← guarded (readParts room raw)
  let negotiation ← negotiateProtocol parts.handshake server
  raiseIf (parts.stream = true ∧ negotiation.streaming = false) (.hub {
    code := "streaming_not_negotiated"
    category := .input
    safeMessage := "Streaming was requested but was not negotiated." })
  raiseIf (parts.cancelTarget ≠ none ∧ negotiation.cancellation = false) (.hub {
    code := "cancellation_not_negotiated"
    category := .input
    safeMessage := "Cancellation was requested but was not negotiated." })
  envelopeOf adapter parts negotiation

end CapabilityHub.Protocol
