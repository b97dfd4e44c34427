import CapabilityHub.Protocol.Requests

/-! # Which requests are answered

A request is answered by an envelope with its own fields or by an error of the hub. The constructor of
the envelope checks identifiers after the guard, and a deep payload exhausts the stack inside of it;
`CapabilityHub.Protocol.parseRequest_answered_iff` says for which requests nothing else is raised.
-/

namespace CapabilityHub.Protocol

variable {raw fields : List (String × Json)} {parts : RequestParts} {server client : FeatureHandshake}
  {adapter : AdapterKind} {room : Nat} {value : Json} {fault : Fault} {key text : String}

/-! ## What a request says -/

/-- The members of a handshake say what it advertises. -/
structure Advertises (fields : List (String × Json)) (handshake : FeatureHandshake) : Prop where
  apiVersions : mappingGet fields "api_versions" = some (.arr (handshake.apiVersions.map .str))
  supportedFeatures :
    mappingGet fields "supported_features" = some (.arr (handshake.supportedFeatures.map .str))
  requiredFeatures :
    itemOr fields "required_features" (.arr []) = .arr (handshake.requiredFeatures.map .str)

/-- The members of a request up to its payload. -/
structure ReadsFront (raw : List (String × Json)) (parts : RequestParts) : Prop where
  handshake : ∃ fields, mappingGet raw "handshake" = some (.obj fields) ∧
    Advertises fields parts.handshake
  requestId : mappingGet raw "request_id" = some (.str parts.requestId)
  correlationId : mappingGet raw "correlation_id" = some (.str parts.correlationId)
  operation : mappingGet raw "operation" = some (.str parts.operation)
  payload : itemOr raw "payload" (.obj []) = .obj parts.payload

/-- All members of a request. -/
structure Reads (raw : List (String × Json)) (parts : RequestParts) : Prop
    extends ReadsFront raw parts where
  stream : itemOr raw "stream" (.bool false) = .bool parts.stream
  cancelTarget : itemOr raw "cancel_target" .null = (parts.cancelTarget.map Json.str).getD .null

/-- Both sides support a feature. -/
def Shared (client server : FeatureHandshake) (feature : String) : Prop :=
  feature ∈ client.supportedFeatures ∧ feature ∈ server.supportedFeatures

/-- The sides share a version, and each supports what the other one requires. -/
structure Compatible (client server : FeatureHandshake) : Prop where
  version : ∃ version ∈ client.apiVersions, version ∈ server.apiVersions
  clientRequired : client.requiredFeatures ⊆ server.supportedFeatures
  serverRequired : server.requiredFeatures ⊆ client.supportedFeatures

/-- The sides negotiate what a request asks for. -/
structure Negotiable (parts : RequestParts) (server : FeatureHandshake) : Prop
    extends Compatible parts.handshake server where
  stream : parts.stream = true → Shared parts.handshake server streaming
  cancelTarget : parts.cancelTarget ≠ none → Shared parts.handshake server cancellation

/-- An envelope for the request. -/
structure Faithful (adapter : AdapterKind) (raw : List (String × Json)) (server : FeatureHandshake)
    (envelope : RequestEnvelope) : Prop where
  adapter : envelope.adapter = adapter
  reads : Reads raw envelope.parts
  negotiable : Negotiable envelope.parts server
  streaming : envelope.negotiation.streaming = true ↔ Shared envelope.parts.handshake server streaming
  cancellation :
    envelope.negotiation.cancellation = true ↔ Shared envelope.parts.handshake server cancellation

/-- The request has an envelope, or the hub has an error for it. -/
def Answered (adapter : AdapterKind) (raw : List (String × Json)) (server : FeatureHandshake) :
    Except Fault RequestEnvelope → Prop
  | .ok envelope => Faithful adapter raw server envelope
  | .error fault => ∃ error, fault = .hub error

mutual

/-- How deep the calls of `_json_value` nest. -/
def nesting : Json → Nat
  | .arr items => nestingItems items + 1
  | .obj fields => nestingFields fields + 1
  | .null | .bool _ | .int _ | .str _ => 1

def nestingItems : List Json → Nat
  | [] => 0
  | first :: rest => max (nesting first) (nestingItems rest)

def nestingFields : List (String × Json) → Nat
  | [] => 0
  | first :: rest => max (nesting first.2) (nestingFields rest)

end

/-- The stack has room for the payload, and the identifiers of a request that is negotiated are
valid. -/
structure Contained (room : Nat) (raw : List (String × Json)) (server : FeatureHandshake) : Prop where
  payload : ∀ parts, ReadsFront raw parts → nestingFields parts.payload ≤ room
  identified : ∀ parts, Reads raw parts → Negotiable parts server → parts.Identified

/-! ## Reading -/

mutual

theorem jsonValue_eq : ∀ (room : Nat) (value : Json), jsonValue room value =
    if nesting value ≤ room then .ok value else .error .recursionError
  | 0, value => by
      have deep : ¬nesting value ≤ 0 := by
        cases value <;> simp [nesting]
      rw [jsonValue, if_neg deep]
  | room + 1, .arr items => by
      rw [jsonValue, jsonItems_eq room items, nesting]
      simp only [Nat.add_le_add_iff_right]
      split <;> rfl
  | room + 1, .obj fields => by
      rw [jsonValue, jsonFields_eq room fields, nesting]
      simp only [Nat.add_le_add_iff_right]
      split <;> rfl
  | room + 1, .null => by rw [jsonValue, nesting, if_pos (Nat.le_add_left 1 room)]; all_goals simp
  | room + 1, .bool _ => by rw [jsonValue, nesting, if_pos (Nat.le_add_left 1 room)]; all_goals simp
  | room + 1, .int _ => by rw [jsonValue, nesting, if_pos (Nat.le_add_left 1 room)]; all_goals simp
  | room + 1, .str _ => by rw [jsonValue, nesting, if_pos (Nat.le_add_left 1 room)]; all_goals simp

theorem jsonItems_eq : ∀ (room : Nat) (items : List Json), jsonItems room items =
    if nestingItems items ≤ room then .ok items else .error .recursionError
  | room, [] => by rw [jsonItems, nestingItems, if_pos (Nat.zero_le room)]
  | room, first :: rest => by
      rw [jsonItems, jsonValue_eq room first, jsonItems_eq room rest, nestingItems]
      by_cases fits : nesting first ≤ room
      · by_cases fits' : nestingItems rest ≤ room
        · rw [if_pos fits, if_pos fits', if_pos (Nat.max_le.mpr ⟨fits, fits'⟩)]
          rfl
        · rw [if_pos fits, if_neg fits', if_neg fun both => fits' (Nat.max_le.mp both).2]
          rfl
      · rw [if_neg fits, if_neg fun both => fits (Nat.max_le.mp both).1]
        rfl

theorem jsonFields_eq : ∀ (room : Nat) (fields : List (String × Json)), jsonFields room fields =
    if nestingFields fields ≤ room then .ok fields else .error .recursionError
  | room, [] => by rw [jsonFields, nestingFields, if_pos (Nat.zero_le room)]
  | room, first :: rest => by
      rw [jsonFields, jsonValue_eq room first.2, jsonFields_eq room rest, nestingFields]
      by_cases fits : nesting first.2 ≤ room
      · by_cases fits' : nestingFields rest ≤ room
        · rw [if_pos fits, if_pos fits', if_pos (Nat.max_le.mpr ⟨fits, fits'⟩)]
          rfl
        · rw [if_pos fits, if_neg fits', if_neg fun both => fits' (Nat.max_le.mp both).2]
          rfl
      · rw [if_neg fits, if_neg fun both => fits (Nat.max_le.mp both).1]
        rfl

end

theorem item_eq_ok : item raw key = .ok value ↔ mappingGet raw key = some value := by
  rw [item]
  cases mappingGet raw key <;> simp

theorem mapping_eq_ok : mapping value = .ok fields ↔ value = .obj fields := by
  cases value <;> simp [mapping]

theorem string_eq_ok : string value = .ok text ↔ value = .str text := by
  cases value <;> simp [string]

theorem boolean_eq_ok {given : Bool} : boolean value = .ok given ↔ value = .bool given := by
  cases value <;> simp [boolean]

theorem mapM_string_eq_ok {items : List Json} {texts : List String} :
    items.mapM string = .ok texts ↔ items = texts.map Json.str := by
  induction items generalizing texts with
  | nil => cases texts <;> simp [pure, Except.pure]
  | cons first rest ih =>
      rw [mapM_cons_eq_ok]
      simp only [string_eq_ok, ih]
      constructor
      · rintro ⟨text, others, rfl, rfl, rfl⟩
        rfl
      · intro same
        cases texts with
        | nil => cases same
        | cons text others =>
            rw [List.map_cons, List.cons.injEq] at same
            exact ⟨text, others, same.1, same.2, rfl⟩

theorem strings_eq_ok {allowEmpty : Bool} {texts : List String} :
    strings value allowEmpty = .ok texts ↔
      value = .arr (texts.map Json.str) ∧ (allowEmpty = false → texts ≠ []) := by
  cases value with
  | arr items =>
      rw [strings]
      simp only [bind_eq_ok, mapM_string_eq_ok, exists_unit, raiseIf_eq_ok, pure_eq_ok, not_and]
      constructor
      · rintro ⟨given, rfl, present, rfl⟩
        exact ⟨rfl, fun demanded empty => present empty demanded⟩
      · rintro ⟨same, present⟩
        exact ⟨texts, Json.arr.inj same, fun empty demanded => present demanded empty, rfl⟩
  | _ => simp [strings]

theorem handshakeOf_eq_ok {apiVersions supportedFeatures requiredFeatures : List String} :
    handshakeOf apiVersions supportedFeatures requiredFeatures = .ok client ↔
      client.apiVersions = apiVersions ∧ client.supportedFeatures = supportedFeatures ∧
        client.requiredFeatures = requiredFeatures := by
  unfold handshakeOf
  split
  next fault checked =>
    constructor
    · intro same
      cases same
    · rintro ⟨rfl, rfl, rfl⟩
      rw [checkHandshake_eq_ok.mpr client.advertisable] at checked
      cases checked
  next checked =>
    rw [Except.ok.injEq]
    constructor
    · rintro rfl
      exact ⟨rfl, rfl, rfl⟩
    · rintro ⟨rfl, rfl, rfl⟩
      rfl

theorem readHandshake_eq_ok : readHandshake raw = .ok client ↔
    ∃ fields, mappingGet raw "handshake" = some (.obj fields) ∧ Advertises fields client := by
  rw [readHandshake]
  simp only [bind_eq_ok, item_eq_ok, mapping_eq_ok, strings_eq_ok, handshakeOf_eq_ok]
  constructor
  · rintro ⟨_, given, fields, rfl, _, versions, texts, ⟨rfl, _⟩, _, features, texts', ⟨rfl, _⟩,
      texts'', ⟨required, _⟩, rfl, rfl, rfl⟩
    exact ⟨fields, given, versions, features, required⟩
  · rintro ⟨fields, given, versions, features, required⟩
    have advertisable := client.advertisable
    exact ⟨_, given, fields, rfl, _, versions, _, ⟨rfl, fun _ => advertisable.versions.1⟩, _, features, _,
      ⟨rfl, fun _ => advertisable.features.1⟩, _, ⟨required, fun never => by cases never⟩, rfl, rfl, rfl⟩

theorem readText_eq_ok : readText raw key = .ok text ↔ mappingGet raw key = some (.str text) := by
  rw [readText]
  simp only [bind_eq_ok, item_eq_ok, string_eq_ok]
  exact ⟨fun ⟨_, given, same⟩ => same ▸ given, fun given => ⟨_, given, rfl⟩⟩

theorem readCancelTarget_eq_ok {target : Option String} : readCancelTarget raw = .ok target ↔
    itemOr raw "cancel_target" .null = (target.map Json.str).getD .null := by
  rw [readCancelTarget]
  split
  next absent =>
    rw [absent, Except.ok.injEq]
    cases target <;> simp
  next present =>
    simp only [bind_eq_ok, string_eq_ok, pure_eq_ok]
    constructor
    · rintro ⟨text, same, rfl⟩
      exact same
    · intro same
      cases target with
      | none => exact absurd same present
      | some text => exact ⟨text, same, rfl⟩

theorem jsonMapping_eq_ok {payload : List (String × Json)} : jsonMapping room value = .ok payload ↔
    value = .obj payload ∧ nestingFields payload ≤ room := by
  rw [jsonMapping]
  simp only [bind_eq_ok, mapping_eq_ok, jsonFields_eq]
  constructor
  · rintro ⟨fields, rfl, copied⟩
    split at copied
    next fits =>
      cases copied
      exact ⟨rfl, fits⟩
    · cases copied
  · rintro ⟨rfl, fits⟩
    exact ⟨payload, rfl, if_pos fits⟩

theorem readParts_eq_ok : readParts room raw = .ok parts ↔
    Reads raw parts ∧ nestingFields parts.payload ≤ room := by
  rw [readParts]
  simp only [bind_eq_ok, readHandshake_eq_ok, readText_eq_ok, jsonMapping_eq_ok, boolean_eq_ok,
    readCancelTarget_eq_ok, pure_eq_ok]
  constructor
  · rintro ⟨_, handshake, _, request, _, correlation, _, operation, _, ⟨payload, fits⟩, _, stream, _,
      target, rfl⟩
    exact ⟨⟨⟨handshake, request, correlation, operation, payload⟩, stream, target⟩, fits⟩
  · rintro ⟨reads, fits⟩
    exact ⟨_, reads.handshake, _, reads.requestId, _, reads.correlationId, _, reads.operation, _,
      ⟨reads.payload, fits⟩, _, reads.stream, _, reads.cancelTarget, rfl⟩

/-! ## Raising -/

/-- A fault that the guard turns into an error of the hub. -/
def Caught (fault : Fault) : Prop := fault = .keyError ∨ fault = .typeError ∨ fault = .valueError

theorem guarded_of_caught {α : Type} (caught : Caught fault) :
    guarded (.error fault : Except Fault α) = .error (.hub invalidRequestEnvelope) := by
  rcases caught with rfl | rfl | rfl <;> rfl

theorem caught_item : ∀ fault, item raw key = .error fault → Caught fault := by
  intro fault failed
  rw [item] at failed
  cases found : mappingGet raw key <;> rw [found] at failed <;> cases failed
  exact .inl rfl

theorem caught_mapping : ∀ fault, mapping value = .error fault → Caught fault := by
  intro fault failed
  cases value <;> cases failed <;> exact .inr (.inl rfl)

theorem caught_string : ∀ fault, string value = .error fault → Caught fault := by
  intro fault failed
  cases value <;> cases failed <;> exact .inr (.inl rfl)

theorem caught_boolean : ∀ fault, boolean value = .error fault → Caught fault := by
  intro fault failed
  cases value <;> cases failed <;> exact .inr (.inl rfl)

theorem caught_mapM_string {items : List Json} :
    ∀ fault, items.mapM string = .error fault → Caught fault := by
  induction items with
  | nil =>
      intro fault failed
      cases failed
  | cons first rest ih =>
      rw [List.mapM_cons]
      refine raises_bind caught_string fun _ => raises_bind ih fun _ fault failed => ?_
      cases failed

theorem caught_strings {allowEmpty : Bool} :
    ∀ fault, strings value allowEmpty = .error fault → Caught fault := by
  cases value with
  | arr items =>
      rw [strings]
      refine raises_bind caught_mapM_string fun texts =>
        raises_bind (raises_raiseIf (.inr (.inr rfl))) fun _ fault failed => ?_
      cases failed
  | _ =>
      intro fault failed
      cases failed
      exact .inr (.inl rfl)

theorem caught_handshakeOf {apiVersions supportedFeatures requiredFeatures : List String} :
    ∀ fault, handshakeOf apiVersions supportedFeatures requiredFeatures = .error fault →
      Caught fault := by
  have unique {values : List String} {allowEmpty : Bool} :
      ∀ fault, uniqueNonEmpty values allowEmpty = .error fault → Caught fault := by
    have valueError : Caught .valueError := .inr (.inr rfl)
    rw [uniqueNonEmpty]
    exact raises_bind (raises_raiseIf valueError) fun _ =>
      raises_bind (raises_raiseIf valueError) fun _ => raises_raiseIf valueError
  intro fault failed
  unfold handshakeOf at failed
  split at failed
  next raised checked =>
    cases failed
    revert fault
    rw [checkHandshake]
    exact raises_bind unique fun _ => raises_bind unique fun _ =>
      raises_bind unique fun _ => raises_raiseIf (.inr (.inr rfl))
  · cases failed

theorem caught_readHandshake : ∀ fault, readHandshake raw = .error fault → Caught fault := by
  rw [readHandshake]
  exact raises_bind caught_item fun _ => raises_bind caught_mapping fun _ =>
    raises_bind caught_item fun _ => raises_bind caught_strings fun _ =>
    raises_bind caught_item fun _ => raises_bind caught_strings fun _ =>
    raises_bind caught_strings fun _ => caught_handshakeOf

theorem caught_readText : ∀ fault, readText raw key = .error fault → Caught fault := by
  rw [readText]
  exact raises_bind caught_item fun _ => caught_string

theorem caught_readCancelTarget : ∀ fault, readCancelTarget raw = .error fault → Caught fault := by
  rw [readCancelTarget]
  split
  · intro fault failed
    cases failed
  · refine raises_bind caught_string fun _ fault failed => ?_
    cases failed

/-- What is left over by the guard: the payload is too deep. -/
def TooDeep (room : Nat) (raw : List (String × Json)) : Prop :=
  ∃ parts, ReadsFront raw parts ∧ room < nestingFields parts.payload

/-- A request that is read up to a payload that is too deep. -/
theorem readParts_of_tooDeep (deep : TooDeep room raw) :
    readParts room raw = .error .recursionError := by
  obtain ⟨parts, front, deep⟩ := deep
  have payload : jsonMapping room (itemOr raw "payload" (.obj [])) = .error .recursionError := by
    rw [front.payload, jsonMapping, mapping, ok_bind, jsonFields_eq, if_neg (Nat.not_le.mpr deep)]
  rw [readParts, readHandshake_eq_ok.mpr front.handshake, ok_bind, readText_eq_ok.mpr front.requestId,
    ok_bind, readText_eq_ok.mpr front.correlationId, ok_bind, readText_eq_ok.mpr front.operation, ok_bind,
    payload]
  rfl

theorem caught_readParts (shallow : ¬TooDeep room raw) :
    ∀ fault, readParts room raw = .error fault → Caught fault := by
  intro fault failed
  have front {client : FeatureHandshake} {requestId correlationId operation : String}
      (handshake : readHandshake raw = .ok client) (request : readText raw "request_id" = .ok requestId)
      (correlation : readText raw "correlation_id" = .ok correlationId)
      (operation' : readText raw "operation" = .ok operation) {payload : List (String × Json)}
      (given : itemOr raw "payload" (.obj []) = .obj payload) :
      ReadsFront raw ⟨client, requestId, correlationId, operation, payload, false, none⟩ :=
    ⟨readHandshake_eq_ok.mp handshake, readText_eq_ok.mp request, readText_eq_ok.mp correlation,
      readText_eq_ok.mp operation', given⟩
  rw [readParts] at failed
  cases handshake : readHandshake raw with
  | error raised =>
      rw [handshake] at failed
      cases failed
      exact caught_readHandshake _ handshake
  | ok client =>
  cases request : readText raw "request_id" with
  | error raised =>
      rw [handshake, ok_bind, request] at failed
      cases failed
      exact caught_readText _ request
  | ok requestId =>
  cases correlation : readText raw "correlation_id" with
  | error raised =>
      rw [handshake, ok_bind, request, ok_bind, correlation] at failed
      cases failed
      exact caught_readText _ correlation
  | ok correlationId =>
  cases operation : readText raw "operation" with
  | error raised =>
      rw [handshake, ok_bind, request, ok_bind, correlation, ok_bind, operation] at failed
      cases failed
      exact caught_readText _ operation
  | ok name =>
  rw [handshake, ok_bind, request, ok_bind, correlation, ok_bind, operation, ok_bind] at failed
  revert fault
  refine raises_bind ?_ fun _ => raises_bind caught_boolean fun _ =>
    raises_bind caught_readCancelTarget fun _ fault failed => by cases failed
  rw [jsonMapping]
  intro fault failed
  cases payload : itemOr raw "payload" (.obj []) with
  | obj fields =>
      rw [payload, mapping, ok_bind, jsonFields_eq] at failed
      split at failed
      · cases failed
      next deep =>
        exact absurd ⟨_, front handshake request correlation operation payload, Nat.not_le.mp deep⟩ shallow
  | _ =>
      rw [payload] at failed
      cases failed
      exact .inr (.inl rfl)

/-! ## Negotiating -/

theorem sortedSet_filter_eq_nil {features : List String} {kept : String → Prop} [DecidablePred kept] :
    sortedSet (features.filter fun feature => ¬kept feature) = [] ↔ ∀ feature ∈ features, kept feature := by
  rw [List.eq_nil_iff_forall_not_mem]
  simp only [mem_sortedSet, List.mem_filter, decide_eq_true_eq, not_and, not_not]

theorem compatible_iff : (decideCompatibility client server).compatible = true ↔
    Compatible client server := by
  have version : client.apiVersions.find? (fun version => version ∈ server.apiVersions) ≠ none ↔
      ∃ version ∈ client.apiVersions, version ∈ server.apiVersions := by
    rw [ne_eq, List.find?_eq_none]
    simp only [decide_eq_true_eq]
    push Not
    rfl
  rw [decideCompatibility]
  simp only [decide_eq_true_eq, List.append_eq_nil_iff]
  have absent {condition : Prop} [Decidable condition] {reason : String} :
      (if condition then [reason] else []) = [] ↔ ¬condition := by
    split <;> simp [*]
  rw [absent, absent, absent, not_not, not_not, sortedSet_filter_eq_nil, sortedSet_filter_eq_nil, ← ne_eq,
    version]
  constructor
  · rintro ⟨⟨version, clientRequired⟩, serverRequired⟩
    exact ⟨version, clientRequired, serverRequired⟩
  · rintro ⟨version, clientRequired, serverRequired⟩
    exact ⟨⟨version, clientRequired⟩, serverRequired⟩

theorem mem_enabledFeatures (compatible : Compatible client server) {feature : String} :
    feature ∈ (decideCompatibility client server).enabledFeatures ↔ Shared client server feature := by
  have selected : (client.apiVersions.find? fun version => version ∈ server.apiVersions).getD "" ≠ "" := by
    cases found : client.apiVersions.find? fun version => version ∈ server.apiVersions with
    | none =>
        obtain ⟨version, offered, known⟩ := compatible.version
        exact absurd (decide_eq_true known) (List.find?_eq_none.mp found version offered)
    | some version =>
        intro empty
        rw [Option.getD_some] at empty
        exact client.advertisable.versions.2.1 (empty ▸ List.mem_of_find?_eq_some found)
  rw [decideCompatibility]
  dsimp only
  rw [if_neg selected, mem_sortedSet, List.mem_filter, decide_eq_true_eq]
  rfl

/-- What two sides negotiate. -/
def negotiationOf (client server : FeatureHandshake) : ProtocolNegotiation :=
  let decision := decideCompatibility client server
  ⟨decision, streaming ∈ decision.enabledFeatures, cancellation ∈ decision.enabledFeatures⟩

theorem negotiateProtocol_eq_ok {negotiation : ProtocolNegotiation} :
    negotiateProtocol client server = .ok negotiation ↔
      Compatible client server ∧ negotiationOf client server = negotiation := by
  rw [negotiateProtocol]
  simp only [bind_eq_ok, exists_unit, raiseIf_eq_ok, pure_eq_ok, Bool.not_eq_false, compatible_iff]
  rfl

theorem negotiation_streaming (compatible : Compatible client server) :
    (negotiationOf client server).streaming = true ↔ Shared client server streaming := by
  rw [negotiationOf, decide_eq_true_eq, mem_enabledFeatures compatible]

theorem negotiation_cancellation (compatible : Compatible client server) :
    (negotiationOf client server).cancellation = true ↔ Shared client server cancellation := by
  rw [negotiationOf, decide_eq_true_eq, mem_enabledFeatures compatible]

/-! ## Envelopes -/

theorem envelopeOf_eq_ok {negotiation : ProtocolNegotiation} {envelope : RequestEnvelope} :
    envelopeOf adapter parts negotiation = .ok envelope ↔
      envelope.adapter = adapter ∧ envelope.parts = parts ∧ envelope.negotiation = negotiation := by
  unfold envelopeOf
  split
  next fault checked =>
    constructor
    · intro same
      cases same
    · rintro ⟨rfl, rfl, rfl⟩
      rw [checkEnvelope_eq_ok.mpr envelope.identified] at checked
      cases checked
  next checked =>
    rw [Except.ok.injEq]
    constructor
    · rintro rfl
      exact ⟨rfl, rfl, rfl⟩
    · rintro ⟨rfl, rfl, rfl⟩
      rfl

/-- The constructor of the envelope raises where an identifier is not valid. -/
theorem envelopeOf_of_not_identified {negotiation : ProtocolNegotiation}
    (unidentified : ¬parts.Identified) : envelopeOf adapter parts negotiation = .error .valueError := by
  have raises : ∀ fault, checkEnvelope parts = .error fault → fault = .valueError := by
    have identifier {value : String} : ∀ fault, validateIdentifier value = .error fault →
        fault = .valueError := raises_raiseIf rfl
    rw [checkEnvelope]
    refine raises_bind identifier fun _ => raises_bind identifier fun _ => raises_bind identifier fun _ => ?_
    split
    · intro fault failed
      cases failed
    · exact identifier
  unfold envelopeOf
  split
  next fault checked => rw [raises fault checked]
  next checked => exact absurd (checkEnvelope_eq_ok.mp checked) unidentified

/-- What comes after the guard, of a request that was read. -/
def finishRequest (adapter : AdapterKind) (parts : RequestParts) (server : FeatureHandshake) :
    Except Fault RequestEnvelope := do
  let negotiation ← negotiateProtocol parts.handshake server
  raiseIf (parts.stream = true ∧ negotiation.streaming = false) (.hub {
    code := "streaming_not_negotiated"
    category := .input
    safeMessage := "Streaming was requested but was not negotiated." })
  raiseIf (parts.cancelTarget ≠ none ∧ negotiation.cancellation = false) (.hub {
    code := "cancellation_not_negotiated"
    category := .input
    safeMessage := "Cancellation was requested but was not negotiated." })
  envelopeOf adapter parts negotiation

theorem parseRequest_of_readParts (read : readParts room raw = .ok parts) :
    parseRequest room adapter raw server = finishRequest adapter parts server := by
  rw [parseRequest, read]
  rfl

theorem raises_hub_raiseIf {condition : Prop} [Decidable condition] {error : CapabilityHubError} :
    ∀ fault, raiseIf condition (Fault.hub error) = .error fault → ∃ error, fault = .hub error :=
  raises_raiseIf ⟨error, rfl⟩

/-- A request with valid identifiers is answered. -/
theorem answered_finishRequest (reads : Reads raw parts)
    (identified : Negotiable parts server → parts.Identified) :
    Answered adapter raw server (finishRequest adapter parts server) := by
  cases finished : finishRequest adapter parts server with
  | ok envelope =>
      rw [finishRequest] at finished
      simp only [bind_eq_ok, exists_unit, raiseIf_eq_ok, negotiateProtocol_eq_ok, envelopeOf_eq_ok, not_and,
        Bool.not_eq_false] at finished
      obtain ⟨negotiation, ⟨compatible, rfl⟩, stream, target, same, rfl, negotiated⟩ := finished
      refine ⟨same, reads, ⟨compatible, fun asked => ?_, fun asked => ?_⟩, ?_, ?_⟩
      · exact (negotiation_streaming compatible).mp (stream asked)
      · exact (negotiation_cancellation compatible).mp (target asked)
      · rw [negotiated]
        exact negotiation_streaming compatible
      · rw [negotiated]
        exact negotiation_cancellation compatible
  | error fault =>
      cases negotiated : negotiateProtocol parts.handshake server with
      | error raised =>
          rw [finishRequest, negotiated] at finished
          cases finished
          revert negotiated
          rw [negotiateProtocol]
          refine raises_bind raises_hub_raiseIf (fun _ fault failed => ?_) _
          cases failed
      | ok negotiation =>
          obtain ⟨compatible, rfl⟩ := negotiateProtocol_eq_ok.mp negotiated
          rw [finishRequest, negotiated, ok_bind] at finished
          by_cases stream : parts.stream = true ∧
              (negotiationOf parts.handshake server).streaming = false
          · rw [raiseIf, if_pos stream] at finished
            cases finished
            exact ⟨_, rfl⟩
          rw [raiseIf, if_neg stream, ok_bind] at finished
          by_cases target : parts.cancelTarget ≠ none ∧
              (negotiationOf parts.handshake server).cancellation = false
          · rw [raiseIf, if_pos target] at finished
            cases finished
            exact ⟨_, rfl⟩
          rw [raiseIf, if_neg target, ok_bind] at finished
          simp only [not_and, Bool.not_eq_false] at stream target
          have negotiable : Negotiable parts server :=
            ⟨compatible, fun asked => (negotiation_streaming compatible).mp (stream asked),
              fun asked => (negotiation_cancellation compatible).mp (target asked)⟩
          have envelope : envelopeOf adapter parts (negotiationOf parts.handshake server) =
              .ok ⟨adapter, parts, negotiationOf parts.handshake server, identified negotiable⟩ :=
            envelopeOf_eq_ok.mpr ⟨rfl, rfl, rfl⟩
          rw [envelope] at finished
          cases finished

/-- A request that is negotiated comes to the constructor of its envelope. -/
theorem finishRequest_of_negotiable (negotiable : Negotiable parts server) :
    finishRequest adapter parts server =
      envelopeOf adapter parts (negotiationOf parts.handshake server) := by
  have negotiated : negotiateProtocol parts.handshake server =
      .ok (negotiationOf parts.handshake server) :=
    negotiateProtocol_eq_ok.mpr ⟨negotiable.toCompatible, rfl⟩
  have stream : ¬(parts.stream = true ∧ (negotiationOf parts.handshake server).streaming = false) := by
    rintro ⟨asked, refused⟩
    rw [(negotiation_streaming negotiable.toCompatible).mpr (negotiable.stream asked)] at refused
    cases refused
  have target : ¬(parts.cancelTarget ≠ none ∧
      (negotiationOf parts.handshake server).cancellation = false) := by
    rintro ⟨asked, refused⟩
    rw [(negotiation_cancellation negotiable.toCompatible).mpr (negotiable.cancelTarget asked)] at refused
    cases refused
  rw [finishRequest, negotiated, ok_bind, raiseIf, if_neg stream, ok_bind, raiseIf, if_neg target, ok_bind]

/-- What is raised for a request that is not contained is no error of the hub. -/
theorem not_answered_of_tooDeep (deep : TooDeep room raw) :
    ¬Answered adapter raw server (parseRequest room adapter raw server) := by
  have raised : parseRequest room adapter raw server = .error .recursionError := by
    rw [parseRequest, readParts_of_tooDeep deep]
    rfl
  rw [raised]
  rintro ⟨error, same⟩
  cases same

theorem not_answered_of_not_identified (reads : Reads raw parts)
    (fits : nestingFields parts.payload ≤ room) (negotiable : Negotiable parts server)
    (unidentified : ¬parts.Identified) :
    ¬Answered adapter raw server (parseRequest room adapter raw server) := by
  rw [parseRequest_of_readParts (readParts_eq_ok.mpr ⟨reads, fits⟩),
    finishRequest_of_negotiable negotiable, envelopeOf_of_not_identified unidentified]
  rintro ⟨error, same⟩
  cases same

/-- **Requests are answered** exactly if the stack has room for their payload, and their identifiers
are valid where it comes to an envelope. -/
theorem parseRequest_answered_iff (room : Nat) (adapter : AdapterKind) (raw : List (String × Json))
    (server : FeatureHandshake) :
    Answered adapter raw server (parseRequest room adapter raw server) ↔
      Contained room raw server := by
  constructor
  · intro answered
    have payload : ∀ parts, ReadsFront raw parts → nestingFields parts.payload ≤ room := by
      intro parts front
      by_contra deep
      exact not_answered_of_tooDeep ⟨parts, front, Nat.not_le.mp deep⟩ answered
    refine ⟨payload, fun parts reads negotiable => ?_⟩
    by_contra unidentified
    exact not_answered_of_not_identified reads (payload parts reads.toReadsFront) negotiable unidentified
      answered
  · intro contained
    have shallow : ¬TooDeep room raw := by
      rintro ⟨parts, front, deep⟩
      exact Nat.not_le.mpr deep (contained.payload parts front)
    cases read : readParts room raw with
    | ok parts =>
        rw [parseRequest_of_readParts read]
        have reads := (readParts_eq_ok.mp read).1
        exact answered_finishRequest reads (contained.identified parts reads)
    | error fault =>
        rw [parseRequest, read, guarded_of_caught (caught_readParts shallow fault read)]
        exact ⟨_, rfl⟩

/-- The handshake of a side that knows one version and one feature. -/
def plainHandshake : FeatureHandshake where
  apiVersions := ["capabilityhub.io/v1alpha1"]
  supportedFeatures := ["protocol.request-envelope"]
  requiredFeatures := []
  advertisable := ⟨by decide, by decide, by decide, by decide⟩

/-- A request with the identifier. -/
def plainRequest (requestId : String) : List (String × Json) :=
  [("handshake", .obj [("api_versions", .arr [.str "capabilityhub.io/v1alpha1"]),
      ("supported_features", .arr [.str "protocol.request-envelope"])]),
    ("request_id", .str requestId), ("correlation_id", .str "c"), ("operation", .str "search")]

/-- A blank in the identifier of a request is raised as `ValueError`. -/
theorem blank_identifier_not_answered :
    ¬Answered .cli (plainRequest "a b") plainHandshake
      (parseRequest 900 .cli (plainRequest "a b") plainHandshake) := by
  have raised : parseRequest 900 .cli (plainRequest "a b") plainHandshake = .error .valueError := by
    rfl
  rw [raised]
  rintro ⟨error, same⟩
  cases same

end CapabilityHub.Protocol
