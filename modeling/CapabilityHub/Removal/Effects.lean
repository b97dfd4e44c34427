import CapabilityHub.Removal.Coordinator

/-! # What an operation does to the records

An operation answers from a record that is kept, or raises the generation by one and either adds a
record or replaces the one it names (`CapabilityHub.Removal.update_eq_ok`).
-/

namespace CapabilityHub.Removal

open Residency Tenancy

structure Ledger where
  generation : Int := 0
  records : List Record := []

/-- A record that `_instruction` takes. -/
structure Record.Valid (record : Record) : Prop where
  generation : 0 ≤ record.generation
  attempts : 0 < record.attempts
  acknowledged : record.status = .confirmed → record.acknowledged = true

structure Ledger.Valid (ledger : Ledger) : Prop where
  generation : 0 ≤ ledger.generation
  records : ∀ record ∈ ledger.records, record.Valid

/-- The stored value stands for the ledger. -/
def Ledger.Reads (ledger : Ledger) (raw : Option Json) : Prop :=
  decode raw = .ok (ledger.generation, ledger.records)

def Ledger.encode (ledger : Ledger) : Json := Removal.encode ledger.generation ledger.records

variable {ledger next : Ledger} {record : Record} {records : List Record} {raw : Option Json}
  {sha256 : Bytes → Bytes} {limit : Nat} {id target key : String} {expected : Int}

theorem statusField_eq_ok {fields : List (String × Json)} {status : RemovalStatus}
    (found : mappingGet fields "status" = some (.str status.value)) :
    statusField fields = .ok status := by
  have text : anyTextField .typeError fields "status" = .ok status.value :=
    (anyTextField_eq_ok found).mpr rfl
  refine bind_eq_ok.mpr ⟨status.value, text, ?_⟩
  cases status <;> rfl

theorem ackField_eq_ok {fields : List (String × Json)} {ackDigest : Option String}
    (found : mappingGet fields "ack_digest" = some ((ackDigest.map Json.str).getD .null)) :
    ackField fields = .ok ackDigest := by
  rw [ackField, found]
  cases ackDigest <;> rfl

/-- A valid record comes through unchanged. -/
theorem decodeRecord_encodeRecord (valid : record.Valid) :
    decodeRecord (encodeRecord record) = .ok record := by
  have status : ¬(record.status = .confirmed ∧ record.acknowledged = false) := fun both =>
    Bool.false_ne_true (both.2.symm.trans (valid.acknowledged both.1))
  refine bind_eq_ok.mpr ⟨_, rfl, bind_eq_ok.mpr ⟨record.toRemovalInstruction, ?_, ?_⟩⟩
  · refine bind_eq_ok.mpr ⟨_, (naturalField_eq_ok rfl).mpr ⟨valid.generation, rfl⟩, ?_⟩
    refine bind_eq_ok.mpr ⟨_, (positiveField_eq_ok rfl).mpr ⟨valid.attempts, rfl⟩, ?_⟩
    refine bind_eq_ok.mpr ⟨_, (anyTextField_eq_ok rfl).mpr rfl, ?_⟩
    refine bind_eq_ok.mpr ⟨_, (anyTextField_eq_ok rfl).mpr rfl, ?_⟩
    refine bind_eq_ok.mpr ⟨_, (truthField_eq_ok rfl).mpr rfl, ?_⟩
    refine bind_eq_ok.mpr ⟨_, statusField_eq_ok rfl, ?_⟩
    exact bind_eq_ok.mpr ⟨(), raiseIf_eq_ok.mpr status, rfl⟩
  · refine bind_eq_ok.mpr ⟨_, (anyTextField_eq_ok rfl).mpr rfl, ?_⟩
    exact bind_eq_ok.mpr ⟨_, ackField_eq_ok rfl, rfl⟩

theorem Ledger.Valid.reads_encode (valid : ledger.Valid) : ledger.Reads (some ledger.encode) := by
  have listed : (ledger.records.map encodeRecord).mapM decodeRecord = .ok ledger.records :=
    mapM_encoded fun record member => decodeRecord_encodeRecord (valid.records record member)
  refine mapError_eq_ok.mpr (bind_eq_ok.mpr ⟨_, rfl, ?_⟩)
  refine bind_eq_ok.mpr ⟨(), schemaField_eq_ok rfl, ?_⟩
  refine bind_eq_ok.mpr ⟨_, (naturalField_eq_ok rfl).mpr ⟨valid.generation, rfl⟩, ?_⟩
  refine bind_eq_ok.mpr ⟨_, (listField_eq_ok rfl).mpr rfl, ?_⟩
  exact bind_eq_ok.mpr ⟨_, listed, rfl⟩

theorem reads_none : ({} : Ledger).Reads none := rfl

theorem reads_rawOrEmpty (reads : ledger.Reads raw) : ledger.Reads (some (rawOrEmpty raw)) := by
  cases raw with
  | none =>
      obtain ⟨generation, records⟩ := ledger
      obtain ⟨rfl, rfl⟩ := Prod.mk.inj (Except.ok.inj reads)
      rfl
  | some raw => exact reads

/-! ## Records by identifier -/

theorem find_eq_ok {index : Nat} (done : find records id = .ok (index, record)) :
    records.findIdx? (·.instructionId = id) = some index ∧ records[index]? = some record ∧
      record.instructionId = id := by
  rw [find] at done
  split at done
  next position first placed found =>
    obtain ⟨rfl, rfl⟩ := Prod.mk.inj (Except.ok.inj done)
    refine ⟨placed, ?_, by simpa using List.find?_some found⟩
    obtain ⟨bound, _, _⟩ := List.findIdx?_eq_some_iff_getElem.mp placed
    rw [List.find?_eq_some_iff_getElem] at found
    obtain ⟨holds, other, inside, rfl, before⟩ := found
    obtain ⟨_, here, earlier⟩ := List.findIdx?_eq_some_iff_getElem.mp placed
    have same : other = position := by
      rcases Nat.lt_trichotomy other position with less | same | more
      · exact absurd holds (by simpa using earlier other less)
      · exact same
      · exact absurd here (by simpa using before position more)
    rw [← same]
    exact List.getElem?_eq_getElem inside
  next => cases done

/-- No two records have one identifier or come from one idempotency key. -/
structure Ledger.Keyed (ledger : Ledger) : Prop where
  ids : (ledger.records.map (·.instructionId)).Nodup
  digests : (ledger.records.map (·.idempotencyDigest)).Nodup

theorem find?_of_nodup {α β : Type} [DecidableEq β] {f : α → β} {items : List α} {item : α}
    (nodup : (items.map f).Nodup) (member : item ∈ items) :
    items.find? (fun other => f other = f item) = some item := by
  induction items with
  | nil => cases member
  | cons first rest ih =>
      obtain ⟨fresh, others⟩ := List.nodup_cons.mp nodup
      rw [List.find?_cons]
      rcases List.mem_cons.mp member with rfl | below
      · rw [decide_eq_true rfl]
      · have differs : f first ≠ f item := fun same => fresh (same ▸ List.mem_map_of_mem below)
        rw [decide_eq_false differs]
        exact ih others below

theorem Ledger.Keyed.find_eq (keyed : ledger.Keyed) (member : record ∈ ledger.records) :
    ∃ index, find ledger.records record.instructionId = .ok (index, record) := by
  have single : ledger.records.find? (·.instructionId = record.instructionId) = some record :=
    find?_of_nodup keyed.ids member
  have placed : (ledger.records.findIdx? (·.instructionId = record.instructionId)).isSome := by
    rw [List.findIdx?_isSome]
    exact List.any_eq_true.mpr ⟨record, member, decide_eq_true rfl⟩
  obtain ⟨index, placed⟩ := Option.isSome_iff_exists.mp placed
  exact ⟨index, by rw [find, placed, single]⟩

/-- The ledger after a record was written again. -/
def Ledger.replace (ledger : Ledger) (replacement : Record) : Ledger where
  generation := ledger.generation + 1
  records := ledger.records.map fun record =>
    if record.instructionId = replacement.instructionId then replacement else record

theorem Ledger.Keyed.set_eq (keyed : ledger.Keyed) {index : Nat} {replacement : Record}
    (placed : ledger.records[index]? = some record)
    (same : record.instructionId = replacement.instructionId) :
    ledger.records.set index replacement = (ledger.replace replacement).records := by
  refine List.ext_getElem? fun position => ?_
  obtain ⟨bound, found⟩ := List.getElem?_eq_some_iff.mp placed
  rw [List.getElem?_set, Ledger.replace, List.getElem?_map]
  by_cases here : index = position
  · rw [if_pos here, if_pos bound, ← here, placed, Option.map_some, if_pos same]
  · rw [if_neg here]
    cases inside : ledger.records[position]? with
    | none => rfl
    | some other =>
        have differs : other.instructionId ≠ replacement.instructionId := fun equal => by
          refine here ((List.getElem?_inj (by simpa using bound) keyed.ids).mp ?_)
          rw [List.getElem?_map, List.getElem?_map, placed, inside, Option.map_some,
            Option.map_some, same, equal]
        rw [Option.map_some, if_neg differs]

/-! ## The operations -/

/-- The record of a new instruction. -/
def Ledger.issue (ledger : Ledger) (sha256 : Bytes → Bytes) (target key token : String) : Record where
  instructionId := token
  target := target
  generation := ledger.generation + 1
  attempts := 1
  status := .pending
  acknowledged := false
  ackDigest := none
  idempotencyDigest := digest sha256 key

/-- The record after another attempt. -/
def Ledger.again (ledger : Ledger) (record : Record) : Record :=
  { record with attempts := record.attempts + 1, generation := ledger.generation + 1 }

/-- The record after an acknowledgement. -/
def Ledger.answered (ledger : Ledger) (sha256 : Bytes → Bytes) (record : Record)
    (acknowledgementId : String) (removed : Bool) : Record :=
  { record with
    ackDigest := some (digest sha256 acknowledgementId)
    acknowledged := true
    generation := ledger.generation + 1
    status := if removed then .confirmed else record.status }

/-- What an operation that returns does to a ledger, and the instruction it returns. -/
inductive Effect (sha256 : Bytes → Bytes) (limit : Nat) (ledger : Ledger) :
    Operation → Ledger → RemovalInstruction → Prop where
  | repeated (record : Record) (key : String) (expected : Int) (token : String) :
      record ∈ ledger.records → record.idempotencyDigest = digest sha256 key →
      Effect sha256 limit ledger (.request record.target key expected token) ledger
        record.toRemovalInstruction
  | issued (target key token : String) :
      (∀ record ∈ ledger.records, record.idempotencyDigest ≠ digest sha256 key) →
      Effect sha256 limit ledger (.request target key ledger.generation token)
        { generation := ledger.generation + 1
          records := (ledger.records ++ [ledger.issue sha256 target key token]).rtake limit }
        (ledger.issue sha256 target key token).toRemovalInstruction
  | settled (record : Record) (expected : Int) :
      record ∈ ledger.records → record.confirmed = true →
      Effect sha256 limit ledger (.retry record.instructionId expected) ledger
        record.toRemovalInstruction
  | retried (record : Record) :
      record ∈ ledger.records → record.confirmed = false →
      Effect sha256 limit ledger (.retry record.instructionId ledger.generation)
        (ledger.replace (ledger.again record)) (ledger.again record).toRemovalInstruction
  | known (record : Record) (acknowledgementId : String) (removed : Bool) (expected : Int) :
      record ∈ ledger.records → record.ackDigest = some (digest sha256 acknowledgementId) →
      Effect sha256 limit ledger
        (.acknowledge record.instructionId acknowledgementId removed expected) ledger
        record.toRemovalInstruction
  | answered (record : Record) (acknowledgementId : String) (removed : Bool) :
      record ∈ ledger.records → record.ackDigest ≠ some (digest sha256 acknowledgementId) →
      record.confirmed = false →
      Effect sha256 limit ledger
        (.acknowledge record.instructionId acknowledgementId removed ledger.generation)
        (ledger.replace (ledger.answered sha256 record acknowledgementId removed))
        (ledger.answered sha256 record acknowledgementId removed).toRemovalInstruction

variable {operation : Operation} {value : Option Json} {result : RemovalInstruction}

/-- An operation keeps a ledger one that can be read. -/
theorem Effect.valid (effect : Effect sha256 limit ledger operation next result)
    (valid : ledger.Valid) : next.Valid := by
  have later : 0 ≤ ledger.generation + 1 := by linarith [valid.generation]
  have replaced {replacement : Record} (sound : replacement.Valid) :
      (ledger.replace replacement).Valid := by
    refine ⟨later, fun record member => ?_⟩
    obtain ⟨old, among, rfl⟩ := List.mem_map.mp member
    split
    · exact sound
    · exact valid.records old among
  cases effect with
  | repeated | settled | known => exact valid
  | issued target key token =>
      refine ⟨later, fun record member => ?_⟩
      rcases List.mem_append.mp (List.mem_of_mem_drop member) with old | new
      · exact valid.records record old
      · rw [List.mem_singleton.mp new]
        exact ⟨later, Int.one_pos, nofun⟩
  | retried record member =>
      have sound := valid.records record member
      exact replaced ⟨later, Int.add_pos sound.attempts Int.one_pos, sound.acknowledged⟩
  | answered record acknowledgementId removed member =>
      exact replaced ⟨later, (valid.records record member).attempts, fun _ => rfl⟩

theorem expectGeneration_eq_ok {actual expected : Int} :
    expectGeneration actual expected = .ok () ↔ 0 ≤ expected ∧ actual = expected := by
  rw [expectGeneration, bind_eq_ok, exists_unit, raiseIf_eq_ok, raiseIf_eq_ok, not_lt, not_not]

/-- What an operation returns comes from one of its effects. -/
theorem effect_of_update (reads : ledger.Reads raw) (keyed : ledger.Keyed) (valid : ledger.Valid)
    (done : update sha256 limit operation raw = .ok (value, result)) :
    ∃ next, Effect sha256 limit ledger operation next result ∧ next.Reads value ∧ value ≠ none := by
  have kept : ledger.Reads (some (rawOrEmpty raw)) := reads_rawOrEmpty reads
  cases operation with
  | request target key expected token =>
      obtain ⟨_, read, rest⟩ := bind_eq_ok.mp done
      obtain rfl := Except.ok.inj (reads.symm.trans read)
      dsimp only at rest
      split at rest
      next record found =>
        obtain ⟨_, same, returns⟩ := bind_eq_ok.mp rest
        obtain rfl := not_not.mp (raiseIf_eq_ok.mp same)
        obtain ⟨rfl, rfl⟩ := Prod.mk.inj (Except.ok.inj returns)
        have keys : record.idempotencyDigest = digest sha256 key := by
          simpa using List.find?_some found
        exact ⟨ledger, .repeated record key expected token (List.mem_of_find?_eq_some found) keys,
          kept, Option.some_ne_none _⟩
      next absent =>
        obtain ⟨_, same, returns⟩ := bind_eq_ok.mp rest
        obtain ⟨-, rfl⟩ := expectGeneration_eq_ok.mp same
        obtain ⟨rfl, rfl⟩ := Prod.mk.inj (Except.ok.inj returns)
        have effect : Effect sha256 limit ledger (.request target key ledger.generation token) _ _ :=
          .issued target key token (by simpa using absent)
        exact ⟨_, effect, (effect.valid valid).reads_encode, Option.some_ne_none _⟩
  | retry id expected =>
      obtain ⟨_, read, rest⟩ := bind_eq_ok.mp done
      obtain rfl := Except.ok.inj (reads.symm.trans read)
      obtain ⟨⟨index, record⟩, found, chosen⟩ := bind_eq_ok.mp rest
      obtain ⟨-, placed, rfl⟩ := find_eq_ok found
      have member := List.mem_of_getElem? placed
      dsimp only at chosen
      split at chosen
      next confirmed =>
        obtain ⟨rfl, rfl⟩ := Prod.mk.inj (Except.ok.inj chosen)
        exact ⟨ledger, .settled record expected member confirmed, kept, Option.some_ne_none _⟩
      next unconfirmed =>
        obtain ⟨_, same, returns⟩ := bind_eq_ok.mp chosen
        obtain ⟨-, rfl⟩ := expectGeneration_eq_ok.mp same
        obtain ⟨rfl, rfl⟩ := Prod.mk.inj (Except.ok.inj returns)
        have effect : Effect sha256 limit ledger
            (.retry record.instructionId ledger.generation) _ _ :=
          .retried record member (Bool.eq_false_of_not_eq_true unconfirmed)
        have written := (effect.valid valid).reads_encode
        have same : record.instructionId = (ledger.again record).instructionId := rfl
        rw [Ledger.encode, ← keyed.set_eq placed same] at written
        exact ⟨_, effect, written, Option.some_ne_none _⟩
  | acknowledge id acknowledgementId removed expected =>
      obtain ⟨_, read, rest⟩ := bind_eq_ok.mp done
      obtain rfl := Except.ok.inj (reads.symm.trans read)
      obtain ⟨⟨index, record⟩, found, chosen⟩ := bind_eq_ok.mp rest
      obtain ⟨-, placed, rfl⟩ := find_eq_ok found
      have member := List.mem_of_getElem? placed
      dsimp only at chosen
      split at chosen
      next same =>
        obtain ⟨rfl, rfl⟩ := Prod.mk.inj (Except.ok.inj chosen)
        exact ⟨ledger, .known record acknowledgementId removed expected member same, kept,
          Option.some_ne_none _⟩
      next differs =>
        obtain ⟨_, pending, checked⟩ := bind_eq_ok.mp chosen
        obtain ⟨_, same, returns⟩ := bind_eq_ok.mp checked
        obtain ⟨-, rfl⟩ := expectGeneration_eq_ok.mp same
        obtain ⟨rfl, rfl⟩ := Prod.mk.inj (Except.ok.inj returns)
        have effect : Effect sha256 limit ledger (.acknowledge record.instructionId
            acknowledgementId removed ledger.generation) _ _ :=
          .answered record acknowledgementId removed member differs
            (Bool.eq_false_of_not_eq_true (raiseIf_eq_ok.mp pending))
        have written := (effect.valid valid).reads_encode
        have same : record.instructionId =
          (ledger.answered sha256 record acknowledgementId removed).instructionId := rfl
        rw [Ledger.encode, ← keyed.set_eq placed same] at written
        exact ⟨_, effect, written, Option.some_ne_none _⟩

/-- An operation with an effect returns. -/
theorem update_of_effect (reads : ledger.Reads raw) (keyed : ledger.Keyed) (valid : ledger.Valid)
    (effect : Effect sha256 limit ledger operation next result) :
    ∃ value, update sha256 limit operation raw = .ok (value, result) := by
  have current : expectGeneration ledger.generation ledger.generation = .ok () :=
    expectGeneration_eq_ok.mpr ⟨valid.generation, rfl⟩
  cases effect with
  | repeated record key expected token member keys =>
      have found : ledger.records.find? (·.idempotencyDigest = digest sha256 key) = some record := by
        rw [← keys]
        exact find?_of_nodup keyed.digests member
      refine ⟨some (rawOrEmpty raw), bind_eq_ok.mpr ⟨_, reads, ?_⟩⟩
      dsimp only
      rw [found]
      exact bind_eq_ok.mpr ⟨(), raiseIf_eq_ok.mpr (not_not.mpr rfl), rfl⟩
  | issued target key token absent =>
      have none : ledger.records.find? (·.idempotencyDigest = digest sha256 key) = none :=
        List.find?_eq_none.mpr fun record member => by simpa using absent record member
      let records := (ledger.records ++ [ledger.issue sha256 target key token]).rtake limit
      refine ⟨some (encode (ledger.generation + 1) records), bind_eq_ok.mpr ⟨_, reads, ?_⟩⟩
      dsimp only
      rw [none]
      exact bind_eq_ok.mpr ⟨(), current, rfl⟩
  | settled record expected member confirmed =>
      obtain ⟨index, found⟩ := keyed.find_eq member
      refine ⟨some (rawOrEmpty raw), bind_eq_ok.mpr ⟨_, reads, bind_eq_ok.mpr ⟨_, found, ?_⟩⟩⟩
      exact if_pos confirmed
  | retried record member pending =>
      obtain ⟨index, found⟩ := keyed.find_eq member
      let records := ledger.records.set index (ledger.again record)
      refine ⟨some (encode (ledger.generation + 1) records),
        bind_eq_ok.mpr ⟨_, reads, bind_eq_ok.mpr ⟨_, found, ?_⟩⟩⟩
      exact (if_neg (ne_true_of_eq_false pending)).trans (bind_eq_ok.mpr ⟨(), current, rfl⟩)
  | known record acknowledgementId removed expected member same =>
      obtain ⟨index, found⟩ := keyed.find_eq member
      refine ⟨some (rawOrEmpty raw), bind_eq_ok.mpr ⟨_, reads, bind_eq_ok.mpr ⟨_, found, ?_⟩⟩⟩
      exact if_pos same
  | answered record acknowledgementId removed member differs pending =>
      obtain ⟨index, found⟩ := keyed.find_eq member
      let records :=
        ledger.records.set index (ledger.answered sha256 record acknowledgementId removed)
      refine ⟨some (encode (ledger.generation + 1) records),
        bind_eq_ok.mpr ⟨_, reads, bind_eq_ok.mpr ⟨_, found, ?_⟩⟩⟩
      refine (if_neg differs).trans (bind_eq_ok.mpr ⟨(), raiseIf_eq_ok.mpr ?_, ?_⟩)
      · exact ne_true_of_eq_false pending
      · exact bind_eq_ok.mpr ⟨(), current, rfl⟩

/-! ## What an effect keeps -/

/-- The request adds a record to these. -/
def Operation.Issues (sha256 : Bytes → Bytes) (generation : Int) (records : List Record) : Operation → Prop
  | .request _ key expected _ =>
      expected = generation ∧ ∀ record ∈ records, record.idempotencyDigest ≠ digest sha256 key
  | _ => False

/-- The acknowledgement says that the target is removed. -/
def Confirms (done : Operation × RemovalInstruction) (instructionId : String) : Prop :=
  ∃ acknowledgementId expected, done.1 = .acknowledge instructionId acknowledgementId true expected

/-- The generation that a call expects. -/
def Operation.expectedGeneration : Operation → Int
  | .request _ _ expected _ => expected
  | .retry _ expected => expected
  | .acknowledge _ _ _ expected => expected

/-- A record that stands for the instruction that another stood for. -/
structure Record.Continues (record earlier : Record) : Prop where
  identifier : record.instructionId = earlier.instructionId
  target : record.target = earlier.target
  key : record.idempotencyDigest = earlier.idempotencyDigest
  confirmed : earlier.confirmed = true → record.confirmed = true

theorem Record.Continues.refl (record : Record) : record.Continues record := ⟨rfl, rfl, rfl, id⟩

/-- An acknowledgement confirms a record that was not where it says that the target is removed. -/
theorem answered_confirmed {acknowledgementId : String} {removed : Bool} (valid : ledger.Valid)
    (member : record ∈ ledger.records) (pending : record.confirmed = false) :
    (ledger.answered sha256 record acknowledgementId removed).confirmed = removed := by
  cases removed with
  | true => rfl
  | false =>
      refine Bool.eq_false_iff.mpr fun confirmed => ne_true_of_eq_false pending ?_
      have status : record.status = .confirmed := by
        simpa [RemovalInstruction.confirmed, Ledger.answered] using confirmed
      have acknowledged := (valid.records record member).acknowledged status
      simp [RemovalInstruction.confirmed, status, acknowledged]

namespace Effect

theorem generation (effect : Effect sha256 limit ledger operation next result) :
    next = ledger ∨ next.generation = ledger.generation + 1 := by
  cases effect with
  | repeated | settled | known => exact .inl rfl
  | issued | retried | answered => exact .inr rfl

theorem eq_of_stale (effect : Effect sha256 limit ledger operation next result)
    (stale : operation.expectedGeneration ≠ ledger.generation) : next = ledger := by
  cases effect with
  | repeated | settled | known => rfl
  | issued | retried | answered => exact absurd rfl stale

theorem mem_replace {replacement : Record} :
    record ∈ (ledger.replace replacement).records →
      record ∈ ledger.records ∨ record = replacement := by
  intro member
  obtain ⟨old, among, rfl⟩ := List.mem_map.mp member
  split
  · exact .inr rfl
  · exact .inl among

/-- A record is replaced by one that continues it. -/
theorem kept_replace {old replacement : Record} (keyed : ledger.Keyed) (member : old ∈ ledger.records)
    (continues : replacement.Continues old) :
    (∀ record ∈ ledger.records, ∃ later ∈ (ledger.replace replacement).records,
      later.Continues record) ∧ replacement ∈ (ledger.replace replacement).records := by
  have written (record : Record) (among : record ∈ ledger.records)
      (same : record.instructionId = replacement.instructionId) :
      replacement ∈ (ledger.replace replacement).records :=
    List.mem_map.mpr ⟨record, among, if_pos same⟩
  refine ⟨fun record among => ?_, written old member continues.identifier.symm⟩
  by_cases same : record.instructionId = replacement.instructionId
  · have one : record = old :=
      List.inj_on_of_nodup_map keyed.ids among member (same.trans continues.identifier)
    exact ⟨replacement, written record among same, one ▸ continues⟩
  · exact ⟨record, List.mem_map.mpr ⟨record, among, if_neg same⟩, .refl record⟩

theorem again_continues : (ledger.again record).Continues record := ⟨rfl, rfl, rfl, id⟩

theorem answered_continues {acknowledgementId : String} {removed : Bool}
    (pending : record.confirmed = false) :
    (ledger.answered sha256 record acknowledgementId removed).Continues record :=
  ⟨rfl, rfl, rfl, fun confirmed => absurd confirmed (ne_true_of_eq_false pending)⟩

/-- The records where a request that adds one finds room for it. -/
theorem issued_of_room {target key token : String}
    (absent : ∀ record ∈ ledger.records, record.idempotencyDigest ≠ digest sha256 key)
    (room : (Operation.request target key ledger.generation token).Issues sha256 ledger.generation
      ledger.records → ledger.records.length < limit) :
    (ledger.records ++ [ledger.issue sha256 target key token]).rtake limit =
      ledger.records ++ [ledger.issue sha256 target key token] := by
  have short : (ledger.records ++ [ledger.issue sha256 target key token]).length - limit = 0 := by
    rw [List.length_append, List.length_singleton]
    exact Nat.sub_eq_zero_of_le (room ⟨rfl, absent⟩)
  rw [List.rtake, short, List.drop_zero]

/-- With room for a new record, each record is kept, and so is the one that the result is of. -/
theorem kept (effect : Effect sha256 limit ledger operation next result) (keyed : ledger.Keyed)
    (room : operation.Issues sha256 ledger.generation ledger.records →
      ledger.records.length < limit) :
    (∀ record ∈ ledger.records, ∃ later ∈ next.records, later.Continues record) ∧
      ∃ record ∈ next.records, record.toRemovalInstruction = result := by
  have same : ∀ record ∈ ledger.records, ∃ later ∈ ledger.records, later.Continues record :=
    fun record member => ⟨record, member, .refl record⟩
  cases effect with
  | repeated record _ _ _ member => exact ⟨same, record, member, rfl⟩
  | settled record _ member => exact ⟨same, record, member, rfl⟩
  | known record _ _ _ member => exact ⟨same, record, member, rfl⟩
  | issued target key token absent =>
      rw [issued_of_room absent room]
      refine ⟨fun record member => ?_, _, List.mem_append_right _ (List.mem_singleton.mpr rfl), rfl⟩
      exact ⟨record, List.mem_append_left _ member, .refl record⟩
  | retried record member =>
      obtain ⟨kept, written⟩ := kept_replace keyed member again_continues
      exact ⟨kept, _, written, rfl⟩
  | answered record _ _ member _ pending =>
      obtain ⟨kept, written⟩ := kept_replace keyed member (answered_continues pending)
      exact ⟨kept, _, written, rfl⟩

/-- A record was there before or is the one that the result is of. -/
theorem origin (effect : Effect sha256 limit ledger operation next result)
    (member : record ∈ next.records) :
    record ∈ ledger.records ∨ record.toRemovalInstruction = result := by
  cases effect with
  | repeated | settled | known => exact .inl member
  | issued =>
      rcases List.mem_append.mp (List.mem_of_mem_drop member) with old | new
      · exact .inl old
      · exact .inr (congrArg _ (List.mem_singleton.mp new))
  | retried | answered => exact (mem_replace member).imp_right (congrArg _)

/-- The instruction of a result is one that is kept or has the token of the request. -/
theorem identifier (effect : Effect sha256 limit ledger operation next result) :
    (∃ record ∈ ledger.records, record.instructionId = result.instructionId) ∨
      ∃ target key expected, operation = .request target key expected result.instructionId := by
  cases effect with
  | repeated record _ _ _ member => exact .inl ⟨record, member, rfl⟩
  | settled record _ member => exact .inl ⟨record, member, rfl⟩
  | known record _ _ _ member => exact .inl ⟨record, member, rfl⟩
  | issued target key => exact .inr ⟨target, key, _, rfl⟩
  | retried record member => exact .inl ⟨record, member, rfl⟩
  | answered record _ _ member => exact .inl ⟨record, member, rfl⟩

/-- A confirmed result is of a record that was confirmed, or of the acknowledgement that confirms. -/
theorem confirmed (effect : Effect sha256 limit ledger operation next result) (valid : ledger.Valid)
    (confirmed : result.confirmed = true) :
    (∃ record ∈ ledger.records, record.toRemovalInstruction = result) ∨
      Confirms (operation, result) result.instructionId := by
  cases effect with
  | repeated record _ _ _ member => exact .inl ⟨record, member, rfl⟩
  | settled record _ member => exact .inl ⟨record, member, rfl⟩
  | known record _ _ _ member => exact .inl ⟨record, member, rfl⟩
  | issued => exact absurd confirmed Bool.false_ne_true
  | retried record member pending => exact absurd confirmed (ne_true_of_eq_false pending)
  | answered record acknowledgementId removed member differs pending =>
      cases removed with
      | true => exact .inr ⟨acknowledgementId, _, rfl⟩
      | false => exact absurd confirmed (ne_true_of_eq_false (answered_confirmed valid member pending))

/-- No two records share an identifier or a key after an operation with a fresh token. -/
theorem keyed (effect : Effect sha256 limit ledger operation next result) (keyed : ledger.Keyed)
    (fresh : ∀ target key expected token, operation = .request target key expected token →
      ∀ record ∈ ledger.records, record.instructionId ≠ token) : next.Keyed := by
  have replaced {old replacement : Record} (member : old ∈ ledger.records)
      (continues : replacement.Continues old) : (ledger.replace replacement).Keyed := by
    have ids : (ledger.replace replacement).records.map (·.instructionId) =
        ledger.records.map (·.instructionId) := by
      rw [Ledger.replace, List.map_map]
      refine List.map_congr_left fun record _ => ?_
      dsimp only [Function.comp_apply]
      split
      next same => exact same.symm
      next => rfl
    have digests : (ledger.replace replacement).records.map (·.idempotencyDigest) =
        ledger.records.map (·.idempotencyDigest) := by
      rw [Ledger.replace, List.map_map]
      refine List.map_congr_left fun record among => ?_
      dsimp only [Function.comp_apply]
      split
      next same =>
        rw [List.inj_on_of_nodup_map keyed.ids among member (same.trans continues.identifier)]
        exact continues.key
      next => rfl
    exact ⟨ids ▸ keyed.ids, digests ▸ keyed.digests⟩
  cases effect with
  | repeated | settled | known => exact keyed
  | issued target key token absent =>
      have ids : ((ledger.records ++ [ledger.issue sha256 target key token]).map
          (·.instructionId)).Nodup := by
        rw [List.map_append]
        refine List.Nodup.append keyed.ids (List.nodup_singleton _) ?_
        rw [List.disjoint_right]
        intro id member old
        obtain ⟨record, among, same⟩ := List.mem_map.mp old
        exact fresh target key _ token rfl record among (same.trans (List.mem_singleton.mp member))
      have digests : ((ledger.records ++ [ledger.issue sha256 target key token]).map
          (·.idempotencyDigest)).Nodup := by
        rw [List.map_append]
        refine List.Nodup.append keyed.digests (List.nodup_singleton _) ?_
        rw [List.disjoint_right]
        intro key' member old
        obtain ⟨record, among, same⟩ := List.mem_map.mp old
        exact absent record among (same.trans (List.mem_singleton.mp member))
      exact ⟨ids.sublist ((List.drop_sublist _ _).map _),
        digests.sublist ((List.drop_sublist _ _).map _)⟩
  | retried record member => exact replaced member again_continues
  | answered record _ _ member _ pending => exact replaced member (answered_continues pending)

/-- The request of an effect is answered from a record of its key. -/
theorem requested {target key token : String} {expected : Int}
    (effect : Effect sha256 limit ledger (.request target key expected token) next result)
    (room : (Operation.request target key expected token).Issues sha256 ledger.generation
      ledger.records → ledger.records.length < limit) :
    ∃ record ∈ next.records, record.toRemovalInstruction = result ∧ record.target = target ∧
      record.idempotencyDigest = digest sha256 key := by
  cases effect with
  | repeated record _ _ _ member same => exact ⟨record, member, rfl, rfl, same⟩
  | issued _ _ _ absent =>
      rw [issued_of_room absent room]
      exact ⟨_, List.mem_append_right _ (List.mem_singleton.mpr rfl), rfl, rfl, rfl⟩

end Effect

end CapabilityHub.Removal
