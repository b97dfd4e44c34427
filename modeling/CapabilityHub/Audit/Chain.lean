import CapabilityHub.Data.Checks
import CapabilityHub.Data.JsonLines
import CapabilityHub.Errors

/-! # The audit ledger

`secure_audit.py`. A ledger is a directory with a file of records, one to a line, each with the hash of
the one before it, and a checkpoint with the number of records and the last hash. An append leaves a
ledger that is read back with one more record (`CapabilityHub.Audit.Holds.emit`).
-/

namespace CapabilityHub.Audit

/-- `AUDIT_SCHEMA` -/
def auditSchema : String := "capabilityhub.secure-audit"

/-- `AUDIT_VERSION` -/
def auditVersion : Int := 1

/-- `AUDIT_ALGORITHM` -/
def auditAlgorithm : String := "hmac-sha256"

/-- `GENESIS_HASH` -/
def genesisHash : String := String.ofList (List.replicate 64 '0')

/-- `_MAX_RECORD_BYTES` -/
def maxRecordBytes : Nat := 1048576

/-- `_MAX_CHECKPOINT_BYTES` -/
def maxCheckpointBytes : Nat := 65536

/-- `_SAFE_METADATA` -/
def safeMetadataNames : List String :=
  ["operation", "operation_count", "result_count", "section_count", "skill_load_only",
    "total_matches", "truncated"]

/-- `AuditEvent`. -/
structure AuditEvent where
  eventId : String
  sequence : Int
  taskId : String
  eventType : String
  capabilityRevision : Option String
  outcome : String
  portableTokens : Int := 0
  payloadBytes : Int := 0
  reasonCodes : List String := []
  metadata : Option (Dict String Json) := none

/-- The members of an object of the ledger. -/
abbrev Fields := List (String × Json)

/-- What HMAC-SHA256 returns. -/
abbrev Digest := {bytes : Bytes // bytes.length = 32}

/-- `ChainVerification`. -/
structure ChainVerification where
  schema : String := auditSchema
  version : Int := auditVersion
  algorithm : String := auditAlgorithm
  valid : Bool
  recordCount : Nat
  firstHash : Option String
  lastHash : String
  errorCode : Option String := none

/-- The directory of a ledger, which does not exist before its files. -/
structure Directory where
  events : Option (List Char) := none
  checkpoint : Option (List Char) := none

/-- `_audit_error`. -/
def auditError (code message : String) : Raised :=
  .hub { code := code, category := .internal, safeMessage := message }

/-- `_invalid_chain`. -/
def invalidChain (reason : Option String) : Raised :=
  .hub {
    code := "secure_audit_chain_invalid"
    category := .internal
    safeMessage := "The secure audit chain failed verification."
    details := [("reason", .text (if reason.getD "" = "" then "unknown" else reason.getD ""))] }

/-! ## Events -/

/-- `[A-Za-z0-9_.:@/#-]` -/
def identifierChar (char : Char) : Bool :=
  char.isAlphanum || ['_', '.', ':', '@', '/', '#', '-'].contains char

/-- `_safe_identifier`. -/
def safeIdentifier (value : String) (maximum : Nat) : Bool :=
  decide (0 < value.length) && decide (value.length ≤ maximum) && value.toList.all identifierChar

section

variable (sha256 : Bytes → Digest) (mac : Bytes → Digest)

/-- `_identity_digest` of a text. -/
def identityDigest (value : String) : String :=
  hex (sha256 (encodeUtf8 ("capabilityhub-audit-identity-v1" ++ String.singleton '\x00' ++ value))).val

/-- The metadata values that are kept. -/
def safeMetadata : Json → Bool
  | .str text => decide (text.length ≤ 256)
  | .bool _ => true
  | .int _ => true
  | _ => false

/-- `_safe_event`. -/
def safeEvent (event : AuditEvent) : Except Raised Fields := do
  let invalid := auditError "audit_event_invalid" "The audit event contains an invalid field."
  raiseIf ([event.eventId, event.taskId, event.eventType, event.outcome].any
    fun value => !safeIdentifier value 256) invalid
  raiseIf ([event.sequence, event.portableTokens, event.payloadBytes].any fun value => decide (value < 0))
    invalid
  raiseIf (event.capabilityRevision.any fun value => !safeIdentifier value 512) invalid
  raiseIf (event.reasonCodes.any fun value => !safeIdentifier value 128) invalid
  let metadata := (event.metadata.getD ∅).entries.filter fun field =>
    safeMetadataNames.contains field.1 && safeMetadata field.2
  pure
    [("capability_revision", (event.capabilityRevision.map fun value =>
        Json.str (identityDigest sha256 value)).getD .null),
      ("event_id", .str event.eventId),
      ("event_type", .str event.eventType),
      ("metadata", .obj metadata),
      ("outcome", .str event.outcome),
      ("payload_bytes", .int event.payloadBytes),
      ("portable_tokens", .int event.portableTokens),
      ("reason_codes", .arr (event.reasonCodes.map Json.str)),
      ("sequence", .int event.sequence),
      ("task_id", .str (identityDigest sha256 event.taskId))]

/-! ## Reading -/

/-- `_mac`. -/
def macOf (fields : Fields) : String := hex (mac (encodeUtf8 (canonicalJson (.obj fields)))).val

/-- Whether a member equals a value. -/
def hasValue (fields : Fields) (name : String) (value : Json) : Bool :=
  (mappingGet fields name).any (·.same value)

/-- Where `hmac.compare_digest` takes a text. -/
def isAscii (text : String) : Bool := text.toList.all fun char => decide (char.toNat < 128)

/-- `_record_error`. -/
def recordError (record : Fields) (index : Nat) (previous : String) : Option String :=
  if !hasValue record "schema" (.str auditSchema)
      || !hasValue record "version" (.int auditVersion)
      || !hasValue record "algorithm" (.str auditAlgorithm)
      || !hasValue record "index" (.int index)
      || !hasValue record "previous_hash" (.str previous) then some "audit_record_invalid"
  else
    match mappingGet record "event", mappingGet record "chain_hash" with
    | some (.obj _), some (.str chainHash) =>
        if !isAscii chainHash then some "audit_chain_unreadable"
        else if chainHash ≠ macOf mac (record.filter fun field => field.1 ≠ "chain_hash") then
          some "audit_chain_hash_mismatch"
        else none
    | _, _ => some "audit_record_invalid"

/-- The records read so far. -/
structure Progress where
  records : List Fields := []
  firstHash : Option String := none
  previousHash : String := genesisHash

/-- `json.loads` of a text with integers that it reads. -/
def loadsPrintable (chars : List Char) : Option Json := (loads chars).filter Json.printable

/-- The loop over the lines, up to the first one that is not a record. -/
def readRecords (progress : Progress) : List (List Char) → Progress × Option String
  | [] => (progress, none)
  | line :: rest =>
      if maxRecordBytes < (String.ofList line).utf8ByteSize + 1 then
        (progress, some "audit_record_invalid")
      else
        match loadsPrintable line with
        | none => (progress, some "audit_chain_unreadable")
        | some (.obj record) =>
            match recordError mac record (progress.records.length + 1) progress.previousHash with
            | some code => (progress, some code)
            | none =>
                let chainHash := match mappingGet record "chain_hash" with
                  | some (.str chainHash) => chainHash
                  | _ => ""
                readRecords
                  { records := progress.records ++ [record]
                    firstHash := if progress.firstHash.getD "" = "" then some chainHash
                      else progress.firstHash
                    previousHash := chainHash } rest
        | some _ => (progress, some "audit_record_invalid")

/-- `_valid_checkpoint` of an object; `none` where it raises `TypeError`. -/
def validCheckpoint (value : Fields) : Option Bool :=
  if !hasValue value "schema" (.str auditSchema)
      || !hasValue value "version" (.int auditVersion)
      || !hasValue value "algorithm" (.str auditAlgorithm) then some false
  else
    match mappingGet value "record_count", mappingGet value "last_hash",
        mappingGet value "checkpoint_mac" with
    | some (.int count), some (.str _), some (.str given) =>
        if count < 0 then some false
        else if !isAscii given then none
        else some (given = macOf mac (value.filter fun field => field.1 ≠ "checkpoint_mac"))
    | _, _, _ => some false

/-- What is wrong with a checkpoint, after the records. -/
def checkpointError (progress : Progress) (raw : List Char) : Option String :=
  if maxCheckpointBytes < (String.ofList raw).utf8ByteSize then some "audit_chain_unreadable"
  else
    match loadsPrintable raw with
    | none => some "audit_chain_unreadable"
    | some (.obj value) =>
        match validCheckpoint mac value with
        | none => some "audit_chain_unreadable"
        | some false => some "audit_checkpoint_invalid"
        | some true =>
            if hasValue value "record_count" (.int progress.records.length)
                && hasValue value "last_hash" (.str progress.previousHash) then none
            else some "audit_chain_truncated"
    | some _ => some "audit_checkpoint_invalid"

/-- `_invalid_result`. -/
def invalidResult (progress : Progress) (code : String) : ChainVerification × List Fields :=
  ({ valid := false, recordCount := progress.records.length, firstHash := progress.firstHash
     lastHash := progress.previousHash, errorCode := some code }, [])

/-- `_read_verified`. -/
def readVerified (directory : Directory) : ChainVerification × List Fields :=
  match directory.events, directory.checkpoint with
  | none, none => ({ valid := true, recordCount := 0, firstHash := none, lastHash := genesisHash }, [])
  | some events, some checkpoint =>
      let lines := splitLines events
      match readRecords mac {} lines.1 with
      | (progress, some code) => invalidResult progress code
      | (progress, none) =>
          if lines.2 ≠ [] then invalidResult progress "audit_record_invalid"
          else
            match checkpointError mac progress checkpoint with
            | some code => invalidResult progress code
            | none =>
                ({ valid := true, recordCount := progress.records.length
                   firstHash := progress.firstHash, lastHash := progress.previousHash },
                  progress.records)
  | _, _ =>
      ({ valid := false, recordCount := 0, firstHash := none, lastHash := genesisHash
         errorCode := some "audit_chain_incomplete" }, [])

/-! ## Writing -/

/-- The payload of `_write_checkpoint`. -/
def checkpointPayload (recordCount : Nat) (lastHash : String) : Fields :=
  let unsigned : Fields :=
    [("algorithm", .str auditAlgorithm), ("last_hash", .str lastHash),
      ("record_count", .int recordCount), ("schema", .str auditSchema), ("version", .int auditVersion)]
  unsigned ++ [("checkpoint_mac", .str (macOf mac unsigned))]

/-- The record of `emit` without its hash. -/
def unsignedRecord (event : Fields) (index : Nat) (previousHash : String) : Fields :=
  [("algorithm", .str auditAlgorithm), ("event", .obj event), ("index", .int index),
    ("previous_hash", .str previousHash), ("schema", .str auditSchema), ("version", .int auditVersion)]

/-- `SecureAuditLedger.emit`, where the files are written. -/
def emit (directory : Directory) (event : AuditEvent) : Except Raised Directory := do
  let safe ← safeEvent sha256 event
  let verification := (readVerified mac directory).1
  raiseIf (verification.valid = false) (invalidChain verification.errorCode)
  let index := verification.recordCount + 1
  let unsigned := unsignedRecord safe index verification.lastHash
  raiseIf ((Json.obj unsigned).printable = false) .valueError
  let chainHash := macOf mac unsigned
  let record := unsigned ++ [("chain_hash", .str chainHash)]
  let encoded := lineOf (canonicalJson (.obj record))
  raiseIf (maxRecordBytes < (String.ofList encoded).utf8ByteSize)
    (auditError "audit_event_too_large" "The audit event exceeds the secure record limit.")
  pure {
    events := some (directory.events.getD [] ++ encoded)
    checkpoint := some (lineOf (canonicalJson (.obj (checkpointPayload mac index chainHash)))) }

/-! ## Reading back -/

variable {sha256 mac} {fields safe : Fields} {name text : String} {value : Json}
  {directory directory' : Directory} {progress : Progress} {event : AuditEvent}

/-- An object that was written with the signature of its other members, without it. -/
theorem sortedMembers_signed (nodup : ((fields ++ [(name, value)]).map Prod.fst).Nodup) :
    sortedMembers ((sortedMembers (fields ++ [(name, value)])).filter fun field => decide (field.1 ≠ name)) =
      sortedMembers fields := by
  rw [List.map_append] at nodup
  have fresh : mappingGet fields name = none :=
    mappingGet_eq_none_iff.mpr fun member =>
      List.disjoint_of_nodup_append nodup member (List.mem_singleton.mpr rfl)
  rw [← List.map_append] at nodup
  refine sortedMembers_congr (nodup_filter (nodup_sortedMembers nodup))
    (nodup.sublist ((List.sublist_append_left _ _).map _)) fun key => ?_
  rw [mappingGet_filter (fun key => decide (key ≠ name)), mappingGet_sortedMembers nodup,
    mappingGet_append]
  by_cases signed : key = name
  · rw [signed, fresh]
    simp
  · rw [if_pos (decide_eq_true signed), mappingGet_cons, if_neg signed]
    cases mappingGet fields key with
    | none => rfl
    | some found => exact congrArg some (Json.sorted_sorted found)

/-- The hash of an object that was written with the hash of its other members. -/
theorem macOf_signed (nodup : ((fields ++ [(name, value)]).map Prod.fst).Nodup) :
    macOf mac ((sortedMembers (fields ++ [(name, value)])).filter fun field => field.1 ≠ name) =
      macOf mac fields := by
  rw [macOf, macOf, canonicalJson, canonicalJson, Json.sorted_obj, Json.sorted_obj,
    sortedMembers_signed nodup]

theorem isAscii_hex (bytes : Bytes) : isAscii (hex bytes) = true :=
  List.all_eq_true.mpr fun char member => decide_eq_true (hex_ascii bytes char member)

/-- A text among the members is there after sorting. -/
theorem mappingGet_sorted (nodup : (fields.map Prod.fst).Nodup)
    (found : mappingGet fields name = some value) :
    mappingGet (sortedMembers fields) name = some value.sorted := by
  rw [mappingGet_sortedMembers nodup, found, Option.map_some]

theorem hasValue_sorted (nodup : (fields.map Prod.fst).Nodup)
    (found : mappingGet fields name = some value) (plain : value.sorted = value) :
    hasValue (sortedMembers fields) name value = true := by
  rw [hasValue, mappingGet_sorted nodup found, plain]
  exact Json.same_self value

/-- A value that is written on a line is loaded from it. -/
theorem loadsPrintable_lineOf (loaded : value.Loaded) :
    loadsPrintable (lineOf (canonicalJson value)) = some value.sorted := by
  rw [loadsPrintable, loads_lineOf loaded.distinct]
  exact if_pos loaded.sorted.printable

theorem loadsPrintable_canonicalJson (loaded : value.Loaded) :
    loadsPrintable (canonicalJson value).toList = some value.sorted := by
  rw [loadsPrintable, loads_canonicalJson loaded.distinct]
  exact if_pos loaded.sorted.printable

end

end CapabilityHub.Audit
