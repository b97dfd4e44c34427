import CapabilityHub.Audit.Chain

/-! # Appends to the audit ledger

What an append leaves is read back: the records before it, and the event after them.
-/

namespace CapabilityHub.Audit

variable {sha256 mac : Bytes → Digest} {fields safe record : Fields} {text : String} {value : Json}
  {directory directory' : Directory} {progress : Progress} {event : AuditEvent} {index : Nat}
  {previous : String}

/-! ## Events -/

theorem distinct_of_safeMetadata (kept : safeMetadata value = true) : value.Distinct := by
  cases value with
  | arr items => cases kept
  | obj fields => cases kept
  | null => trivial
  | bool given => trivial
  | int given => trivial
  | str text => trivial

/-- No object of an event that is kept has a key twice. -/
theorem distinct_safeEvent (done : safeEvent sha256 event = .ok safe) : (Json.obj safe).Distinct := by
  simp only [safeEvent, bind_eq_ok, raiseIf_eq_ok, exists_unit, pure_eq_ok] at done
  obtain ⟨-, -, -, -, rfl⟩ := done
  rw [Json.Distinct, distinctFields_iff]
  refine ⟨by simp only [List.map_cons, List.map_nil]; decide, ?_⟩
  have metadata : (Json.obj ((event.metadata.getD ∅).entries.filter fun field =>
      safeMetadataNames.contains field.1 && safeMetadata field.2)).Distinct := by
    rw [Json.Distinct, distinctFields_iff]
    refine ⟨nodup_filter (event.metadata.getD ∅).nodup, fun field member => ?_⟩
    have kept := (List.mem_filter.mp member).2
    exact distinct_of_safeMetadata (Bool.and_eq_true_iff.mp kept).2
  have codes : (Json.arr (event.reasonCodes.map Json.str)).Distinct := by
    rw [Json.Distinct, distinctItems_iff]
    intro item member
    obtain ⟨code, _, rfl⟩ := List.mem_map.mp member
    trivial
  have revision : ((event.capabilityRevision.map fun value =>
      Json.str (identityDigest sha256 value)).getD .null).Distinct := by
    cases event.capabilityRevision <;> trivial
  simp only [List.forall_mem_cons, List.not_mem_nil, false_implies, implies_true, and_true]
  exact ⟨revision, trivial, trivial, metadata, trivial, trivial, trivial, codes, trivial, trivial⟩

/-! ## Records -/

theorem nodup_record (chainHash : Json) :
    ((unsignedRecord safe index previous ++ [("chain_hash", chainHash)]).map Prod.fst).Nodup := by
  simp only [unsignedRecord, List.map_append, List.map_cons, List.map_nil]
  decide

/-- A record that was written with its hash has no error. -/
theorem recordError_written (event : Fields) (index : Nat) (previous : String) :
    recordError mac (sortedMembers (unsignedRecord event index previous ++
      [("chain_hash", .str (macOf mac (unsignedRecord event index previous)))])) index previous = none := by
  have nodup := @nodup_record event index previous
    (.str (macOf mac (unsignedRecord event index previous)))
  rw [recordError, hasValue_sorted nodup rfl rfl, hasValue_sorted nodup rfl rfl,
    hasValue_sorted nodup rfl rfl, hasValue_sorted nodup rfl rfl, hasValue_sorted nodup rfl rfl,
    mappingGet_sorted nodup (rfl : mappingGet _ "event" = some (.obj event)),
    mappingGet_sorted nodup
      (rfl : mappingGet _ "chain_hash" = some (.str (macOf mac (unsignedRecord event index previous)))),
    Json.sorted_obj, Json.sorted, macOf_signed nodup]
  simp [macOf, isAscii_hex]

/-- What a record adds to what has been read. -/
def Progress.add (progress : Progress) (record : Fields) (chainHash : String) : Progress where
  records := progress.records ++ [record]
  firstHash := if progress.firstHash.getD "" = "" then some chainHash else progress.firstHash
  previousHash := chainHash

/-- The lines of an append are read after those before it. -/
theorem readRecords_append {lines more : List (List Char)} {middle : Progress}
    (read : readRecords mac progress lines = (middle, none)) :
    readRecords mac progress (lines ++ more) = readRecords mac middle more := by
  induction lines generalizing progress with
  | nil =>
      obtain ⟨rfl, _⟩ := Prod.mk.inj read
      rfl
  | cons line lines ih =>
      rw [readRecords] at read
      rw [List.cons_append, readRecords]
      split at read
      · cases (Prod.mk.inj read).2
      next short =>
        rw [if_neg short]
        split at read
        · cases (Prod.mk.inj read).2
        · split at read
          · cases (Prod.mk.inj read).2
          · exact ih read
        · cases (Prod.mk.inj read).2

/-! ## Checkpoints -/

theorem length_escapeRaw_le (char : Char) : (escapeRaw char).length ≤ 6 := by
  have other : (if char.toNat < 0x20 then unicodeEscape char.toNat else [char]).length ≤ 6 := by
    split
    · exact le_rfl
    · exact Nat.le_add_left 1 5
  unfold escapeRaw escapeShort
  repeat' split
  all_goals first
    | exact other
    | exact Nat.le_add_left 2 4

theorem length_render_str (text : String) :
    ((Json.str text).render escapeRaw).length ≤ 6 * text.length + 2 := by
  have letters : (text.toList.flatMap escapeRaw).length ≤ 6 * text.toList.length := by
    induction text.toList with
    | nil => exact le_rfl
    | cons char chars ih =>
        have one := length_escapeRaw_le char
        rw [List.flatMap_cons, List.length_append, List.length_cons]
        omega
  rw [String.length_toList] at letters
  rw [Json.render]
  simp only [List.cons_append, List.length_cons, List.length_append, List.length_nil]
  omega

theorem length_render_int {value : Int} (printable : (Json.int value).printable = true) :
    ((Json.int value).render escapeRaw).length ≤ maxStrDigits + 1 := by
  rw [Json.printable, decide_eq_true_eq] at printable
  rw [Json.render, toList_toString_int]
  have digits {number : Nat} (small : number < 10 ^ maxStrDigits) :
      (Nat.toDigits 10 number).length ≤ maxStrDigits :=
    (Nat.length_toDigits_le_iff (by decide) (by decide)).mpr small
  split
  · exact (digits (by omega)).trans (Nat.le_succ _)
  · exact Nat.succ_le_succ (digits (by omega))

/-- A number with few digits is printed. -/
theorem printable_small {value : Int} (small : value.natAbs < 10) :
    (Json.int value).printable = true := by
  rw [Json.printable, decide_eq_true_eq]
  exact small.trans_le (Nat.le_self_pow (by decide) 10)

theorem nodup_checkpoint (recordCount : Nat) (lastHash : String) :
    ((checkpointPayload mac recordCount lastHash).map Prod.fst).Nodup := by
  simp only [checkpointPayload, List.map_append, List.map_cons, List.map_nil]
  decide

theorem loaded_checkpoint {recordCount : Nat} {lastHash : String}
    (printable : (Json.int recordCount).printable = true) :
    (Json.obj (checkpointPayload mac recordCount lastHash)).Loaded := by
  rw [Json.loaded_obj]
  refine ⟨nodup_checkpoint recordCount lastHash, ?_⟩
  have version : (Json.int auditVersion).Loaded := ⟨trivial, printable_small (by decide)⟩
  simp only [checkpointPayload, List.cons_append, List.nil_append, List.forall_mem_cons,
    List.not_mem_nil, false_implies, implies_true, and_true, Json.loaded_str, true_and]
  exact ⟨⟨trivial, printable⟩, version⟩

theorem sorted_checkpoint (recordCount : Nat) (lastHash : String) (unsigned : Fields)
    (same : unsigned =
      [("algorithm", .str auditAlgorithm), ("last_hash", .str lastHash), ("record_count", .int recordCount),
        ("schema", .str auditSchema), ("version", .int auditVersion)]) :
    sortedMembers (checkpointPayload mac recordCount lastHash) =
      [("algorithm", .str auditAlgorithm), ("checkpoint_mac", .str (macOf mac unsigned)),
        ("last_hash", .str lastHash), ("record_count", .int recordCount),
        ("schema", .str auditSchema), ("version", .int auditVersion)] := by
  subst same
  refine sortedBy_of_perm Prod.fst ?_ ?_
  · simp only [List.pairwise_cons, List.forall_mem_cons]
    decide +kernel
  · exact List.Perm.cons _ (List.perm_append_comm : ([_, _, _, _] ++ [_] : Fields).Perm _)

theorem length_macOf (fields : Fields) : (macOf mac fields).length = 64 := by
  rw [macOf, length_hex, (mac _).property]

/-- The text of a checkpoint is not too large to be read. -/
theorem size_checkpoint {recordCount : Nat} {lastHash : String}
    (printable : (Json.int recordCount).printable = true) (hashed : lastHash.length = 64) :
    (String.ofList (lineOf (canonicalJson (.obj (checkpointPayload mac recordCount lastHash))))).utf8ByteSize ≤
      maxCheckpointBytes := by
  refine (utf8ByteSize_le _).trans ?_
  have count := length_render_int printable
  have last := length_render_str lastHash
  have signature := length_render_str (macOf mac [("algorithm", .str auditAlgorithm),
    ("last_hash", .str lastHash), ("record_count", .int recordCount), ("schema", .str auditSchema),
    ("version", .int auditVersion)])
  have algorithm := length_render_str auditAlgorithm
  have schema := length_render_str auditSchema
  have version := @length_render_int auditVersion (printable_small (by decide))
  rw [length_macOf] at signature
  rw [hashed] at last
  rw [lineOf, canonicalJson, Json.sorted_obj, sorted_checkpoint recordCount lastHash _ rfl, Json.render]
  simp only [renderFields, List.intercalate_cons_cons, List.intercalate_singleton, String.length_ofList,
    String.toList_ofList, List.length_append, List.length_cons, List.length_nil]
  have keys : ("algorithm".toList.flatMap escapeRaw).length = 9 ∧
      ("checkpoint_mac".toList.flatMap escapeRaw).length = 14 ∧
      ("last_hash".toList.flatMap escapeRaw).length = 9 ∧
      ("record_count".toList.flatMap escapeRaw).length = 12 ∧
      ("schema".toList.flatMap escapeRaw).length = 6 ∧
      ("version".toList.flatMap escapeRaw).length = 7 ∧
      auditAlgorithm.length = 11 ∧ auditSchema.length = 26 := by decide +kernel
  simp only [maxStrDigits, maxCheckpointBytes] at *
  omega

theorem validCheckpoint_written (recordCount : Nat) (lastHash : String) :
    validCheckpoint mac (sortedMembers (checkpointPayload mac recordCount lastHash)) = some true := by
  have nodup := @nodup_checkpoint mac recordCount lastHash
  rw [checkpointPayload] at nodup ⊢
  rw [validCheckpoint, hasValue_sorted nodup rfl rfl, hasValue_sorted nodup rfl rfl,
    hasValue_sorted nodup rfl rfl, mappingGet_sorted nodup (rfl : mappingGet _ "record_count" = _),
    mappingGet_sorted nodup (rfl : mappingGet _ "last_hash" = _),
    mappingGet_sorted nodup (rfl : mappingGet _ "checkpoint_mac" = _), Json.sorted, Json.sorted,
    Json.sorted, macOf_signed nodup]
  simp [macOf, isAscii_hex]

/-- The checkpoint of the records is accepted after them. -/
theorem checkpointError_written (printable : (Json.int progress.records.length).printable = true)
    (hashed : progress.previousHash.length = 64) :
    checkpointError mac progress (lineOf (canonicalJson
      (.obj (checkpointPayload mac progress.records.length progress.previousHash)))) = none := by
  have nodup := @nodup_checkpoint mac progress.records.length progress.previousHash
  rw [checkpointError, if_neg (Nat.not_lt.mpr (size_checkpoint printable hashed)),
    loadsPrintable_lineOf (loaded_checkpoint printable), Json.sorted_obj]
  dsimp only
  rw [validCheckpoint_written, hasValue_sorted nodup rfl rfl, hasValue_sorted nodup rfl rfl]
  rfl

/-! ## Ledgers -/

/-- The files of a ledger that is read to its end without an error, and what is read. -/
def Holds (mac : Bytes → Digest) (directory : Directory) (progress : Progress) : Prop :=
  (directory = {} ∧ progress = {}) ∨
    ∃ events checkpoint lines, directory = ⟨some events, some checkpoint⟩ ∧
      splitLines events = (lines, []) ∧ readRecords mac {} lines = (progress, none) ∧
      checkpointError mac progress checkpoint = none

theorem readVerified_of_holds (holds : Holds mac directory progress) :
    readVerified mac directory =
      ({ valid := true, recordCount := progress.records.length, firstHash := progress.firstHash
         lastHash := progress.previousHash }, progress.records) := by
  rcases holds with ⟨rfl, rfl⟩ | ⟨events, checkpoint, lines, rfl, whole, read, accepted⟩
  · rfl
  · simp only [readVerified, whole, read, accepted]
    exact if_neg (not_not_intro rfl)

/-- A ledger that is verified is read to its end. -/
theorem exists_holds (valid : (readVerified mac directory).1.valid = true) :
    ∃ progress, Holds mac directory progress := by
  obtain ⟨events, checkpoint⟩ := directory
  cases events with
  | none =>
      cases checkpoint with
      | none => exact ⟨{}, .inl ⟨rfl, rfl⟩⟩
      | some checkpoint => cases valid
  | some events =>
      cases checkpoint with
      | none => cases valid
      | some checkpoint =>
          cases read : splitLines events with
          | mk lines rest =>
              simp only [readVerified, read] at valid
              split at valid
              · cases valid
              next progress records =>
                split at valid
                · cases valid
                next whole =>
                  split at valid
                  · cases valid
                  next accepted =>
                    rw [not_not.mp whole] at read
                    exact ⟨progress, .inr ⟨events, checkpoint, lines, rfl, read, records, accepted⟩⟩

/-- The records of a ledger are whole lines. -/
theorem Holds.lines (holds : Holds mac directory progress) :
    ∃ lines, splitLines (directory.events.getD []) = (lines, []) ∧
      readRecords mac {} lines = (progress, none) := by
  rcases holds with ⟨rfl, rfl⟩ | ⟨events, checkpoint, lines, rfl, whole, read, accepted⟩
  · exact ⟨[], rfl, rfl⟩
  · exact ⟨lines, whole, read⟩

theorem utf8ByteSize_lineOf (text : String) :
    (String.ofList (lineOf text)).utf8ByteSize = text.utf8ByteSize + 1 := by
  rw [lineOf, String.ofList_append, String.utf8ByteSize_append, String.ofList_toList]
  rfl

/-- A record of the next index is loaded as it was written. -/
theorem loaded_record (done : safeEvent sha256 event = .ok safe)
    (printable : (Json.obj (unsignedRecord safe index previous)).printable = true) (chainHash : String) :
    (Json.obj (unsignedRecord safe index previous ++ [("chain_hash", .str chainHash)])).Loaded := by
  rw [Json.printable, printableFields_iff] at printable
  rw [Json.loaded_obj]
  refine ⟨nodup_record _, fun field member => ?_⟩
  rcases List.mem_append.mp member with unsigned | signed
  · refine ⟨?_, printable field unsigned⟩
    have distinct := distinct_safeEvent done
    simp only [unsignedRecord, List.mem_cons, List.not_mem_nil, or_false] at unsigned
    rcases unsigned with rfl | rfl | rfl | rfl | rfl | rfl
    · trivial
    · exact distinct
    · trivial
    · trivial
    · trivial
    · trivial
  · rw [List.mem_singleton.mp signed]
    exact Json.loaded_str chainHash

/-- **An append.** What is read after it is what was read before it, and one record of the event. -/
theorem Holds.emit_record (holds : Holds mac directory progress)
    (done : Audit.emit sha256 mac directory event = .ok directory') :
    ∃ safe unsigned, safeEvent sha256 event = .ok safe ∧
      unsigned = unsignedRecord safe (progress.records.length + 1) progress.previousHash ∧
      Holds mac directory' (progress.add
        (sortedMembers (unsigned ++ [("chain_hash", .str (macOf mac unsigned))])) (macOf mac unsigned)) ∧
      directory'.checkpoint = some (lineOf (canonicalJson
        (.obj (checkpointPayload mac (progress.records.length + 1) (macOf mac unsigned))))) := by
  simp only [Audit.emit, readVerified_of_holds holds, bind_eq_ok, raiseIf_eq_ok, exists_unit,
    pure_eq_ok] at done
  obtain ⟨safe, kept, -, printable, small, rfl⟩ := done
  rw [Bool.not_eq_false] at printable
  have counted : (Json.int (progress.records.length + 1 : Nat)).printable = true := by
    rw [Json.printable, printableFields_iff] at printable
    exact printable ("index", _) (by simp [unsignedRecord])
  let unsigned := unsignedRecord safe (progress.records.length + 1) progress.previousHash
  let written : Fields := unsigned ++ [("chain_hash", .str (macOf mac unsigned))]
  have loaded : (Json.obj written).Loaded := loaded_record kept printable _
  have nodup : (written.map Prod.fst).Nodup := nodup_record _
  have line : readRecords mac progress [(canonicalJson (.obj written)).toList] =
      (progress.add (sortedMembers written) (macOf mac unsigned), none) := by
    have fits : ¬maxRecordBytes < (String.ofList (canonicalJson (.obj written)).toList).utf8ByteSize + 1 := by
      rwa [String.ofList_toList, ← utf8ByteSize_lineOf]
    have hashed : mappingGet (sortedMembers written) "chain_hash" = some (.str (macOf mac unsigned)) := by
      rw [mappingGet_sorted nodup
        (rfl : mappingGet written "chain_hash" = some (.str (macOf mac unsigned))), Json.sorted]
    rw [readRecords, if_neg fits, loadsPrintable_canonicalJson loaded, Json.sorted_obj]
    simp only [written, unsigned] at hashed ⊢
    rw [recordError_written, readRecords, hashed]
    rfl
  obtain ⟨lines, whole, read⟩ := holds.lines
  refine ⟨safe, unsigned, kept, rfl,
    .inr ⟨_, _, lines ++ [(canonicalJson (.obj written)).toList], rfl, ?_, ?_, ?_⟩, rfl⟩
  · rw [splitLines_append whole, splitLines_lineOf]
  · rw [readRecords_append read, line]
  · have next : (progress.add (sortedMembers written) (macOf mac unsigned)).records.length =
        progress.records.length + 1 := List.length_append
    have accepted := @checkpointError_written mac
      (progress.add (sortedMembers written) (macOf mac unsigned)) (by rw [next]; exact counted)
      (length_macOf _)
    rwa [next] at accepted

theorem Holds.emit (holds : Holds mac directory progress)
    (done : Audit.emit sha256 mac directory event = .ok directory') :
    ∃ safe record chainHash, safeEvent sha256 event = .ok safe ∧
      Holds mac directory' (progress.add record chainHash) ∧
      mappingGet record "event" = some (Json.obj safe).sorted := by
  obtain ⟨safe, unsigned, kept, rfl, held, _⟩ := holds.emit_record done
  exact ⟨safe, _, _, kept, held, mappingGet_sorted (nodup_record _) rfl⟩

/-- An event is emitted where its record is printed and short. -/
theorem exists_emit (holds : Holds mac directory progress) (kept : safeEvent sha256 event = .ok safe)
    (unsigned : Fields)
    (same : unsigned = unsignedRecord safe (progress.records.length + 1) progress.previousHash)
    (printable : (Json.obj unsigned).printable = true)
    (short : 4 * ((Json.obj (unsigned ++ [("chain_hash", .str (macOf mac unsigned))])).sorted.render
      escapeRaw).length < maxRecordBytes) :
    ∃ directory', Audit.emit sha256 mac directory event = .ok directory' := by
  subst same
  simp only [Audit.emit, readVerified_of_holds holds, bind_eq_ok, raiseIf_eq_ok, exists_unit,
    pure_eq_ok]
  refine ⟨_, safe, kept, Bool.true_eq_false.mp, (by rw [printable]; exact Bool.true_eq_false.mp), ?_, rfl⟩
  have size := utf8ByteSize_le (canonicalJson (.obj (unsignedRecord safe (progress.records.length + 1)
    progress.previousHash ++ [("chain_hash", .str (macOf mac (unsignedRecord safe
      (progress.records.length + 1) progress.previousHash)))])))
  rw [canonicalJson, String.length_ofList, ← canonicalJson] at size
  rw [utf8ByteSize_lineOf]
  exact Nat.not_lt.mpr (Nat.succ_le_of_lt (size.trans_lt short))

end CapabilityHub.Audit
