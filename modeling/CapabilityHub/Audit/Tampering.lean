import CapabilityHub.Audit.Rotation
import CapabilityHub.Data.HashChain
import CapabilityHub.References

/-! # Tampering with the audit ledger

Whoever does not have the key can put before the reader only objects that the ledger has signed. Files
made of these verify only if they are read as those of the ledger were at some moment
(`CapabilityHub.Audit.tampering_detected`): a record that is changed, left out, put elsewhere or taken
from another segment is noticed, and all that can be done is to go back to an earlier moment.
-/

namespace CapabilityHub.Audit

/-- The members that the text of another one signs. -/
def unsigned (name : String) (fields : Fields) : Fields := fields.filter fun field => field.1 ≠ name

/-- The text that is signed. -/
def signedText (name : String) (fields : Fields) : String := canonicalJson (.obj (unsigned name fields))

/-- The payload of `_write_checkpoint` without its signature. -/
def unsignedCheckpoint (recordCount : Nat) (lastHash : String) : Fields :=
  [("algorithm", .str auditAlgorithm), ("last_hash", .str lastHash),
    ("record_count", .int recordCount), ("schema", .str auditSchema), ("version", .int auditVersion)]

/-- What of a record its hash is taken of. -/
def entryOf (record : Fields) : Fields := sortedMembers (unsigned "chain_hash" record)

section

variable (sha256 mac : Bytes → Digest) (manager : RetentionManager)

/-- The hash that the next record is to name. -/
def hashOf (entry : Fields) : Option Json := some (.str (macOf mac entry))

/-- The records are a chain, and what is told of them is told of a chain. -/
structure Progress.Chained (progress : Progress) : Prop where
  linked : Linked (hashOf mac) (mappingGet · "previous_hash") (some (.str genesisHash))
    (progress.records.map entryOf)
  last : lastHash (hashOf mac) (some (.str genesisHash)) (progress.records.map entryOf) =
    some (.str progress.previousHash)
  first : progress.firstHash = (progress.records.map entryOf).head?.map (macOf mac)
  records : ∀ record ∈ progress.records, (Json.obj record).Distinct ∧
    mappingGet record "chain_hash" = some (.str (macOf mac (entryOf record)))

/-- The object has the signature of its other members. -/
def Signed (name : String) (fields : Fields) : Prop :=
  mappingGet fields name = some (.str (macOf mac (unsigned name fields)))

/-- The texts whose signatures an append writes. -/
def publishedBy (directory : Directory) (event : AuditEvent) : List String :=
  match safeEvent sha256 event, emit sha256 mac directory event with
  | .ok safe, .ok _ =>
      let verification := (readVerified mac directory).1
      let record := unsignedRecord safe (verification.recordCount + 1) verification.lastHash
      [canonicalJson (.obj record),
        canonicalJson (.obj (unsignedCheckpoint (verification.recordCount + 1) (macOf mac record)))]
  | _, _ => []

/-- The texts whose signatures the calls write. -/
def published (system : System) : List Call → List String
  | [] => []
  | .emit event :: rest =>
      publishedBy sha256 mac system.root.current event ++
        published (system.step sha256 mac manager (.emit event)) rest
  | .rotate faults :: rest => published (system.step sha256 mac manager (.rotate faults)) rest

/-- The signatures in a directory are of texts that were signed. -/
structure Unforged (texts : List String) (directory : Directory) : Prop where
  records : ∀ line ∈ (splitLines (directory.events.getD [])).1, ∀ record,
    loadsPrintable line = some (.obj record) → Signed mac "chain_hash" record →
      signedText "chain_hash" record ∈ texts
  checkpoint : ∀ raw ∈ directory.checkpoint, ∀ value, loadsPrintable raw = some (.obj value) →
    Signed mac "checkpoint_mac" value → signedText "checkpoint_mac" value ∈ texts

/-- No two of the texts have the same signature. -/
def Distinguishes (texts : List String) : Prop :=
  Set.InjOn (fun text => mac (encodeUtf8 text)) {text | text ∈ texts}

end

variable {sha256 mac : Bytes → Digest} {manager : RetentionManager} {system : System} {call : Call}
  {progress final : Progress} {directory directory' : Directory} {calls : List Call} {later : List Call}
  {texts texts' : List String}
  {record fields fields' safe : Fields} {name text chainHash previous lastHash : String} {value : Json}
  {index recordCount : Nat} {event : AuditEvent} {lines : List (List Char)}

/-! ## Objects -/

theorem same_str (same : value.same (.str text) = true) : value = .str text := by
  cases value with
  | str other =>
      rw [Json.same, beq_iff_eq] at same
      rw [same]
  | null => cases same
  | bool given => cases same
  | int given => cases same
  | arr items => cases same
  | obj fields => cases same

theorem int_of_same {first second : Int} (same : (Json.int first).same (.int second) = true) :
    first = second := by
  simpa [Json.same, Json.number?] using same

theorem mappingGet_of_hasValue (has : hasValue fields name (.str text) = true) :
    mappingGet fields name = some (.str text) := by
  obtain ⟨value, found, same⟩ := Option.any_eq_true _ _ |>.mp has
  rw [found, same_str same]

theorem distinct_loadsPrintable {chars : List Char} (loaded : loadsPrintable chars = some (.obj record)) :
    (Json.obj record).Distinct :=
  distinct_loads (Option.filter_eq_some_iff.mp loaded).1

/-- A record without an error is signed and names the hash before it. -/
theorem signed_of_recordError (right : recordError mac record index previous = none) :
    mappingGet record "previous_hash" = some (.str previous) ∧ Signed mac "chain_hash" record := by
  rw [recordError] at right
  split at right
  · cases right
  next members =>
    simp only [Bool.or_eq_true, Bool.not_eq_true', not_or, Bool.not_eq_false] at members
    refine ⟨mappingGet_of_hasValue members.2, ?_⟩
    split at right
    next hashed =>
      split at right
      · cases right
      · split at right
        · cases right
        next same =>
          rw [Signed, hashed, not_not.mp same]
          rfl
    next => cases right

theorem distinct_unsigned (distinct : (Json.obj fields).Distinct) :
    (Json.obj (unsigned name fields)).Distinct := by
  rw [Json.Distinct, distinctFields_iff] at distinct ⊢
  exact ⟨nodup_filter distinct.1, fun field member => distinct.2 field (List.mem_filter.mp member).1⟩

theorem macOf_sortedMembers (fields : Fields) : macOf mac (sortedMembers fields) = macOf mac fields := by
  rw [macOf, macOf, canonicalJson, canonicalJson, ← Json.sorted_obj, Json.sorted_sorted]

theorem nodup_unsigned (distinct : (Json.obj fields).Distinct) :
    ((unsigned name fields).map Prod.fst).Nodup := nodup_filter distinct.1

theorem mappingGet_unsigned {key : String} (other : key ≠ name) :
    mappingGet (unsigned name fields) key = mappingGet fields key := by
  rw [unsigned, mappingGet_filter fun key => decide (key ≠ name), if_pos (decide_eq_true other)]

/-- An object in order is what its signature is of, and the signature. -/
theorem sortedMembers_of_signed (distinct : (Json.obj record).Distinct)
    (hashed : mappingGet record name = some (.str text)) :
    sortedMembers record = sortedMembers (sortedMembers (unsigned name record) ++ [(name, .str text)]) := by
  have nodup : ((unsigned name record).map Prod.fst).Nodup := nodup_unsigned distinct
  have fresh : name ∉ (sortedMembers (unsigned name record)).map Prod.fst := by
    rw [← mappingGet_eq_none_iff, mappingGet_sortedMembers nodup, unsigned,
      mappingGet_filter fun key => decide (key ≠ name), if_neg (by simp), Option.map_none]
  refine sortedMembers_congr distinct.1 ?_ fun key => ?_
  · rw [List.map_append, List.map_singleton]
    refine List.nodup_append.mpr ⟨nodup_sortedMembers nodup, List.nodup_singleton _, ?_⟩
    rintro key inside other only rfl
    rw [List.mem_singleton.mp only] at inside
    exact fresh inside
  · rw [mappingGet_append, mappingGet_cons]
    by_cases same : key = name
    · rw [if_pos same, same, hashed, mappingGet_eq_none_iff.mpr fresh]
      rfl
    · rw [if_neg same, mappingGet_sortedMembers nodup, mappingGet_unsigned same]
      cases mappingGet record key with
      | none => rfl
      | some found => exact congrArg some (Json.sorted_sorted found).symm

/-- What was written with a signature is signed as it was. -/
theorem signedText_signed (nodup : ((fields ++ [(name, value)]).map Prod.fst).Nodup) :
    signedText name (sortedMembers (fields ++ [(name, value)])) = canonicalJson (.obj fields) := by
  rw [signedText, unsigned, canonicalJson, canonicalJson, Json.sorted_obj, Json.sorted_obj,
    sortedMembers_signed nodup]

/-! ## Chains -/

theorem chained_start : Progress.Chained mac {} where
  linked := linked_nil
  last := rfl
  first := rfl
  records _ member := absurd member List.not_mem_nil

theorem macOf_ne_empty : macOf mac fields ≠ "" := by
  intro empty
  have length := @length_macOf mac fields
  rw [empty] at length
  cases length

/-- A record without an error continues the chain. -/
theorem Progress.Chained.add (chained : progress.Chained mac) (distinct : (Json.obj record).Distinct)
    (names : mappingGet record "previous_hash" = some (.str progress.previousHash))
    (signed : Signed mac "chain_hash" record) :
    (progress.add record (macOf mac (entryOf record))).Chained mac where
  linked := by
    rw [Progress.add, List.map_append, List.map_singleton, linked_concat, chained.last, entryOf,
      mappingGet_sortedMembers (nodup_unsigned distinct), mappingGet_unsigned (by decide), names]
    exact ⟨chained.linked, rfl⟩
  last := by
    rw [Progress.add, List.map_append, List.map_singleton, lastHash_concat]
    rfl
  first := by
    rw [Progress.add, chained.first]
    cases progress.records with
    | nil => rfl
    | cons first rest => exact if_neg macOf_ne_empty
  records other member := by
    rcases List.mem_append.mp member with earlier | last
    · exact chained.records other earlier
    · rw [List.mem_singleton.mp last]
      refine ⟨distinct, signed.trans ?_⟩
      rw [entryOf, macOf_sortedMembers]

/-- What is read without an error is a chain, of records that stand on the lines. -/
theorem chained_readRecords (read : readRecords mac progress lines = (final, none))
    (chained : progress.Chained mac) : final.Chained mac ∧ ∀ record ∈ final.records,
      record ∈ progress.records ∨ ∃ line ∈ lines, loadsPrintable line = some (.obj record) := by
  induction lines generalizing progress with
  | nil =>
      obtain ⟨rfl, _⟩ := Prod.mk.inj read
      exact ⟨chained, fun record member => .inl member⟩
  | cons line lines ih =>
      rw [readRecords] at read
      split at read
      · cases (Prod.mk.inj read).2
      split at read
      · cases (Prod.mk.inj read).2
      next record loaded =>
        split at read
        · cases (Prod.mk.inj read).2
        next right =>
          obtain ⟨names, signed⟩ := signed_of_recordError right
          have next' := chained.add (distinct_loadsPrintable loaded) names signed
          rw [entryOf, macOf_sortedMembers] at next'
          rw [Signed] at signed
          rw [signed] at read
          obtain ⟨all, here⟩ := ih read next'
          refine ⟨all, fun other member => ?_⟩
          rcases here other member with before | ⟨found, inside, same⟩
          · rcases List.mem_append.mp before with earlier | last
            · exact .inl earlier
            · rw [List.mem_singleton.mp last]
              exact .inr ⟨line, List.mem_cons_self, loaded⟩
          · exact .inr ⟨found, List.mem_cons_of_mem _ inside, same⟩
      · cases (Prod.mk.inj read).2

theorem Holds.chained (holds : Holds mac directory progress) : progress.Chained mac := by
  obtain ⟨lines, _, read⟩ := holds.lines
  exact (chained_readRecords read chained_start).1

/-! ## What a chain tells -/

theorem signedText_entryOf (record : Fields) :
    canonicalJson (.obj (entryOf record)) = signedText "chain_hash" record := by
  rw [signedText, entryOf, canonicalJson, canonicalJson, ← Json.sorted_obj, Json.sorted_sorted]

/-- Where no two texts have one signature, no two objects with these texts have one hash. -/
theorem hashOf_injOn (distinguishes : Distinguishes mac texts) :
    Set.InjOn (hashOf mac) {entry | (Json.obj entry).Distinct ∧ sortedMembers entry = entry ∧
      canonicalJson (.obj entry) ∈ texts} := by
  rintro first ⟨distinct, ordered, signed⟩ second ⟨distinct', ordered', signed'⟩ same
  rw [hashOf, hashOf, Option.some.injEq, Json.str.injEq, macOf, macOf] at same
  have equal := distinguishes signed signed' (Subtype.ext (hex_injective same))
  have sorted := sorted_of_canonicalJson distinct distinct' equal
  rw [Json.sorted_obj, Json.sorted_obj, Json.obj.injEq, ordered, ordered'] at sorted
  exact sorted

/-- Chains of signed records with as many records and the same last hash have the same records. -/
theorem Progress.Chained.unique (chained : progress.Chained mac) (chained' : final.Chained mac)
    (distinguishes : Distinguishes mac texts)
    (inside : ∀ record ∈ progress.records, signedText "chain_hash" record ∈ texts)
    (inside' : ∀ record ∈ final.records, signedText "chain_hash" record ∈ texts)
    (length : progress.records.length = final.records.length)
    (last : progress.previousHash = final.previousHash) :
    progress.records.map sortedMembers = final.records.map sortedMembers ∧
      progress.firstHash = final.firstHash := by
  have trusted {progress : Progress} (chained : progress.Chained mac)
      (inside : ∀ record ∈ progress.records, signedText "chain_hash" record ∈ texts) :
      ∀ entry ∈ progress.records.map entryOf, entry ∈ {entry | (Json.obj entry).Distinct ∧
        sortedMembers entry = entry ∧ canonicalJson (.obj entry) ∈ texts} := by
    intro entry member
    obtain ⟨record, here, rfl⟩ := List.mem_map.mp member
    refine ⟨?_, sortedMembers_sorted _, ?_⟩
    · have distinct : (Json.obj (unsigned "chain_hash" record)).Distinct :=
        distinct_unsigned (chained.records record here).1
      have sorted := distinct.sorted
      rwa [Json.sorted_obj] at sorted
    · rw [signedText_entryOf]
      exact inside record here
  have rebuilt {progress : Progress} (chained : progress.Chained mac) :
      progress.records.map sortedMembers = (progress.records.map entryOf).map fun entry =>
        sortedMembers (entry ++ [("chain_hash", .str (macOf mac entry))]) := by
    rw [List.map_map]
    refine List.map_congr_left fun record member => ?_
    obtain ⟨distinct, hashed⟩ := chained.records record member
    exact sortedMembers_of_signed distinct hashed
  have same : progress.records.map entryOf = final.records.map entryOf := by
    refine chained.linked.unique (hashOf_injOn distinguishes) chained'.linked (trusted chained inside)
      (trusted chained' inside') ?_ ?_
    · rw [List.length_map, List.length_map, length]
    · rw [chained.last, chained'.last, last]
  exact ⟨by rw [rebuilt chained, rebuilt chained', same], by rw [chained.first, chained'.first, same]⟩

/-! ## Checkpoints -/

/-- A checkpoint that is accepted is signed, and has the number of records and the last hash. -/
theorem signed_of_checkpointError {raw : List Char} (right : checkpointError mac progress raw = none) :
    ∃ value, loadsPrintable raw = some (.obj value) ∧ Signed mac "checkpoint_mac" value ∧
      mappingGet value "record_count" = some (.int progress.records.length) ∧
      mappingGet value "last_hash" = some (.str progress.previousHash) := by
  rw [checkpointError] at right
  split at right
  · cases right
  split at right
  · cases right
  next value loaded =>
    refine ⟨value, loaded, ?_⟩
    split at right
    · cases right
    · cases right
    next valid =>
      split at right
      next members =>
        rw [Bool.and_eq_true] at members
        rw [validCheckpoint] at valid
        split at valid
        · cases valid
        split at valid
        next count last given counted lasting hashed =>
          split at valid
          · cases valid
          split at valid
          · cases valid
          have same := of_decide_eq_true (Option.some.inj valid)
          refine ⟨?_, ?_, mappingGet_of_hasValue members.2⟩
          · rw [Signed, hashed, same]
            rfl
          · rw [hasValue, counted, Option.any_some] at members
            rw [counted, int_of_same members.1]
        next => cases valid
      next => cases right
  · cases right

theorem distinct_unsignedRecord (distinct : (Json.obj safe).Distinct) :
    (Json.obj (unsignedRecord safe index previous)).Distinct := by
  rw [Json.Distinct, distinctFields_iff]
  refine ⟨by simp only [unsignedRecord, List.map_cons, List.map_nil]; decide, ?_⟩
  simp only [unsignedRecord, List.forall_mem_cons, List.not_mem_nil, false_implies, implies_true, and_true]
  exact ⟨trivial, distinct, trivial, trivial, trivial, trivial⟩

theorem distinct_unsignedCheckpoint : (Json.obj (unsignedCheckpoint recordCount lastHash)).Distinct := by
  rw [Json.Distinct, distinctFields_iff]
  refine ⟨by simp only [unsignedCheckpoint, List.map_cons, List.map_nil]; decide, ?_⟩
  simp only [unsignedCheckpoint, List.forall_mem_cons, List.not_mem_nil, false_implies, implies_true, and_true]
  exact ⟨trivial, trivial, trivial, trivial, trivial⟩

theorem signedText_checkpoint :
    signedText "checkpoint_mac" (sortedMembers (checkpointPayload mac recordCount lastHash)) =
      canonicalJson (.obj (unsignedCheckpoint recordCount lastHash)) :=
  signedText_signed (nodup_checkpoint recordCount lastHash)

theorem distinct_checkpoint : (Json.obj (checkpointPayload mac recordCount lastHash)).Distinct := by
  rw [Json.Distinct, distinctFields_iff]
  refine ⟨nodup_checkpoint recordCount lastHash, ?_⟩
  simp only [checkpointPayload, List.cons_append, List.nil_append, List.forall_mem_cons,
    List.not_mem_nil, false_implies, implies_true, and_true]
  exact ⟨trivial, trivial, trivial, trivial, trivial, trivial⟩

/-- What the members of objects with one text lead to. -/
theorem mappingGet_of_text (key : String) (distinct : (Json.obj fields).Distinct)
    (distinct' : (Json.obj fields').Distinct)
    (same : canonicalJson (.obj fields) = canonicalJson (.obj fields')) :
    (mappingGet fields key).map Json.sorted = (mappingGet fields' key).map Json.sorted := by
  have sorted := sorted_of_canonicalJson distinct distinct' same
  rw [Json.sorted_obj, Json.sorted_obj, Json.obj.injEq] at sorted
  exact sortedMembers_inj distinct.1 distinct'.1 sorted key

/-! ## What the ledger signs -/

variable (mac texts) in
/-- A directory whose records and checkpoint are read and have been signed. -/
structure Known (directory : Directory) (progress : Progress) : Prop where
  holds : Holds mac directory progress
  signed : ∀ record ∈ progress.records, signedText "chain_hash" record ∈ texts
  checkpoint : ∀ raw ∈ directory.checkpoint,
    raw = lineOf (canonicalJson (.obj (checkpointPayload mac progress.records.length progress.previousHash))) ∧
      canonicalJson (.obj (unsignedCheckpoint progress.records.length progress.previousHash)) ∈ texts

theorem Known.mono (known : Known mac texts directory progress) (more : texts ⊆ texts') :
    Known mac texts' directory progress where
  holds := known.holds
  signed record member := more (known.signed record member)
  checkpoint raw given := (known.checkpoint raw given).imp_right fun member => more member

theorem known_start : Known mac texts {} {} where
  holds := .inl ⟨rfl, rfl⟩
  signed _ member := absurd member List.not_mem_nil
  checkpoint raw given := absurd given (Option.not_mem_none raw)

/-- An append signs its record, and the checkpoint of what is read after it. -/
theorem Known.emit (known : Known mac texts directory progress)
    (done : Audit.emit sha256 mac directory event = .ok directory') :
    ∃ safe index previous next, (Json.obj safe).Distinct ∧
      publishedBy sha256 mac directory event = [canonicalJson (.obj (unsignedRecord safe index previous)),
        canonicalJson (.obj (unsignedCheckpoint next.records.length next.previousHash))] ∧
      Known mac (texts ++ publishedBy sha256 mac directory event) directory' next := by
  obtain ⟨safe, record, kept, rfl, held, written⟩ := known.holds.emit_record done
  have published : publishedBy sha256 mac directory event =
      [canonicalJson (.obj (unsignedRecord safe (progress.records.length + 1) progress.previousHash)),
        canonicalJson (.obj (unsignedCheckpoint (progress.records.length + 1) (macOf mac
          (unsignedRecord safe (progress.records.length + 1) progress.previousHash))))] := by
    rw [publishedBy, kept, done, readVerified_of_holds known.holds]
  refine ⟨safe, progress.records.length + 1, progress.previousHash, _, distinct_safeEvent kept, ?_, held,
    fun record member => ?_, fun raw given => ?_⟩
  · rw [published, Progress.add, List.length_append]
    rfl
  · rcases List.mem_append.mp member with earlier | last
    · exact List.mem_append_left _ (known.signed record earlier)
    · rw [List.mem_singleton.mp last, signedText_signed (nodup_record _), published]
      exact List.mem_append_right _ List.mem_cons_self
  · rw [written] at given
    rw [← Option.some.inj given, Progress.add, List.length_append, published]
    exact ⟨rfl, List.mem_append_right _ (List.mem_cons_of_mem _ List.mem_cons_self)⟩

/-- A rotation leaves the current ledger or an empty one. -/
theorem current_rotate (faults : Faults) :
    (system.rotate mac manager faults).root.current = system.root.current ∨
      (system.rotate mac manager faults).root.current = {} := by
  let related (root root' : Root) : Prop := root'.current = root.current ∨ root'.current = {}
  have refl (root : Root) : related root root := .inl rfl
  have trans (first second third : Root) (before : related first second) (after : related second third) :
      related first third := by
    rcases after with same | empty
    · exact before.imp same.trans same.trans
    · exact .inr empty
  have removing (removals : List (Option (Bool × Bool))) (names : List String) :
      Transaction.Relates related (removeAll removals names) := by
    induction names generalizing removals with
    | nil =>
        rw [removeAll]
        exact Transaction.relates_pure refl ()
    | cons name rest ih =>
        rw [removeAll]
        split
        · exact (Transaction.relates_write fun root => .inl rfl).bind trans fun _ =>
            Transaction.relates_query refl _
        · exact (Transaction.relates_write fun root => .inl rfl).bind trans fun _ => ih _
  have moving (target : String) : Transaction.Relates related (rotateTo mac faults.rename target) := by
    rw [rotateTo]
    refine Transaction.Relates.query_bind refl fun root _ => ?_
    refine Transaction.Relates.query_bind refl fun _ _ => ?_
    refine Transaction.Relates.query_bind refl fun _ _ => ?_
    refine Transaction.Relates.query_bind refl fun _ _ => ?_
    refine Transaction.Relates.query_bind refl fun _ _ => ?_
    exact (Transaction.relates_write fun root => .inr rfl).bind trans fun _ =>
      Transaction.relates_pure refl _
  have all : Transaction.Relates related (Audit.rotate mac manager faults) := by
    rw [Audit.rotate]
    refine Transaction.Relates.query_bind refl fun root _ => (moving _).bind trans fun _ => ?_
    refine Transaction.Relates.bind trans ?_ fun _ => ?_
    · rw [prune]
      exact Transaction.Relates.query_bind refl fun root _ => (removing _ _).bind trans fun _ =>
        Transaction.relates_pure refl _
    · exact Transaction.Relates.query_bind refl fun root _ => Transaction.relates_pure refl _
  exact all system.root

theorem published_append : published sha256 mac manager system (calls ++ later) =
    published sha256 mac manager system calls ++
      published sha256 mac manager (run (System.step sha256 mac manager) system calls) later := by
  induction calls generalizing system with
  | nil => rfl
  | cons call rest ih =>
      cases call with
      | emit event =>
          rw [List.cons_append, published, published, ih, List.append_assoc]
          rfl
      | rotate faults =>
          rw [List.cons_append, published, published, ih]
          rfl

variable (sha256 mac manager calls) in
/-- A text that was signed is one of a record, or the checkpoint of a ledger at some moment. -/
structure Told : Prop where
  current : ∃ progress, Known mac (published sha256 mac manager {} calls)
    (run (System.step sha256 mac manager) {} calls).root.current progress
  texts : ∀ text ∈ published sha256 mac manager {} calls,
    (∃ safe index previous, (Json.obj safe).Distinct ∧
      text = canonicalJson (.obj (unsignedRecord safe index previous))) ∨
    ∃ earlier, earlier <+: calls ∧ ∃ progress, Known mac (published sha256 mac manager {} calls)
      (run (System.step sha256 mac manager) {} earlier).root.current progress ∧
      text = canonicalJson (.obj (unsignedCheckpoint progress.records.length progress.previousHash))

theorem Told.step (told : Told sha256 mac manager calls) (call : Call) :
    Told sha256 mac manager (calls ++ [call]) := by
  have split := @published_append sha256 mac manager {} calls [call]
  have more : published sha256 mac manager {} calls ⊆ published sha256 mac manager {} (calls ++ [call]) := by
    rw [split]
    exact List.subset_append_left _ _
  have before (text : String) (member : text ∈ published sha256 mac manager {} calls) :=
    (told.texts text member).imp_right fun ⟨earlier, shorter, progress, known, same⟩ =>
      (⟨earlier, shorter.trans (List.prefix_append _ _), progress, known.mono more, same⟩ :
        ∃ earlier, earlier <+: calls ++ [call] ∧ ∃ progress,
          Known mac (published sha256 mac manager {} (calls ++ [call]))
            (run (System.step sha256 mac manager) {} earlier).root.current progress ∧
          text = canonicalJson (.obj (unsignedCheckpoint progress.records.length progress.previousHash)))
  obtain ⟨progress, known⟩ := told.current
  have last : run (System.step sha256 mac manager) {} (calls ++ [call]) =
      (run (System.step sha256 mac manager) {} calls).step sha256 mac manager call := run_append
  cases call with
  | rotate faults =>
      have none : published sha256 mac manager {} (calls ++ [.rotate faults]) =
          published sha256 mac manager {} calls := by
        rw [split]
        exact List.append_nil _
      refine ⟨?_, fun text member => before text (none ▸ member)⟩
      rw [last, none]
      rcases @current_rotate mac manager (run (System.step sha256 mac manager) {} calls) faults with
        same | empty
      · exact ⟨progress, by rwa [System.step, same]⟩
      · exact ⟨{}, by rw [System.step, empty]; exact known_start⟩
  | emit event =>
      have added : published sha256 mac manager {} (calls ++ [.emit event]) =
          published sha256 mac manager {} calls ++
            publishedBy sha256 mac (run (System.step sha256 mac manager) {} calls).root.current event := by
        rw [split, published, published, List.append_nil]
      cases done : Audit.emit sha256 mac (run (System.step sha256 mac manager) {} calls).root.current event with
      | error error =>
          have none : published sha256 mac manager {} (calls ++ [.emit event]) =
              published sha256 mac manager {} calls := by
            rw [added, publishedBy, done]
            cases safeEvent sha256 event <;> exact List.append_nil _
          refine ⟨⟨progress, ?_⟩, fun text member => before text (none ▸ member)⟩
          rw [last, none, System.step, System.emit, done]
          exact known
      | ok directory =>
          obtain ⟨safe, index, previous, next, distinct, texts, known'⟩ := known.emit done
          rw [← added] at known'
          have here : (run (System.step sha256 mac manager) {} (calls ++ [.emit event])).root.current =
              directory := by
            rw [last, System.step, System.emit, done]
          rw [← here] at known'
          refine ⟨⟨next, known'⟩, fun text member => ?_⟩
          rw [added, texts] at member
          rcases List.mem_append.mp member with earlier | new
          · exact before text earlier
          · rcases List.mem_cons.mp new with rfl | checkpoint
            · exact .inl ⟨safe, index, previous, distinct, rfl⟩
            · exact .inr ⟨_, List.prefix_refl _, next, known', List.mem_singleton.mp checkpoint⟩

theorem told (calls : List Call) : Told sha256 mac manager calls := by
  induction calls using List.reverseRecOn with
  | nil => exact ⟨⟨{}, known_start⟩, fun _ member => absurd member List.not_mem_nil⟩
  | append_singleton calls call ih => exact ih.step call

/-! ## What verifies -/

theorem record_ne_checkpoint (distinct : (Json.obj safe).Distinct) :
    canonicalJson (.obj (unsignedRecord safe index previous)) ≠
      canonicalJson (.obj (unsignedCheckpoint recordCount lastHash)) := by
  intro same
  have members := mappingGet_of_text "record_count" (distinct_unsignedRecord distinct)
    distinct_unsignedCheckpoint same
  cases members

/-- A ledger of what was signed that verifies is one that was known. -/
theorem Told.verified (told : Told sha256 mac manager calls)
    (distinguishes : Distinguishes mac (published sha256 mac manager {} calls))
    (unforged : Unforged mac (published sha256 mac manager {} calls) directory)
    (holds : Holds mac directory progress) :
    ∃ earlier, earlier <+: calls ∧ ∃ former, Holds mac
        (run (System.step sha256 mac manager) {} earlier).root.current former ∧
      progress.records.map sortedMembers = former.records.map sortedMembers ∧
      progress.firstHash = former.firstHash ∧ progress.previousHash = former.previousHash := by
  rcases holds with ⟨rfl, rfl⟩ | ⟨events, checkpoint, lines, rfl, whole, read, accepted⟩
  · exact ⟨[], List.nil_prefix, {}, .inl ⟨rfl, rfl⟩, rfl, rfl, rfl⟩
  obtain ⟨chained, stand⟩ := chained_readRecords read chained_start
  have inside : ∀ record ∈ progress.records,
      signedText "chain_hash" record ∈ published sha256 mac manager {} calls := by
    intro record member
    obtain ⟨_, hashed⟩ := chained.records record member
    rcases stand record member with absurd' | ⟨line, here, loaded⟩
    · exact absurd absurd' List.not_mem_nil
    · refine unforged.records line ?_ record loaded ?_
      · rw [Option.getD_some, whole]
        exact here
      · rw [Signed, hashed, entryOf, macOf_sortedMembers]
  obtain ⟨value, loaded, signed, counted, lasting⟩ := signed_of_checkpointError accepted
  have distinct : (Json.obj (unsigned "checkpoint_mac" value)).Distinct :=
    distinct_unsigned (distinct_loadsPrintable loaded)
  have members {fields : Fields} (distinct' : (Json.obj fields).Distinct)
      (same : signedText "checkpoint_mac" value = canonicalJson (.obj fields)) :
      some (Json.int progress.records.length) = (mappingGet fields "record_count").map Json.sorted ∧
        some (Json.str progress.previousHash) = (mappingGet fields "last_hash").map Json.sorted := by
    rw [← mappingGet_of_text _ distinct distinct' same, ← mappingGet_of_text _ distinct distinct' same,
      mappingGet_unsigned (by decide), mappingGet_unsigned (by decide), counted, lasting]
    exact ⟨rfl, rfl⟩
  rcases told.texts _ (unforged.checkpoint checkpoint rfl value loaded signed) with
    ⟨safe, index, previous, distinct', same⟩ | ⟨earlier, shorter, former, known, same⟩
  · cases (members (distinct_unsignedRecord distinct') same).1
  · obtain ⟨count, last⟩ := members distinct_unsignedCheckpoint same
    have length : progress.records.length = former.records.length :=
      Int.ofNat.inj (Json.int.inj (Option.some.inj count))
    have previous : progress.previousHash = former.previousHash := Json.str.inj (Option.some.inj last)
    obtain ⟨records, first⟩ := chained.unique known.holds.chained distinguishes inside known.signed length
      previous
    exact ⟨earlier, shorter, former, known.holds, records, first, previous⟩

/-- **Tampering is detected.** Whatever calls a ledger has met: files in which all signatures are of
texts that it signed verify only if they are read as its own files were after some of the calls. -/
theorem tampering_detected (calls : List Call) (given : Directory)
    (distinguishes : Distinguishes mac (published sha256 mac manager {} calls))
    (unforged : Unforged mac (published sha256 mac manager {} calls) given)
    (valid : (readVerified mac given).1.valid = true) :
    ∃ earlier, earlier <+: calls ∧
      (readVerified mac given).1 =
        (readVerified mac (run (System.step sha256 mac manager) {} earlier).root.current).1 ∧
      (readVerified mac given).2.map sortedMembers =
        (readVerified mac (run (System.step sha256 mac manager) {} earlier).root.current).2.map
          sortedMembers := by
  obtain ⟨progress, holds⟩ := exists_holds valid
  obtain ⟨earlier, shorter, former, held, records, first, last⟩ :=
    (told calls).verified distinguishes unforged holds
  have length := congrArg List.length records
  rw [List.length_map, List.length_map] at length
  refine ⟨earlier, shorter, ?_, ?_⟩
  · rw [readVerified_of_holds holds, readVerified_of_holds held, length, first, last]
  · rw [readVerified_of_holds holds, readVerified_of_holds held]
    exact records

/-! ## The ledger's own files -/

theorem mem_records_of_line (read : readRecords mac progress lines = (final, none))
    {line : List Char} (member : line ∈ lines) (loaded : loadsPrintable line = some (.obj record)) :
    record ∈ final.records := by
  have kept {progress final : Progress} {lines : List (List Char)}
      (read : readRecords mac progress lines = (final, none)) : progress.records ⊆ final.records := by
    induction lines generalizing progress with
    | nil =>
        obtain ⟨rfl, _⟩ := Prod.mk.inj read
        exact List.Subset.refl _
    | cons line lines ih =>
        rw [readRecords] at read
        split at read
        · cases (Prod.mk.inj read).2
        split at read
        · cases (Prod.mk.inj read).2
        · split at read
          · cases (Prod.mk.inj read).2
          · exact List.Subset.trans (List.subset_append_left _ _) (ih read)
        · cases (Prod.mk.inj read).2
  induction lines generalizing progress with
  | nil => exact absurd member List.not_mem_nil
  | cons first lines ih =>
      rw [readRecords] at read
      split at read
      · cases (Prod.mk.inj read).2
      split at read
      · cases (Prod.mk.inj read).2
      next other here =>
        split at read
        · cases (Prod.mk.inj read).2
        · rcases List.mem_cons.mp member with rfl | later
          · obtain rfl := Json.obj.inj (Option.some.inj (here.symm.trans loaded))
            exact kept read (List.mem_append_right _ List.mem_cons_self)
          · exact ih read later
      · cases (Prod.mk.inj read).2

/-- The checkpoint that is loaded is the one that was written. -/
theorem text_of_checkpoint (loaded : loadsPrintable (lineOf (canonicalJson
    (.obj (checkpointPayload mac recordCount lastHash)))) = some (.obj fields)) :
    signedText "checkpoint_mac" fields = canonicalJson (.obj (unsignedCheckpoint recordCount lastHash)) := by
  have read := (Option.filter_eq_some_iff.mp loaded).1
  rw [loads_lineOf distinct_checkpoint, Json.sorted_obj] at read
  rw [← Json.obj.inj (Option.some.inj read)]
  exact signedText_checkpoint

/-- What the ledger itself has written is not forged. -/
theorem Known.unforged (known : Known mac texts directory progress) : Unforged mac texts directory := by
  constructor
  · intro line member record loaded _
    obtain ⟨lines, whole, read⟩ := known.holds.lines
    rw [whole] at member
    exact known.signed record (mem_records_of_line read member loaded)
  · intro raw given value loaded _
    obtain ⟨same, signed⟩ := known.checkpoint raw given
    rw [same] at loaded
    rw [text_of_checkpoint loaded]
    exact signed

theorem unforged_current (calls : List Call) : Unforged mac (published sha256 mac manager {} calls)
    (run (System.step sha256 mac manager) {} calls).root.current := by
  obtain ⟨progress, known⟩ := (told calls).current
  exact known.unforged

theorem valid_current (calls : List Call) :
    (readVerified mac (run (System.step sha256 mac manager) {} calls).root.current).1.valid = true := by
  obtain ⟨progress, known⟩ := (@told sha256 mac manager calls).current
  rw [readVerified_of_holds known.holds]

/-- A digest that tells one text from all others. -/
def telling (text : String) (bytes : Bytes) : Digest :=
  if bytes = encodeUtf8 text then ⟨List.replicate 32 1, List.length_replicate⟩ else blankDigest bytes

/-- The text of the first record of a ledger. -/
def firstText (event : AuditEvent) : String :=
  match safeEvent blankDigest event with
  | .ok safe => canonicalJson (.obj (unsignedRecord safe 1 genesisHash))
  | .error _ => ""

theorem telling_ne (other : text ≠ name) :
    telling text (encodeUtf8 text) ≠ telling text (encodeUtf8 name) := by
  rw [telling, telling, if_pos rfl, if_neg fun same => other (References.encodeUtf8_injective same.symm)]
  change (⟨List.replicate 32 1, List.length_replicate⟩ : Digest) ≠ ⟨List.replicate 32 0, List.length_replicate⟩
  decide

theorem telling_distinguishes : Distinguishes (telling (firstText searched))
    (published blankDigest (telling (firstText searched)) oneSegment {} [.emit searched]) := by
  rw [published, published, List.append_nil, publishedBy]
  split
  next safe _ kept _ =>
    have text : firstText searched = canonicalJson (.obj (unsignedRecord safe 1 genesisHash)) := by
      rw [firstText, kept]
    have other (recordCount : Nat) (lastHash : String) : telling (firstText searched)
        (encodeUtf8 (canonicalJson (.obj (unsignedRecord safe 1 genesisHash)))) ≠
          telling (firstText searched)
            (encodeUtf8 (canonicalJson (.obj (unsignedCheckpoint recordCount lastHash)))) := by
      rw [← text]
      refine telling_ne ?_
      rw [text]
      exact record_ne_checkpoint (distinct_safeEvent kept)
    intro first member second member' same
    rcases List.mem_pair.mp member with rfl | rfl
    · rcases List.mem_pair.mp member' with rfl | rfl
      · rfl
      · exact absurd same (other _ _)
    · rcases List.mem_pair.mp member' with rfl | rfl
      · exact absurd same.symm (other _ _)
      · rfl
  next =>
    intro first member
    exact absurd member List.not_mem_nil

theorem tampering_detected_searched : ∃ earlier, earlier <+: [Call.emit searched] ∧
    (readVerified (telling (firstText searched)) (run (System.step blankDigest
        (telling (firstText searched)) oneSegment) {} [.emit searched]).root.current).1 =
      (readVerified (telling (firstText searched)) (run (System.step blankDigest
        (telling (firstText searched)) oneSegment) {} earlier).root.current).1 ∧
    (readVerified (telling (firstText searched)) (run (System.step blankDigest
        (telling (firstText searched)) oneSegment) {} [.emit searched]).root.current).2.map sortedMembers =
      (readVerified (telling (firstText searched)) (run (System.step blankDigest
        (telling (firstText searched)) oneSegment) {} earlier).root.current).2.map sortedMembers :=
  tampering_detected [.emit searched] _ telling_distinguishes (unforged_current _) (valid_current _)

end CapabilityHub.Audit
