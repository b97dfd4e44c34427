import CapabilityHub.Audit.Reading
import CapabilityHub.Data.Order
import CapabilityHub.Database.Transaction

/-! # Audit retention

`retention.py`. A rotation moves the current ledger into an archive under the index after the newest one
and removes the oldest segments. The move may fail, and so may a removal, after some of the files of the
segment are gone.
-/

namespace CapabilityHub.Audit

/-! ## Segment names -/

/-- `f"{index:020d}"` -/
def paddedIndex (index : Nat) : List Char := (Nat.toDigits 10 index).leftpad 20 '0'

/-- `segment-` -/
def segmentPrefix : List Char := "segment-".toList

/-- The name of a segment. -/
def segmentName (index : Nat) : String := String.ofList (segmentPrefix ++ paddedIndex index)

/-- `_segment_index` of a name that `_SEGMENT` matches. -/
def segmentIndex (name : String) : Option Nat :=
  let digits := name.toList.drop segmentPrefix.length
  if name.toList.take segmentPrefix.length = segmentPrefix ∧ digits.length = 20 ∧
      digits.all Char.isDigit then
    some (Nat.ofDigitChars 10 digits 0)
  else none

/-! ## The manager -/

/-- `AuditRetentionManager`, with a bound that its constructor takes. -/
structure RetentionManager where
  maxSegments : Nat
  positive : 1 ≤ maxSegments
  bounded : maxSegments ≤ 1000

/-- The directory of a manager. -/
structure Root where
  current : Directory := {}
  archive : Dict String Directory := ∅

/-- What fails in a rotation. -/
structure Faults where
  /-- Whether `os.replace` raises. -/
  rename : Bool := false
  /-- The removals in their order; one that raises leaves the events or the checkpoint of its segment
  where it says so. -/
  removals : List (Option (Bool × Bool)) := []

/-- `RotationResult`. -/
structure RotationResult where
  archive : String
  verification : ChainVerification
  retainedSegments : Nat
  removedSegments : Nat

/-- `_segments`. -/
def Root.segments (root : Root) : List String :=
  sortedBy (fun name => (segmentIndex name).getD 0)
    (root.archive.keys.filter fun name => (segmentIndex name).isSome)

/-- The index of the next segment. -/
def Root.nextIndex (root : Root) : Nat :=
  match root.segments.getLast? with
  | some newest => (segmentIndex newest).getD 0 + 1
  | none => 1

/-- What a removal that raises has left of a segment. -/
def Directory.leave (directory : Directory) (left : Bool × Bool) : Directory where
  events := if left.1 then directory.events else none
  checkpoint := if left.2 then directory.checkpoint else none

/-- `shutil.rmtree` of a segment. -/
def Root.remove (root : Root) (name : String) : Root := { root with archive := root.archive.erase name }

/-- `shutil.rmtree` of a segment, where it raises. -/
def Root.removePart (root : Root) (name : String) (left : Bool × Bool) : Root :=
  { root with archive := root.archive.set name ((root.archive.getD name {}).leave left) }

/-- The current ledger is moved into the archive. -/
def Root.moveTo (root : Root) (target : String) : Root where
  current := {}
  archive := root.archive.set target root.current

def pruneError : Raised :=
  auditError "audit_retention_failed" "An expired secure audit segment could not be removed."

/-- The loop over the expired segments. -/
def removeAll : List (Option (Bool × Bool)) → List String → Transaction Root Raised Unit
  | _, [] => pure ()
  | removals, name :: rest =>
      match removals.head?.join with
      | some left => do
          Transaction.write fun root => root.removePart name left
          Transaction.query fun _ => .error pruneError
      | none => do
          Transaction.write fun root => root.remove name
          removeAll removals.tail rest

/-- The segments that `_prune` removes. -/
def Root.expired (root : Root) (manager : RetentionManager) : List String :=
  root.segments.take (root.segments.length - manager.maxSegments)

/-- `_prune`. -/
def prune (manager : RetentionManager) (removals : List (Option (Bool × Bool))) :
    Transaction Root Raised Nat := do
  let root ← Transaction.query .ok
  removeAll removals (root.expired manager)
  pure (root.expired manager).length

section

variable (mac : Bytes → Digest)

/-- `SecureAuditLedger.rotate_to`. -/
def rotateTo (fails : Bool) (target : String) : Transaction Root Raised ChainVerification := do
  let root ← Transaction.query .ok
  let verification := (readVerified mac root.current).1
  Transaction.query fun _ =>
    raiseIf (verification.valid = false) (invalidChain verification.errorCode)
  Transaction.query fun _ => raiseIf (verification.recordCount = 0)
    (auditError "secure_audit_empty" "An empty audit segment cannot rotate.")
  Transaction.query fun _ => raiseIf (target ∈ root.archive.keys)
    (auditError "secure_audit_rotation_conflict" "The audit archive destination already exists.")
  Transaction.query fun _ => raiseIf (fails = true)
    (auditError "secure_audit_rotation_failed" "The secure audit segment could not be rotated.")
  Transaction.write fun root => root.moveTo target
  pure verification

/-- `rotate`. -/
def rotate (manager : RetentionManager) (faults : Faults) : Transaction Root Raised RotationResult := do
  let root ← Transaction.query .ok
  let target := segmentName root.nextIndex
  let verification ← rotateTo mac faults.rename target
  let removed ← prune manager faults.removals
  let root ← Transaction.query .ok
  pure {
    archive := target
    verification := verification
    retainedSegments := root.segments.length
    removedSegments := removed }

end

/-! ## Names -/

variable {index other : Nat} {indices : List Nat} {name : String} {root final : Root}

/-- The indices that have names of their own. -/
def maxIndices : Nat := 10 ^ 20

theorem length_paddedIndex_le (small : index < maxIndices) : (paddedIndex index).length = 20 := by
  have digits : (Nat.toDigits 10 index).length ≤ 20 :=
    (Nat.length_toDigits_le_iff (by decide) (by decide)).mpr small
  rw [paddedIndex, List.length_leftpad, Nat.max_eq_left digits]

theorem ofDigitChars_zeros (count : Nat) (digits : List Char) :
    Nat.ofDigitChars 10 (List.replicate count '0' ++ digits) 0 = Nat.ofDigitChars 10 digits 0 := by
  induction count with
  | zero => rfl
  | succ count ih =>
      rw [List.replicate_succ, List.cons_append, Nat.ofDigitChars_cons]
      exact ih

theorem segmentIndex_segmentName : segmentIndex (segmentName index) =
    if index < maxIndices then some index else none := by
  have same : (segmentName index).toList = segmentPrefix ++ paddedIndex index := String.toList_ofList
  have digits : (paddedIndex index).all Char.isDigit = true := by
    rw [List.all_eq_true, paddedIndex, List.leftpad]
    intro char member
    rcases List.mem_append.mp member with zero | digit
    · rw [(List.mem_replicate.mp zero).2]
      decide
    · exact Nat.isDigit_of_mem_toDigits (by decide) (by decide) digit
  rw [segmentIndex, same, List.drop_left, List.take_left]
  simp only [digits, and_true, true_and]
  by_cases small : index < maxIndices
  · rw [if_pos (length_paddedIndex_le small), if_pos small, paddedIndex, List.leftpad,
      ofDigitChars_zeros, Nat.ofDigitChars_ten_toDigits]
  · rw [if_neg small, if_neg]
    intro long
    have digits : (Nat.toDigits 10 index).length ≤ 20 := by
      rw [← long, paddedIndex, List.length_leftpad]
      exact le_max_right _ _
    exact small ((Nat.length_toDigits_le_iff (by decide) (by decide)).mp digits)

theorem segmentName_inj (small : index < maxIndices) (small' : other < maxIndices)
    (same : segmentName index = segmentName other) : index = other := by
  have indices := congrArg segmentIndex same
  rw [segmentIndex_segmentName, segmentIndex_segmentName, if_pos small, if_pos small'] at indices
  exact Option.some.inj indices

/-- The number after the last one of a rising list is above all of it. -/
theorem lt_succ_getLast (rising : indices.Pairwise (· < ·)) (member : index ∈ indices) :
    index < (indices.getLast?.map (· + 1)).getD 1 := by
  cases newest : indices.getLast? with
  | none =>
      rw [List.getLast?_eq_none_iff.mp newest] at member
      cases member
  | some last =>
      obtain ⟨before, rfl⟩ := List.getLast?_eq_some_iff.mp newest
      rw [Option.map_some, Option.getD_some, Nat.lt_succ_iff]
      rcases List.mem_append.mp member with earlier | same
      · exact ((List.pairwise_append.mp rising).2.2 index earlier last
          (List.mem_singleton.mpr rfl)).le
      · exact (List.mem_singleton.mp same).le

/-- An archive with the segments of these indices, in rising order, and nothing else. -/
structure Root.Archives (root : Root) (indices : List Nat) : Prop where
  rising : indices.Pairwise (· < ·)
  bounded : ∀ index ∈ indices, index < maxIndices
  names : ∀ name, name ∈ root.archive.keys ↔ ∃ index ∈ indices, segmentName index = name

namespace Root.Archives

variable (archives : root.Archives indices)
include archives

/-- The segments in the order of their indices. -/
theorem segments : root.segments = indices.map segmentName := by
  have indexed {index : Nat} (member : index ∈ indices) : segmentIndex (segmentName index) = some index := by
    rw [segmentIndex_segmentName, if_pos (archives.bounded index member)]
  have keys : ∀ name, name ∈ root.archive.keys.filter (fun name => (segmentIndex name).isSome) ↔
      name ∈ indices.map segmentName := by
    intro name
    rw [List.mem_filter, archives.names, List.mem_map]
    apply and_iff_left_of_imp
    rintro ⟨index, member, rfl⟩
    rw [indexed member]
    rfl
  apply sortedBy_of_perm
  · rw [List.pairwise_map]
    refine archives.rising.imp_of_mem fun first second lower => ?_
    rw [indexed first, indexed second]
    exact lower
  · refine (List.perm_ext_iff_of_nodup (root.archive.keys_nodup.filter _) ?_).mpr keys
    refine List.Nodup.map_on (fun first member second member' same => ?_) archives.rising.nodup
    exact segmentName_inj (archives.bounded _ member) (archives.bounded _ member') same

theorem nextIndex : root.nextIndex = (indices.getLast?.map (· + 1)).getD 1 := by
  rw [Root.nextIndex, archives.segments, List.getLast?_map]
  cases newest : indices.getLast? with
  | none => rfl
  | some last =>
      have small := archives.bounded last (List.mem_of_getLast? newest)
      simp only [Option.map_some, segmentIndex_segmentName, if_pos small, Option.getD_some]

/-- The next index is above all others. -/
theorem below_nextIndex {index : Nat} (member : index ∈ indices) : index < root.nextIndex := by
  rw [archives.nextIndex]
  exact lt_succ_getLast archives.rising member

/-- The name of the next segment is not taken. -/
theorem nextName_notMem (small : root.nextIndex < maxIndices) :
    segmentName root.nextIndex ∉ root.archive.keys := by
  intro taken
  obtain ⟨index, member, same⟩ := (archives.names _).mp taken
  exact (archives.below_nextIndex member).ne (segmentName_inj (archives.bounded index member) small same)

/-- The current ledger goes after all other segments. -/
theorem moveTo (small : root.nextIndex < maxIndices) :
    (root.moveTo (segmentName root.nextIndex)).Archives (indices ++ [root.nextIndex]) where
  rising := by
    rw [List.pairwise_append]
    refine ⟨archives.rising, List.pairwise_singleton _ _, fun index member next same => ?_⟩
    rw [List.mem_singleton.mp same]
    exact archives.below_nextIndex member
  bounded := by
    intro index member
    rcases List.mem_append.mp member with earlier | same
    · exact archives.bounded index earlier
    · rwa [List.mem_singleton.mp same]
  names := by
    intro name
    rw [Root.moveTo, Dict.mem_keys_set, archives.names]
    simp only [List.mem_append, List.mem_singleton, or_and_right, exists_or, exists_eq_left]
    rw [or_comm, @eq_comm _ name]

end Root.Archives

/-! ## Removals -/

/-- What removing segments leaves, of those that expired and those that are kept. -/
structure Pruned (root : Root) (expired kept left : List Nat) (final : Root) : Prop where
  archives : final.Archives left
  newest : kept <:+ left
  suffix : left <:+ expired ++ kept
  current : final.current = root.current
  unchanged : ∀ index ∈ kept,
    final.archive.get? (segmentName index) = root.archive.get? (segmentName index)

variable {expired kept left : List Nat} {removals : List (Option (Bool × Bool))}

theorem Root.Archives.head_ne (archives : root.Archives (index :: expired ++ kept)) (member : other ∈ kept) :
    segmentName other ≠ segmentName index := by
  intro same
  have inside : other ∈ expired ++ kept := List.mem_append_right _ member
  have lower := (List.pairwise_cons.mp archives.rising).1 other inside
  have equal := segmentName_inj (archives.bounded other (List.mem_cons_of_mem _ inside))
    (archives.bounded index List.mem_cons_self) same
  exact lower.ne equal.symm

/-- The oldest segment is removed. -/
theorem Root.Archives.remove (archives : root.Archives (index :: indices)) :
    (root.remove (segmentName index)).Archives indices where
  rising := (List.pairwise_cons.mp archives.rising).2
  bounded := fun other member => archives.bounded other (List.mem_cons_of_mem _ member)
  names := by
    intro name
    have lower := (List.pairwise_cons.mp archives.rising).1
    rw [← Dict.get?_isSome_iff, Root.remove]
    simp only [Dict.get?_erase]
    by_cases same : name = segmentName index
    · rw [if_pos same]
      refine iff_of_false (by simp) ?_
      rintro ⟨other, member, named⟩
      have equal := segmentName_inj (archives.bounded other (List.mem_cons_of_mem _ member))
        (archives.bounded index List.mem_cons_self) (named.trans same)
      exact (lower other member).ne equal.symm
    · rw [if_neg same, Dict.get?_isSome_iff, archives.names]
      simp only [List.mem_cons, or_and_right, exists_or, exists_eq_left]
      exact or_iff_right fun named => same named.symm

/-- A segment that is removed in part has its name still. -/
theorem Root.Archives.removePart (archives : root.Archives indices) (member : index ∈ indices)
    (left : Bool × Bool) : (root.removePart (segmentName index) left).Archives indices where
  rising := archives.rising
  bounded := archives.bounded
  names := by
    intro name
    rw [Root.removePart, Dict.mem_keys_set, archives.names]
    apply or_iff_right_of_imp
    rintro rfl
    exact ⟨index, member, rfl⟩

/-- The expired segments are removed, or some of the newest of them are left with an error. -/
theorem removeAll_spec (archives : root.Archives (expired ++ kept)) :
    ∃ final left, Pruned root expired kept left final ∧
      ((removeAll removals (expired.map segmentName) root = .ok () final ∧ left = kept) ∨
        removeAll removals (expired.map segmentName) root = .error pruneError final) := by
  induction expired generalizing root removals with
  | nil =>
      exact ⟨root, kept, ⟨archives, List.suffix_rfl, List.suffix_rfl, rfl, fun _ _ => rfl⟩,
        .inl ⟨rfl, rfl⟩⟩
  | cons index expired ih =>
      rw [List.map_cons, removeAll]
      cases removals.head?.join with
      | some left =>
          refine ⟨root.removePart (segmentName index) left, index :: (expired ++ kept),
            ⟨archives.removePart List.mem_cons_self left, ?_, List.suffix_rfl, rfl, ?_⟩, .inr rfl⟩
          · exact List.suffix_append (index :: expired) kept
          · intro other member
            exact Dict.get?_set_of_ne (archives.head_ne member)
      | none =>
          obtain ⟨final, left, pruned, ends⟩ := @ih (root.remove (segmentName index)) removals.tail
            archives.remove
          refine ⟨final, left, ⟨pruned.archives, pruned.newest,
            pruned.suffix.trans (List.suffix_cons _ _), pruned.current, ?_⟩, ends⟩
          intro other member
          rw [pruned.unchanged other member]
          exact Dict.get?_erase.trans (if_neg (archives.head_ne member))

/-- Where no removal raises, all are removed. -/
theorem removeAll_nil (names : List String) :
    ∃ final, removeAll [] names root = .ok () final ∧ final.current = root.current := by
  induction names generalizing root with
  | nil => exact ⟨root, rfl, rfl⟩
  | cons name names ih => exact ih

/-- The last items of a list, as many as there are up to a number. -/
def newest {α : Type} (count : Nat) (items : List α) : List α := items.drop (items.length - count)

theorem newest_suffix {α : Type} (count : Nat) (items : List α) : newest count items <:+ items :=
  List.drop_suffix _ _

theorem length_newest {α : Type} (count : Nat) (items : List α) :
    (newest count items).length = min count items.length := by
  rw [newest, List.length_drop]
  omega

theorem newest_map {α β : Type} (f : α → β) (count : Nat) (items : List α) :
    newest count (items.map f) = (newest count items).map f := by
  rw [newest, newest, List.length_map, List.map_drop]

/-- The newest items of a list that has enough of them. -/
theorem newest_of_suffix {α : Type} {count : Nat} {items kept : List α} (suffix : kept <:+ items)
    (enough : min count items.length ≤ kept.length) : newest count kept = newest count items := by
  obtain ⟨before, rfl⟩ := suffix
  rw [List.length_append] at enough
  rw [newest, newest, List.length_append, List.drop_append]
  have gone : before.length ≤ before.length + kept.length - count := by omega
  rw [List.drop_eq_nil_of_le gone, List.nil_append]
  congr 1
  omega

theorem mem_newest_concat {α : Type} {count : Nat} {items : List α} {last item : α}
    (member : item ∈ newest count (items ++ [last])) : item = last ∨ item ∈ newest count items := by
  rw [newest, List.length_append, List.length_singleton, List.drop_append] at member
  rcases List.mem_append.mp member with earlier | here
  · exact .inr ((List.drop_sublist_drop_left items (by omega)).mem earlier)
  · exact .inl (List.mem_singleton.mp (List.mem_of_mem_drop here))

variable {manager : RetentionManager} {mac : Bytes → Digest} {faults : Faults} {progress : Progress}
  {target : String} {fails : Bool}

/-- `_prune` keeps the newest segments as they are. -/
theorem prune_spec (archives : root.Archives indices) :
    ∃ final left, Pruned root (indices.take (indices.length - manager.maxSegments))
        (newest manager.maxSegments indices) left final ∧
      ((prune manager removals root = .ok (indices.length - manager.maxSegments) final ∧
          left = newest manager.maxSegments indices) ∨
        prune manager removals root = .error pruneError final) := by
  have expired : root.expired manager =
      (indices.take (indices.length - manager.maxSegments)).map segmentName := by
    rw [Root.expired, archives.segments, List.length_map, List.map_take]
  have parts : root.Archives (indices.take (indices.length - manager.maxSegments) ++
      newest manager.maxSegments indices) := by
    rwa [newest, List.take_append_drop]
  obtain ⟨final, left, pruned, ends⟩ := @removeAll_spec _ _ _ removals parts
  refine ⟨final, left, pruned, ?_⟩
  rw [prune, Transaction.query_bind]
  dsimp only
  rw [expired]
  rcases ends with ⟨done, all⟩ | raised
  · refine .inl ⟨?_, all⟩
    rw [Transaction.bind_of_ok done, List.length_map, List.length_take,
      Nat.min_eq_left (Nat.sub_le _ _)]
    rfl
  · exact .inr (Transaction.bind_of_error raised)

theorem prune_nil : ∃ removed final, prune manager [] root = .ok removed final ∧
    final.current = root.current := by
  obtain ⟨final, done, current⟩ := @removeAll_nil root (root.expired manager)
  refine ⟨(root.expired manager).length, final, ?_, current⟩
  rw [prune, Transaction.query_bind]
  exact Transaction.bind_of_ok done

/-- What a rotation without records or with a failing move raises. -/
def rotationError (fails : Bool) : Raised :=
  if fails then auditError "secure_audit_rotation_failed" "The secure audit segment could not be rotated."
  else auditError "secure_audit_empty" "An empty audit segment cannot rotate."

theorem rotateTo_of_holds (holds : Holds mac root.current progress) (fresh : target ∉ root.archive.keys) :
    rotateTo mac fails target root =
      if progress.records = [] then .error (rotationError false) root
      else if fails then .error (rotationError true) root
      else .ok (readVerified mac root.current).1 (root.moveTo target) := by
  simp only [rotateTo, Transaction.query_bind, readVerified_of_holds holds, raiseIf, Bool.true_eq_false,
    if_false, List.length_eq_zero_iff, fresh]
  by_cases none : progress.records = []
  · rw [if_pos none, if_pos none]
    rfl
  · rw [if_neg none, if_neg none]
    cases fails <;> rfl

/-- A rotation raises before it changes anything, or it moves the current ledger and prunes. -/
theorem rotate_cases (archives : root.Archives indices) (small : root.nextIndex < maxIndices)
    (holds : Holds mac root.current progress) :
    ((progress.records = [] ∨ faults.rename = true) ∧
        ∃ fails, rotate mac manager faults root = .error (rotationError fails) root) ∨
      (progress.records ≠ [] ∧ ∃ final expired left,
        Pruned (root.moveTo (segmentName root.nextIndex)) expired
          (newest manager.maxSegments (indices ++ [root.nextIndex])) left final ∧
        expired ++ newest manager.maxSegments (indices ++ [root.nextIndex]) =
          indices ++ [root.nextIndex] ∧
        ((∃ result, rotate mac manager faults root = .ok result final ∧
            left = newest manager.maxSegments (indices ++ [root.nextIndex])) ∨
          rotate mac manager faults root = .error pruneError final)) := by
  have moved := @rotateTo_of_holds _ mac progress (segmentName root.nextIndex) faults.rename holds
    (archives.nextName_notMem small)
  rw [rotate, Transaction.query_bind]
  dsimp only
  by_cases none : progress.records = []
  · rw [if_pos none] at moved
    exact .inl ⟨.inl none, false, Transaction.bind_of_error moved⟩
  · rw [if_neg none] at moved
    by_cases fails : faults.rename = true
    · rw [if_pos fails] at moved
      exact .inl ⟨.inr fails, true, Transaction.bind_of_error moved⟩
    · rw [if_neg fails] at moved
      obtain ⟨final, left, pruned, ends⟩ := @prune_spec _ _ faults.removals manager
        (archives.moveTo small)
      refine .inr ⟨none, final, _, left, pruned, List.take_append_drop _ _, ?_⟩
      rw [Transaction.bind_of_ok moved]
      rcases ends with ⟨done, all⟩ | raised
      · exact .inl ⟨_, (Transaction.bind_of_ok done).trans rfl, all⟩
      · exact .inr (Transaction.bind_of_error raised)

/-- A ledger with records is rotated where nothing fails. -/
theorem rotate_ok (fresh : segmentName root.nextIndex ∉ root.archive.keys)
    (holds : Holds mac root.current progress) (some : progress.records ≠ []) :
    ∃ result final, rotate mac manager {} root = .ok result final ∧ final.current = {} := by
  have moved := @rotateTo_of_holds _ mac progress (segmentName root.nextIndex) false holds fresh
  rw [if_neg some, if_neg Bool.false_ne_true] at moved
  obtain ⟨removed, final, done, current⟩ := @prune_nil (root.moveTo (segmentName root.nextIndex)) manager
  rw [rotate, Transaction.query_bind]
  dsimp only
  rw [Transaction.bind_of_ok moved]
  exact ⟨_, final, (Transaction.bind_of_ok done).trans rfl, current⟩

end CapabilityHub.Audit
