import CapabilityHub.Approval.Records
import CapabilityHub.Data.Runs

/-! # The index of passages

`rag_index.py`. An index has three tables: the passages, the texts that full-text search looks at, and who
may read a passage. A call changes them in one transaction, and whatever the calls, the searched texts
are those of the passages (`CapabilityHub.Rag.Reached.consistent`).
-/

namespace CapabilityHub.Rag

open Approval (scopeDigest)
open Tenancy (TenantScope)

/-- Keys of two texts are told apart by `==`. -/
local instance lawfulKeys : LawfulBEq (String × String) := inferInstance

/-- `_PUBLIC` -/
def anyone : String := "*"

structure RagPassage where
  passageId : String
  citation : String
  text : String
  filters : Dict String String := ∅
  allowedPrincipals : List String := [anyone]
  createdAt : ℚ := 0
  freshUntil : Option ℚ := none
  retainUntil : Option ℚ := none

/-- A row of `rag_passages`, with the mapping that `filters_json` is the text of. -/
structure PassageRow where
  tenantDigest : String
  passageId : String
  citation : String
  text : String
  contentDigest : String
  filters : Dict String String
  createdAt : ℚ
  freshUntil : Option ℚ
  retainUntil : Option ℚ

/-- A row of `rag_fts`. -/
structure FtsRow where
  tenantDigest : String
  passageId : String
  text : String
  deriving DecidableEq

/-- A row of `rag_acl`, all of which is its key. -/
structure AclRow where
  tenantDigest : String
  passageId : String
  subjectDigest : String
  deriving DecidableEq

structure Tables where
  passages : List PassageRow := []
  fts : List FtsRow := []
  acl : List AclRow := []

/-- The primary key of a passage. -/
def PassageRow.key (row : PassageRow) : String × String := (row.tenantDigest, row.passageId)

/-- What is unique besides. -/
def PassageRow.content (row : PassageRow) : String × String := (row.tenantDigest, row.contentDigest)

def PassageRow.ftsRow (row : PassageRow) : FtsRow := ⟨row.tenantDigest, row.passageId, row.text⟩

/-! ## Errors -/

/-- `_unavailable`. -/
def unavailable : Raised :=
  .hub {
    code := "rag_passage_unavailable"
    category := .reference
    safeMessage := "The selected passage is unavailable." }

/-- `_index_error`. -/
def indexError (code : String) : Raised :=
  .hub {
    code := code
    category := .internal
    safeMessage := "The RAG index operation failed." }

/-! ## Changes -/

/-- `INSERT OR IGNORE INTO rag_passages`. -/
def insertPassage (rows : List PassageRow) (row : PassageRow) : List PassageRow :=
  if row.key ∈ rows.map PassageRow.key ∨ row.content ∈ rows.map PassageRow.content then rows
  else rows ++ [row]

/-- `INSERT OR IGNORE INTO rag_acl`. -/
def insertAcl (rows : List AclRow) (row : AclRow) : List AclRow :=
  if row ∈ rows then rows else rows ++ [row]

/-- `_validate_passage`. -/
def validatePassage (passage : RagPassage) : Except Raised Unit := do
  raiseIf (passage.passageId = "" ∨ passage.citation = "" ∨ passage.text = "") .valueError
  raiseIf ((passage.filters.entries.any fun field => field.1 = "" || field.2 = "") = true) .valueError
  raiseIf (passage.allowedPrincipals = []) .valueError
  raiseIf ((passage.retainUntil.any fun retain => decide (retain ≤ passage.createdAt)) = true) .valueError

/-- `_insert_batch`. -/
def insertBatch (tables : Tables) (records : List PassageRow) (acl : List AclRow) : Tables :=
  { tables with
    passages := records.foldl insertPassage tables.passages
    acl := acl.foldl insertAcl tables.acl }

section

variable (mac sha256 : Bytes → Bytes)

/-- `_tenant`. -/
def tenantOf (scope : TenantScope) : String :=
  scopeDigest mac ⟨scope.tenant, "rag-index", "rag-index", "rag-index"⟩

/-- `_subject`. -/
def subjectOf (principal : String) : String :=
  hex (mac (encodeUtf8 "rag-subject\x00" ++ encodeUtf8 principal))

/-- The record of a passage. -/
def rowOf (tenant : String) (passage : RagPassage) : PassageRow where
  tenantDigest := tenant
  passageId := passage.passageId
  citation := passage.citation
  text := passage.text
  contentDigest := hex (sha256 (encodeUtf8 passage.text))
  filters := passage.filters
  createdAt := passage.createdAt
  freshUntil := passage.freshUntil
  retainUntil := passage.retainUntil

/-- Who may read a passage. -/
def aclOf (tenant : String) (passage : RagPassage) : List AclRow :=
  passage.allowedPrincipals.map fun principal => ⟨tenant, passage.passageId, subjectOf mac principal⟩

/-- The loop of `replace`, with the records and the readers of the batch. -/
def ingest (tenant : String) (tables : Tables) (records : List PassageRow) (acl : List AclRow) :
    List RagPassage → Except Raised Tables
  | [] => .ok (insertBatch tables records acl)
  | passage :: rest => do
      validatePassage passage
      let records := records ++ [rowOf sha256 tenant passage]
      let acl := acl ++ aclOf mac tenant passage
      if records.length = 2000 then ingest tenant (insertBatch tables records acl) [] [] rest
      else ingest tenant tables records acl rest

/-- The tables without a tenant. -/
def withoutTenant (tables : Tables) (tenant : String) : Tables where
  passages := tables.passages.filter (·.tenantDigest ≠ tenant)
  fts := tables.fts.filter (·.tenantDigest ≠ tenant)
  acl := tables.acl.filter (·.tenantDigest ≠ tenant)

/-- `DiskRagIndex.replace`, which returns the number of passages. -/
def replace (tables : Tables) (scope : TenantScope) (passages : List RagPassage) :
    Except Raised (Tables × Nat) := do
  let tenant := tenantOf mac scope
  let tables ← ingest mac sha256 tenant (withoutTenant tables tenant) [] [] passages
  let own := tables.passages.filter (·.tenantDigest = tenant)
  pure ({ tables with fts := tables.fts ++ own.map PassageRow.ftsRow }, own.length)

/-- `DiskRagIndex.set_acl`. -/
def setAcl (tables : Tables) (scope : TenantScope) (passageId : String)
    (allowedPrincipals : List String) : Except Raised Tables := do
  let tenant := tenantOf mac scope
  raiseIf (allowedPrincipals = [] ∨ "" ∈ allowedPrincipals) .valueError
  raiseIf ((tenant, passageId) ∉ tables.passages.map PassageRow.key) unavailable
  let subjects := (allowedPrincipals.reverse.dedup.reverse).map (subjectOf mac)
  raiseIf (¬subjects.Nodup) (indexError "rag_acl_update_failed")
  pure { tables with
    acl := tables.acl.filter (fun row => ¬(row.tenantDigest = tenant ∧ row.passageId = passageId)) ++
      subjects.map fun subject => ⟨tenant, passageId, subject⟩ }

/-- `DiskRagIndex.purge_expired`, which returns the number of passages it deletes. -/
def purgeExpired (tables : Tables) (scope : TenantScope) (now : ℚ) : Tables × Nat :=
  let tenant := tenantOf mac scope
  let expired := tables.passages.filter fun row =>
    row.tenantDigest = tenant && row.retainUntil.any fun retain => decide (retain ≤ now)
  let keys := expired.map PassageRow.key
  ({ passages := tables.passages.filter (·.key ∉ keys)
     fts := tables.fts.filter fun row => (row.tenantDigest, row.passageId) ∉ keys
     acl := tables.acl.filter fun row => (row.tenantDigest, row.passageId) ∉ keys }, keys.length)

/-- A call that changes the tables. -/
inductive Change where
  | replace (scope : TenantScope) (passages : List RagPassage)
  | setAcl (scope : TenantScope) (passageId : String) (allowedPrincipals : List String)
  | purgeExpired (scope : TenantScope) (now : ℚ)

/-- The tables after a call; one that raises leaves them as they are. -/
def perform (tables : Tables) : Change → Tables
  | .replace scope passages =>
      match replace mac sha256 tables scope passages with
      | .ok result => result.1
      | .error _ => tables
  | .setAcl scope passageId allowedPrincipals =>
      match setAcl mac tables scope passageId allowedPrincipals with
      | .ok tables => tables
      | .error _ => tables
  | .purgeExpired scope now => (purgeExpired mac tables scope now).1

end

variable {mac sha256 : Bytes → Bytes} {tables tables' : Tables} {tenant : String}
  {records rows : List PassageRow} {row : PassageRow} {acl : List AclRow} {passages : List RagPassage}
  {scope : TenantScope} {passageId : String}

/-! ## What a call leaves -/

/-- What holds of the tables, whatever the calls. -/
structure Consistent (tables : Tables) : Prop where
  keys : (tables.passages.map PassageRow.key).Nodup
  contents : (tables.passages.map PassageRow.content).Nodup
  mirrored : tables.fts = tables.passages.map PassageRow.ftsRow
  texts : ∀ row ∈ tables.passages, row.text ≠ ""

theorem insertBatch_insertBatch {records' : List PassageRow} {acl' : List AclRow} :
    insertBatch (insertBatch tables records acl) records' acl' =
      insertBatch tables (records ++ records') (acl ++ acl') := by
  rw [insertBatch, insertBatch, insertBatch, List.foldl_append, List.foldl_append]

/-- In batches or not, the records are inserted one after the other, and so are the readers. -/
theorem ingest_eq_ok : ingest mac sha256 tenant tables records acl passages = .ok tables' ↔
    (∀ passage ∈ passages, validatePassage passage = .ok ()) ∧
      tables' = insertBatch tables (records ++ passages.map (rowOf sha256 tenant))
        (acl ++ passages.flatMap (aclOf mac tenant)) := by
  induction passages generalizing tables records acl with
  | nil =>
      rw [ingest, Except.ok.injEq, List.map_nil, List.flatMap_nil, List.append_nil, List.append_nil]
      exact ⟨fun same => ⟨fun passage member => absurd member List.not_mem_nil, same.symm⟩,
        fun done => done.2.symm⟩
  | cons passage passages ih =>
      have later : records ++ (passage :: passages).map (rowOf sha256 tenant) =
          (records ++ [rowOf sha256 tenant passage]) ++ passages.map (rowOf sha256 tenant) :=
        List.append_cons _ _ _
      rw [ingest, bind_eq_ok, exists_unit, List.forall_mem_cons, and_assoc]
      refine and_congr_right fun _ => ?_
      dsimp only
      rw [later, List.flatMap_cons, ← List.append_assoc acl]
      split
      · rw [ih, insertBatch_insertBatch, List.nil_append, List.nil_append]
      · exact ih

theorem replace_eq_ok {result : Tables × Nat} :
    replace mac sha256 tables scope passages = .ok result ↔
      (∀ passage ∈ passages, validatePassage passage = .ok ()) ∧
        ∃ filled, filled = insertBatch (withoutTenant tables (tenantOf mac scope))
            (passages.map (rowOf sha256 (tenantOf mac scope)))
            (passages.flatMap (aclOf mac (tenantOf mac scope))) ∧
          result = ({ filled with
            fts := filled.fts ++ (filled.passages.filter
              (·.tenantDigest = tenantOf mac scope)).map PassageRow.ftsRow },
            (filled.passages.filter (·.tenantDigest = tenantOf mac scope)).length) := by
  simp only [replace, bind_eq_ok, ingest_eq_ok, List.nil_append]
  constructor
  · rintro ⟨filled, ⟨valid, same⟩, done⟩
    exact ⟨valid, filled, same, (Except.ok.inj done).symm⟩
  · rintro ⟨valid, filled, same, rfl⟩
    exact ⟨filled, ⟨valid, same⟩, rfl⟩

/-- Rows are put after those that are there, as far as they are not ignored. -/
theorem foldl_insertPassage (rows records : List PassageRow) : ∃ kept, kept.Sublist records ∧
    records.foldl insertPassage rows = rows ++ kept := by
  induction records generalizing rows with
  | nil => exact ⟨[], List.Sublist.refl _, (List.append_nil _).symm⟩
  | cons row records ih =>
      rw [List.foldl_cons, insertPassage]
      split
      · obtain ⟨kept, sublist, same⟩ := ih rows
        exact ⟨kept, sublist.cons row, same⟩
      · obtain ⟨kept, sublist, same⟩ := ih (rows ++ [row])
        refine ⟨row :: kept, sublist.cons_cons row, ?_⟩
        rw [same, List.append_assoc, List.singleton_append]

theorem nodup_foldl_insertPassage (keys : (rows.map PassageRow.key).Nodup)
    (contents : (rows.map PassageRow.content).Nodup) :
    ((records.foldl insertPassage rows).map PassageRow.key).Nodup ∧
      ((records.foldl insertPassage rows).map PassageRow.content).Nodup := by
  induction records generalizing rows with
  | nil => exact ⟨keys, contents⟩
  | cons row records ih =>
      rw [List.foldl_cons, insertPassage]
      split
      · exact ih keys contents
      next fresh =>
        rw [not_or] at fresh
        apply ih
        · rw [List.map_append, List.map_singleton]
          exact List.nodup_append_comm.mp (List.nodup_cons.mpr ⟨fresh.1, keys⟩)
        · rw [List.map_append, List.map_singleton]
          exact List.nodup_append_comm.mp (List.nodup_cons.mpr ⟨fresh.2, contents⟩)

/-- Rows with keys and contents of their own are all inserted. -/
theorem foldl_insertPassage_of_nodup (keys : ((rows ++ records).map PassageRow.key).Nodup)
    (contents : ((rows ++ records).map PassageRow.content).Nodup) :
    records.foldl insertPassage rows = rows ++ records := by
  induction records generalizing rows with
  | nil => exact (List.append_nil _).symm
  | cons row records ih =>
      rw [List.append_cons] at keys contents
      have fresh {α : Type} {f : PassageRow → α} (nodup : ((rows ++ [row] ++ records).map f).Nodup) :
          f row ∉ rows.map f := by
        rw [List.map_append, List.map_append] at nodup
        have front := (List.nodup_append.mp nodup).1
        intro member
        exact (List.nodup_append.mp front).2.2 _ member _ List.mem_cons_self rfl
      rw [List.foldl_cons, insertPassage, if_neg (not_or.mpr ⟨fresh keys, fresh contents⟩),
        ih keys contents, List.append_assoc, List.singleton_append]

@[simp] theorem mem_foldl_insertAcl {reader : AclRow} {readers : List AclRow} :
    reader ∈ acl.foldl insertAcl readers ↔ reader ∈ readers ∨ reader ∈ acl := by
  induction acl generalizing readers with
  | nil => simp
  | cons first acl ih =>
      rw [List.foldl_cons, ih, insertAcl]
      split
      next member =>
        rw [List.mem_cons]
        refine ⟨Or.imp_right Or.inr, fun either => ?_⟩
        rcases either with inside | rfl | later
        · exact .inl inside
        · exact .inl member
        · exact .inr later
      · rw [List.mem_append, List.mem_singleton, List.mem_cons, or_assoc]

theorem Consistent.start : Consistent {} where
  keys := List.nodup_nil
  contents := List.nodup_nil
  mirrored := rfl
  texts := fun _ member => absurd member List.not_mem_nil

/-- Rows are deleted together with what is searched. -/
theorem Consistent.filter (consistent : Consistent tables) (keep : String × String → Bool) :
    Consistent { tables with
      passages := tables.passages.filter fun row => keep row.key
      fts := tables.fts.filter fun row => keep (row.tenantDigest, row.passageId) } where
  keys := consistent.keys.sublist (List.filter_sublist.map _)
  contents := consistent.contents.sublist (List.filter_sublist.map _)
  mirrored := by
    rw [consistent.mirrored, List.filter_map]
    rfl
  texts := fun row member => consistent.texts row (List.mem_of_mem_filter member)

theorem text_ne_of_valid {passage : RagPassage} (valid : validatePassage passage = .ok ()) :
    passage.text ≠ "" := by
  rw [validatePassage, bind_eq_ok, exists_unit, raiseIf_eq_ok, not_or, not_or] at valid
  exact valid.1.2.2

theorem Consistent.replace (consistent : Consistent tables) {result : Tables × Nat}
    (done : replace mac sha256 tables scope passages = .ok result) : Consistent result.1 := by
  obtain ⟨valid, filled, same, rfl⟩ := replace_eq_ok.mp done
  have others := consistent.filter fun key => key.1 ≠ tenantOf mac scope
  obtain ⟨kept, sublist, inserted⟩ := foldl_insertPassage
    (withoutTenant tables (tenantOf mac scope)).passages
    (passages.map (rowOf sha256 (tenantOf mac scope)))
  have own : ∀ row ∈ kept, ∃ passage ∈ passages, rowOf sha256 (tenantOf mac scope) passage = row :=
    fun row member => List.mem_map.mp (sublist.mem member)
  have unique := @nodup_foldl_insertPassage (passages.map (rowOf sha256 (tenantOf mac scope))) _
    others.keys others.contents
  have content : filled.passages = (withoutTenant tables (tenantOf mac scope)).passages ++ kept := by
    rw [same]
    exact inserted
  refine ⟨?_, ?_, ?_, ?_⟩
  · rw [same]
    exact unique.1
  · rw [same]
    exact unique.2
  · have first : (withoutTenant tables (tenantOf mac scope)).passages.filter
        (·.tenantDigest = tenantOf mac scope) = [] := by
      rw [withoutTenant, List.filter_filter]
      simp
    have second : kept.filter (·.tenantDigest = tenantOf mac scope) = kept := by
      refine List.filter_eq_self.mpr fun row member => ?_
      obtain ⟨passage, _, rfl⟩ := own row member
      exact decide_eq_true rfl
    dsimp only
    rw [content, List.filter_append, first, second, List.nil_append, List.map_append, same]
    exact congrArg (· ++ kept.map PassageRow.ftsRow) others.mirrored
  · intro row member
    rw [content] at member
    rcases List.mem_append.mp member with other | new
    · exact others.texts row other
    · obtain ⟨passage, among, rfl⟩ := own row new
      exact text_ne_of_valid (valid passage among)

theorem Consistent.perform (consistent : Consistent tables) (change : Change) :
    Consistent (perform mac sha256 tables change) := by
  cases change with
  | replace scope passages =>
      rw [Rag.perform]
      split
      next done => exact consistent.replace done
      next => exact consistent
  | setAcl scope passageId allowedPrincipals =>
      rw [Rag.perform]
      split
      next done =>
        simp only [setAcl, bind_eq_ok, exists_unit] at done
        obtain ⟨_, _, _, same⟩ := done
        rw [← Except.ok.inj same]
        exact ⟨consistent.keys, consistent.contents, consistent.mirrored, consistent.texts⟩
      next => exact consistent
  | purgeExpired scope now =>
      have others := consistent.filter fun key => key ∉ (tables.passages.filter fun row =>
        row.tenantDigest = tenantOf mac scope &&
          row.retainUntil.any fun retain => decide (retain ≤ now)).map PassageRow.key
      exact ⟨others.keys, others.contents, others.mirrored, others.texts⟩

/-- Into an empty index all passages are put, if no two have an id or a digest in common. -/
theorem perform_replace (valid : ∀ passage ∈ passages, validatePassage passage = .ok ())
    (ids : (passages.map RagPassage.passageId).Nodup)
    (digests : (passages.map fun passage => hex (sha256 (encodeUtf8 passage.text))).Nodup) :
    perform mac sha256 {} (.replace scope passages) = {
      passages := passages.map (rowOf sha256 (tenantOf mac scope))
      fts := passages.map fun passage => (rowOf sha256 (tenantOf mac scope) passage).ftsRow
      acl := (passages.flatMap (aclOf mac (tenantOf mac scope))).foldl insertAcl [] } := by
  have own {α : Type} (f : RagPassage → α) (nodup : (passages.map f).Nodup) :
      (passages.map fun passage => (tenantOf mac scope, f passage)).Nodup := by
    have mapped := @List.Nodup.map _ _ _ (fun value => (tenantOf mac scope, value))
      (fun _ _ same => (Prod.ext_iff.mp same).2) nodup
    rwa [List.map_map] at mapped
  have filled : (passages.map (rowOf sha256 (tenantOf mac scope))).foldl insertPassage [] =
      passages.map (rowOf sha256 (tenantOf mac scope)) := by
    refine foldl_insertPassage_of_nodup ?_ ?_ <;> rw [List.nil_append, List.map_map]
    · exact own RagPassage.passageId ids
    · exact own _ digests
  have all : (passages.map (rowOf sha256 (tenantOf mac scope))).filter
      (·.tenantDigest = tenantOf mac scope) = passages.map (rowOf sha256 (tenantOf mac scope)) := by
    refine List.filter_eq_self.mpr (List.forall_mem_map.mpr fun passage _ => ?_)
    exact decide_eq_true rfl
  have done := (@replace_eq_ok mac sha256 {} passages scope _).mpr ⟨valid, _, rfl, rfl⟩
  rw [perform, done]
  change Tables.mk (List.foldl insertPassage [] _)
    ([] ++ ((List.foldl insertPassage [] _).filter _).map _) _ = _
  rw [filled, all, List.nil_append, List.map_map]
  rfl

/-- Tables that calls have made. -/
def Reached (mac sha256 : Bytes → Bytes) (tables : Tables) : Prop :=
  ∃ changes, run (perform mac sha256) {} changes = tables

/-- Whatever the calls, the searched texts are those of the passages. -/
theorem Reached.consistent (reached : Reached mac sha256 tables) : Consistent tables := by
  obtain ⟨changes, rfl⟩ := reached
  exact run_invariant Consistent.start fun _ change consistent => consistent.perform change

end CapabilityHub.Rag
