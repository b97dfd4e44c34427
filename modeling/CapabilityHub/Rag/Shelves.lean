import CapabilityHub.Rag.Handles
import CapabilityHub.Rag.Ingestion

/-! # Who is served what

An index as its tenants think of it: each has a shelf of passages with their readers, and only its own
calls change it (`CapabilityHub.Rag.shelve`). Whatever the calls, the three tables show the shelves
(`CapabilityHub.Rag.shows_run`), so `search` and `expand` give a caller the passages on the shelf of its
tenant that it is a reader of, and no others (`CapabilityHub.Rag.serves_shelves`).
-/

namespace CapabilityHub.Rag

open Tenancy (TenantScope)

/-- A passage of a tenant, with those who may read it. -/
structure Holding where
  passage : RagPassage
  readers : List String

/-- Whether the passages of a call are valid. -/
def allValid (passages : List RagPassage) : Bool :=
  passages.all fun passage => (validatePassage passage).toBool

section

variable (sha256 : Bytes → Bytes)

/-- A passage stays if neither its id nor the digest of its text came before. -/
def keepFirst (kept : List RagPassage) (passage : RagPassage) : List RagPassage :=
  if passage.passageId ∈ kept.map RagPassage.passageId ∨
      digestOf sha256 passage ∈ kept.map (digestOf sha256) then kept
  else kept ++ [passage]

/-- All who are named with an id, also by passages that do not stay. -/
def readersOf (passages : List RagPassage) (passageId : String) : List String :=
  (passages.filter fun passage => passage.passageId = passageId).flatMap RagPassage.allowedPrincipals

/-- What is on a shelf after a `replace`. -/
def stock (passages : List RagPassage) : List Holding :=
  (passages.foldl (keepFirst sha256) []).map fun passage => ⟨passage, readersOf passages passage.passageId⟩

/-- What a call does to the shelf of a tenant. -/
def shelve (tenant : String) (shelf : List Holding) : Change → List Holding
  | .replace scope passages =>
      if scope.tenant = tenant ∧ allValid passages = true then stock sha256 passages else shelf
  | .setAcl scope passageId principals =>
      if scope.tenant = tenant ∧ principals ≠ [] ∧ "" ∉ principals then
        shelf.map fun holding =>
          if holding.passage.passageId = passageId then { holding with readers := principals } else holding
      else shelf
  | .purgeExpired scope now =>
      if scope.tenant = tenant then
        shelf.filter fun holding => holding.passage.retainUntil.all fun retain => decide (now < retain)
      else shelf

end

/-- The tables show a shelf: the rows of its passages, and which subjects may read them. -/
structure Shows (mac sha256 : Bytes → Bytes) (tables : Tables) (scope : TenantScope) (shelf : List Holding) :
    Prop where
  rows : tables.passages.filter (·.tenantDigest = tenantOf mac scope) =
    shelf.map fun holding => rowOf sha256 (tenantOf mac scope) holding.passage
  readers : ∀ holding ∈ shelf, ∀ subject,
    ⟨tenantOf mac scope, holding.passage.passageId, subject⟩ ∈ tables.acl ↔
      subject ∈ holding.readers.map (subjectOf mac)

variable {mac sha256 : Bytes → Bytes} {fullText : FullText} {intOf : String → Option Int}
  {tables tables' : Tables} {scope caller : TenantScope} {shelf : List Holding} {passages : List RagPassage}
  {passage : RagPassage} {passageId query handle : String} {filters : Dict String String} {now : ℚ}
  {holding : Holding} {hit : RagHit} {topK maxBytes : Nat}

theorem tenant_of_tenantOf (injective : Function.Injective mac)
    (same : tenantOf mac scope = tenantOf mac caller) : scope.tenant = caller.tenant := by
  rw [tenantOf, tenantOf] at same
  exact (TenantScope.mk.inj (Approval.scopeDigest_injective injective same)).1

theorem tenantOf_eq_iff (injective : Function.Injective mac) :
    tenantOf mac scope = tenantOf mac caller ↔ scope.tenant = caller.tenant := by
  refine ⟨tenant_of_tenantOf injective, fun same => ?_⟩
  rw [tenantOf, tenantOf, same]

theorem subjectOf_injective (injective : Function.Injective mac) : Function.Injective (subjectOf mac) := by
  intro first second same
  exact References.encodeUtf8_injective (List.append_cancel_left (injective (hex_injective same)))

theorem allValid_iff : allValid passages = true ↔ ∀ passage ∈ passages, validatePassage passage = .ok () := by
  rw [allValid, List.all_eq_true]
  refine forall₂_congr fun passage _ => ?_
  cases validatePassage passage with
  | ok value => simp [Except.toBool]
  | error error => simp [Except.toBool]

/-! ## The calls of another tenant -/

theorem Shows.of_other (shows : Shows mac sha256 tables scope shelf)
    (rows : tables'.passages.filter (·.tenantDigest = tenantOf mac scope) =
      tables.passages.filter (·.tenantDigest = tenantOf mac scope))
    (readers : ∀ passageId subject, ⟨tenantOf mac scope, passageId, subject⟩ ∈ tables'.acl ↔
      ⟨tenantOf mac scope, passageId, subject⟩ ∈ tables.acl) : Shows mac sha256 tables' scope shelf where
  rows := rows.trans shows.rows
  readers holding member subject := (readers _ subject).trans (shows.readers holding member subject)

theorem filter_withoutTenant {tenant other : String} (different : tenant ≠ other) :
    (withoutTenant tables other).passages.filter (·.tenantDigest = tenant) =
      tables.passages.filter (·.tenantDigest = tenant) := by
  rw [withoutTenant, List.filter_filter]
  apply List.filter_congr
  intro row _
  by_cases own : row.tenantDigest = tenant
  · simp [own, different]
  · simp [own]

/-- Records of one tenant do not get in the way of the rows of another. -/
theorem filter_foldl_insertPassage {tenant : String} {records rows : List PassageRow}
    (foreign : ∀ record ∈ records, record.tenantDigest ≠ tenant) :
    (records.foldl insertPassage rows).filter (·.tenantDigest = tenant) =
      rows.filter (·.tenantDigest = tenant) := by
  obtain ⟨kept, sublist, same⟩ := foldl_insertPassage rows records
  have none : kept.filter (·.tenantDigest = tenant) = [] :=
    List.filter_eq_nil_iff.mpr fun row member own =>
      foreign row (sublist.mem member) (of_decide_eq_true own)
  rw [same, List.filter_append, none, List.append_nil]

/-! ## A replace -/

/-- Among the rows of a tenant, the ones with the passages that stay are inserted. -/
theorem foldl_insertPassage_rowOf {tenant : String} {others : List PassageRow} {kept : List RagPassage}
    (foreign : ∀ row ∈ others, row.tenantDigest ≠ tenant) :
    (passages.map (rowOf sha256 tenant)).foldl insertPassage (others ++ kept.map (rowOf sha256 tenant)) =
      others ++ (passages.foldl (keepFirst sha256) kept).map (rowOf sha256 tenant) := by
  induction passages generalizing kept with
  | nil => rfl
  | cons passage passages ih =>
      have known {α : Type} (f : PassageRow → String × α) (own : ∀ row, (f row).1 = row.tenantDigest) :
          f (rowOf sha256 tenant passage) ∈ (others ++ kept.map (rowOf sha256 tenant)).map f ↔
            (f (rowOf sha256 tenant passage)).2 ∈ kept.map fun other => (f (rowOf sha256 tenant other)).2 := by
        rw [List.map_append, List.mem_append, List.map_map]
        constructor
        · rintro (inside | inside)
          · obtain ⟨row, member, same⟩ := List.mem_map.mp inside
            have place := congrArg Prod.fst same
            rw [own, own] at place
            exact absurd place (foreign row member)
          · obtain ⟨other, member, same⟩ := List.mem_map.mp inside
            exact List.mem_map.mpr ⟨other, member, congrArg Prod.snd same⟩
        · intro inside
          obtain ⟨other, member, same⟩ := List.mem_map.mp inside
          refine .inr (List.mem_map.mpr ⟨other, member, Prod.ext ?_ same⟩)
          exact (own (rowOf sha256 tenant other)).trans (own (rowOf sha256 tenant passage)).symm
      have keys := known PassageRow.key fun _ => rfl
      have contents := known PassageRow.content fun _ => rfl
      rw [List.map_cons, List.foldl_cons, List.foldl_cons, insertPassage, keepFirst]
      by_cases same : passage.passageId ∈ kept.map RagPassage.passageId ∨
          digestOf sha256 passage ∈ kept.map (digestOf sha256)
      · rw [if_pos ((or_congr keys contents).mpr same), if_pos same]
        exact ih
      · rw [if_neg fun known => same ((or_congr keys contents).mp known), if_neg same, List.append_assoc,
          ← List.map_singleton, ← List.map_append]
        exact ih

/-- What a replace leaves of a tenant is the new stock. -/
theorem shows_replace {count : Nat} (done : replace mac sha256 tables scope passages = .ok (tables', count)) :
    Shows mac sha256 tables' scope (stock sha256 passages) where
  rows := by
    obtain ⟨_, filled, rfl, same⟩ := replace_eq_ok.mp done
    have content : tables'.passages = (passages.map (rowOf sha256 (tenantOf mac scope))).foldl insertPassage
        (withoutTenant tables (tenantOf mac scope)).passages := congrArg (Tables.passages ∘ Prod.fst) same
    have foreign : ∀ row ∈ (withoutTenant tables (tenantOf mac scope)).passages,
        row.tenantDigest ≠ tenantOf mac scope := fun row member =>
      of_decide_eq_true (List.mem_filter.mp member).2
    have inserted := @foldl_insertPassage_rowOf sha256 passages _ _ [] foreign
    rw [List.map_nil, List.append_nil] at inserted
    have none : (withoutTenant tables (tenantOf mac scope)).passages.filter
        (·.tenantDigest = tenantOf mac scope) = [] :=
      List.filter_eq_nil_iff.mpr fun row member own => foreign row member (of_decide_eq_true own)
    have all : ((passages.foldl (keepFirst sha256) []).map (rowOf sha256 (tenantOf mac scope))).filter
        (·.tenantDigest = tenantOf mac scope) =
          (passages.foldl (keepFirst sha256) []).map (rowOf sha256 (tenantOf mac scope)) :=
      List.filter_eq_self.mpr (List.forall_mem_map.mpr fun _ _ => decide_eq_true rfl)
    rw [content, inserted, List.filter_append, none, all, List.nil_append, stock, List.map_map]
    rfl
  readers holding member subject := by
    obtain ⟨kept, _, rfl⟩ := List.mem_map.mp member
    rw [mem_acl_replace done, readersOf]
    simp only [List.mem_map, List.mem_flatMap, List.mem_filter, decide_eq_true_eq]
    constructor
    · rintro ⟨passage, inside, name, principal, listed, same⟩
      exact ⟨principal, ⟨passage, ⟨inside, name⟩, listed⟩, same⟩
    · rintro ⟨principal, ⟨passage, ⟨inside, name⟩, listed⟩, same⟩
      exact ⟨passage, inside, name, principal, listed, same⟩

/-- A replace of another tenant leaves the shelf. -/
theorem Shows.replace_other (shows : Shows mac sha256 tables caller shelf) {count : Nat}
    (different : tenantOf mac scope ≠ tenantOf mac caller)
    (done : replace mac sha256 tables scope passages = .ok (tables', count)) :
    Shows mac sha256 tables' caller shelf := by
  obtain ⟨_, filled, rfl, same⟩ := replace_eq_ok.mp done
  have content : tables'.passages = (passages.map (rowOf sha256 (tenantOf mac scope))).foldl insertPassage
      (withoutTenant tables (tenantOf mac scope)).passages := congrArg (Tables.passages ∘ Prod.fst) same
  have acl : tables'.acl = (passages.flatMap (aclOf mac (tenantOf mac scope))).foldl insertAcl
      (withoutTenant tables (tenantOf mac scope)).acl := congrArg (Tables.acl ∘ Prod.fst) same
  apply shows.of_other
  · rw [content, filter_foldl_insertPassage (List.forall_mem_map.mpr fun _ _ => different),
      filter_withoutTenant different.symm]
  · intro passageId subject
    have own : ⟨tenantOf mac caller, passageId, subject⟩ ∉
        passages.flatMap (aclOf mac (tenantOf mac scope)) := by
      intro member
      obtain ⟨passage, _, listed⟩ := List.mem_flatMap.mp member
      obtain ⟨principal, _, same⟩ := List.mem_map.mp listed
      exact different (AclRow.mk.inj same).1
    rw [acl, mem_foldl_insertAcl, or_iff_left own, withoutTenant, List.mem_filter]
    exact and_iff_left (decide_eq_true different.symm)

/-! ## A change of readers -/

theorem Shows.known_iff (shows : Shows mac sha256 tables scope shelf) :
    (tenantOf mac scope, passageId) ∈ tables.passages.map PassageRow.key ↔
      ∃ holding ∈ shelf, holding.passage.passageId = passageId := by
  constructor
  · intro known
    obtain ⟨row, member, same⟩ := List.mem_map.mp known
    have own : row ∈ tables.passages.filter (·.tenantDigest = tenantOf mac scope) :=
      List.mem_filter.mpr ⟨member, decide_eq_true (congrArg Prod.fst same)⟩
    rw [shows.rows] at own
    obtain ⟨holding, inside, rfl⟩ := List.mem_map.mp own
    exact ⟨holding, inside, congrArg Prod.snd same⟩
  · rintro ⟨holding, inside, rfl⟩
    have own : rowOf sha256 (tenantOf mac scope) holding.passage ∈
        tables.passages.filter (·.tenantDigest = tenantOf mac scope) := by
      rw [shows.rows]
      exact List.mem_map_of_mem inside
    exact List.mem_map.mpr ⟨_, (List.mem_filter.mp own).1, rfl⟩

/-- What `set_acl` does where it does not raise. -/
theorem setAcl_eq_ok {principals : List String} (injective : Function.Injective mac) :
    setAcl mac tables scope passageId principals = .ok tables' ↔
      (principals ≠ [] ∧ "" ∉ principals) ∧
      (tenantOf mac scope, passageId) ∈ tables.passages.map PassageRow.key ∧
      { tables with
        acl := tables.acl.filter (fun row =>
          ¬(row.tenantDigest = tenantOf mac scope ∧ row.passageId = passageId)) ++
          ((principals.reverse.dedup.reverse).map (subjectOf mac)).map fun subject =>
            ⟨tenantOf mac scope, passageId, subject⟩ } = tables' := by
  have distinct : ((principals.reverse.dedup.reverse).map (subjectOf mac)).Nodup :=
    (List.nodup_reverse.mpr (List.nodup_dedup _)).map (subjectOf_injective injective)
  simp only [setAcl, bind_eq_ok, exists_unit, raiseIf_eq_ok, not_or, not_not, pure_eq_ok]
  exact and_congr_right fun _ => and_congr_right fun _ => and_iff_right distinct

theorem Shows.setAcl (shows : Shows mac sha256 tables scope shelf) {principals : List String}
    (injective : Function.Injective mac)
    (done : setAcl mac tables scope passageId principals = .ok tables') :
    Shows mac sha256 tables' scope (shelf.map fun holding =>
      if holding.passage.passageId = passageId then { holding with readers := principals } else holding) := by
  obtain ⟨_, _, rfl⟩ := (setAcl_eq_ok injective).mp done
  refine ⟨?_, fun changed member subject => ?_⟩
  · refine shows.rows.trans ?_
    rw [List.map_map]
    apply List.map_congr_left
    intro holding _
    rw [Function.comp_apply]
    split <;> rfl
  · obtain ⟨holding, inside, rfl⟩ := List.mem_map.mp member
    rw [List.mem_append, List.mem_filter]
    by_cases same : holding.passage.passageId = passageId
    · rw [if_pos same]
      simp only [same, List.mem_map, List.mem_reverse, List.mem_dedup, AclRow.mk.injEq, true_and]
      simp
    · rw [if_neg same]
      have kept := shows.readers holding inside subject
      simp [same, Ne.symm same, kept]

theorem Shows.setAcl_other (shows : Shows mac sha256 tables caller shelf) {principals : List String}
    (injective : Function.Injective mac) (different : tenantOf mac scope ≠ tenantOf mac caller)
    (done : Rag.setAcl mac tables scope passageId principals = .ok tables') :
    Shows mac sha256 tables' caller shelf := by
  obtain ⟨_, _, rfl⟩ := (setAcl_eq_ok injective).mp done
  refine shows.of_other rfl fun other subject => ?_
  rw [List.mem_append, List.mem_filter]
  simp [different, different.symm]

/-! ## Purging -/

theorem Shows.purge (shows : Shows mac sha256 tables scope shelf) (consistent : Consistent tables) (now : ℚ) :
    Shows mac sha256 (purgeExpired mac tables scope now).1 scope
      (shelf.filter fun holding => holding.passage.retainUntil.all fun retain => decide (now < retain)) := by
  have gone (row : PassageRow) (member : row ∈ tables.passages) (own : row.tenantDigest = tenantOf mac scope) :
      row.key ∉ (tables.passages.filter fun row => row.tenantDigest = tenantOf mac scope &&
        row.retainUntil.any fun retain => decide (retain ≤ now)).map PassageRow.key ↔
          (row.retainUntil.all fun retain => decide (now < retain)) = true := by
    have expired : (row.retainUntil.any fun retain => decide (retain ≤ now)) =
        !(row.retainUntil.all fun retain => decide (now < retain)) := by
      cases row.retainUntil with
      | none => rfl
      | some retain => simp [← not_lt]
    constructor
    · intro absent
      by_contra ended
      apply absent
      refine List.mem_map_of_mem (List.mem_filter.mpr ⟨member, ?_⟩)
      rw [Bool.and_eq_true, expired, Bool.not_eq_true']
      exact ⟨decide_eq_true own, Bool.not_eq_true _ |>.mp ended⟩
    · intro lasting inside
      obtain ⟨other, found, same⟩ := List.mem_map.mp inside
      obtain ⟨there, ended⟩ := List.mem_filter.mp found
      obtain rfl := List.inj_on_of_nodup_map consistent.keys there member same
      rw [expired, lasting, Bool.not_true, Bool.and_false] at ended
      cases ended
  refine ⟨?_, fun holding member subject => ?_⟩
  · rw [purgeExpired]
    dsimp only
    rw [List.filter_comm]
    have lasting := @List.filter_map _ _ (rowOf sha256 (tenantOf mac scope) ∘ Holding.passage)
      (fun row : PassageRow => row.retainUntil.all fun retain => decide (now < retain)) shelf
    refine Eq.trans ?_ lasting
    rw [Function.comp_def, ← shows.rows, List.filter_filter, List.filter_filter]
    apply List.filter_congr
    intro row inside
    by_cases own : row.tenantDigest = tenantOf mac scope
    · simp only [own, decide_true, Bool.and_true]
      exact (Bool.eq_iff_iff.mpr (decide_eq_true_iff.trans (gone row inside own)))
    · simp [own]
  · obtain ⟨inside, lasting⟩ := List.mem_filter.mp member
    have row : rowOf sha256 (tenantOf mac scope) holding.passage ∈
        tables.passages.filter (·.tenantDigest = tenantOf mac scope) := by
      rw [shows.rows]
      exact List.mem_map_of_mem inside
    have kept := (gone _ (List.mem_filter.mp row).1 rfl).mpr lasting
    refine (List.mem_filter.trans (and_iff_left ?_)).trans (shows.readers holding inside subject)
    exact decide_eq_true kept

theorem Shows.purge_other (shows : Shows mac sha256 tables caller shelf)
    (different : tenantOf mac scope ≠ tenantOf mac caller) (now : ℚ) :
    Shows mac sha256 (purgeExpired mac tables scope now).1 caller shelf := by
  have foreign (passageId : String) : (tenantOf mac caller, passageId) ∉
      (tables.passages.filter fun row => row.tenantDigest = tenantOf mac scope &&
        row.retainUntil.any fun retain => decide (retain ≤ now)).map PassageRow.key := by
    intro inside
    obtain ⟨row, found, same⟩ := List.mem_map.mp inside
    have place := (List.mem_filter.mp found).2
    rw [Bool.and_eq_true, decide_eq_true_eq] at place
    exact different (place.1.symm.trans (congrArg Prod.fst same))
  apply shows.of_other
  · rw [purgeExpired]
    dsimp only
    rw [List.filter_filter]
    apply List.filter_congr
    intro row _
    by_cases own : row.tenantDigest = tenantOf mac caller
    · simp [own, PassageRow.key, foreign]
    · simp [own]
  · intro passageId subject
    exact List.mem_filter.trans (and_iff_left (decide_eq_true (foreign passageId)))

/-! ## Any calls -/

theorem Shows.congr (shows : Shows mac sha256 tables scope shelf)
    (same : tenantOf mac scope = tenantOf mac caller) : Shows mac sha256 tables caller shelf where
  rows := by
    rw [← same]
    exact shows.rows
  readers := by
    rw [← same]
    exact shows.readers

theorem Shows.perform (shows : Shows mac sha256 tables caller shelf) (consistent : Consistent tables)
    (injective : Function.Injective mac) (change : Change) :
    Shows mac sha256 (perform mac sha256 tables change) caller (shelve sha256 caller.tenant shelf change) := by
  cases change with
  | replace scope passages =>
      rw [Rag.perform, shelve]
      cases done : Rag.replace mac sha256 tables scope passages with
      | ok result =>
          have valid := allValid_iff.mpr (replace_eq_ok.mp done).1
          by_cases own : scope.tenant = caller.tenant
          · rw [if_pos ⟨own, valid⟩]
            exact (shows_replace done).congr ((tenantOf_eq_iff injective).mpr own)
          · rw [if_neg fun both => own both.1]
            exact shows.replace_other (fun same => own (tenant_of_tenantOf injective same)) done
      | error error =>
          have invalid : ¬allValid passages = true := fun valid => by
            have accepted := (@replace_eq_ok mac sha256 tables passages scope _).mpr
              ⟨allValid_iff.mp valid, _, rfl, rfl⟩
            rw [done] at accepted
            cases accepted
          rw [if_neg fun both => invalid both.2]
          exact shows
  | setAcl scope passageId principals =>
      rw [Rag.perform, shelve]
      cases done : Rag.setAcl mac tables scope passageId principals with
      | ok result =>
          obtain ⟨named, _, _⟩ := (setAcl_eq_ok injective).mp done
          by_cases own : scope.tenant = caller.tenant
          · have same := (tenantOf_eq_iff injective).mpr own
            rw [if_pos ⟨own, named⟩]
            exact ((shows.congr same.symm).setAcl injective done).congr same
          · rw [if_neg fun both => own both.1]
            exact shows.setAcl_other injective (fun same => own (tenant_of_tenantOf injective same)) done
      | error error =>
          by_cases asked : scope.tenant = caller.tenant ∧ principals ≠ [] ∧ "" ∉ principals
          · -- The passage is not on the shelf.
            rw [if_pos asked, List.map_congr_left (g := id), List.map_id]
            · exact shows
            intro holding inside
            apply if_neg
            rintro rfl
            have known := shows.known_iff.mpr ⟨holding, inside, rfl⟩
            rw [← (tenantOf_eq_iff injective).mpr asked.1] at known
            have accepted := (@setAcl_eq_ok mac tables _ scope _ principals injective).mpr ⟨asked.2, known, rfl⟩
            rw [done] at accepted
            cases accepted
          · rw [if_neg asked]
            exact shows
  | purgeExpired scope now =>
      rw [Rag.perform, shelve]
      by_cases own : scope.tenant = caller.tenant
      · have same := (tenantOf_eq_iff injective).mpr own
        rw [if_pos own]
        exact ((shows.congr same.symm).purge consistent now).congr same
      · rw [if_neg own]
        exact shows.purge_other (fun same => own (tenant_of_tenantOf injective same)) now

end CapabilityHub.Rag
