import CapabilityHub.Rag.Retrieval

/-! # Ingestion

`DiskRagIndex.replace` keeps the first of the passages with one content digest and ignores the others, with
their readers, filters and retention. No reader loses a text exactly if the first passage covers the others
(`CapabilityHub.Rag.replace_serves_iff`).
-/

namespace CapabilityHub.Rag

open Tenancy (TenantScope)

/-- The digest of the text of a passage. -/
def digestOf (sha256 : Bytes → Bytes) (passage : RagPassage) : String :=
  hex (sha256 (encodeUtf8 passage.text))

/-- The first passage with the content digest of a passage. -/
def firstWith (sha256 : Bytes → Bytes) (passages : List RagPassage) (passage : RagPassage) :
    Option RagPassage :=
  passages.find? fun other => digestOf sha256 other = digestOf sha256 passage

/-- Whether a principal may read a passage as it is given. -/
def RagPassage.Allows (passage : RagPassage) (principal : String) : Prop :=
  principal ∈ passage.allowedPrincipals ∨ anyone ∈ passage.allowedPrincipals

/-- Whether a passage may still be read. -/
def RagPassage.Lasts (passage : RagPassage) (now : ℚ) : Prop := ∀ retain ∈ passage.retainUntil, now < retain

/-- Filters that a passage satisfies. -/
def RagPassage.Satisfies (passage : RagPassage) (filters : Dict String String) : Prop :=
  ∀ field ∈ filters.entries, passage.filters.get? field.1 = some field.2

/-- Whether every search with a large enough `top_k` and `max_bytes` gives a text. -/
def Obtainable (mac : Bytes → Bytes) (fullText : FullText) (intOf : String → Option Int) (tables : Tables)
    (query : String) (scope : TenantScope) (filters : Dict String String) (now : ℚ) (text : String) : Prop :=
  ∃ bound, ∀ topK ≥ bound, ∀ maxBytes ≥ bound,
    ∃ hit ∈ retrieve mac fullText intOf tables query scope topK filters maxBytes now, hit.text = text

/-- Whether what stays in the index serves all that another passage would. -/
structure Covers (mac : Bytes → Bytes) (kept passage : RagPassage) : Prop where
  text : kept.text = passage.text
  readers : ∀ principal, passage.Allows principal →
    subjectOf mac anyone ∈ kept.allowedPrincipals.map (subjectOf mac) ∨
      subjectOf mac principal ∈ kept.allowedPrincipals.map (subjectOf mac)
  retention : ∀ retain ∈ kept.retainUntil, ∃ own ∈ passage.retainUntil, own ≤ retain
  filters : kept.Satisfies passage.filters

/-- Whether everyone that a passage names obtains its text, as long as it lasts, with any filters that it
satisfies and any query that matches it. -/
def Serves (mac : Bytes → Bytes) (fullText : FullText) (intOf : String → Option Int) (tables : Tables)
    (scope : TenantScope) (passage : RagPassage) : Prop :=
  ∀ reader : TenantScope, reader.tenant = scope.tenant → passage.Allows reader.principal →
    ∀ now, passage.Lasts now → ∀ filters, passage.Satisfies filters →
      ∀ query, strip query ≠ "" → fullText.finds (phraseOf query) passage.text = true →
        Obtainable mac fullText intOf tables query reader filters now passage.text

variable {mac sha256 : Bytes → Bytes} {fullText : FullText} {intOf : String → Option Int}
  {tables tables' : Tables} {query : String} {scope reader : TenantScope} {filters : Dict String String}
  {now : ℚ} {rows records : List PassageRow} {row : PassageRow} {passages : List RagPassage}
  {passage kept : RagPassage} {text subject : String} {count : Nat}

/-! ## What a search can give -/

theorem obtainable_iff (consistent : Consistent tables) :
    Obtainable mac fullText intOf tables query scope filters now text ↔
      ∃ row ∈ tables.passages, eligible mac fullText tables query scope filters now row = true ∧
        row.text = text := by
  constructor
  · rintro ⟨bound, large⟩
    obtain ⟨hit, member, same⟩ := large (bound + 1) (Nat.le_succ _) bound (Nat.le_refl _)
    obtain ⟨row, inside, eligible, found⟩ := mem_retrieve consistent (Nat.succ_pos bound) member
    refine ⟨row, inside, eligible, ?_⟩
    rw [← same, found]
    rfl
  · rintro ⟨row, inside, eligible, same⟩
    have among : hitOf mac intOf (tenantOf mac scope) now
        (fullText.bm25 (phraseOf query) tables.fts row.ftsRow, row) ∈
          matchingHits mac fullText intOf tables query scope filters now :=
      List.mem_map_of_mem ((mem_sortedBy rankKey).mpr (List.mem_map_of_mem
        (List.mem_filter.mpr ⟨inside, eligible⟩)))
    refine ⟨(rankedRows mac fullText tables query scope now).length + totalSize (textSize ∘ RagHit.text)
      (matchingHits mac fullText intOf tables query scope filters now) + 1,
      fun topK enough maxBytes room => ?_⟩
    have behind : hitsBehind mac fullText intOf tables query scope topK filters now = [] := by
      rw [hitsBehind, List.drop_eq_nil_of_le (by omega)]
      rfl
    have whole := @matchingHits_eq mac fullText intOf tables query scope topK filters now consistent
    have taken := @longestPrefix_retrieve mac fullText intOf tables query scope topK maxBytes filters now
      (by omega)
    rw [behind, List.append_nil] at whole
    rw [← whole] at taken
    have fewer : (matchingHits mac fullText intOf tables query scope filters now).length ≤
        (rankedRows mac fullText tables query scope now).length := by
      rw [← filter_rankedRows consistent, List.length_map]
      exact List.length_filter_le _ _
    have all := taken.longest _ (List.prefix_refl _) ⟨by omega, by omega⟩
    exact ⟨_, all.subset among, same⟩

/-! ## What is kept -/

/-- Of the records with one content the first is inserted, where there was none before. -/
theorem mem_foldl_insertPassage (keys : ((rows ++ records).map PassageRow.key).Nodup) :
    row ∈ records.foldl insertPassage rows ↔ row ∈ rows ∨ row.content ∉ rows.map PassageRow.content ∧
      records.find? (fun other => other.content = row.content) = some row := by
  induction records generalizing rows with
  | nil => simp
  | cons first records ih =>
      have fresh : first.key ∉ rows.map PassageRow.key := by
        rw [List.map_append] at keys
        exact fun member => (List.nodup_append.mp keys).2.2 _ member _ List.mem_cons_self rfl
      rw [List.foldl_cons, insertPassage]
      by_cases known : first.content ∈ rows.map PassageRow.content
      · have keys' : ((rows ++ records).map PassageRow.key).Nodup :=
          keys.sublist ((List.Sublist.append_left (List.sublist_cons_self _ _) _).map _)
        rw [if_pos (.inr known), ih keys']
        refine or_congr_right (and_congr_right fun unknown => ?_)
        rw [List.find?_cons_of_neg]
        exact fun same => unknown (of_decide_eq_true same ▸ known)
      · rw [List.append_cons] at keys
        rw [if_neg (not_or.mpr ⟨fresh, known⟩), ih keys, List.mem_append, List.mem_singleton, or_assoc]
        refine or_congr_right ?_
        rw [List.map_append, List.mem_append, List.map_singleton, List.mem_singleton, not_or]
        by_cases same : first.content = row.content
        · have head : (first :: records).find? (fun other => other.content = row.content) = some first :=
            List.find?_cons_of_pos (decide_eq_true same)
          rw [head, Option.some.injEq]
          constructor
          · rintro (rfl | ⟨⟨_, other⟩, _⟩)
            · exact ⟨known, rfl⟩
            · exact absurd same.symm other
          · exact fun found => .inl found.2.symm
        · have later : (first :: records).find? (fun other => other.content = row.content) =
              records.find? fun other => other.content = row.content :=
            List.find?_cons_of_neg fun equal => same (of_decide_eq_true equal)
          rw [later]
          constructor
          · rintro (rfl | ⟨⟨unknown, _⟩, found⟩)
            · exact absurd rfl same
            · exact ⟨unknown, found⟩
          · exact fun found => .inr ⟨⟨found.1, fun equal => same equal.symm⟩, found.2⟩

/-- Records have one content if their passages have one digest. -/
theorem find_content (tenant : String) : passages.find? ((fun other : PassageRow =>
      other.content = (rowOf sha256 tenant kept).content) ∘ rowOf sha256 tenant) =
    firstWith sha256 passages kept := by
  refine congrArg (List.find? · passages) (funext fun other => decide_eq_decide.mpr ?_)
  exact ⟨fun same => (Prod.ext_iff.mp same).2, fun same => Prod.ext rfl same⟩

section

variable (consistent : Consistent tables) (ids : (passages.map RagPassage.passageId).Nodup)
  (done : replace mac sha256 tables scope passages = .ok (tables', count))

include consistent ids done

/-- The rows of the tenant are those of the first passages. -/
theorem mem_passages_replace : row ∈ tables'.passages ∧ row.tenantDigest = tenantOf mac scope ↔
    ∃ kept, firstWith sha256 passages kept = some kept ∧ rowOf sha256 (tenantOf mac scope) kept = row := by
  obtain ⟨_, filled, rfl, same⟩ := replace_eq_ok.mp done
  have content : tables'.passages = (passages.map (rowOf sha256 (tenantOf mac scope))).foldl insertPassage
      (withoutTenant tables (tenantOf mac scope)).passages := congrArg (Tables.passages ∘ Prod.fst) same
  have others : ∀ other ∈ (withoutTenant tables (tenantOf mac scope)).passages,
      other.tenantDigest ≠ tenantOf mac scope := fun other member =>
    of_decide_eq_true (List.mem_filter.mp member).2
  have keys : (((withoutTenant tables (tenantOf mac scope)).passages ++
      passages.map (rowOf sha256 (tenantOf mac scope))).map PassageRow.key).Nodup := by
    rw [List.map_append, List.nodup_append]
    refine ⟨consistent.keys.sublist (List.filter_sublist.map _), ?_, ?_⟩
    · have mapped := @List.Nodup.map _ _ _ (fun name => (tenantOf mac scope, name))
        (fun _ _ same => (Prod.ext_iff.mp same).2) ids
      rw [List.map_map] at mapped ⊢
      exact mapped
    · intro first member second member' equal
      obtain ⟨other, inside, rfl⟩ := List.mem_map.mp member
      obtain ⟨own, inside', rfl⟩ := List.mem_map.mp member'
      obtain ⟨passage, _, rfl⟩ := List.mem_map.mp inside'
      exact others other inside (Prod.ext_iff.mp equal).1
  rw [content, mem_foldl_insertPassage keys, List.find?_map]
  constructor
  · rintro ⟨inside | ⟨_, found⟩, own⟩
    · exact absurd own (others row inside)
    · obtain ⟨kept, first, rfl⟩ := Option.map_eq_some_iff.mp found
      rw [find_content] at first
      exact ⟨kept, first, rfl⟩
  · rintro ⟨kept, first, rfl⟩
    refine ⟨.inr ⟨fun member => ?_, Option.map_eq_some_iff.mpr ⟨kept, ?_, rfl⟩⟩, rfl⟩
    · obtain ⟨other, inside, equal⟩ := List.mem_map.mp member
      exact others other inside (Prod.ext_iff.mp equal).1
    · rw [find_content, first]

omit consistent ids in
/-- The readers of an id are those of all passages with the id. -/
theorem mem_acl_replace : ⟨tenantOf mac scope, kept.passageId, subject⟩ ∈ tables'.acl ↔
    ∃ passage ∈ passages, passage.passageId = kept.passageId ∧
      subject ∈ passage.allowedPrincipals.map (subjectOf mac) := by
  obtain ⟨_, filled, rfl, same⟩ := replace_eq_ok.mp done
  have content : tables'.acl = (passages.flatMap (aclOf mac (tenantOf mac scope))).foldl insertAcl
      (withoutTenant tables (tenantOf mac scope)).acl := congrArg (Tables.acl ∘ Prod.fst) same
  have others : ⟨tenantOf mac scope, kept.passageId, subject⟩ ∉
      (withoutTenant tables (tenantOf mac scope)).acl := fun member =>
    of_decide_eq_true (List.mem_filter.mp member).2 rfl
  rw [content, mem_foldl_insertAcl, or_iff_right others, List.mem_flatMap]
  refine exists_congr fun passage => and_congr_right fun _ => ?_
  rw [aclOf, List.mem_map, List.mem_map]
  constructor
  · rintro ⟨principal, member, same⟩
    injection same with _ name reader
    exact ⟨name, principal, member, reader⟩
  · rintro ⟨name, principal, member, reader⟩
    exact ⟨principal, member, by rw [name, reader]⟩

omit consistent in
/-- A row that is kept is eligible as its passage says. -/
theorem eligible_rowOf_iff (member : kept ∈ passages) (tenant : reader.tenant = scope.tenant) :
    eligible mac fullText tables' query reader filters now (rowOf sha256 (tenantOf mac scope) kept) = true ↔
      fullText.finds (phraseOf query) kept.text = true ∧ kept.Lasts now ∧
        (subjectOf mac anyone ∈ kept.allowedPrincipals.map (subjectOf mac) ∨
          subjectOf mac reader.principal ∈ kept.allowedPrincipals.map (subjectOf mac)) ∧
        kept.Satisfies filters := by
  have own : tenantOf mac reader = tenantOf mac scope := by rw [tenantOf, tenantOf, tenant]
  have reads (subject : String) : ⟨tenantOf mac scope, kept.passageId, subject⟩ ∈ tables'.acl ↔
      subject ∈ kept.allowedPrincipals.map (subjectOf mac) := by
    rw [mem_acl_replace done]
    constructor
    · rintro ⟨passage, inside, name, found⟩
      rwa [List.inj_on_of_nodup_map ids inside member name] at found
    · exact fun found => ⟨kept, member, rfl, found⟩
  have lasts : retained now (rowOf sha256 (tenantOf mac scope) kept) = true ↔ kept.Lasts now := by
    rw [retained, rowOf, RagPassage.Lasts, Option.all_eq_true]
    simp only [decide_eq_true_eq, Option.mem_def]
  have filtered : satisfies filters (rowOf sha256 (tenantOf mac scope) kept) = true ↔
      kept.Satisfies filters := by
    rw [satisfies, List.all_eq_true]
    exact forall₂_congr fun field _ => beq_iff_eq
  have readers : readable mac tables' reader kept.passageId = true ↔
      subjectOf mac anyone ∈ kept.allowedPrincipals.map (subjectOf mac) ∨
        subjectOf mac reader.principal ∈ kept.allowedPrincipals.map (subjectOf mac) := by
    rw [readable, own]
    simp only [List.any_cons, List.any_nil, Bool.or_false, Bool.or_eq_true, decide_eq_true_eq, reads]
  rw [eligible, Bool.and_eq_true, Bool.and_eq_true, Bool.and_eq_true, Bool.and_eq_true, filtered, lasts,
    decide_eq_true_eq, own]
  change (((_ ∧ tenantOf mac scope = tenantOf mac scope) ∧ _) ∧
    readable mac tables' reader kept.passageId = true) ∧ _ ↔ _
  rw [readers, and_iff_left rfl, and_assoc, and_assoc]
  rfl

/-- What can be obtained of a text is what its first passage gives. -/
theorem obtainable_replace_iff (tenant : reader.tenant = scope.tenant) :
    Obtainable mac fullText intOf tables' query reader filters now text ↔
      ∃ kept, firstWith sha256 passages kept = some kept ∧ kept.text = text ∧
        fullText.finds (phraseOf query) kept.text = true ∧ kept.Lasts now ∧
        (subjectOf mac anyone ∈ kept.allowedPrincipals.map (subjectOf mac) ∨
          subjectOf mac reader.principal ∈ kept.allowedPrincipals.map (subjectOf mac)) ∧
        kept.Satisfies filters := by
  have own : tenantOf mac reader = tenantOf mac scope := by rw [tenantOf, tenantOf, tenant]
  rw [obtainable_iff (consistent.replace done)]
  constructor
  · rintro ⟨row, inside, eligible, same⟩
    have place : row.tenantDigest = tenantOf mac scope := by
      simp only [Rag.eligible, Bool.and_eq_true, decide_eq_true_eq] at eligible
      exact eligible.1.1.1.2.trans own
    obtain ⟨kept, first, rfl⟩ := (mem_passages_replace consistent ids done).mp ⟨inside, place⟩
    exact ⟨kept, first, same,
      (eligible_rowOf_iff ids done (List.mem_of_find?_eq_some first) tenant).mp eligible⟩
  · rintro ⟨kept, first, same, found⟩
    have inside := ((mem_passages_replace consistent ids done).mpr ⟨kept, first, rfl⟩).1
    exact ⟨_, inside, (eligible_rowOf_iff ids done (List.mem_of_find?_eq_some first) tenant).mpr found, same⟩

/-- What serves a passage is the first one with its digest. -/
theorem first_of_serves (serves : Serves mac fullText intOf tables' scope passage)
    (tenant : reader.tenant = scope.tenant) (allowed : passage.Allows reader.principal)
    (lasts : passage.Lasts now) (satisfied : passage.Satisfies filters) (asked : strip query ≠ "")
    (found : fullText.finds (phraseOf query) passage.text = true) :
    ∃ kept, firstWith sha256 passages passage = some kept ∧ kept.text = passage.text ∧ kept.Lasts now ∧
      (subjectOf mac anyone ∈ kept.allowedPrincipals.map (subjectOf mac) ∨
        subjectOf mac reader.principal ∈ kept.allowedPrincipals.map (subjectOf mac)) ∧
      kept.Satisfies filters := by
  have obtained := serves reader tenant allowed now lasts filters satisfied query asked found
  obtain ⟨kept, first, same, _, rest⟩ := (obtainable_replace_iff consistent ids done tenant).mp obtained
  refine ⟨kept, ?_, same, rest⟩
  rw [firstWith, digestOf, ← same]
  exact first

theorem covers_of_serves (valid : validatePassage passage = .ok ())
    (serves : Serves mac fullText intOf tables' scope passage) (asked : strip query ≠ "")
    (found : fullText.finds (phraseOf query) passage.text = true) :
    ∃ kept, firstWith sha256 passages passage = some kept ∧ Covers mac kept passage := by
  obtain ⟨principal, member⟩ : ∃ principal, principal ∈ passage.allowedPrincipals := by
    simp only [validatePassage, bind_eq_ok, exists_unit, raiseIf_eq_ok] at valid
    exact List.exists_mem_of_ne_nil _ valid.2.2.1
  obtain ⟨early, lasts⟩ : ∃ now, passage.Lasts now := by
    cases given : passage.retainUntil with
    | none => exact ⟨0, by simp [RagPassage.Lasts, given]⟩
    | some retain => exact ⟨retain - 1, by simp [RagPassage.Lasts, given]⟩
  have everything : passage.Satisfies ∅ := fun field member => absurd member List.not_mem_nil
  have first {now : ℚ} {filters : Dict String String} {principal : String}
      (allowed : passage.Allows principal) (lasts : passage.Lasts now)
      (satisfied : passage.Satisfies filters) :=
    have tenant : ({ scope with principal := principal } : TenantScope).tenant = scope.tenant := rfl
    first_of_serves consistent ids done serves tenant allowed lasts satisfied asked found
  obtain ⟨kept, here, text, _⟩ := first (.inl member) lasts everything
  have unique {other : RagPassage} (again : firstWith sha256 passages passage = some other) :
      other = kept := Option.some.inj (again.symm.trans here)
  refine ⟨kept, here, text, fun principal allowed => ?_, fun retain until' => ?_, ?_⟩
  · obtain ⟨other, again, _, _, reads, _⟩ := first allowed lasts everything
    exact unique again ▸ reads
  · by_contra shorter
    have longer : passage.Lasts retain := fun own given =>
      lt_of_not_ge fun le => shorter ⟨own, given, le⟩
    obtain ⟨other, again, _, still, _⟩ := first (.inl member) longer everything
    rw [unique again] at still
    exact lt_irrefl _ (still retain until')
  · have own : passage.Satisfies passage.filters := fun field member => Dict.mem_entries_iff.mp member
    obtain ⟨other, again, _, _, _, satisfied⟩ := first (.inl member) lasts own
    exact unique again ▸ satisfied

theorem serves_of_covers {kept : RagPassage} (first : firstWith sha256 passages passage = some kept)
    (covers : Covers mac kept passage) : Serves mac fullText intOf tables' scope passage := by
  intro reader tenant allowed now lasts filters satisfied query _ found
  refine (obtainable_replace_iff consistent ids done tenant).mpr
    ⟨kept, ?_, covers.text, covers.text ▸ found, fun retain given => ?_, covers.readers _ allowed,
      fun field member => ?_⟩
  · rw [firstWith, digestOf, covers.text]
    exact first
  · obtain ⟨own, given', le⟩ := covers.retention retain given
    exact lt_of_lt_of_le (lasts own given') le
  · exact covers.filters field (Dict.mem_entries_iff.mpr (satisfied field member))

end

/-- Everyone who may read a passage of the list obtains its text exactly if, of the passages that some
query finds, each is covered by the first one with its digest. -/
theorem replace_serves_iff (fullText : FullText) (intOf : String → Option Int) (scope : TenantScope)
    (reached : Reached mac sha256 tables) (ids : (passages.map RagPassage.passageId).Nodup)
    (valid : ∀ passage ∈ passages, validatePassage passage = .ok ()) :
    (∀ passage ∈ passages, Serves mac fullText intOf
      (perform mac sha256 tables (.replace scope passages)) scope passage) ↔
    ∀ passage ∈ passages,
      (∃ query, strip query ≠ "" ∧ fullText.finds (phraseOf query) passage.text = true) →
      ∃ kept, firstWith sha256 passages passage = some kept ∧ Covers mac kept passage := by
  have done := (@replace_eq_ok mac sha256 tables passages scope _).mpr ⟨valid, _, rfl, rfl⟩
  have consistent := reached.consistent
  rw [perform, done]
  constructor
  · intro serves passage member findable
    obtain ⟨query, asked, found⟩ := findable
    exact covers_of_serves consistent ids done (valid passage member) (serves passage member) asked found
  · intro covered passage member reader tenant allowed now lasts filters satisfied query asked found
    obtain ⟨kept, first, covers⟩ := covered passage member ⟨query, asked, found⟩
    exact serves_of_covers consistent ids done first covers reader tenant allowed now lasts filters
      satisfied query asked found

theorem letters_replace_serves_iff :
    (∀ passage ∈ letterPassages, Serves id findsAll (fun _ => none)
      (perform id id {} (.replace taskScope letterPassages)) taskScope passage) ↔
    ∀ passage ∈ letterPassages,
      (∃ query, strip query ≠ "" ∧ findsAll.finds (phraseOf query) passage.text = true) →
      ∃ kept, firstWith id letterPassages passage = some kept ∧ Covers id kept passage :=
  replace_serves_iff findsAll (fun _ => none) taskScope (⟨[], rfl⟩ : Reached id id {})
    (by decide +kernel) letterPassages_valid

/-- A passage with a text in common with another, for one reader. -/
def sharedPassage (passageId principal : String) : RagPassage where
  passageId := passageId
  citation := "minutes"
  text := "minutes"
  allowedPrincipals := [principal]

/-- The reader of the second passage with a text does not obtain it. -/
theorem second_reader_lost : ¬∀ (mac sha256 : Bytes → Bytes) (fullText : FullText)
    (intOf : String → Option Int) (tables : Tables) (scope : TenantScope) (passages : List RagPassage),
    Reached mac sha256 tables → (passages.map RagPassage.passageId).Nodup →
    (∀ passage ∈ passages, validatePassage passage = .ok ()) →
    ∀ passage ∈ passages, Serves mac fullText intOf
      (perform mac sha256 tables (.replace scope passages)) scope passage := by
  intro always
  have reached : Reached id id {} := ⟨[], rfl⟩
  have ids : ([sharedPassage "first" "reader", sharedPassage "second" "other"].map
      RagPassage.passageId).Nodup := by decide
  have valid : ∀ passage ∈ [sharedPassage "first" "reader", sharedPassage "second" "other"],
      validatePassage passage = .ok () :=
    List.forall_mem_cons.mpr ⟨rfl, List.forall_mem_singleton.mpr rfl⟩
  have serves := always id id findsAll (fun _ => none) {} taskScope _ reached ids valid
    (sharedPassage "second" "other") (List.mem_cons_of_mem _ List.mem_cons_self)
  have done := (@replace_eq_ok id id {} _ taskScope _).mpr ⟨valid, _, rfl, rfl⟩
  rw [perform, done] at serves
  have asked : strip "minutes" ≠ "" := by decide +kernel
  obtain ⟨kept, first, covers⟩ := covers_of_serves reached.consistent ids done
    (valid _ (List.mem_cons_of_mem _ List.mem_cons_self)) serves asked rfl
  have same : kept = sharedPassage "first" "reader" := by
    refine Option.some.inj (first.symm.trans ?_)
    exact List.find?_cons_of_pos (decide_eq_true rfl)
  have refused : ¬(subjectOf id anyone ∈ ["reader"].map (subjectOf id) ∨
      subjectOf id "other" ∈ ["reader"].map (subjectOf id)) := by decide +kernel
  rw [same] at covers
  exact refused (covers.readers "other" (.inl List.mem_cons_self))

end CapabilityHub.Rag
