import CapabilityHub.Data.JsonSize
import CapabilityHub.Data.LongestPrefix
import CapabilityHub.Rag.Index
import CapabilityHub.Text.Unicode
import Mathlib.Data.Prod.Lex
import Mathlib.Data.String.Basic

/-! # Retrieval

`DiskRagIndex.search` ranks what the caller may read, cuts the ranked rows off after twenty times
`top_k`, and only then looks at the filters. The result is complete exactly where the cut does not matter
(`CapabilityHub.Rag.search_complete_iff`).
-/

namespace CapabilityHub.Rag

open Tenancy (TenantScope)

/-- What full-text search decides: whether a phrase is in a text, and its rank for a row of the table. -/
structure FullText where
  finds : String → String → Bool
  bm25 : String → List FtsRow → FtsRow → ℚ

/-- `_chunk_id` gives one of these. -/
inductive ChunkId where
  | number (value : Int)
  | name (value : String)
  deriving DecidableEq

structure RagHit where
  chunkId : ChunkId
  citation : String
  text : String
  score : ℚ
  expansionHandle : String
  createdAt : ℚ
  freshUntil : Option ℚ
  retainUntil : Option ℚ
  fresh : Bool
  deriving DecidableEq

/-- The query as one phrase of full-text search. -/
def phraseOf (query : String) : String :=
  String.ofList ('"' :: (query.toList.flatMap fun char => if char = '"' then ['"', '"'] else [char]) ++ ['"'])

/-- `len(text.encode("utf-8"))` -/
def textSize (text : String) : Nat := (encodeUtf8 text).length

/-- `retain_until IS NULL OR retain_until > ?` -/
def retained (now : ℚ) (row : PassageRow) : Bool := row.retainUntil.all fun retain => decide (now < retain)

/-- Whether the metadata of a row has all the values of the filters. -/
def satisfies (filters : Dict String String) (row : PassageRow) : Bool :=
  filters.entries.all fun field => row.filters.get? field.1 == some field.2

/-- The order of ranked rows. -/
def rankKey (ranked : ℚ × PassageRow) : ℚ ×ₗ String := toLex (ranked.1, ranked.2.passageId)

section

variable (mac : Bytes → Bytes) (fullText : FullText) (intOf : String → Option Int)

/-- `_chunk_id`; there is no integer where `int` raises `ValueError`. -/
def chunkId (value : String) : ChunkId :=
  match intOf value with
  | some number => .number number
  | none => .name value

/-- `_handle`. -/
def handleOf (tenant passageId : String) : String :=
  "rag1." ++ passageId ++ "." ++ hex (mac (encodeUtf8 (tenant ++ "." ++ passageId)))

/-- Whether the caller may read a passage. -/
def readable (tables : Tables) (scope : TenantScope) (passageId : String) : Bool :=
  [subjectOf mac anyone, subjectOf mac scope.principal].any fun subject =>
    decide (⟨tenantOf mac scope, passageId, subject⟩ ∈ tables.acl)

/-- The rows that the query finds for the caller, with their ranks: those of the join. -/
def joinedRows (tables : Tables) (query : String) (scope : TenantScope) (now : ℚ) : List (ℚ × PassageRow) :=
  tables.fts.flatMap fun entry =>
    (tables.passages.filter fun row =>
      row.tenantDigest = entry.tenantDigest && row.passageId = entry.passageId &&
        fullText.finds (phraseOf query) entry.text && row.tenantDigest = tenantOf mac scope &&
        retained now row && readable mac tables scope row.passageId).map fun row =>
      (fullText.bm25 (phraseOf query) tables.fts entry, row)

/-- The ranked rows, before the row limit. -/
def rankedRows (tables : Tables) (query : String) (scope : TenantScope) (now : ℚ) : List (ℚ × PassageRow) :=
  sortedBy rankKey (joinedRows mac fullText tables query scope now)

/-- The hit of a row. -/
def hitOf (tenant : String) (now : ℚ) (ranked : ℚ × PassageRow) : RagHit where
  chunkId := chunkId intOf ranked.2.passageId
  citation := ranked.2.citation
  text := ranked.2.text
  score := ranked.1
  expansionHandle := handleOf mac tenant ranked.2.passageId
  createdAt := ranked.2.createdAt
  freshUntil := ranked.2.freshUntil
  retainUntil := ranked.2.retainUntil
  fresh := ranked.2.freshUntil.all fun fresh => decide (now < fresh)

/-- The loop over the rows, with the hits and the bytes that it has used. -/
def collect (tenant : String) (topK : Nat) (filters : Dict String String) (maxBytes : Nat) (now : ℚ)
    (hits : List RagHit) (used : Nat) : List (ℚ × PassageRow) → List RagHit
  | [] => hits
  | ranked :: rest =>
      if satisfies filters ranked.2 = false then collect tenant topK filters maxBytes now hits used rest
      else if maxBytes < used + textSize ranked.2.text then hits
      else if hits.length + 1 = topK then hits ++ [hitOf mac intOf tenant now ranked]
      else
        collect tenant topK filters maxBytes now (hits ++ [hitOf mac intOf tenant now ranked])
          (used + textSize ranked.2.text) rest

/-- What `search` does once its bounds are checked. -/
def retrieve (tables : Tables) (query : String) (scope : TenantScope) (topK : Nat)
    (filters : Dict String String) (maxBytes : Nat) (now : ℚ) : List RagHit :=
  collect mac intOf (tenantOf mac scope) topK filters maxBytes now [] 0
    ((rankedRows mac fullText tables query scope now).take (topK * 20))

/-- `DiskRagIndex.search`. -/
def search (tables : Tables) (query : String) (scope : TenantScope) (topK : Nat)
    (filters : Option (Dict String String)) (maxBytes : Nat) (now : ℚ) : Except Raised (List RagHit) := do
  raiseIf (strip query = "" ∨ ¬(1 ≤ topK ∧ topK ≤ 20) ∨ maxBytes < 1) .valueError
  pure (retrieve mac fullText intOf tables query scope topK (filters.getD ∅) maxBytes now)

/-! ## What a search is for -/

/-- A passage that matches the query, is readable by the caller, not past retention and satisfies every
filter. -/
def eligible (tables : Tables) (query : String) (scope : TenantScope) (filters : Dict String String)
    (now : ℚ) (row : PassageRow) : Bool :=
  fullText.finds (phraseOf query) row.text && row.tenantDigest = tenantOf mac scope &&
    retained now row && readable mac tables scope row.passageId && satisfies filters row

/-- All these passages, in rank order. -/
def matchingHits (tables : Tables) (query : String) (scope : TenantScope) (filters : Dict String String)
    (now : ℚ) : List RagHit :=
  (sortedBy rankKey ((tables.passages.filter (eligible mac fullText tables query scope filters now)).map
    fun row => (fullText.bm25 (phraseOf query) tables.fts row.ftsRow, row))).map
      (hitOf mac intOf (tenantOf mac scope) now)

end

variable {mac sha256 : Bytes → Bytes} {fullText : FullText} {intOf : String → Option Int} {tables : Tables}
  {query tenant : String} {scope : TenantScope} {topK maxBytes : Nat} {filters : Dict String String}
  {now : ℚ} {rows : List (ℚ × PassageRow)} {hits : List RagHit} {hit : RagHit} {used : Nat}
  {row : PassageRow}

/-! ## The rows -/

theorem map_filter_eq_flatMap {α β : Type} (keep : α → Bool) (f : α → β) (items : List α) :
    (items.filter keep).map f = items.flatMap fun item => if keep item then [f item] else [] := by
  induction items with
  | nil => rfl
  | cons item items ih =>
      rw [List.flatMap_cons, ← ih, List.filter_cons]
      split <;> rfl

theorem filter_key_eq {α κ : Type} [DecidableEq κ] {key : α → κ} {items : List α} {item : α}
    (nodup : (items.map key).Nodup) (member : item ∈ items) (keep : α → Bool) :
    (items.filter fun other => decide (key other = key item) && keep other) =
      if keep item then [item] else [] := by
  induction items with
  | nil => cases member
  | cons first rest ih =>
      rw [List.map_cons, List.nodup_cons] at nodup
      by_cases same : key first = key item
      · have here : first = item := by
          rcases List.mem_cons.mp member with rfl | later
          · rfl
          · exact absurd (same ▸ List.mem_map_of_mem later) nodup.1
        have others : (rest.filter fun other => decide (key other = key item) && keep other) = [] := by
          refine List.filter_eq_nil_iff.mpr fun other later kept => nodup.1 ?_
          rw [Bool.and_eq_true, decide_eq_true_eq] at kept
          rw [same, ← kept.1]
          exact List.mem_map_of_mem later
        rw [List.filter_cons, others, here, decide_eq_true rfl, Bool.true_and]
      · have later : item ∈ rest := by
          rcases List.mem_cons.mp member with rfl | later
          · exact absurd rfl same
          · exact later
        rw [List.filter_cons_of_neg (by simp [same]), ih nodup.2 later]

/-- A row of the search table is joined with its own passage. -/
theorem joinedRows_eq (consistent : Consistent tables) :
    joinedRows mac fullText tables query scope now =
      (tables.passages.filter (eligible mac fullText tables query scope ∅ now)).map fun row =>
        (fullText.bm25 (phraseOf query) tables.fts row.ftsRow, row) := by
  have own : ∀ row ∈ tables.passages, (tables.passages.filter fun other =>
      other.tenantDigest = row.tenantDigest && other.passageId = row.passageId &&
        fullText.finds (phraseOf query) row.text && other.tenantDigest = tenantOf mac scope &&
        retained now other && readable mac tables scope other.passageId) =
      if eligible mac fullText tables query scope ∅ now row then [row] else [] := by
    intro row member
    rw [← filter_key_eq consistent.keys member]
    refine List.filter_congr fun other among => ?_
    by_cases same : other.key = row.key
    · obtain rfl := List.inj_on_of_nodup_map consistent.keys among member same
      have none : (∅ : Dict String String).entries = [] := rfl
      simp [eligible, satisfies, none, Bool.and_assoc]
    · have apart : ¬(other.tenantDigest = row.tenantDigest ∧ other.passageId = row.passageId) :=
        fun both => same (Prod.ext both.1 both.2)
      simp only [same, decide_false, Bool.false_and]
      simp only [← Bool.decide_and, apart, decide_false, Bool.false_and]
  have entries : joinedRows mac fullText tables query scope now =
      (tables.passages.map PassageRow.ftsRow).flatMap fun entry => (tables.passages.filter fun row =>
        row.tenantDigest = entry.tenantDigest && row.passageId = entry.passageId &&
          fullText.finds (phraseOf query) entry.text && row.tenantDigest = tenantOf mac scope &&
          retained now row && readable mac tables scope row.passageId).map fun row =>
        (fullText.bm25 (phraseOf query) tables.fts entry, row) := by
    rw [← consistent.mirrored]
    rfl
  rw [entries, List.flatMap_map, map_filter_eq_flatMap]
  refine List.flatMap_congr fun row member => ?_
  refine (congrArg (List.map _) (own row member)).trans ?_
  split <;> rfl

/-- Ranked rows are of one tenant, and their keys tell them apart. -/
theorem nodup_rankKey (consistent : Consistent tables) :
    ((joinedRows mac fullText tables query scope now).map rankKey).Nodup := by
  rw [joinedRows_eq consistent, List.map_map]
  refine (consistent.keys.of_map.filter _).map_on fun row member other member' same => ?_
  have own : ∀ row ∈ tables.passages.filter (eligible mac fullText tables query scope ∅ now),
      row ∈ tables.passages ∧ row.tenantDigest = tenantOf mac scope := by
    intro row member
    rw [List.mem_filter] at member
    simp only [eligible, Bool.and_eq_true, decide_eq_true_eq] at member
    exact ⟨member.1, member.2.1.1.1.2⟩
  have names : row.passageId = other.passageId := (Prod.ext_iff.mp (toLex.injective same)).2
  have tenants : row.tenantDigest = other.tenantDigest :=
    (own row member).2.trans (own other member').2.symm
  exact List.inj_on_of_nodup_map consistent.keys (own row member).1 (own other member').1
    (Prod.ext tenants names)

/-- The passages that satisfy the filters stand in the order of all. -/
theorem filter_rankedRows (consistent : Consistent tables) :
    ((rankedRows mac fullText tables query scope now).filter fun ranked => satisfies filters ranked.2).map
        (hitOf mac intOf (tenantOf mac scope) now) =
      matchingHits mac fullText intOf tables query scope filters now := by
  have both (row : PassageRow) : (eligible mac fullText tables query scope ∅ now row &&
      satisfies filters row) = eligible mac fullText tables query scope filters now row := by
    rw [eligible, eligible]
    exact congrArg (· && satisfies filters row) (Bool.and_true _)
  rw [rankedRows, filter_sortedBy rankKey (nodup_rankKey consistent), joinedRows_eq consistent,
    List.filter_map, List.filter_filter, matchingHits]
  congr 3
  exact List.filter_congr fun row _ => (Bool.and_comm _ _).trans (both row)

/-! ## Completeness -/

/-- The bounds that a search checks. -/
def Accepted (query : String) (topK maxBytes : Nat) : Prop :=
  strip query ≠ "" ∧ (1 ≤ topK ∧ topK ≤ 20) ∧ 1 ≤ maxBytes

/-! ## The loop -/

/-- The loop takes hits as long as there is room for them. -/
theorem collect_eq (room : used ≤ maxBytes) (fewer : hits.length < topK) :
    collect mac intOf tenant topK filters maxBytes now hits used rows =
      hits ++ takeFitting (textSize ∘ RagHit.text) (topK - hits.length) (maxBytes - used)
        ((rows.filter fun ranked => satisfies filters ranked.2).map (hitOf mac intOf tenant now)) := by
  induction rows generalizing hits used with
  | nil => rw [collect, List.filter_nil, List.map_nil, takeFitting, List.append_nil]
  | cons ranked rest ih =>
      have one : topK - hits.length = (topK - (hits.length + 1)) + 1 := by omega
      by_cases unsatisfied : satisfies filters ranked.2 = false
      · rw [collect, if_pos unsatisfied, ih room fewer, List.filter_cons, unsatisfied]
        rfl
      · have satisfied := Bool.not_eq_false _ |>.mp unsatisfied
        rw [collect, if_neg unsatisfied, List.filter_cons, satisfied, if_pos rfl, List.map_cons, one]
        by_cases large : maxBytes < used + textSize ranked.2.text
        · rw [if_pos large, takeFitting_of_large, List.append_nil]
          change maxBytes - used < textSize ranked.2.text
          omega
        · have roomy : (textSize ∘ RagHit.text) (hitOf mac intOf tenant now ranked) ≤ maxBytes - used := by
            change textSize ranked.2.text ≤ maxBytes - used
            omega
          rw [if_neg large, takeFitting_cons roomy]
          split
          next full => rw [full, Nat.sub_self, takeFitting_zero]
          next more =>
            have fewer' : (hits ++ [hitOf mac intOf tenant now ranked]).length < topK := by
              rw [List.length_append, List.length_singleton]
              omega
            rw [ih (by omega) fewer', List.length_append, List.length_singleton, List.append_assoc,
              List.singleton_append, Nat.sub_add_eq maxBytes used]
            rfl

theorem search_eq (accepted : Accepted query topK maxBytes) (given : Option (Dict String String)) :
    search mac fullText intOf tables query scope topK given maxBytes now =
      .ok (retrieve mac fullText intOf tables query scope topK (given.getD ∅) maxBytes now) := by
  obtain ⟨asked, bounds, positive⟩ := accepted
  have within' : ¬(strip query = "" ∨ ¬(1 ≤ topK ∧ topK ≤ 20) ∨ maxBytes < 1) := by
    rw [not_or, not_or, not_not, Nat.not_lt]
    exact ⟨asked, bounds, positive⟩
  rw [search, raiseIf, if_neg within']
  rfl

section

variable (mac fullText intOf tables query scope topK filters now)

/-- The hits that satisfy the filters among the rows up to the row limit. -/
def hitsBefore : List RagHit :=
  (((rankedRows mac fullText tables query scope now).take (topK * 20)).filter fun ranked =>
    satisfies filters ranked.2).map (hitOf mac intOf (tenantOf mac scope) now)

/-- Those among the rows behind it. -/
def hitsBehind : List RagHit :=
  (((rankedRows mac fullText tables query scope now).drop (topK * 20)).filter fun ranked =>
    satisfies filters ranked.2).map (hitOf mac intOf (tenantOf mac scope) now)

end

theorem matchingHits_eq (consistent : Consistent tables) :
    matchingHits mac fullText intOf tables query scope filters now =
      hitsBefore mac fullText intOf tables query scope topK filters now ++
        hitsBehind mac fullText intOf tables query scope topK filters now := by
  rw [hitsBefore, hitsBehind, ← List.map_append, ← List.filter_append, List.take_append_drop,
    filter_rankedRows consistent]

theorem longestPrefix_retrieve (positive : 1 ≤ topK) :
    LongestPrefix (textSize ∘ RagHit.text) topK maxBytes
      (hitsBefore mac fullText intOf tables query scope topK filters now)
      (retrieve mac fullText intOf tables query scope topK filters maxBytes now) := by
  have taken := @collect_eq mac intOf (tenantOf mac scope) topK maxBytes filters now
    ((rankedRows mac fullText tables query scope now).take (topK * 20)) [] 0 (Nat.zero_le _) positive
  rw [retrieve, taken]
  exact longestPrefix_takeFitting _ _ _

/-- A hit is that of a passage that the caller may read. -/
theorem mem_retrieve (consistent : Consistent tables) (positive : 1 ≤ topK)
    (member : hit ∈ retrieve mac fullText intOf tables query scope topK filters maxBytes now) :
    ∃ row ∈ tables.passages, eligible mac fullText tables query scope filters now row = true ∧
      hit = hitOf mac intOf (tenantOf mac scope) now (hit.score, row) := by
  have taken := @longestPrefix_retrieve mac fullText intOf tables query scope topK maxBytes filters now
    positive
  have among : hit ∈ matchingHits mac fullText intOf tables query scope filters now := by
    rw [@matchingHits_eq _ _ _ _ _ _ topK _ _ consistent]
    exact List.mem_append_left _ (taken.front.subset member)
  obtain ⟨ranked, found, rfl⟩ := List.mem_map.mp among
  rw [mem_sortedBy, List.mem_map] at found
  obtain ⟨row, inside, rfl⟩ := found
  rw [List.mem_filter] at inside
  exact ⟨row, inside.1, inside.2, rfl⟩

/-- A result is the longest prefix of all matching hits exactly if the first of them behind the row limit
has no room after those before it, or there is none. -/
theorem Consistent.complete_iff (consistent : Consistent tables)
    (accepted : Accepted query topK maxBytes) (given : Option (Dict String String)) :
    (∃ hits, search mac fullText intOf tables query scope topK given maxBytes now = .ok hits ∧
      LongestPrefix (textSize ∘ RagHit.text) topK maxBytes
        (matchingHits mac fullText intOf tables query scope (given.getD ∅) now) hits) ↔
    ∀ next ∈ (hitsBehind mac fullText intOf tables query scope topK (given.getD ∅) now).head?,
      ¬HasRoom (textSize ∘ RagHit.text) topK maxBytes
        (hitsBefore mac fullText intOf tables query scope topK (given.getD ∅) now ++ [next]) := by
  have taken := @longestPrefix_retrieve mac fullText intOf tables query scope topK maxBytes
    (given.getD ∅) now accepted.2.1.1
  rw [← longestPrefix_append_iff taken, ← matchingHits_eq consistent, search_eq accepted]
  constructor
  · rintro ⟨hits, same, whole⟩
    rwa [Except.ok.inj same]
  · exact fun whole => ⟨_, rfl, whole⟩

/-! ### Public passages -/

variable {passages : List RagPassage}

/-- A passage for everyone, for ever. -/
def Public (passage : RagPassage) : Prop :=
  passage.allowedPrincipals = [anyone] ∧ passage.retainUntil = none

/-- Where every text matches, every caller of the tenant finds all public passages. -/
theorem joinedRows_public (valid : ∀ passage ∈ passages, validatePassage passage = .ok ())
    (ids : (passages.map RagPassage.passageId).Nodup)
    (digests : (passages.map fun passage => hex (sha256 (encodeUtf8 passage.text))).Nodup)
    (shared : ∀ passage ∈ passages, Public passage)
    (matching : ∀ phrase text, fullText.finds phrase text = true) :
    joinedRows mac fullText (perform mac sha256 {} (.replace scope passages)) query scope now =
      passages.map fun passage => (fullText.bm25 (phraseOf query)
          (passages.map fun passage => (rowOf sha256 (tenantOf mac scope) passage).ftsRow)
          (rowOf sha256 (tenantOf mac scope) passage).ftsRow, rowOf sha256 (tenantOf mac scope) passage) := by
  have consistent : Consistent (perform mac sha256 {} (.replace scope passages)) :=
    Consistent.start.perform _
  have filled := @perform_replace mac sha256 passages scope valid ids digests
  have all : ∀ row ∈ (perform mac sha256 {} (.replace scope passages)).passages,
      eligible mac fullText (perform mac sha256 {} (.replace scope passages)) query scope ∅ now row =
        true := by
    rw [filled]
    refine List.forall_mem_map.mpr fun passage member => ?_
    obtain ⟨everyone, forEver⟩ := shared passage member
    have reader : ⟨tenantOf mac scope, passage.passageId, subjectOf mac anyone⟩ ∈
        aclOf mac (tenantOf mac scope) passage := by
      rw [aclOf, everyone]
      exact List.mem_cons_self
    have none : (∅ : Dict String String).entries = [] := rfl
    simp [eligible, matching, retained, rowOf, forEver, readable, satisfies, none]
    exact .inl ⟨passage, member, reader⟩
  rw [joinedRows_eq consistent, List.filter_eq_self.mpr all, filled, List.map_map]
  rfl

/-- Full-text search that finds every text, all of one rank. -/
def findsAll : FullText where
  finds _ _ := true
  bm25 _ _ _ := 0

/-- A scope of a task. -/
def taskScope : TenantScope := ⟨"tenant", "principal", "session", "task"⟩

/-- A passage with the text of one letter. -/
def letterPassage (letter : Char) : RagPassage where
  passageId := String.singleton letter
  citation := "alphabet"
  text := String.singleton letter
  filters := if letter = 'u' then (∅ : Dict String String).set "kind" "vowel" else ∅

/-- Twenty-one passages, of which the last one alone has the kind that is asked for. -/
def letterPassages : List RagPassage :=
  ['a', 'b', 'c', 'd', 'e', 'f', 'g', 'h', 'i', 'j', 'k', 'l', 'm', 'n', 'o', 'p', 'q', 'r', 's', 't',
    'u'].map letterPassage

theorem letterPassages_valid : ∀ passage ∈ letterPassages, validatePassage passage = .ok () := by
  refine List.forall_mem_map.mpr fun letter _ => ?_
  have named : String.singleton letter ≠ "" := by simp
  have fields : ((letterPassage letter).filters.entries.any fun field => field.1 = "" || field.2 = "") =
      false := by
    have kinds : ∀ vowel : Bool,
        ((if vowel then (∅ : Dict String String).set "kind" "vowel" else ∅).entries.any fun field =>
          field.1 = "" || field.2 = "") = false := by decide
    have here := kinds (letter = 'u')
    simpa [letterPassage] using here
  rw [validatePassage, fields]
  simp [letterPassage, raiseIf, named]
  rfl

theorem rankedRows_letters (mac : Bytes → Bytes) (query : String) (now : ℚ) :
    rankedRows mac findsAll (perform mac id {} (.replace taskScope letterPassages)) query taskScope now =
      letterPassages.map fun passage => (0, rowOf id (tenantOf mac taskScope) passage) := by
  have ids : (letterPassages.map RagPassage.passageId).Nodup := by decide +kernel
  have digests : (letterPassages.map fun passage => hex (id (encodeUtf8 passage.text))).Nodup := by
    decide +kernel
  have ordered : (letterPassages.map RagPassage.passageId).Pairwise (· < ·) := by decide +kernel
  rw [rankedRows, joinedRows_public letterPassages_valid ids digests
    (List.forall_mem_map.mpr fun letter _ => ⟨rfl, rfl⟩) fun _ _ => rfl]
  refine sortedBy_of_perm rankKey ?_ (List.Perm.refl _)
  refine List.pairwise_map.mpr ((List.pairwise_map.mp ordered).imp fun before => ?_)
  exact Prod.Lex.toLex_lt_toLex.mpr (.inr ⟨rfl, before⟩)

/-- The filters that ask for the kind. -/
def vowels : Dict String String := (∅ : Dict String String).set "kind" "vowel"

variable (mac fullText intOf query scope topK maxBytes now) in
/-- The result of a search of an index that calls have made is complete exactly if the row limit cuts off
nothing that there is room for. -/
theorem search_complete_iff (given : Option (Dict String String)) (reached : Reached mac sha256 tables)
    (accepted : Accepted query topK maxBytes) :
    (∃ hits, search mac fullText intOf tables query scope topK given maxBytes now = .ok hits ∧
      LongestPrefix (textSize ∘ RagHit.text) topK maxBytes
        (matchingHits mac fullText intOf tables query scope (given.getD ∅) now) hits) ↔
    ∀ next ∈ (hitsBehind mac fullText intOf tables query scope topK (given.getD ∅) now).head?,
      ¬HasRoom (textSize ∘ RagHit.text) topK maxBytes
        (hitsBefore mac fullText intOf tables query scope topK (given.getD ∅) now ++ [next]) :=
  reached.consistent.complete_iff accepted given

theorem letters_search_complete_iff :
    (∃ hits, search id findsAll (fun _ => none) (perform id id {} (.replace taskScope letterPassages))
        "letter" taskScope 1 (some vowels) 100 0 = .ok hits ∧
      LongestPrefix (textSize ∘ RagHit.text) 1 100
        (matchingHits id findsAll (fun _ => none) (perform id id {} (.replace taskScope letterPassages))
          "letter" taskScope vowels 0) hits) ↔
    ∀ next ∈ (hitsBehind id findsAll (fun _ => none)
        (perform id id {} (.replace taskScope letterPassages)) "letter" taskScope 1 vowels 0).head?,
      ¬HasRoom (textSize ∘ RagHit.text) 1 100
        (hitsBefore id findsAll (fun _ => none)
          (perform id id {} (.replace taskScope letterPassages)) "letter" taskScope 1 vowels 0 ++ [next]) :=
  search_complete_iff id findsAll (fun _ => none) "letter" taskScope 1 100 0 (some vowels)
    (⟨[.replace taskScope letterPassages], rfl⟩ : Reached id id _)
    ⟨by decide +kernel, by decide, by decide⟩

/-- The one passage of the kind stands behind the twenty that are looked at, and is missed. -/
theorem vowel_missed : ¬∀ (mac sha256 : Bytes → Bytes) (fullText : FullText) (intOf : String → Option Int)
    (tables : Tables) (query : String) (scope : TenantScope) (topK maxBytes : Nat)
    (given : Option (Dict String String)) (now : ℚ), Reached mac sha256 tables →
    Accepted query topK maxBytes →
    ∃ hits, search mac fullText intOf tables query scope topK given maxBytes now = .ok hits ∧
      LongestPrefix (textSize ∘ RagHit.text) topK maxBytes
        (matchingHits mac fullText intOf tables query scope (given.getD ∅) now) hits := by
  intro always
  have reached : Reached id id (perform id id {} (.replace taskScope letterPassages)) :=
    ⟨[.replace taskScope letterPassages], rfl⟩
  have accepted : Accepted "letter" 1 100 := ⟨by decide +kernel, by decide, by decide⟩
  have whole := (reached.consistent.complete_iff accepted (some vowels)).mp
    (always id id findsAll (fun _ => none) _ "letter" taskScope 1 100 (some vowels) 0 reached accepted)
  have kind (passage : RagPassage) : satisfies vowels (rowOf id (tenantOf id taskScope) passage) =
      (passage.filters.get? "kind" == some "vowel") := Bool.and_true _
  have before : hitsBefore id findsAll (fun _ => none)
      (perform id id {} (.replace taskScope letterPassages)) "letter" taskScope 1 vowels 0 = [] := by
    have others : (letterPassages.take (1 * 20)).filter
        (fun passage => passage.filters.get? "kind" == some "vowel") = [] := rfl
    rw [hitsBefore, rankedRows_letters, ← List.map_take, List.filter_map]
    simp only [Function.comp_def, kind, others, List.map_nil]
  have behind : hitsBehind id findsAll (fun _ => none)
      (perform id id {} (.replace taskScope letterPassages)) "letter" taskScope 1 vowels 0 =
        [hitOf id (fun _ => none) (tenantOf id taskScope) 0 (0, rowOf id (tenantOf id taskScope)
          (letterPassage 'u'))] := by
    have last : (letterPassages.drop (1 * 20)).filter
        (fun passage => passage.filters.get? "kind" == some "vowel") = [letterPassage 'u'] := rfl
    rw [hitsBehind, rankedRows_letters, ← List.map_drop, List.filter_map]
    simp only [Function.comp_def, kind, last, List.map_cons, List.map_nil]
  rw [Option.getD_some, before, behind] at whole
  have size : textSize (letterPassage 'u').text ≤ 100 := by decide +kernel
  exact whole _ rfl ⟨Nat.le_refl _, size⟩

end CapabilityHub.Rag
