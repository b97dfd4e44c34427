import CapabilityHub.Rag.Retrieval
import CapabilityHub.References

/-! # Expansion handles

A handle is `rag1`, the id of a passage and a signature, with dots between them, and is split at its dots
again. It leads back to its passage exactly if the id has no dot and is ASCII, and a string that was not
issued is refused unless the comparison of its signature raises (`CapabilityHub.Rag.expand_iff`).
-/

namespace CapabilityHub.Rag

open Tenancy (TenantScope)

/-- A text up to its first dot, and what follows; none where there is no dot. -/
def splitDot : List Char → Option (List Char × List Char)
  | [] => none
  | char :: rest =>
      if char = '.' then some ([], rest)
      else (splitDot rest).map fun parts => (char :: parts.1, parts.2)

section

variable (mac : Bytes → Bytes) (intOf : String → Option Int)

/-- `_verify_handle`. -/
def verifyHandle (handle tenant : String) : Except Raised String := do
  match splitDot handle.toList with
  | none => .error unavailable
  | some (start, rest) =>
      match splitDot rest with
      | none => .error unavailable
      | some (passageId, _) =>
          let passageId := String.ofList passageId
          raiseIf (String.ofList start ≠ "rag1") unavailable
          let same ← compareDigest handle (handleOf mac tenant passageId)
          raiseIf (same = false) unavailable
          pure passageId

/-- `DiskRagIndex.expand`. -/
def expand (tables : Tables) (handle : String) (scope : TenantScope) (maxBytes : Nat) (now : ℚ) :
    Except Raised RagHit := do
  raiseIf (maxBytes < 1) .valueError
  let passageId ← verifyHandle mac handle (tenantOf mac scope)
  let found := tables.passages.find? fun row =>
    row.tenantDigest = tenantOf mac scope && row.passageId = passageId && retained now row &&
      readable mac tables scope row.passageId
  match found with
  | none => .error unavailable
  | some row =>
      raiseIf (maxBytes < textSize row.text) unavailable
      pure { hitOf mac intOf (tenantOf mac scope) now (0, row) with expansionHandle := handle }

end

/-- An id that a handle can carry. -/
def Plain (passageId : String) : Prop := '.' ∉ passageId.toList ∧ isAscii passageId = true

/-- A handle of a passage of the tenant. -/
def Issued (mac : Bytes → Bytes) (tables : Tables) (tenant handle : String) : Prop :=
  ∃ row ∈ tables.passages, row.tenantDigest = tenant ∧ handle = handleOf mac tenant row.passageId

/-- The form of a handle. -/
def Formed (handle : String) : Prop :=
  ∃ passageId rest, handle = "rag1." ++ passageId ++ "." ++ rest

/-- A text of that form which cannot be compared with a handle. -/
def Incomparable (handle : String) : Prop := isAscii handle = false ∧ Formed handle

variable {mac sha256 : Bytes → Bytes} {fullText : FullText} {intOf : String → Option Int} {tables : Tables}
  {query tenant handle passageId : String} {scope : TenantScope} {topK maxBytes : Nat}
  {filters : Dict String String} {now : ℚ} {hits : List RagHit} {hit : RagHit} {row : PassageRow}
  {chars start rest : List Char}

/-! ## Splitting -/

theorem splitDot_append (single : '.' ∉ start) : splitDot (start ++ '.' :: rest) = some (start, rest) := by
  induction start with
  | nil => rfl
  | cons char start ih =>
      rw [List.mem_cons, not_or] at single
      rw [List.cons_append, splitDot, if_neg (Ne.symm single.1), ih single.2]
      rfl

theorem splitDot_eq_some (split : splitDot chars = some (start, rest)) :
    chars = start ++ '.' :: rest ∧ '.' ∉ start := by
  induction chars generalizing start with
  | nil => cases split
  | cons char chars ih =>
      rw [splitDot] at split
      by_cases dot : char = '.'
      · rw [if_pos dot] at split
        cases split
        exact ⟨by rw [dot, List.nil_append], List.not_mem_nil⟩
      · rw [if_neg dot] at split
        obtain ⟨⟨start', rest'⟩, inner, same⟩ := Option.map_eq_some_iff.mp split
        cases same
        obtain ⟨whole, single⟩ := ih inner
        refine ⟨by rw [whole, List.cons_append], ?_⟩
        exact fun member => (List.mem_cons.mp member).elim (fun same => dot same.symm) single

theorem toList_handle (passageId rest : String) : ("rag1." ++ passageId ++ "." ++ rest).toList =
    "rag1".toList ++ '.' :: (passageId.toList ++ '.' :: rest.toList) := by
  rw [String.toList_append, String.toList_append, String.toList_append, List.append_assoc,
    List.append_assoc]
  rfl

/-- The id of such a text is what stands before the second dot. -/
theorem Formed.single (formed : Formed handle) : ∃ passageId rest, '.' ∉ passageId.toList ∧
    handle = "rag1." ++ passageId ++ "." ++ rest := by
  obtain ⟨passageId, rest, rfl⟩ := formed
  by_cases dotted : '.' ∈ passageId.toList
  · obtain ⟨start, later, split, single⟩ := List.eq_append_cons_of_mem dotted
    refine ⟨String.ofList start, String.ofList later ++ "." ++ rest, ?_, ?_⟩
    · rwa [String.toList_ofList]
    · rw [← String.toList_inj, toList_handle, toList_handle, split]
      simp
  · exact ⟨passageId, rest, dotted, rfl⟩

/-- A handle is split after its id, up to a dot. -/
theorem verifyHandle_eq (single : '.' ∉ passageId.toList) (signature : String) :
    verifyHandle mac ("rag1." ++ passageId ++ "." ++ signature) tenant =
      (compareDigest ("rag1." ++ passageId ++ "." ++ signature) (handleOf mac tenant passageId)).bind
        fun same => if same then .ok passageId else .error unavailable := by
  have plain : '.' ∉ "rag1".toList := by decide
  rw [verifyHandle, toList_handle, splitDot_append plain]
  dsimp only
  rw [splitDot_append single]
  dsimp only
  rw [String.ofList_toList, String.ofList_toList, raiseIf, if_neg (not_not.mpr rfl), ok_bind]
  refine congrArg _ (funext fun same => ?_)
  cases same <;> rfl

/-- Other texts have no handle's form. -/
theorem verifyHandle_of_other
    (other : ¬Formed handle) :
    verifyHandle mac handle tenant = .error unavailable := by
  have joined {start passageId signature : List Char} (first : splitDot handle.toList =
      some (start, passageId ++ '.' :: signature)) (version : String.ofList start = "rag1") : False := by
    refine other ⟨String.ofList passageId, String.ofList signature, ?_⟩
    have letters := congrArg String.toList version
    rw [String.toList_ofList] at letters
    rw [← String.toList_inj, toList_handle, ← letters, String.toList_ofList, String.toList_ofList,
      (splitDot_eq_some first).1]
  rw [verifyHandle]
  split
  next => rfl
  next start rest first =>
    split
    next => rfl
    next passageId signature second =>
      rw [(splitDot_eq_some second).1] at first
      have version : String.ofList start ≠ "rag1" := fun same => joined first same
      dsimp only
      rw [raiseIf, if_pos version]
      rfl

/-! ## Verifying -/

theorem isAscii_handle (ascii : isAscii passageId = true) (tenant : String) :
    isAscii (handleOf mac tenant passageId) = true := by
  have digits : (hex (mac (encodeUtf8 (tenant ++ "." ++ passageId)))).toList.all
      (fun char => char.toNat < 128) = true :=
    List.all_eq_true.mpr fun char member => decide_eq_true (hex_ascii _ char member)
  rw [isAscii] at ascii
  rw [isAscii, handleOf, toList_handle, List.all_append, List.all_cons, List.all_append, List.all_cons,
    ascii, digits]
  decide

theorem isAscii_of_handle {signature : String}
    (ascii : isAscii ("rag1." ++ passageId ++ "." ++ signature) = true) : isAscii passageId = true := by
  rw [isAscii, toList_handle, List.all_append, List.all_cons, List.all_append] at ascii
  simp only [Bool.and_eq_true] at ascii
  exact ascii.2.2.1

/-- The signature of a plain id is accepted. -/
theorem verifyHandle_handleOf (plain : Plain passageId) :
    verifyHandle mac (handleOf mac tenant passageId) tenant = .ok passageId := by
  have ascii := @isAscii_handle mac _ plain.2 tenant
  rw [handleOf] at ascii
  rw [handleOf, verifyHandle_eq plain.1, compareDigest, handleOf, if_pos ⟨ascii, ascii⟩, beq_self_eq_true]
  rfl

/-- A text that is accepted is the handle of a plain id. -/
theorem of_verifyHandle (verified : verifyHandle mac handle tenant = .ok passageId) :
    handle = handleOf mac tenant passageId ∧ Plain passageId := by
  by_cases formed : Formed handle
  · obtain ⟨passageId', rest, single, rfl⟩ := formed.single
    rw [verifyHandle_eq single, compareDigest] at verified
    split at verified
    next ascii =>
      cases same : "rag1." ++ passageId' ++ "." ++ rest == handleOf mac tenant passageId' with
      | true =>
          rw [same] at verified
          obtain rfl := Except.ok.inj verified
          exact ⟨eq_of_beq same, single, isAscii_of_handle ascii.1⟩
      | false =>
          rw [same] at verified
          cases verified
    next => cases verified
  · rw [verifyHandle_of_other formed] at verified
    cases verified

theorem verifyHandle_of_incomparable (incomparable : Incomparable handle) :
    verifyHandle mac handle tenant = .error .typeError := by
  obtain ⟨wide, formed⟩ := incomparable
  obtain ⟨passageId, rest, single, rfl⟩ := formed.single
  have either : ¬(isAscii ("rag1." ++ passageId ++ "." ++ rest) = true ∧
      isAscii (handleOf mac tenant passageId) = true) := fun both => by
    rw [wide] at both
    cases both.1
  rw [verifyHandle_eq single, compareDigest, if_neg either]
  rfl

/-- A text that can be compared and is not accepted is refused. -/
theorem verifyHandle_of_comparable (comparable : ¬Incomparable handle)
    (other : ∀ passageId, verifyHandle mac handle tenant ≠ .ok passageId) :
    verifyHandle mac handle tenant = .error unavailable := by
  by_cases formed : Formed handle
  · have ascii : isAscii handle = true := by
      by_contra wide
      exact comparable ⟨Bool.not_eq_true _ |>.mp wide, formed⟩
    obtain ⟨passageId, rest, single, rfl⟩ := formed.single
    have expected := @isAscii_handle mac _ (isAscii_of_handle ascii) tenant
    have refused := other passageId
    rw [verifyHandle_eq single, compareDigest, if_pos ⟨ascii, expected⟩] at refused ⊢
    cases same : "rag1." ++ passageId ++ "." ++ rest == handleOf mac tenant passageId with
    | true =>
        rw [same] at refused
        exact absurd rfl refused
    | false => rfl
  · exact verifyHandle_of_other formed

/-! ## Expanding -/

theorem expand_of_error {raised : Raised} (positive : 1 ≤ maxBytes)
    (refused : verifyHandle mac handle (tenantOf mac scope) = .error raised) :
    expand mac intOf tables handle scope maxBytes now = .error raised := by
  rw [expand, raiseIf, if_neg positive.not_gt, refused]
  rfl

/-- A handle that is accepted leads to the passage with its id, if the caller may read it. -/
theorem expand_of_ok (positive : 1 ≤ maxBytes)
    (verified : verifyHandle mac handle (tenantOf mac scope) = .ok passageId) :
    expand mac intOf tables handle scope maxBytes now =
      match tables.passages.find? fun row =>
        row.tenantDigest = tenantOf mac scope && row.passageId = passageId && retained now row &&
          readable mac tables scope row.passageId with
      | none => .error unavailable
      | some row =>
          if maxBytes < textSize row.text then .error unavailable
          else .ok { hitOf mac intOf (tenantOf mac scope) now (0, row) with expansionHandle := handle } := by
  rw [expand, raiseIf, if_neg positive.not_gt, verified, ok_bind, ok_bind]
  change (match tables.passages.find? _ with
    | none => _
    | some row => _) = _
  split
  next => rfl
  next row _ =>
    dsimp only
    rw [raiseIf]
    split <;> rfl

/-- A string that is not the handle of a passage of the tenant is refused, unless it cannot be
compared. -/
theorem expand_not_issued (positive : 1 ≤ maxBytes)
    (forged : ¬Issued mac tables (tenantOf mac scope) handle) :
    expand mac intOf tables handle scope maxBytes now = .error unavailable ↔ ¬Incomparable handle := by
  constructor
  · intro refused incomparable
    rw [expand_of_error positive (verifyHandle_of_incomparable incomparable)] at refused
    cases refused
  · intro comparable
    by_cases accepted : ∃ passageId, verifyHandle mac handle (tenantOf mac scope) = .ok passageId
    · obtain ⟨passageId, verified⟩ := accepted
      have none : tables.passages.find? (fun row =>
          row.tenantDigest = tenantOf mac scope && row.passageId = passageId && retained now row &&
            readable mac tables scope row.passageId) = none := by
        refine List.find?_eq_none.mpr fun row member found => forged ⟨row, member, ?_⟩
        simp only [Bool.and_eq_true, decide_eq_true_eq] at found
        exact ⟨found.1.1.1, by rw [(of_verifyHandle verified).1, found.1.1.2]⟩
      rw [expand_of_ok positive verified, none]
    · exact expand_of_error positive
        (verifyHandle_of_comparable comparable fun passageId same => accepted ⟨passageId, same⟩)

/-- A passage that the caller may read is found by its id. -/
theorem find_passage (consistent : Consistent tables) (member : row ∈ tables.passages)
    (eligible : eligible mac fullText tables query scope filters now row = true) :
    (tables.passages.find? fun other =>
      other.tenantDigest = tenantOf mac scope && other.passageId = row.passageId &&
        retained now other && readable mac tables scope other.passageId) = some row := by
  simp only [Rag.eligible, Bool.and_eq_true, decide_eq_true_eq] at eligible
  obtain ⟨⟨⟨⟨_, own⟩, kept⟩, reads⟩, _⟩ := eligible
  cases found : tables.passages.find? fun other =>
      other.tenantDigest = tenantOf mac scope && other.passageId = row.passageId &&
        retained now other && readable mac tables scope other.passageId with
  | none =>
      have missing := List.find?_eq_none.mp found row member
      exact absurd (by simp [own, kept, reads]) missing
  | some other =>
      have here := List.find?_some found
      simp only [Bool.and_eq_true, decide_eq_true_eq] at here
      have same : other.key = row.key := Prod.ext (here.1.1.1.trans own.symm) here.1.1.2
      rw [List.inj_on_of_nodup_map consistent.keys (List.mem_of_find?_eq_some found) member same]

/-- A handle has the handle's id. -/
theorem handleOf_injective : Function.Injective (handleOf mac tenant) := by
  intro first second same
  have letters := congrArg String.toList same
  rw [handleOf, handleOf, toList_handle, toList_handle] at letters
  have rest := (List.cons.inj (List.append_cancel_left letters)).2
  have backwards (passageId : String) (bytes : Bytes) :
      splitDot (passageId.toList ++ '.' :: (hex bytes).toList).reverse =
        some ((hex bytes).toList.reverse, passageId.toList.reverse) := by
    rw [List.reverse_append, List.reverse_cons, List.append_assoc, List.singleton_append]
    exact splitDot_append fun member => dot_notMem_hex bytes (List.mem_reverse.mp member)
  have ends := congrArg (fun chars => splitDot chars.reverse) rest
  rw [backwards, backwards, Option.some.injEq, Prod.mk.injEq] at ends
  exact String.toList_inj.mp (List.reverse_inj.mp ends.2)

theorem textSize_pos {text : String} (given : text ≠ "") : 1 ≤ textSize text := by
  rw [textSize, length_encodeUtf8]
  exact Nat.one_le_iff_ne_zero.mpr fun none => given (String.utf8ByteSize_eq_zero_iff.mp none)

/-- The handle of a passage that the caller may read leads back to it exactly if its id is plain. -/
theorem expand_handleOf_iff (consistent : Consistent tables) (member : row ∈ tables.passages)
    (eligible : eligible mac fullText tables query scope filters now row = true)
    (roomy : textSize row.text ≤ maxBytes) (score : ℚ) :
    expand mac intOf tables (handleOf mac (tenantOf mac scope) row.passageId) scope maxBytes now =
        .ok { hitOf mac intOf (tenantOf mac scope) now (score, row) with score := 0 } ↔
      Plain row.passageId := by
  have positive : 1 ≤ maxBytes := Nat.le_trans (textSize_pos (consistent.texts row member)) roomy
  constructor
  · intro expanded
    by_contra other
    have refused : ∀ passageId, verifyHandle mac (handleOf mac (tenantOf mac scope) row.passageId)
        (tenantOf mac scope) ≠ .ok passageId := by
      intro passageId verified
      obtain ⟨same, plain⟩ := of_verifyHandle verified
      exact other (handleOf_injective same ▸ plain)
    by_cases incomparable : Incomparable (handleOf mac (tenantOf mac scope) row.passageId)
    · rw [expand_of_error positive (verifyHandle_of_incomparable incomparable)] at expanded
      cases expanded
    · rw [expand_of_error positive (verifyHandle_of_comparable incomparable refused)] at expanded
      cases expanded
  · intro plain
    rw [expand_of_ok positive (verifyHandle_handleOf plain), find_passage consistent member eligible]
    exact if_neg roomy.not_gt

variable (mac fullText intOf scope now) in
/-- The handle of a hit leads back to its passage exactly if the id is plain, and a string that was not
issued for the tenant is refused as unavailable exactly if it can be compared. -/
theorem expand_iff (reached : Reached mac sha256 tables) :
    (∀ query topK maxBytes given, Accepted query topK maxBytes → ∀ hits,
      search mac fullText intOf tables query scope topK given maxBytes now = .ok hits →
      ∀ hit ∈ hits, ∃ row ∈ tables.passages,
        hit = hitOf mac intOf (tenantOf mac scope) now (hit.score, row) ∧
        ∀ room, textSize hit.text ≤ room →
          (expand mac intOf tables hit.expansionHandle scope room now = .ok { hit with score := 0 } ↔
            Plain row.passageId)) ∧
    ∀ handle room, ¬Issued mac tables (tenantOf mac scope) handle → 1 ≤ room →
      (expand mac intOf tables handle scope room now = .error unavailable ↔ ¬Incomparable handle) := by
  refine ⟨fun query topK maxBytes given accepted hits found hit member => ?_,
    fun handle room forged positive => expand_not_issued positive forged⟩
  rw [search_eq accepted] at found
  rw [← Except.ok.inj found] at member
  obtain ⟨row, inside, eligible, same⟩ := mem_retrieve reached.consistent accepted.2.1.1 member
  refine ⟨row, inside, same, fun room roomy => ?_⟩
  rw [same] at roomy ⊢
  exact expand_handleOf_iff reached.consistent inside eligible roomy hit.score

theorem letters_expand_iff :
    (∀ query topK maxBytes given, Accepted query topK maxBytes → ∀ hits,
      search id findsAll (fun _ => none) (perform id id {} (.replace taskScope letterPassages)) query
        taskScope topK given maxBytes 0 = .ok hits →
      ∀ hit ∈ hits, ∃ row ∈ (perform id id {} (.replace taskScope letterPassages)).passages,
        hit = hitOf id (fun _ => none) (tenantOf id taskScope) 0 (hit.score, row) ∧
        ∀ room, textSize hit.text ≤ room →
          (expand id (fun _ => none) (perform id id {} (.replace taskScope letterPassages))
            hit.expansionHandle taskScope room 0 = .ok { hit with score := 0 } ↔ Plain row.passageId)) ∧
    ∀ handle room, ¬Issued id (perform id id {} (.replace taskScope letterPassages))
        (tenantOf id taskScope) handle → 1 ≤ room →
      (expand id (fun _ => none) (perform id id {} (.replace taskScope letterPassages)) handle taskScope
        room 0 = .error unavailable ↔ ¬Incomparable handle) :=
  expand_iff id findsAll (fun _ => none) taskScope 0
    (⟨[.replace taskScope letterPassages], rfl⟩ : Reached id id _)

/-- A passage with a dot in its id. -/
def dottedPassage : RagPassage where
  passageId := "notes.md"
  citation := "notes"
  text := "text"

/-- The handle of a passage with a dot in its id does not lead back to it. -/
theorem dotted_not_expanded : ¬∀ (mac sha256 : Bytes → Bytes) (fullText : FullText)
    (intOf : String → Option Int) (tables : Tables) (scope : TenantScope) (now : ℚ),
    Reached mac sha256 tables →
    (∀ query topK maxBytes given, Accepted query topK maxBytes → ∀ hits,
      search mac fullText intOf tables query scope topK given maxBytes now = .ok hits →
      ∀ hit ∈ hits, ∀ room, textSize hit.text ≤ room →
        expand mac intOf tables hit.expansionHandle scope room now = .ok { hit with score := 0 }) ∧
    ∀ handle room, ¬Issued mac tables (tenantOf mac scope) handle → 1 ≤ room →
      expand mac intOf tables handle scope room now = .error unavailable := by
  intro always
  have reached : Reached id id (perform id id {} (.replace taskScope [dottedPassage])) :=
    ⟨[.replace taskScope [dottedPassage]], rfl⟩
  have accepted : Accepted "text" 1 100 := ⟨by decide +kernel, by decide, by decide⟩
  have back := (always id id findsAll (fun _ => none) _ taskScope 0 reached).1 "text" 1 100 none accepted _
    (search_eq accepted none)
  have valid : ∀ passage ∈ [dottedPassage], validatePassage passage = .ok () :=
    List.forall_mem_singleton.mpr rfl
  have ids : ([dottedPassage].map RagPassage.passageId).Nodup := List.nodup_singleton _
  have digests : ([dottedPassage].map fun passage => hex (id (encodeUtf8 passage.text))).Nodup :=
    List.nodup_singleton _
  have ranked : rankedRows id findsAll (perform id id {} (.replace taskScope [dottedPassage])) "text"
      taskScope 0 = [(0, rowOf id (tenantOf id taskScope) dottedPassage)] := by
    rw [rankedRows, joinedRows_public valid ids digests (List.forall_mem_singleton.mpr ⟨rfl, rfl⟩)
      fun _ _ => rfl]
    rfl
  have size : textSize dottedPassage.text ≤ 100 := by decide +kernel
  have found : hitOf id (fun _ => none) (tenantOf id taskScope) 0
      (0, rowOf id (tenantOf id taskScope) dottedPassage) ∈ retrieve id findsAll (fun _ => none)
        (perform id id {} (.replace taskScope [dottedPassage])) "text" taskScope 1 ∅ 100 0 := by
    have satisfied : ¬satisfies ∅ (rowOf id (tenantOf id taskScope) dottedPassage) = false := by
      rw [Bool.not_eq_false]
      rfl
    have roomy : ¬100 < 0 + textSize (rowOf id (tenantOf id taskScope) dottedPassage).text := by
      rw [Nat.zero_add]
      exact size.not_gt
    rw [retrieve, ranked, List.take_of_length_le (by decide), collect, if_neg satisfied, if_neg roomy]
    exact List.mem_singleton_self _
  obtain ⟨row, inside, eligible, same⟩ := mem_retrieve reached.consistent (Nat.le_refl 1) found
  have expanded := back _ found 100 size
  have name := congrArg RagHit.expansionHandle same
  rw [same] at expanded
  have plain := (expand_handleOf_iff reached.consistent inside eligible
    (Nat.le_trans (Nat.le_of_eq (congrArg (textSize ∘ RagHit.text) same).symm) size) _).mp expanded
  rw [← handleOf_injective name] at plain
  exact plain.1 (by decide +kernel)

end CapabilityHub.Rag
