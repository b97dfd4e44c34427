import CapabilityHub.Certification.Evidence

/-! # What is certified

A certification returns exactly for documents of all required kinds that pass their checks, and for
files in another order it returns the same (`CapabilityHub.Certification.certifyRelease_perm`).
-/

namespace CapabilityHub.Certification

variable {platform : Platform} {arguments : Arguments} {files files' : List (Option Bytes)}
  {items items' : List Evidence} {item : Evidence} {byType final : Dict CodePoints Evidence} {fault : Fault}

/-! ## Documents -/

/-- An error of the certification. -/
def Reported (fault : Fault) : Prop := ∃ code, fault = .certification code

theorem reported {code : String} : Reported (.certification code) := ⟨code, rfl⟩

/-- A file that is nested deeper than `json.loads` goes. -/
def TooDeep (platform : Platform) (file : Option Bytes) : Prop :=
  ∃ raw, file = some raw ∧ platform.loads raw = .error .recursion

theorem load_eq_error {file : Option Bytes} (failed : load platform file = .error fault) :
    Reported fault ∨ TooDeep platform file := by
  rw [load.eq_def] at failed
  split at failed
  · cases failed
    exact .inl reported
  next raw =>
    split at failed
    next deep => exact .inr ⟨raw, rfl, deep⟩
    · cases failed
      exact .inl reported
    · split at failed
      · cases failed
        exact .inl reported
      · cases failed

theorem load_tooDeep {file : Option Bytes} (deep : TooDeep platform file) :
    load platform file = .error .recursionError := by
  obtain ⟨raw, rfl, stopped⟩ := deep
  simp only [load, stopped]

/-- The document is what the release asks for. -/
structure Fit (arguments : Arguments) (item : Evidence) : Prop where
  passed : item.status = codePoints "passed"
  unskipped : item.skipped = 0 ∨ item.evidenceType = codePoints "full_pytest"
  revision : item.sourceRevision = arguments.sourceRevision
  subject : item.subjectDigest = arguments.subjectDigest
  /-- It is from five minutes ahead at most. -/
  ahead : item.createdAt.microseconds ≤ arguments.now.microseconds + skew
  fresh : (arguments.now.microseconds : Int) - item.createdAt.microseconds ≤ arguments.maxAge

/-- The checks before the times are compared. -/
structure Stated (arguments : Arguments) (item : Evidence) : Prop where
  passed : item.status = codePoints "passed"
  unskipped : item.skipped = 0 ∨ item.evidenceType = codePoints "full_pytest"
  revision : item.sourceRevision = arguments.sourceRevision
  subject : item.subjectDigest = arguments.subjectDigest

/-- The moment is one of the last five minutes of a `datetime`. -/
def Instant.Last (instant : Instant) : Prop := 315537897600000000 ≤ instant.microseconds + skew

theorem later_of_last (last : arguments.now.Last) : arguments.now.later = .error .overflowError :=
  dif_neg (Nat.not_lt.mpr last)

theorem later_eq_ok (early : ¬arguments.now.Last) :
    ∃ latest, arguments.now.later = .ok latest ∧
      latest.microseconds = arguments.now.microseconds + skew :=
  ⟨_, dif_pos (Nat.not_le.mp early), rfl⟩

theorem validateCommon_eq_ok :
    validateCommon arguments item = .ok () ↔ Fit arguments item ∧ ¬arguments.now.Last := by
  rw [validateCommon]
  simp only [bind_eq_ok, exists_unit, raiseIf_eq_ok, not_not, not_and, not_or, not_lt]
  constructor
  · rintro ⟨passed, skips, ⟨revision, subject⟩, latest, later, ahead, fresh⟩
    have early : ¬arguments.now.Last := by
      intro last
      rw [later_of_last last] at later
      cases later
    obtain ⟨latest', later', same⟩ := later_eq_ok early
    cases later.symm.trans later'
    refine ⟨⟨passed, ?_, revision, subject, same ▸ ahead, fresh⟩, early⟩
    by_cases none : item.skipped = 0
    · exact .inl none
    · exact .inr (skips none)
  · rintro ⟨fit, early⟩
    obtain ⟨latest, later, same⟩ := later_eq_ok early
    refine ⟨fit.passed, ?_, ⟨fit.revision, fit.subject⟩, latest, later, same ▸ fit.ahead, fit.fresh⟩
    intro skips
    exact fit.unskipped.resolve_left skips

/-- The common checks raise errors of the certification, but in the last five minutes. -/
theorem raises_validateCommon : ∀ fault, validateCommon arguments item = .error fault →
    Reported fault ∨ arguments.now.Last := by
  refine raises_bind (raises_raiseIf (.inl reported)) fun _ => ?_
  refine raises_bind (raises_raiseIf (.inl reported)) fun _ => ?_
  refine raises_bind (raises_raiseIf (.inl reported)) fun _ => ?_
  refine raises_bind (fun fault failed => ?_) fun latest => ?_
  · by_cases last : arguments.now.Last
    · exact .inr last
    · obtain ⟨latest, later, _⟩ := later_eq_ok last
      rw [later] at failed
      cases failed
  refine raises_bind (raises_raiseIf (.inl reported)) fun _ => ?_
  exact raises_raiseIf (.inl reported)

theorem validateCommon_of_last (last : arguments.now.Last) (stated : Stated arguments item) :
    validateCommon arguments item = .error .overflowError := by
  rw [validateCommon, later_of_last last]
  have skips : ¬(item.skipped ≠ 0 ∧ item.evidenceType ≠ codePoints "full_pytest") := by
    rintro ⟨skipped, other⟩
    exact stated.unskipped.elim skipped other
  have mismatch : ¬(item.sourceRevision ≠ arguments.sourceRevision ∨
      item.subjectDigest ≠ arguments.subjectDigest) := by
    rintro (other | other)
    · exact other stated.revision
    · exact other stated.subject
  rw [raiseIf, if_neg (not_not.mpr stated.passed), ok_bind, raiseIf, if_neg skips, ok_bind, raiseIf,
    if_neg mismatch, ok_bind]
  rfl

theorem raises_unless_stated : ∀ fault, validateCommon arguments item = .error fault →
    Reported fault ∨ Stated arguments item := by
  intro fault failed
  by_cases passed : item.status = codePoints "passed"
  · by_cases skips : item.skipped ≠ 0 ∧ item.evidenceType ≠ codePoints "full_pytest"
    · rw [validateCommon, raiseIf, if_neg (not_not.mpr passed), ok_bind, raiseIf, if_pos skips] at failed
      cases failed
      exact .inl reported
    · by_cases mismatch : item.sourceRevision ≠ arguments.sourceRevision ∨
          item.subjectDigest ≠ arguments.subjectDigest
      · rw [validateCommon, raiseIf, if_neg (not_not.mpr passed), ok_bind, raiseIf, if_neg skips, ok_bind,
          raiseIf, if_pos mismatch] at failed
        cases failed
        exact .inl reported
      · rw [not_or, not_not, not_not] at mismatch
        rw [not_and_or, not_not, not_not] at skips
        exact .inr ⟨passed, skips, mismatch.1, mismatch.2⟩
  · rw [validateCommon, raiseIf, if_pos passed] at failed
    cases failed
    exact .inl reported

/-- Every metric that is checked passes. -/
def MetricsPass (item : Evidence) : Prop :=
  ∀ check ∈ checksOf item.evidenceType, metricPasses check (get item.metrics check.1) = true

theorem validateSpecific_eq_ok : validateSpecific item = .ok () ↔ MetricsPass item := by
  rw [validateSpecific]
  refine forM_eq_ok.trans ?_
  simp only [raiseIf_eq_ok, Bool.not_eq_false]
  rfl

theorem raises_validateSpecific : ∀ fault, validateSpecific item = .error fault → Reported fault :=
  raises_forM fun _ => raises_raiseIf reported

/-! ## The loop over the documents -/

/-- What a document passes that is added. -/
structure Passes (arguments : Arguments) (item : Evidence) : Prop where
  required : item.evidenceType ∈ requiredEvidence.map codePoints
  fit : Fit arguments item
  metrics : MetricsPass item

theorem addEvidence_eq_ok : addEvidence arguments byType item = .ok final ↔
    Passes arguments item ∧ ¬arguments.now.Last ∧ item.evidenceType ∉ byType.keys ∧
      byType.set item.evidenceType item = final := by
  rw [addEvidence]
  simp only [bind_eq_ok, exists_unit, raiseIf_eq_ok, not_not, validateCommon_eq_ok, validateSpecific_eq_ok,
    pure_eq_ok]
  constructor
  · rintro ⟨required, fresh, ⟨fit, early⟩, metrics, done⟩
    exact ⟨⟨required, fit, metrics⟩, early, fresh, done⟩
  · rintro ⟨⟨required, fit, metrics⟩, early, fresh, done⟩
    exact ⟨required, fresh, ⟨fit, early⟩, metrics, done⟩

theorem raises_addEvidence : ∀ fault, addEvidence arguments byType item = .error fault →
    Reported fault ∨ arguments.now.Last := by
  refine raises_bind (raises_raiseIf (.inl reported)) fun _ => ?_
  refine raises_bind (raises_raiseIf (.inl reported)) fun _ => ?_
  refine raises_bind raises_validateCommon fun _ => ?_
  refine raises_bind (fun fault failed => .inl (raises_validateSpecific fault failed)) fun _ => ?_
  intro fault failed
  cases failed

/-- The loop returns with the documents under their kinds. -/
theorem foldlM_addEvidence (early : ¬arguments.now.Last) :
    items.foldlM (addEvidence arguments) byType = .ok final ↔
      (∀ item ∈ items, Passes arguments item) ∧
        (byType.keys ++ items.map Evidence.evidenceType).Nodup ∧
          final.entries = byType.entries ++ items.map fun item => (item.evidenceType, item) := by
  induction items generalizing byType with
  | nil =>
      rw [List.foldlM_nil, pure_eq_ok]
      constructor
      · rintro rfl
        exact ⟨by simp, by simpa using byType.keys_nodup, by simp⟩
      · rintro ⟨_, _, same⟩
        exact (Dict.ext_entries (by simpa using same)).symm
  | cons item items ih =>
      rw [List.foldlM_cons, bind_eq_ok, List.forall_mem_cons]
      constructor
      · rintro ⟨next, here, below⟩
        obtain ⟨passes, _, fresh, rfl⟩ := addEvidence_eq_ok.mp here
        obtain ⟨others, nodup, same⟩ := ih.mp below
        rw [Dict.keys, Dict.entries_set_of_notMem item fresh] at nodup
        rw [Dict.entries_set_of_notMem item fresh] at same
        refine ⟨⟨passes, others⟩, ?_, ?_⟩
        · simpa [Dict.keys] using nodup
        · simpa using same
      · rintro ⟨⟨passes, others⟩, nodup, same⟩
        have fresh : item.evidenceType ∉ byType.keys := fun member =>
          (List.nodup_append.mp nodup).2.2 _ member _ List.mem_cons_self rfl
        refine ⟨_, addEvidence_eq_ok.mpr ⟨passes, early, fresh, rfl⟩, ih.mpr ⟨others, ?_, ?_⟩⟩
        · rw [Dict.keys, Dict.entries_set_of_notMem item fresh]
          simpa [Dict.keys] using nodup
        · rw [Dict.entries_set_of_notMem item fresh]
          simpa using same

/-- Documents of all required kinds, one for each, that pass their checks. -/
structure Complete (arguments : Arguments) (items : List Evidence) : Prop where
  passes : ∀ item ∈ items, Passes arguments item
  kinds : (items.map Evidence.evidenceType).Perm (requiredEvidence.map codePoints)

/-- The documents under their kinds. -/
def Holds (byType : Dict CodePoints Evidence) (items : List Evidence) : Prop :=
  byType.entries = items.map fun item => (item.evidenceType, item)

theorem Holds.keys (holds : Holds byType items) : byType.keys = items.map Evidence.evidenceType := by
  rw [Dict.keys, holds, List.map_map]
  rfl

theorem Holds.mem (holds : Holds byType items) {name : CodePoints} :
    byType.get? name = some item ↔ item ∈ items ∧ item.evidenceType = name := by
  rw [← Dict.mem_entries_iff, holds, List.mem_map]
  constructor
  · rintro ⟨other, member, same⟩
    cases same
    exact ⟨member, rfl⟩
  · rintro ⟨member, rfl⟩
    exact ⟨item, member, rfl⟩

/-- Dictionaries of the same documents in other orders. -/
theorem Holds.congr {byType' : Dict CodePoints Evidence} (holds : Holds byType items)
    (holds' : Holds byType' items') (perm : items.Perm items') :
    manifestOf platform arguments byType = manifestOf platform arguments byType' := by
  have same (name : CodePoints) : byType.get? name = byType'.get? name := by
    apply Option.ext
    intro item
    rw [holds.mem, holds'.mem, perm.mem_iff]
  rw [manifestOf, manifestOf, records, records]
  simp only [same]

theorem required_nodup : (requiredEvidence.map codePoints).Nodup := by decide +kernel

theorem certifyRelease_eq (accepted : arguments.Accepted) : certifyRelease platform arguments files =
    files.mapM (load platform) >>= certifyItems platform arguments := by
  have named : ¬(arguments.keyId = [] ∨ 256 < arguments.keyId.length) := by
    rw [not_or, not_lt]
    exact accepted.named
  rw [certifyRelease, raiseIf, if_neg (not_le.mpr accepted.aged), ok_bind, raiseIf,
    if_neg (not_lt.mpr accepted.keyed), ok_bind, raiseIf, if_neg (not_not.mpr accepted.revised), ok_bind,
    raiseIf, if_neg (not_not.mpr accepted.digested), ok_bind, raiseIf, if_neg named, ok_bind]

theorem Complete.exists_cons (complete : Complete arguments items) : ∃ first rest, items = first :: rest := by
  cases items with
  | nil =>
      have kinds := complete.kinds.length_eq
      simp [requiredEvidence] at kinds
  | cons first rest => exact ⟨first, rest, rfl⟩

theorem Complete.perm (complete : Complete arguments items) (perm : items.Perm items') :
    Complete arguments items' :=
  ⟨fun item member => complete.passes item (perm.mem_iff.mpr member),
    (perm.map _).symm.trans complete.kinds⟩

/-- The documents that the loop and the count of the kinds after it pass. -/
theorem complete_iff (early : ¬arguments.now.Last) :
    (items.foldlM (addEvidence arguments) ∅ = .ok byType ∧
      byType.keys ⊆ requiredEvidence.map codePoints ∧ requiredEvidence.map codePoints ⊆ byType.keys) ↔
        Complete arguments items ∧ Holds byType items := by
  rw [foldlM_addEvidence early]
  constructor
  · rintro ⟨⟨passes, nodup, same⟩, inside, every⟩
    have holds : Holds byType items := same
    rw [holds.keys] at inside every
    refine ⟨⟨passes, ?_⟩, holds⟩
    refine (List.perm_ext_iff_of_nodup (by simpa using nodup) required_nodup).mpr fun name => ?_
    exact ⟨fun member => inside member, fun member => every member⟩
  · rintro ⟨complete, holds⟩
    refine ⟨⟨complete.passes, ?_, holds⟩, ?_, ?_⟩
    · simpa using complete.kinds.nodup_iff.mpr required_nodup
    · rw [holds.keys]
      exact complete.kinds.subset
    · rw [holds.keys]
      exact complete.kinds.symm.subset

/-- Nothing is added in the last five minutes. -/
theorem early_of_addEvidence (done : items.foldlM (addEvidence arguments) byType = .ok final) :
    items = [] ∨ ¬arguments.now.Last := by
  cases items with
  | nil => exact .inl rfl
  | cons first rest =>
      rw [List.foldlM_cons, bind_eq_ok] at done
      obtain ⟨next, here, _⟩ := done
      exact .inr (addEvidence_eq_ok.mp here).2.1

theorem certifyItems_eq_error_of_bytes (complete : Complete arguments items) (early : ¬arguments.now.Last)
    (holds : Holds byType items)
    (stopped : manifestBytes platform (manifestOf platform arguments byType) = .error fault) :
    certifyItems platform arguments items = .error fault := by
  obtain ⟨done, counted⟩ := (complete_iff early).mpr ⟨complete, holds⟩
  rw [certifyItems, done, ok_bind, raiseIf, if_neg (not_not.mpr counted), ok_bind, stopped, error_bind]

theorem certifyItems_eq_ok {result : CertificationResult} :
    certifyItems platform arguments items = .ok result ↔
      Complete arguments items ∧ ¬arguments.now.Last ∧ ∃ byType bytes, Holds byType items ∧
        manifestBytes platform (manifestOf platform arguments byType) = .ok bytes ∧
          (⟨manifestOf platform arguments byType, signatureOf platform arguments bytes⟩ :
            CertificationResult) = result := by
  rw [certifyItems]
  simp only [bind_eq_ok, exists_unit, raiseIf_eq_ok, not_not, pure_eq_ok]
  constructor
  · rintro ⟨byType, done, counted, bytes, encoded, same⟩
    have early : ¬arguments.now.Last := by
      rcases early_of_addEvidence done with rfl | early
      · cases done
        exact absurd (counted.2 (List.mem_map_of_mem (List.mem_cons_self (l := _)))) List.not_mem_nil
      · exact early
    obtain ⟨complete, holds⟩ := (complete_iff early).mp ⟨done, counted⟩
    exact ⟨complete, early, byType, bytes, holds, encoded, same⟩
  · rintro ⟨complete, early, byType, bytes, holds, encoded, same⟩
    obtain ⟨done, counted⟩ := (complete_iff early).mpr ⟨complete, holds⟩
    exact ⟨byType, done, counted, bytes, encoded, same⟩

theorem exists_holds (complete : Complete arguments items) : ∃ byType, Holds byType items := by
  refine ⟨⟨items.map fun item : Evidence => (item.evidenceType, item), ?_⟩, rfl⟩
  rw [List.map_map]
  exact complete.kinds.nodup_iff.mpr required_nodup

theorem raises_unless_required : ∀ fault, addEvidence arguments byType item = .error fault → Reported fault ∨
    item.evidenceType ∈ requiredEvidence.map codePoints ∧ Stated arguments item := by
  intro fault failed
  rw [addEvidence] at failed
  rcases bind_eq_error.mp failed with unexpected | ⟨_, required, failed⟩
  · exact .inl (raises_raiseIf reported fault unexpected)
  rw [raiseIf_eq_ok, not_not] at required
  rcases bind_eq_error.mp failed with duplicate | ⟨_, _, failed⟩
  · exact .inl (raises_raiseIf reported fault duplicate)
  rcases bind_eq_error.mp failed with common | ⟨_, _, failed⟩
  · exact (raises_unless_stated fault common).imp_right fun stated => ⟨required, stated⟩
  rcases bind_eq_error.mp failed with specific | ⟨_, _, absurd⟩
  · exact .inl (raises_validateSpecific fault specific)
  · cases absurd

/-- What a certification of documents raises that is no error of the certification. -/
theorem certifyItems_eq_error (failed : certifyItems platform arguments items = .error fault) :
    Reported fault ∨
      (arguments.now.Last ∧ ∃ first rest, items = first :: rest ∧
        first.evidenceType ∈ requiredEvidence.map codePoints ∧ Stated arguments first) ∨
      Complete arguments items ∧ ∃ byType, Holds byType items ∧
        manifestBytes platform (manifestOf platform arguments byType) = .error fault := by
  rw [certifyItems] at failed
  by_cases last : arguments.now.Last
  · cases items with
    | nil =>
        rcases bind_eq_error.mp failed with looped | ⟨byType, done, failed⟩
        · cases looped
        cases done
        rcases bind_eq_error.mp failed with missing | ⟨_, counted, _⟩
        · exact .inl (raises_raiseIf reported fault missing)
        · rw [raiseIf_eq_ok, not_not] at counted
          exact absurd (counted.2 (List.mem_map_of_mem (List.mem_cons_self (l := _)))) List.not_mem_nil
    | cons first rest =>
        rcases bind_eq_error.mp failed with looped | ⟨byType, done, _⟩
        · rw [List.foldlM_cons] at looped
          rcases bind_eq_error.mp looped with here | ⟨next, here, _⟩
          · rcases raises_unless_required fault here with raised | known
            · exact .inl raised
            · exact .inr (.inl ⟨last, first, rest, rfl, known⟩)
          · exact absurd last (addEvidence_eq_ok.mp here).2.1
        · exact absurd last ((early_of_addEvidence done).resolve_left (List.cons_ne_nil _ _))
  · rcases bind_eq_error.mp failed with looped | ⟨byType, done, failed⟩
    · left
      exact (raises_foldlM (fun _ _ => raises_addEvidence) ∅ fault looped).resolve_right last
    rcases bind_eq_error.mp failed with missing | ⟨_, counted, failed⟩
    · exact .inl (raises_raiseIf reported fault missing)
    rw [raiseIf_eq_ok, not_not] at counted
    obtain ⟨complete, holds⟩ := (complete_iff last).mp ⟨done, counted⟩
    rcases bind_eq_error.mp failed with encoded | ⟨_, _, absurd⟩
    · exact .inr (.inr ⟨complete, byType, holds, encoded⟩)
    · cases absurd

theorem certifyItems_of_last (last : arguments.now.Last) {first : Evidence} {rest : List Evidence}
    (required : first.evidenceType ∈ requiredEvidence.map codePoints) (stated : Stated arguments first) :
    certifyItems platform arguments (first :: rest) = .error .overflowError := by
  have fresh : ¬first.evidenceType ∈ (∅ : Dict CodePoints Evidence).keys := List.not_mem_nil
  have here : addEvidence arguments ∅ first = .error .overflowError := by
    rw [addEvidence, raiseIf, if_neg (not_not.mpr required), ok_bind, raiseIf, if_neg fresh, ok_bind,
      validateCommon_of_last last stated, error_bind]
  rw [certifyItems, List.foldlM_cons, here, error_bind, error_bind]

end CapabilityHub.Certification
