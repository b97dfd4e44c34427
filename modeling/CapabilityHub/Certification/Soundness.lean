import CapabilityHub.Certification.Admission

/-! # Sound certifications

A certification checks the numbers and the truth values of the metrics with `!=`, for which `True` is 1,
and leaves alone what the encoding of the manifest raises. Apart from that it is sound, does not depend
on the order of the files, and its signature holds for its manifest only
(`CapabilityHub.Certification.certifies_iff`).
-/

namespace CapabilityHub.Certification

variable {platform : Platform} {arguments : Arguments} {files files' : List (Option Bytes)}
  {items : List Evidence} {item : Evidence} {byType : Dict CodePoints Evidence} {fault : Fault}
  {result : CertificationResult}

/-! ## Metrics -/

/-- The metric has the value that is asked for, or is an integer of at least the minimum. -/
def Met (metrics : List (CodePoints × PyValue)) (check : String × Expected) : Prop :=
  match check.2 with
  | .bool expected => get metrics check.1 = .bool expected
  | .text expected => get metrics check.1 = .str (codePoints expected)
  | .int expected =>
      if isMinimum check.1 = true then ∃ value, get metrics check.1 = .int value ∧ expected ≤ value
      else get metrics check.1 = .int expected ∨
        ∃ value, get metrics check.1 = .float value ∧ value.equals expected = true

def isNumber : PyValue → Bool
  | .int _ | .float _ => true
  | _ => false

def isTruth : PyValue → Bool
  | .bool _ => true
  | _ => false

/-- A truth value is asked for and there is a number, or a number and there is a truth value. -/
def confused (check : String × Expected) (actual : PyValue) : Bool :=
  match check.2 with
  | .bool _ => isNumber actual
  | .int _ => !isMinimum check.1 && isTruth actual
  | .text _ => false

/-- A metric passes that is met, and else one that is confused. -/
theorem met_iff {metrics : List (CodePoints × PyValue)} {check : String × Expected} :
    Met metrics check ↔ metricPasses check (get metrics check.1) = true ∧
      confused check (get metrics check.1) = false := by
  obtain ⟨key, expected⟩ := check
  rw [Met, confused, metricPasses]
  cases expected with
  | bool expected => cases actual : get metrics key <;> simp [equalsNumber, isNumber]; grind
  | text expected => cases actual : get metrics key <;> simp [equalsText]
  | int expected =>
      by_cases minimum : isMinimum key = true
      · cases actual : get metrics key <;> simp [minimum]
      · cases actual : get metrics key <;> simp [minimum, equalsNumber, isTruth]

/-! ## The bytes of a manifest -/

theorem manifestBytes_eq_ok {manifest : List (CodePoints × PyValue)} {bytes : Bytes} :
    manifestBytes platform manifest = .ok bytes ↔
      (PyValue.obj manifest).depth ≤ platform.dumpsDepth ∧
        encode ((PyValue.obj manifest).canonical platform.floatText) = some bytes := by
  rw [manifestBytes]
  split
  next deep => exact iff_of_false (by simp) fun shallow => absurd shallow.1 (Nat.not_le.mpr deep)
  next shallow =>
    rw [and_iff_right (Nat.not_lt.mp shallow)]
    cases encode ((PyValue.obj manifest).canonical platform.floatText) <;> simp

theorem not_reported_manifestBytes {manifest : List (CodePoints × PyValue)}
    (failed : manifestBytes platform manifest = .error fault) : ¬Reported fault := by
  rintro ⟨code, rfl⟩
  rw [manifestBytes] at failed
  split at failed
  · cases failed
  · split at failed <;> cases failed

theorem mem_records (complete : Complete arguments items) (holds : Holds byType items) {entry : PyValue} :
    entry ∈ records platform byType ↔
      ∃ item ∈ items, ∃ name, codePoints name = item.evidenceType ∧ entry = record platform name item := by
  rw [records, List.mem_filterMap]
  constructor
  · rintro ⟨name, _, found⟩
    obtain ⟨item, found, same⟩ := Option.map_eq_some_iff.mp found
    obtain ⟨member, kind⟩ := holds.mem.mp found
    exact ⟨item, member, name, kind.symm, same.symm⟩
  · rintro ⟨item, member, name, kind, rfl⟩
    have inside := complete.kinds.subset (List.mem_map_of_mem member)
    obtain ⟨name', listed, kind'⟩ := List.mem_map.mp inside
    obtain rfl : name' = name := codePoints_injective (kind'.trans kind.symm)
    exact ⟨name', listed, by rw [holds.mem.mpr ⟨member, kind.symm⟩]; rfl⟩

theorem scalars_isHex {length : Nat} {text : CodePoints} (digits : IsHex length text) : Scalars text := by
  intro half member
  exact scalars_codePoints _ half (digits.2 _ member)

theorem record_depth (name : String) :
    (record platform name item).depth = (PyValue.obj item.metrics).depth + 1 := by
  simp [record, PyValue.depth, depthFields]

theorem record_scalar (name : String) : (record platform name item).Scalar ↔ ScalarFields item.metrics := by
  simp [record, PyValue.Scalar, ScalarFields, scalars_codePoints, timestamp]

/-- The manifest of documents whose metrics are encoded, and not too deep, is encoded. -/
theorem exists_manifestBytes_iff (accepted : arguments.Accepted) (complete : Complete arguments items)
    (holds : Holds byType items) :
    (∃ bytes, manifestBytes platform (manifestOf platform arguments byType) = .ok bytes) ↔
      ∀ item ∈ items, ScalarFields item.metrics ∧
        (PyValue.obj item.metrics).depth + 3 ≤ platform.dumpsDepth := by
  have depth : (PyValue.obj (manifestOf platform arguments byType)).depth =
      depthItems (records platform byType) + 2 := by
    simp [manifestOf, PyValue.depth, depthFields]
  have scalar : (PyValue.obj (manifestOf platform arguments byType)).Scalar ↔
      ScalarItems (records platform byType) := by
    simp [manifestOf, PyValue.Scalar, ScalarFields, scalars_codePoints, timestamp,
      scalars_isHex accepted.revised, scalars_isHex accepted.digested]
  simp only [manifestBytes_eq_ok, exists_and_left, exists_encode_iff, scalars_canonical, scalar,
    scalarItems_iff, depth]
  obtain ⟨first, rest, some⟩ := complete.exists_cons
  constructor
  · rintro ⟨shallow, plain⟩ item member
    obtain ⟨name, _, kind⟩ := List.mem_map.mp (complete.kinds.subset (List.mem_map_of_mem member))
    have inside : record platform name item ∈ records platform byType :=
      (mem_records complete holds).mpr ⟨item, member, name, kind, rfl⟩
    have below := depthItems_le.mp le_rfl _ inside
    rw [record_depth] at below
    exact ⟨(record_scalar name).mp (plain _ inside), by omega⟩
  · intro each
    have two : 2 ≤ platform.dumpsDepth := by
      have first := (each first (some ▸ List.mem_cons_self)).2
      omega
    have below : depthItems (records platform byType) ≤ platform.dumpsDepth - 2 := by
      rw [depthItems_le]
      intro entry inside
      obtain ⟨item, member, name, _, rfl⟩ := (mem_records complete holds).mp inside
      have item := (each item member).2
      rw [record_depth]
      omega
    refine ⟨by omega, fun entry inside => ?_⟩
    obtain ⟨item, member, name, _, rfl⟩ := (mem_records complete holds).mp inside
    exact (record_scalar name).mpr (each item member).1

/-! ## Signatures -/

theorem get_manifest_schema :
    get (manifestOf platform arguments byType) "schema" = .str (codePoints manifestSchema) := by
  rfl

theorem get_signature_schema {bytes : Bytes} :
    get (signatureOf platform arguments bytes) "schema" = .str (codePoints signatureSchema) := by
  rfl

theorem get_signature_tag {bytes : Bytes} : get (signatureOf platform arguments bytes) "signature" =
    .str (codePoints (tag platform arguments.signingKey bytes)) := by
  rfl

theorem get_signature_digest {bytes : Bytes} : get (signatureOf platform arguments bytes) "manifest_sha256" =
    .str (codePoints (hex (platform.sha256 bytes))) := by
  rfl

theorem suppliedMatches_hex (bytes : Bytes) :
    suppliedMatches (hex bytes) (.str (codePoints (hex bytes))) = .ok true := by
  have ascii : (codePoints (hex bytes)).all (fun point => point.number < 128) = true := by
    rw [List.all_eq_true]
    intro point member
    obtain ⟨char, inside, rfl⟩ := List.mem_map.mp member
    exact decide_eq_true (hex_ascii bytes char inside)
  rw [suppliedMatches, compareDigest, if_pos ascii, decide_eq_true rfl]

theorem suppliedMatches_eq {expected : String} {supplied : CodePoints}
    (same : suppliedMatches expected (.str supplied) = .ok true) : supplied = codePoints expected := by
  rw [suppliedMatches, compareDigest] at same
  split at same
  · exact of_decide_eq_true (Except.ok.inj same)
  · cases same

/-- A manifest that is returned is verified by its signature. -/
theorem verify_certified {bytes : Bytes}
    (encoded : manifestBytes platform (manifestOf platform arguments byType) = .ok bytes) :
    verifyCertification platform (manifestOf platform arguments byType) (signatureOf platform arguments bytes)
      arguments.signingKey = .ok () := by
  rw [verifyCertification, get_manifest_schema, get_signature_schema, get_signature_tag, get_signature_digest,
    encoded, ok_bind, suppliedMatches_hex, ok_bind, tag, suppliedMatches_hex]
  have own (text : String) : equalsText text (.str (codePoints text)) = true := decide_eq_true rfl
  rw [own, own]
  rfl

/-- Under the tag of a manifest no manifest with another canonical text is verified. -/
theorem canonical_of_verified (unforgeable : Function.Injective (platform.hmac arguments.signingKey))
    {bytes : Bytes} (encoded : manifestBytes platform (manifestOf platform arguments byType) = .ok bytes)
    {manifest signature : List (CodePoints × PyValue)}
    (presented : get signature "signature" = get (signatureOf platform arguments bytes) "signature")
    (verified : verifyCertification platform manifest signature arguments.signingKey = .ok ()) :
    (PyValue.obj manifest).canonical platform.floatText =
      (PyValue.obj (manifestOf platform arguments byType)).canonical platform.floatText := by
  rw [verifyCertification, presented, get_signature_tag] at verified
  simp only [bind_eq_ok, exists_unit, raiseIf_eq_ok, Bool.not_eq_false] at verified
  obtain ⟨_, _, other, encoded', _, _, _, signed, matched, accepted⟩ := verified
  rw [accepted] at matched
  have tags := hex_injective (codePoints_injective (suppliedMatches_eq matched))
  obtain rfl := List.append_cancel_left (unforgeable tags)
  exact encode_injective (manifestBytes_eq_ok.mp encoded').2 (manifestBytes_eq_ok.mp encoded).2

/-! ## Soundness -/

/-- The files are one document for each required kind, each of them fit and with its metrics met. -/
def Documented (platform : Platform) (arguments : Arguments) (files : List (Option Bytes)) : Prop :=
  ∃ items, files.mapM (load platform) = .ok items ∧
    (items.map Evidence.evidenceType).Perm (requiredEvidence.map codePoints) ∧
      ∀ item ∈ items, Fit arguments item ∧ ∀ check ∈ checksOf item.evidenceType, Met item.metrics check

/-- What a certification is to do. -/
structure Certifies (platform : Platform) (arguments : Arguments) (files : List (Option Bytes)) : Prop where
  raises : ∀ fault, certifyRelease platform arguments files = .error fault → Reported fault
  sound : ∀ result, certifyRelease platform arguments files = .ok result →
    Documented platform arguments files
  reordered : ∀ files', files.Perm files' → ∀ result,
    certifyRelease platform arguments files = .ok result ↔
      certifyRelease platform arguments files' = .ok result
  verified : ∀ result, certifyRelease platform arguments files = .ok result →
    verifyCertification platform result.manifest result.signature arguments.signingKey = .ok ()
  binding : ∀ result, certifyRelease platform arguments files = .ok result → ∀ manifest signature,
    get signature "signature" = get result.signature "signature" →
      verifyCertification platform manifest signature arguments.signingKey = .ok () →
        (PyValue.obj manifest).canonical platform.floatText =
          (PyValue.obj result.manifest).canonical platform.floatText

/-- The files that are certified soundly or refused. -/
structure Clean (platform : Platform) (arguments : Arguments) (files : List (Option Bytes)) : Prop where
  /-- The first file that is no document is not nested too deep. -/
  shallow : ∀ before file after items, files = before ++ file :: after →
    before.mapM (load platform) = .ok items → ¬TooDeep platform file
  /-- In the last five minutes the first document is refused before the times are compared. -/
  early : ∀ first rest, files.mapM (load platform) = .ok (first :: rest) → arguments.now.Last →
    first.evidenceType ∈ requiredEvidence.map codePoints → ¬Stated arguments first
  /-- Documents that pass all the checks have metrics that can be encoded, with truth values where these
  are asked for and nowhere else. -/
  plain : ∀ items, files.mapM (load platform) = .ok items → Complete arguments items → ∀ item ∈ items,
    ScalarFields item.metrics ∧ (PyValue.obj item.metrics).depth + 3 ≤ platform.dumpsDepth ∧
      ∀ check ∈ checksOf item.evidenceType, confused check (get item.metrics check.1) = false

theorem certifyRelease_perm (accepted : arguments.Accepted) (perm : files.Perm files')
    (done : certifyRelease platform arguments files = .ok result) :
    certifyRelease platform arguments files' = .ok result := by
  rw [certifyRelease_eq accepted, bind_eq_ok] at done ⊢
  obtain ⟨items, loaded, done⟩ := done
  obtain ⟨complete, early, byType, bytes, holds, encoded, rfl⟩ := certifyItems_eq_ok.mp done
  obtain ⟨items', loaded', perm'⟩ := perm_mapM perm loaded
  obtain ⟨byType', holds'⟩ := exists_holds (complete.perm perm')
  have same : manifestOf platform arguments byType = manifestOf platform arguments byType' :=
    holds.congr holds' perm'
  refine ⟨items', loaded', certifyItems_eq_ok.mpr
    ⟨complete.perm perm', early, byType', bytes, holds', same ▸ encoded, ?_⟩⟩
  rw [same]

theorem Complete.documented (loaded : files.mapM (load platform) = .ok items)
    (complete : Complete arguments items)
    (clear : ∀ item ∈ items, ∀ check ∈ checksOf item.evidenceType,
      confused check (get item.metrics check.1) = false) :
    Documented platform arguments files := by
  refine ⟨items, loaded, complete.kinds, fun item member => ⟨(complete.passes item member).fit, ?_⟩⟩
  intro check listed
  exact met_iff.mpr ⟨(complete.passes item member).metrics check listed, clear item member check listed⟩

theorem Clean.certifies (clean : Clean platform arguments files) (accepted : arguments.Accepted)
    (unforgeable : Function.Injective (platform.hmac arguments.signingKey)) :
    Certifies platform arguments files := by
  have returned {result : CertificationResult}
      (done : certifyRelease platform arguments files = .ok result) :
      ∃ items, files.mapM (load platform) = .ok items ∧ certifyItems platform arguments items = .ok result := by
    rw [certifyRelease_eq accepted, bind_eq_ok] at done
    exact done
  refine ⟨fun fault failed => ?_, fun result done => ?_, fun files' perm result =>
    ⟨certifyRelease_perm accepted perm, certifyRelease_perm accepted perm.symm⟩, fun result done => ?_,
    fun result done manifest signature presented verified => ?_⟩
  · rw [certifyRelease_eq accepted, bind_eq_error] at failed
    rcases failed with failed | ⟨items, loaded, failed⟩
    · obtain ⟨before, file, after, items, same, done, raised⟩ := mapM_eq_error.mp failed
      exact (load_eq_error raised).resolve_right (clean.shallow before file after items same done)
    · rcases certifyItems_eq_error failed with raised | ⟨last, first, rest, rfl, required, stated⟩ |
        ⟨complete, byType, holds, stopped⟩
      · exact raised
      · exact absurd stated (clean.early first rest loaded last required)
      · obtain ⟨bytes, encoded⟩ := (exists_manifestBytes_iff accepted complete holds).mpr fun item member =>
          have plain := clean.plain items loaded complete item member
          ⟨plain.1, plain.2.1⟩
        rw [encoded] at stopped
        cases stopped
  · obtain ⟨items, loaded, done⟩ := returned done
    obtain ⟨complete, _⟩ := certifyItems_eq_ok.mp done
    exact complete.documented loaded fun item member => (clean.plain items loaded complete item member).2.2
  · obtain ⟨items, _, done⟩ := returned done
    obtain ⟨_, _, _, _, _, encoded, rfl⟩ := certifyItems_eq_ok.mp done
    exact verify_certified encoded
  · obtain ⟨items, _, done⟩ := returned done
    obtain ⟨_, _, _, _, _, encoded, rfl⟩ := certifyItems_eq_ok.mp done
    exact canonical_of_verified unforgeable encoded presented verified

theorem Certifies.clean (certifies : Certifies platform arguments files) (accepted : arguments.Accepted) :
    Clean platform arguments files := by
  have whole : certifyRelease platform arguments files = _ := certifyRelease_eq accepted
  refine ⟨fun before file after items same done deep => ?_, fun first rest loaded last required stated => ?_,
    fun items loaded complete => ?_⟩
  · have stopped := mapM_eq_error.mpr ⟨before, file, after, items, same, done, load_tooDeep deep⟩
    rw [stopped, error_bind] at whole
    obtain ⟨code, absurd⟩ := certifies.raises _ whole
    cases absurd
  · rw [loaded, ok_bind, certifyItems_of_last last required stated] at whole
    obtain ⟨code, absurd⟩ := certifies.raises _ whole
    cases absurd
  · obtain ⟨byType, holds⟩ := exists_holds complete
    obtain ⟨first, rest, some⟩ := complete.exists_cons
    have early : ¬arguments.now.Last := by
      intro last
      have passes := complete.passes first (some ▸ List.mem_cons_self)
      have stated : Stated arguments first :=
        ⟨passes.fit.passed, passes.fit.unskipped, passes.fit.revision, passes.fit.subject⟩
      rw [loaded, ok_bind, some, certifyItems_of_last last passes.required stated] at whole
      obtain ⟨code, absurd⟩ := certifies.raises _ whole
      cases absurd
    cases encoded : manifestBytes platform (manifestOf platform arguments byType) with
    | error fault =>
        rw [loaded, ok_bind, certifyItems_eq_error_of_bytes complete early holds encoded] at whole
        exact absurd (certifies.raises _ whole) (not_reported_manifestBytes encoded)
    | ok bytes =>
        have done : certifyRelease platform arguments files = .ok
            ⟨manifestOf platform arguments byType, signatureOf platform arguments bytes⟩ := by
          rw [whole, loaded, ok_bind]
          exact certifyItems_eq_ok.mpr ⟨complete, early, byType, bytes, holds, encoded, rfl⟩
        obtain ⟨items', loaded', _, documented⟩ := certifies.sound _ done
        obtain rfl := Except.ok.inj (loaded'.symm.trans loaded)
        have fine := (exists_manifestBytes_iff accepted complete holds).mp ⟨bytes, encoded⟩
        intro item member
        refine ⟨(fine item member).1, (fine item member).2, fun check listed => ?_⟩
        exact (met_iff.mp ((documented item member).2 check listed)).2

/-- **Release certification.** -/
theorem certifies_iff (platform : Platform) (arguments : Arguments) (accepted : arguments.Accepted)
    (unforgeable : Function.Injective (platform.hmac arguments.signingKey)) (files : List (Option Bytes)) :
    Certifies platform arguments files ↔ Clean platform arguments files := by
  constructor
  · intro certifies
    exact certifies.clean accepted
  · intro clean
    exact clean.certifies accepted unforgeable

/-! ## A release -/

def zeros (count : Nat) : CodePoints := List.replicate count (.scalar '0')

def newYear : Instant := ⟨63902822400000000, by decide⟩

/-- The metrics of each kind of evidence, with the violations that ruff reports. -/
def metricsOf (violations : PyValue) : List (String × List (String × PyValue)) :=
  [("adversarial", [("passed", .bool true), ("external_provider_cases_min", .int 1)]),
    ("browser", [("passed", .bool true), ("assertions_min", .int 1)]),
    ("docs_traceability", [("passed", .bool true), ("claims_min", .int 36)]),
    ("full_pytest", [("failures", .int 0), ("passed_min", .int 1), ("unexpected_skips", .int 0)]),
    ("matrix_36", [("implemented", .int 36), ("partial", .int 0), ("total", .int 36)]),
    ("model_live",
      [("live", .bool true), ("provider_reported_tokens", .bool true), ("trials_min", .int 30)]),
    ("mypy", [("errors", .int 0)]),
    ("rag_1m", [("chunks_min", .int 1000000), ("production_index", .bool true)]),
    ("ruff", [("violations", violations)]),
    ("sandbox_linux", [("enforced", .bool true), ("platform", .str (codePoints "linux"))]),
    ("sandbox_windows", [("enforced", .bool true), ("platform", .str (codePoints "windows"))]),
    ("search_10k", [("catalog_min", .int 10000), ("top3_correct", .bool true)]),
    ("supply_bundle", [("verified", .bool true), ("online_freshness", .bool true)]),
    ("wheel", [("smoke_passed", .bool true), ("wheels_min", .int 1)])]

def fieldsOf (members : List (String × PyValue)) : List (CodePoints × PyValue) :=
  members.map fun member => (codePoints member.1, member.2)

def documentFields (kind : String) (metrics : List (String × PyValue)) : List (CodePoints × PyValue) :=
  fieldsOf [("created_at", .str (codePoints "2026-01-01T00:00:00Z")),
    ("evidence_type", .str (codePoints kind)), ("metrics", .obj (fieldsOf metrics)),
    ("schema", .str (codePoints schema)), ("skipped", .int 0), ("source_revision", .str (zeros 40)),
    ("status", .str (codePoints "passed")), ("subject_digest", .str (zeros 64))]

def document (kind : String) (metrics : List (String × PyValue)) : PyValue := .obj (documentFields kind metrics)

def documents (violations : PyValue) : List PyValue :=
  (metricsOf violations).map fun entry => document entry.1 entry.2

def noFloat (_ : PyFloat) : String := "0.0"

def fileOf (value : PyValue) : Bytes := (value.canonical noFloat).map fun point => UInt8.ofNat point.number

/-- A platform that reads the documents. -/
def reader (violations : PyValue) : Platform where
  loads := fun raw =>
    match (documents violations).find? fun value => fileOf value = raw with
    | some value => .ok value
    | none => .error .invalid
  fromisoformat := fun text =>
    if text = codePoints "2026-01-01T00:00:00+00:00" then some (.utc newYear) else none
  isoformat := fun _ => "2026-01-01T00:00:00"
  floatText := noFloat
  sha256 := id
  hmac := fun _ message => message
  dumpsDepth := 900

def release : Arguments where
  sourceRevision := zeros 40
  subjectDigest := zeros 64
  signingKey := List.replicate 32 0
  keyId := codePoints "k"
  now := newYear
  maxAge := 86400000000

def releaseFiles (violations : PyValue) : List (Option Bytes) :=
  (metricsOf violations).map fun entry => some (fileOf (document entry.1 entry.2))


/-- A document is the one found by its text. -/
theorem find?_fileOf {values : List PyValue} {value : PyValue} (apart : (values.map fileOf).Nodup)
    (member : value ∈ values) : (values.find? fun other => fileOf other = fileOf value) = some value := by
  induction values with
  | nil => cases member
  | cons first rest ih =>
      rw [List.map_cons, List.nodup_cons] at apart
      rcases List.mem_cons.mp member with rfl | later
      · exact List.find?_cons_of_pos (decide_eq_true rfl)
      · have other : ¬fileOf first = fileOf value := fun same =>
          apart.1 (same ▸ List.mem_map_of_mem later)
        rw [List.find?_cons_of_neg (by simpa using other)]
        exact ih apart.2 later

/-- What is read of a document. -/
def evidenceOf (entry : String × List (String × PyValue)) : Evidence where
  evidenceType := codePoints entry.1
  createdAt := newYear
  sourceRevision := zeros 40
  subjectDigest := zeros 64
  status := codePoints "passed"
  skipped := 0
  metrics := fieldsOf entry.2
  fileDigest := hex (fileOf (document entry.1 entry.2))

theorem readEvidence_document {violations : PyValue} {entry : String × List (String × PyValue)}
    (named : codePoints entry.1 ≠ [] ∧ (codePoints entry.1).length ≤ 256) :
    readEvidence (reader violations) (fileOf (document entry.1 entry.2)) (document entry.1 entry.2) =
      some (evidenceOf entry) := by
  have kind : identifier (.str (codePoints entry.1)) = some (codePoints entry.1) := if_pos named
  have time : parseTime (reader violations) (.str (codePoints "2026-01-01T00:00:00Z")) = some newYear := by
    rfl
  have revision : identifier (.str (zeros 40)) = some (zeros 40) := rfl
  have subject : digest (.str (zeros 64)) = some (zeros 64) := by rfl
  have members (kind : String) (metrics : List (String × PyValue)) :
      get (documentFields kind metrics) "schema" = .str (codePoints schema) ∧
      get (documentFields kind metrics) "evidence_type" = .str (codePoints kind) ∧
      get (documentFields kind metrics) "created_at" = .str (codePoints "2026-01-01T00:00:00Z") ∧
      get (documentFields kind metrics) "source_revision" = .str (zeros 40) ∧
      get (documentFields kind metrics) "subject_digest" = .str (zeros 64) ∧
      get (documentFields kind metrics) "status" = .str (codePoints "passed") ∧
      get (documentFields kind metrics) "skipped" = .int 0 ∧
      get (documentFields kind metrics) "metrics" = .obj (fieldsOf metrics) := by
    dsimp only [documentFields, fieldsOf, List.map]
    exact ⟨rfl, rfl, rfl, rfl, rfl, rfl, rfl, rfl⟩
  obtain ⟨schemed, kinded, created, revised, digested, stated, skipped, measured⟩ := members entry.1 entry.2
  rw [document, readEvidence, schemed, kinded, created, revised, digested, stated, skipped, measured, kind, time,
    revision, subject]
  rfl

theorem names_metricsOf (violations : PyValue) : (metricsOf violations).map Prod.fst = requiredEvidence := rfl

theorem load_document {violations : PyValue} (apart : ((documents violations).map fileOf).Nodup)
    {entry : String × List (String × PyValue)} (member : entry ∈ metricsOf violations) :
    load (reader violations) (some (fileOf (document entry.1 entry.2))) = .ok (evidenceOf entry) := by
  have listed : document entry.1 entry.2 ∈ documents violations := by
    rw [documents]
    exact List.mem_map.mpr ⟨entry, member, rfl⟩
  have named : codePoints entry.1 ≠ [] ∧ (codePoints entry.1).length ≤ 256 := by
    have every : ∀ name ∈ requiredEvidence, codePoints name ≠ [] ∧ (codePoints name).length ≤ 256 := by
      decide +kernel
    apply every
    rw [← names_metricsOf violations]
    exact List.mem_map_of_mem member
  have loaded : (reader violations).loads (fileOf (document entry.1 entry.2)) =
      .ok (document entry.1 entry.2) := by
    rw [reader]
    dsimp only
    rw [find?_fileOf apart listed]
  rw [load, loaded]
  dsimp only
  rw [readEvidence_document named]

theorem load_documents (violations : PyValue) (apart : ((documents violations).map fileOf).Nodup) :
    (releaseFiles violations).mapM (load (reader violations)) = .ok ((metricsOf violations).map evidenceOf) := by
  rw [releaseFiles, List.mapM_map]
  apply mapM_of_ok
  intro entry member
  rw [Function.comp_apply]
  exact load_document apart member

/-- Documents whose metrics pass are complete. -/
theorem complete_documents (violations : PyValue) (passing : (metricsOf violations).all (fun entry =>
      (checksOf (codePoints entry.1)).all fun check => metricPasses check (get (fieldsOf entry.2) check.1)) =
        true) : Complete release ((metricsOf violations).map evidenceOf) := by
  have kinds : ((metricsOf violations).map evidenceOf).map Evidence.evidenceType =
      requiredEvidence.map codePoints := by
    rw [← names_metricsOf violations, List.map_map, List.map_map]
    rfl
  constructor
  rotate_left
  · rw [kinds]
  intro item member
  have required : item.evidenceType ∈ requiredEvidence.map codePoints := by
    rw [← kinds]
    exact List.mem_map_of_mem member
  refine ⟨required, ?_, ?_⟩
  all_goals obtain ⟨entry, listed, rfl⟩ := List.mem_map.mp member
  · exact ⟨rfl, .inl rfl, rfl, rfl, Nat.le_add_right _ _, by simp [evidenceOf, release]⟩
  · exact List.all_eq_true.mp (List.all_eq_true.mp passing entry listed)

theorem accepted_release : release.Accepted := by
  constructor <;> decide +kernel

theorem release_early : ¬release.now.Last := by
  rw [Instant.Last]
  decide

/-- Documents with integers for the numbers and truth values for the others are certified. -/
theorem certifies_release : Certifies (reader (.int 0)) release (releaseFiles (.int 0)) := by
  have loaded := load_documents (.int 0) (by decide +kernel)
  apply (certifies_iff _ _ accepted_release (fun _ _ same => same) _).mpr
  constructor
  · intro before file after items _ _ deep
    obtain ⟨raw, _, stopped⟩ := deep
    rw [reader] at stopped
    dsimp only at stopped
    split at stopped <;> cases stopped
  · intro first rest _ last
    exact absurd last release_early
  · intro items loaded' _ item member
    have same := Except.ok.inj (loaded.symm.trans loaded')
    rw [← same] at member
    obtain ⟨entry, listed, rfl⟩ := List.mem_map.mp member
    have scalar : ∀ entry ∈ metricsOf (.int 0), ScalarFields (fieldsOf entry.2) := by
      simp [metricsOf, fieldsOf, ScalarFields, PyValue.Scalar, scalars_codePoints]
    have shallow : ∀ entry ∈ metricsOf (.int 0), (PyValue.obj (fieldsOf entry.2)).depth + 3 ≤ 900 := by
      simp [metricsOf, fieldsOf, PyValue.depth, depthFields]
    have clear : ((metricsOf (.int 0)).all fun entry => (checksOf (codePoints entry.1)).all fun check =>
        !confused check (get (fieldsOf entry.2) check.1)) = true := by decide +kernel
    have deep : (PyValue.obj (evidenceOf entry).metrics).depth + 3 ≤ (reader (.int 0)).dumpsDepth :=
      shallow entry listed
    have plain : ScalarFields (evidenceOf entry).metrics := scalar entry listed
    suffices clear : ∀ check ∈ checksOf (codePoints entry.1),
        confused check (get (fieldsOf entry.2) check.1) = false from ⟨plain, deep, clear⟩
    intro check known
    have fine := List.all_eq_true.mp (List.all_eq_true.mp clear entry listed) check known
    rwa [Bool.not_eq_true'] at fine

/-- The truth value false stands for no violations. -/
theorem not_certifies_truth : ¬Certifies (reader (.bool false)) release (releaseFiles (.bool false)) := by
  intro certifies
  have clean := certifies.clean accepted_release
  have loaded := load_documents (.bool false) (by decide +kernel)
  have complete := complete_documents (.bool false) (by decide +kernel)
  have ruff : ("ruff", [("violations", PyValue.bool false)]) ∈ metricsOf (.bool false) := by simp [metricsOf]
  have checked : checksOf (codePoints "ruff") = [("violations", .int 0)] := by decide +kernel
  have clear := (clean.plain _ loaded complete _ (List.mem_map_of_mem ruff)).2.2 ("violations", .int 0)
    (checked ▸ List.mem_singleton_self _)
  revert clear
  decide +kernel

end CapabilityHub.Certification
