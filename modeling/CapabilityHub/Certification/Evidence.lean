import CapabilityHub.Data.Checks
import CapabilityHub.Data.DecodedJson
import CapabilityHub.Data.Dict

/-! # Release certification

`certify_release` reads one document for each required kind of evidence and signs what they say;
`verify_certification` checks a manifest against its signature.
-/

namespace CapabilityHub.Certification

/-- What a statement may raise. -/
inductive Fault where
  | certification (code : String)
  | valueError
  | typeError
  | overflowError
  | unicodeError
  | recursionError
  deriving DecidableEq

/-- A `datetime` in UTC, in microseconds since `datetime.min`. -/
structure Instant where
  microseconds : Nat
  bounded : microseconds < 315537897600000000

/-- What `datetime.fromisoformat` makes of a text that ends in `+00:00`. -/
inductive Moment where
  | naive
  | utc (instant : Instant)

inductive LoadsError where
  | invalid
  | recursion

/-- What is used of the standard library. -/
structure Platform where
  loads : Bytes → Except LoadsError PyValue
  fromisoformat : CodePoints → Option Moment
  /-- `isoformat(timespec="seconds")`, up to the offset. -/
  isoformat : Instant → String
  floatText : PyFloat → String
  sha256 : Bytes → Bytes
  hmac : Bytes → Bytes → Bytes
  /-- The containers that `json.dumps` goes into before the interpreter stops it. -/
  dumpsDepth : Nat

structure Evidence where
  evidenceType : CodePoints
  createdAt : Instant
  sourceRevision : CodePoints
  subjectDigest : CodePoints
  status : CodePoints
  skipped : Nat
  metrics : List (CodePoints × PyValue)
  fileDigest : String

structure CertificationResult where
  manifest : List (CodePoints × PyValue)
  signature : List (CodePoints × PyValue)

/-- The arguments of `certify_release` but the files. -/
structure Arguments where
  sourceRevision : CodePoints
  subjectDigest : CodePoints
  signingKey : Bytes
  keyId : CodePoints
  now : Instant
  /-- In microseconds. -/
  maxAge : Int

/-- `SCHEMA` -/
def schema : String := "capabilityhub.release-evidence.v1"

/-- `MANIFEST_SCHEMA` -/
def manifestSchema : String := "capabilityhub.release-certification.v1"

/-- `SIGNATURE_SCHEMA` -/
def signatureSchema : String := "capabilityhub.release-signature.v1"

/-- `REQUIRED_EVIDENCE` -/
def requiredEvidence : List String :=
  ["adversarial", "browser", "docs_traceability", "full_pytest", "matrix_36", "model_live", "mypy",
    "rag_1m", "ruff", "sandbox_linux", "sandbox_windows", "search_10k", "supply_bundle", "wheel"]

/-- A value that a metric is compared with. -/
inductive Expected where
  | bool (value : Bool)
  | int (value : Int)
  | text (value : String)
  deriving DecidableEq

/-- The checks of each kind of evidence. -/
def checks : List (String × List (String × Expected)) :=
  [("adversarial", [("passed", .bool true), ("external_provider_cases_min", .int 1)]),
    ("browser", [("passed", .bool true), ("assertions_min", .int 1)]),
    ("docs_traceability", [("passed", .bool true), ("claims_min", .int 36)]),
    ("full_pytest", [("failures", .int 0), ("passed_min", .int 1), ("unexpected_skips", .int 0)]),
    ("matrix_36", [("implemented", .int 36), ("partial", .int 0), ("total", .int 36)]),
    ("model_live",
      [("live", .bool true), ("provider_reported_tokens", .bool true), ("trials_min", .int 30)]),
    ("mypy", [("errors", .int 0)]),
    ("rag_1m", [("chunks_min", .int 1000000), ("production_index", .bool true)]),
    ("ruff", [("violations", .int 0)]),
    ("sandbox_linux", [("enforced", .bool true), ("platform", .text "linux")]),
    ("sandbox_windows", [("enforced", .bool true), ("platform", .text "windows")]),
    ("search_10k", [("catalog_min", .int 10000), ("top3_correct", .bool true)]),
    ("supply_bundle", [("verified", .bool true), ("online_freshness", .bool true)]),
    ("wheel", [("smoke_passed", .bool true), ("wheels_min", .int 1)])]

/-! ## Reading a document -/

/-- `fields.get(key)` -/
def get (fields : List (CodePoints × PyValue)) (key : String) : PyValue :=
  (fields.lookup (codePoints key)).getD .null

/-- A text of so many lower hexadecimal digits. -/
def IsHex (length : Nat) (text : CodePoints) : Prop :=
  text.length = length ∧ ∀ point ∈ text, point ∈ codePoints "0123456789abcdef"

instance (length : Nat) (text : CodePoints) : Decidable (IsHex length text) :=
  inferInstanceAs (Decidable (_ ∧ _))

/-- `_identifier`. -/
def identifier : PyValue → Option CodePoints
  | .str text => if text ≠ [] ∧ text.length ≤ 256 then some text else none
  | _ => none

/-- `_digest`. -/
def digest : PyValue → Option CodePoints
  | .str text => if IsHex 64 text then some text else none
  | _ => none

/-- `_natural`. -/
def natural : PyValue → Option Nat
  | .int value => if 0 ≤ value then some value.toNat else none
  | _ => none

/-- `value == number`: `True` and `False` are the numbers one and zero. -/
def equalsNumber (number : Int) : PyValue → Bool
  | .bool value => (if value then 1 else 0) = number
  | .int value => value = number
  | .float value => value.equals number
  | _ => false

def equalsText (text : String) : PyValue → Bool
  | .str value => value = codePoints text
  | _ => false

section Platform

variable (platform : Platform)

/-- `_parse_time`. -/
def parseTime : PyValue → Option Instant
  | .str text =>
      if text.getLast? = some (.scalar 'Z') then
        match platform.fromisoformat (text.dropLast ++ codePoints "+00:00") with
        | some (.utc instant) => some instant
        | _ => none
      else none
  | _ => none

/-- The fields of a document; `none` where reading them raises. -/
def readEvidence (raw : Bytes) : PyValue → Option Evidence
  | .obj fields => do
      guard (equalsText schema (get fields "schema") = true)
      let evidenceType ← identifier (get fields "evidence_type")
      let createdAt ← parseTime platform (get fields "created_at")
      let sourceRevision ← identifier (get fields "source_revision")
      let subjectDigest ← digest (get fields "subject_digest")
      let status ← identifier (get fields "status")
      let skipped ← natural (get fields "skipped")
      match get fields "metrics" with
      | .obj metrics =>
          some {
            evidenceType := evidenceType
            createdAt := createdAt
            sourceRevision := sourceRevision
            subjectDigest := subjectDigest
            status := status
            skipped := skipped
            metrics := metrics
            fileDigest := hex (platform.sha256 raw) }
      | _ => none
  | _ => none

/-- `_load`. A file that cannot be read is `none`. -/
def load (file : Option Bytes) : Except Fault Evidence :=
  match file with
  | none => .error (.certification "release_evidence_invalid")
  | some raw =>
      match platform.loads raw with
      | .error .recursion => .error .recursionError
      | .error .invalid => .error (.certification "release_evidence_invalid")
      | .ok value =>
          match readEvidence platform raw value with
          | none => .error (.certification "release_evidence_invalid")
          | some evidence => .ok evidence

end Platform

/-! ## Checks -/

section Checks

variable (arguments : Arguments)

/-- Five minutes, in microseconds. -/
def skew : Nat := 300000000

/-- `now + timedelta(minutes=5)`. -/
def Instant.later (now : Instant) : Except Fault Instant :=
  if bounded : now.microseconds + skew < 315537897600000000 then .ok ⟨now.microseconds + skew, bounded⟩
  else .error .overflowError

/-- `_validate_common`. -/
def validateCommon (evidence : Evidence) : Except Fault Unit := do
  raiseIf (evidence.status ≠ codePoints "passed") (.certification "release_evidence_not_passed")
  raiseIf (evidence.skipped ≠ 0 ∧ evidence.evidenceType ≠ codePoints "full_pytest")
    (.certification "release_evidence_skipped")
  raiseIf (evidence.sourceRevision ≠ arguments.sourceRevision ∨
    evidence.subjectDigest ≠ arguments.subjectDigest) (.certification "release_evidence_source_mismatch")
  let latest ← arguments.now.later
  raiseIf (latest.microseconds < evidence.createdAt.microseconds)
    (.certification "release_evidence_from_future")
  raiseIf (arguments.maxAge < (arguments.now.microseconds : Int) - evidence.createdAt.microseconds)
    (.certification "release_evidence_stale")

/-- `key.endswith("_min")` -/
def isMinimum (key : String) : Bool := "_min".toList.isSuffixOf key.toList

/-- One round of `_validate_specific`: the values under the keys of minima are integers. -/
def metricPasses (check : String × Expected) (actual : PyValue) : Bool :=
  match check.2 with
  | .int expected =>
      if isMinimum check.1 then
        match actual with
        | .int actual => expected ≤ actual
        | _ => false
      else equalsNumber expected actual
  | .bool expected => equalsNumber (if expected then 1 else 0) actual
  | .text expected => equalsText expected actual

/-- `checks[name]` -/
def checksOf (evidenceType : CodePoints) : List (String × Expected) :=
  ((checks.find? fun entry => codePoints entry.1 = evidenceType).map Prod.snd).getD []

/-- `_validate_specific`. -/
def validateSpecific (evidence : Evidence) : Except Fault Unit :=
  (checksOf evidence.evidenceType).forM fun check =>
    raiseIf (metricPasses check (get evidence.metrics check.1) = false)
      (.certification "release_evidence_metric_failed")

/-- One round of the loop over the evidence. -/
def addEvidence (byType : Dict CodePoints Evidence) (item : Evidence) :
    Except Fault (Dict CodePoints Evidence) := do
  raiseIf (item.evidenceType ∉ requiredEvidence.map codePoints) (.certification "release_evidence_unexpected")
  raiseIf (item.evidenceType ∈ byType.keys) (.certification "release_evidence_duplicate")
  validateCommon arguments item
  validateSpecific item
  pure (byType.set item.evidenceType item)

/-- The arguments that are accepted. -/
structure Arguments.Accepted : Prop where
  aged : 0 < arguments.maxAge
  keyed : 32 ≤ arguments.signingKey.length
  revised : IsHex 40 arguments.sourceRevision
  digested : IsHex 64 arguments.subjectDigest
  named : arguments.keyId ≠ [] ∧ arguments.keyId.length ≤ 256

end Checks

/-! ## Certification -/

section Certification

variable (platform : Platform) (arguments : Arguments)

/-- `_timestamp`. -/
def timestamp (instant : Instant) : CodePoints := codePoints (platform.isoformat instant ++ "Z")

/-- The entry of the manifest for one document. -/
def record (name : String) (item : Evidence) : PyValue :=
  .obj [(codePoints "created_at", .str (timestamp platform item.createdAt)),
    (codePoints "evidence_type", .str (codePoints name)),
    (codePoints "file_sha256", .str (codePoints item.fileDigest)),
    (codePoints "metrics", .obj item.metrics)]

/-- The entries, of documents for all the names. -/
def records (byType : Dict CodePoints Evidence) : List PyValue :=
  requiredEvidence.filterMap fun name => (byType.get? (codePoints name)).map (record platform name)

def manifestOf (byType : Dict CodePoints Evidence) : List (CodePoints × PyValue) :=
  [(codePoints "certified_at", .str (timestamp platform arguments.now)),
    (codePoints "evidence", .arr (records platform byType)),
    (codePoints "evidence_count", .int (records platform byType).length),
    (codePoints "schema", .str (codePoints manifestSchema)),
    (codePoints "source_revision", .str arguments.sourceRevision),
    (codePoints "subject_digest", .str arguments.subjectDigest)]

/-- `canonical_json(manifest).encode("utf-8")`. -/
def manifestBytes (manifest : List (CodePoints × PyValue)) : Except Fault Bytes :=
  if platform.dumpsDepth < (PyValue.obj manifest).depth then .error .recursionError
  else
    match encode ((PyValue.obj manifest).canonical platform.floatText) with
    | none => .error .unicodeError
    | some bytes => .ok bytes

/-- The MAC of a manifest, in hexadecimal digits. -/
def tag (signingKey bytes : Bytes) : String :=
  hex (platform.hmac signingKey (encodeUtf8 "capabilityhub-release-certification-v1\x00" ++ bytes))

def signatureOf (bytes : Bytes) : List (CodePoints × PyValue) :=
  [(codePoints "algorithm", .str (codePoints "hmac-sha256")),
    (codePoints "key_id", .str arguments.keyId),
    (codePoints "manifest_sha256", .str (codePoints (hex (platform.sha256 bytes)))),
    (codePoints "schema", .str (codePoints signatureSchema)),
    (codePoints "signature", .str (codePoints (tag platform arguments.signingKey bytes)))]

/-- `certify_release`, from the documents that are read. -/
def certifyItems (evidence : List Evidence) : Except Fault CertificationResult := do
  let byType ← evidence.foldlM (addEvidence arguments) ∅
  raiseIf (¬(byType.keys ⊆ requiredEvidence.map codePoints ∧
    requiredEvidence.map codePoints ⊆ byType.keys)) (.certification "release_evidence_missing")
  let bytes ← manifestBytes platform (manifestOf platform arguments byType)
  pure ⟨manifestOf platform arguments byType, signatureOf platform arguments bytes⟩

/-- `certify_release`. -/
def certifyRelease (files : List (Option Bytes)) : Except Fault CertificationResult := do
  raiseIf (arguments.maxAge ≤ 0) .valueError
  raiseIf (arguments.signingKey.length < 32) .valueError
  raiseIf (¬IsHex 40 arguments.sourceRevision) .typeError
  raiseIf (¬IsHex 64 arguments.subjectDigest) .typeError
  raiseIf (arguments.keyId = [] ∨ 256 < arguments.keyId.length) .typeError
  let evidence ← files.mapM (load platform)
  certifyItems platform arguments evidence

/-- `hmac.compare_digest` with a text that is given. -/
def compareDigest (expected : String) (supplied : CodePoints) : Except Fault Bool :=
  if supplied.all fun point => point.number < 128 then .ok (supplied = codePoints expected)
  else .error .typeError

/-- Whether the member of a signature is the digest that is expected. -/
def suppliedMatches (expected : String) : PyValue → Except Fault Bool
  | .str supplied => compareDigest expected supplied
  | _ => .ok false

/-- `verify_certification`. -/
def verifyCertification (manifest signature : List (CodePoints × PyValue)) (signingKey : Bytes) :
    Except Fault Unit := do
  raiseIf (equalsText manifestSchema (get manifest "schema") = false)
    (.certification "release_manifest_invalid")
  raiseIf (equalsText signatureSchema (get signature "schema") = false)
    (.certification "release_signature_invalid")
  let bytes ← manifestBytes platform manifest
  let digested ← suppliedMatches (hex (platform.sha256 bytes)) (get signature "manifest_sha256")
  raiseIf (digested = false) (.certification "release_signature_invalid")
  let signed ← suppliedMatches (tag platform signingKey bytes) (get signature "signature")
  raiseIf (signed = false) (.certification "release_signature_invalid")

end Certification

end CapabilityHub.Certification
