import CapabilityHub.Service.Loading
import CapabilityHub.Service.Settlement

/-! # References that are refused

Whatever text is given as a reference, `verify` gives claims or raises an `InvalidReference`, unless it has to
encode a text that is not ASCII, or to compare one (`CapabilityHub.References.verify_closed_iff`). A call that
is given such a reference ends accordingly (`CapabilityHub.Service.refusal_closed_iff`).
-/

namespace CapabilityHub

namespace References

/-- What is raised is an `InvalidReference`. -/
def FailsClosed {α : Type} (found : Except Raised α) : Prop :=
  ∀ error, found = .error error → IsInvalidReference error

/-- At this time the claims are neither expired nor dated ahead. -/
def ReferenceClaims.Current (claims : ReferenceClaims) (timestamp : Int) : Prop :=
  timestamp < claims.expiresAt ∧ claims.issuedAt ≤ timestamp + 60

/-- The comparisons that are made are of ASCII texts. -/
def Comparable (claims : ReferenceClaims) (expectedScope : String) (expectedRevision : Option String)
    (expectedPurpose : String) : Prop :=
  (isAscii claims.scope ∧ isAscii expectedScope) ∧ (claims.scope = expectedScope →
    (isAscii claims.purpose ∧ isAscii expectedPurpose) ∧ (claims.purpose = expectedPurpose →
      ∀ revision, expectedRevision = some revision → isAscii claims.revision ∧ isAscii revision))

/-- The three parts of a reference. -/
def Parts (reference encoded signed : String) : Prop :=
  (reference.toList.splitOn '.').map String.ofList = ["chref1", encoded, signed]

/-- The payload of a reference with a signature is ASCII, and what an authentic reference says can be
compared. -/
structure Intelligible (mac : Bytes → Bytes) (reference expectedScope : String) (expectedRevision : Option String)
    (expectedPurpose : String) (now : ℚ) : Prop where
  ascii : ∀ encoded signed bytes, Parts reference encoded signed → decode signed = .ok bytes →
    isAscii encoded = true
  comparable : ∀ encoded signed claims, Parts reference encoded signed →
    decode signed = .ok (mac (domain ++ encodeUtf8 encoded)) →
    (decode encoded >>= parseClaims) = .ok claims → claims.Current (truncate now) →
    Comparable claims expectedScope expectedRevision expectedPurpose

variable {α : Type} {mac : Bytes → Bytes} {reference expectedScope expectedPurpose : String}
  {expectedRevision : Option String} {now : ℚ} {claims : ReferenceClaims} {timestamp : Int}

theorem isInvalidReference (code : String) : IsInvalidReference (invalidReference code) := .inr ⟨code, rfl⟩

theorem isInvalidReference_expired : IsInvalidReference expiredReference := .inl rfl

theorem not_isInvalidReference {error : Raised} (foreign : ∀ hub, error ≠ .hub hub) :
    ¬IsInvalidReference error := by
  rintro (expired | ⟨code, invalid⟩)
  · exact foreign _ expired
  · exact foreign _ invalid

theorem failsClosed_ok {value : α} : FailsClosed (.ok value) := by
  intro error failed
  cases failed

theorem failsClosed_error {error : Raised} :
    FailsClosed (.error error : Except Raised α) ↔ IsInvalidReference error := by
  constructor
  · intro closed
    exact closed error rfl
  · rintro invalid _ ⟨⟩
    exact invalid

/-- A check that raises an `InvalidReference`. -/
theorem failsClosed_raiseIf {condition : Prop} [Decidable condition] {error : Raised}
    {next : Unit → Except Raised α} (invalid : IsInvalidReference error) :
    FailsClosed (raiseIf condition error >>= next) ↔ (¬condition → FailsClosed (next ())) := by
  by_cases holds : condition
  · rw [raiseIf, if_pos holds, error_bind, failsClosed_error]
    exact iff_of_true invalid fun absent => absurd holds absent
  · rw [raiseIf, if_neg holds, ok_bind]
    exact (imp_iff_right holds).symm

/-- A comparison, and what follows where the texts are the same. -/
theorem failsClosed_compareDigest {first second code : String} {next : Except Raised α} :
    FailsClosed (do
      let same ← compareDigest first second
      raiseIf (¬same) (invalidReference code)
      next) ↔
      (isAscii first ∧ isAscii second) ∧ (first = second → FailsClosed next) := by
  rcases @compareDigest_eq first second with ⟨raised, apart⟩ | ⟨compared, ascii⟩
  · rw [raised, error_bind, failsClosed_error]
    refine iff_of_false (not_isInvalidReference fun hub typed => ?_) fun both => apart both.1
    cases typed
  · rw [compared, ok_bind, failsClosed_raiseIf (isInvalidReference code), not_not, beq_iff_eq]
    exact (and_iff_right ascii).symm

theorem checkClaims_closed_iff :
    FailsClosed (checkClaims claims expectedScope expectedRevision expectedPurpose timestamp) ↔
      (claims.Current timestamp → Comparable claims expectedScope expectedRevision expectedPurpose) := by
  unfold checkClaims
  rw [failsClosed_raiseIf isInvalidReference_expired, failsClosed_raiseIf (isInvalidReference _),
    failsClosed_compareDigest, failsClosed_compareDigest, ReferenceClaims.Current, and_imp, Comparable,
    Int.not_le, Int.not_lt]
  refine imp_congr_right fun _ => imp_congr_right fun _ => and_congr_right fun _ => imp_congr_right fun _ =>
    and_congr_right fun _ => imp_congr_right fun _ => ?_
  cases expectedRevision with
  | none =>
      refine iff_of_true failsClosed_ok fun revision expected => ?_
      cases expected
  | some revision =>
      simp only [failsClosed_compareDigest, Option.some.injEq, forall_eq']
      exact and_iff_left fun _ => failsClosed_ok

theorem parseClaims_closed (serialized : Bytes) : FailsClosed (parseClaims serialized) := by
  have invalid := isInvalidReference "invalid_reference"
  rw [parseClaims]
  split
  · rw [failsClosed_raiseIf invalid]
    intro _
    rw [failsClosed_raiseIf invalid]
    intro _
    split
    · rw [failsClosed_raiseIf invalid]
      intro _
      rw [failsClosed_raiseIf invalid]
      exact fun _ => failsClosed_ok
    · exact failsClosed_error.mpr invalid
  · exact failsClosed_error.mpr invalid

theorem decode_error {value : String} {error : Raised} (failed : decode value = .error error) :
    error = invalidReference "invalid_reference" := by
  rw [decode] at failed
  split at failed
  · cases failed
  · exact (Except.error.inj failed).symm

/-- What follows the signature. -/
theorem verified_closed_iff {encoded : String} :
    FailsClosed (do
      let serialized ← decode encoded
      let claims ← parseClaims serialized
      checkClaims claims expectedScope expectedRevision expectedPurpose timestamp) ↔
      ∀ claims, (decode encoded >>= parseClaims) = .ok claims → claims.Current timestamp →
        Comparable claims expectedScope expectedRevision expectedPurpose := by
  cases decoded : decode encoded with
  | error error =>
      rw [error_bind, error_bind, failsClosed_error, decode_error decoded]
      refine iff_of_true (isInvalidReference _) fun claims read => ?_
      cases read
  | ok serialized =>
      rw [ok_bind, ok_bind]
      cases parsed : parseClaims serialized with
      | error error =>
          rw [error_bind, failsClosed_error]
          refine iff_of_true (parseClaims_closed serialized error parsed) fun claims read => ?_
          cases read
      | ok claims =>
          rw [ok_bind, checkClaims_closed_iff]
          constructor
          · rintro comparable _ ⟨⟩
            exact comparable
          · exact fun each => each claims rfl

/-- What is verified of a reference of three parts. -/
theorem signed_closed_iff {encoded signed : String} :
    FailsClosed (do
      let supplied ← decode signed
      let expected ← signature mac encoded
      raiseIf (supplied ≠ expected) (invalidReference "reference_tampered")
      let serialized ← decode encoded
      let claims ← parseClaims serialized
      checkClaims claims expectedScope expectedRevision expectedPurpose timestamp) ↔
      ∀ bytes, decode signed = .ok bytes → isAscii encoded = true ∧
        (bytes = mac (domain ++ encodeUtf8 encoded) → ∀ claims,
          (decode encoded >>= parseClaims) = .ok claims → claims.Current timestamp →
            Comparable claims expectedScope expectedRevision expectedPurpose) := by
  cases decoded : decode signed with
  | error error =>
      rw [error_bind, failsClosed_error, decode_error decoded]
      refine iff_of_true (isInvalidReference _) fun bytes read => ?_
      cases read
  | ok supplied =>
      rw [ok_bind, signature]
      by_cases ascii : isAscii encoded = true
      · rw [if_pos ascii, ok_bind, failsClosed_raiseIf (isInvalidReference _), not_not,
          verified_closed_iff]
        constructor
        · rintro closed _ ⟨⟩
          exact ⟨ascii, closed⟩
        · exact fun each => (each supplied rfl).2
      · rw [if_neg ascii, error_bind, failsClosed_error]
        refine iff_of_false (not_isInvalidReference fun hub encoding => ?_) fun each =>
          ascii (each supplied rfl).1
        cases encoding

/-- Intelligibility of a reference of three parts. -/
theorem intelligible_iff {encoded signed : String} (parts : Parts reference encoded signed) :
    (∀ bytes, decode signed = .ok bytes → isAscii encoded = true ∧
        (bytes = mac (domain ++ encodeUtf8 encoded) → ∀ claims,
          (decode encoded >>= parseClaims) = .ok claims → claims.Current (truncate now) →
            Comparable claims expectedScope expectedRevision expectedPurpose)) ↔
      Intelligible mac reference expectedScope expectedRevision expectedPurpose now := by
  have unique {encoded' signed' : String} (other : Parts reference encoded' signed') :
      encoded' = encoded ∧ signed' = signed := by
    have same := parts.symm.trans other
    simp only [List.cons.injEq, and_true, true_and] at same
    exact ⟨same.1.symm, same.2.symm⟩
  constructor
  · intro each
    constructor
    · intro encoded' signed' bytes other decoded
      obtain ⟨rfl, rfl⟩ := unique other
      exact (each bytes decoded).1
    · intro encoded' signed' claims other decoded
      obtain ⟨rfl, rfl⟩ := unique other
      exact (each _ decoded).2 rfl claims
  · intro intelligible bytes decoded
    refine ⟨intelligible.ascii encoded signed bytes parts decoded, ?_⟩
    rintro rfl claims
    exact intelligible.comparable encoded signed claims parts decoded

/-- **Malformed references fail closed.** What `verify` raises is an `InvalidReference` exactly for intelligible
references. -/
theorem verify_closed_iff (scopeGiven : expectedScope ≠ "") (purposeGiven : expectedPurpose ≠ "") :
    FailsClosed (verify mac reference expectedScope expectedRevision expectedPurpose now) ↔
      Intelligible mac reference expectedScope expectedRevision expectedPurpose now := by
  have invalid := isInvalidReference "invalid_reference"
  have owned : raiseIf (expectedScope = "") Raised.valueError = .ok () := raiseIf_eq_ok.mpr scopeGiven
  have meant : raiseIf (expectedPurpose = "") Raised.valueError = .ok () := raiseIf_eq_ok.mpr purposeGiven
  rw [verify, owned, meant, ok_bind, ok_bind]
  split
  next start encoded signed parts =>
    rw [failsClosed_raiseIf invalid, not_not]
    by_cases prefixed : start = "chref1"
    · subst prefixed
      rw [imp_iff_right rfl, signed_closed_iff]
      exact intelligible_iff parts
    · refine iff_of_true (fun same => absurd same prefixed) ⟨fun _ _ _ other => ?_, fun _ _ _ other => ?_⟩
      · exact absurd (List.cons.inj (parts.symm.trans other)).1 prefixed
      · exact absurd (List.cons.inj (parts.symm.trans other)).1 prefixed
  next other =>
    refine iff_of_true (failsClosed_error.mpr invalid) ⟨fun _ _ _ parts => ?_, fun _ _ _ parts => ?_⟩
    · exact absurd parts (other _ _ _)
    · exact absurd parts (other _ _ _)

/-- If it is an error of the hub, it is an `InvalidReference`. -/
def Mild (raised : Raised) : Prop := ∀ error, raised = .hub error → IsInvalidReference raised

theorem mild_of_invalid {raised : Raised} (invalid : IsInvalidReference raised) : Mild raised := fun _ _ => invalid

theorem mild_compareDigest {first second : String} :
    ∀ error, compareDigest first second = .error error → Mild error := by
  intro error failed
  rcases @compareDigest_eq first second with ⟨raised, _⟩ | ⟨compared, _⟩
  · obtain rfl := Except.error.inj (raised.symm.trans failed)
    rintro _ ⟨⟩
  · cases compared.symm.trans failed

theorem mild_checkClaims :
    ∀ error, checkClaims claims expectedScope expectedRevision expectedPurpose timestamp = .error error →
      Mild error := by
  have mismatch (code : String) : Mild (invalidReference code) := mild_of_invalid (isInvalidReference code)
  unfold checkClaims
  refine raises_bind (raises_raiseIf (mild_of_invalid isInvalidReference_expired)) fun _ => ?_
  refine raises_bind (raises_raiseIf (mismatch _)) fun _ => ?_
  refine raises_bind mild_compareDigest fun _ => raises_bind (raises_raiseIf (mismatch _)) fun _ => ?_
  refine raises_bind mild_compareDigest fun _ => raises_bind (raises_raiseIf (mismatch _)) fun _ => ?_
  split
  · intro error failed
    cases failed
  · refine raises_bind mild_compareDigest fun _ => raises_bind (raises_raiseIf (mismatch _)) fun _ => ?_
    intro error failed
    cases failed

/-- An error of the hub that `verify` raises is an `InvalidReference`. -/
theorem mild_verify : ∀ error,
    verify mac reference expectedScope expectedRevision expectedPurpose now = .error error → Mild error := by
  have value : Mild .valueError := by
    rintro _ ⟨⟩
  have mismatch (code : String) : Mild (invalidReference code) := mild_of_invalid (isInvalidReference code)
  have decoded {text : String} : ∀ error, decode text = .error error → Mild error :=
    fun error failed => decode_error failed ▸ mismatch _
  have signed {encoded : String} : ∀ error, signature mac encoded = .error error → Mild error := by
    intro error failed
    rw [signature] at failed
    split at failed
    · cases failed
    · cases failed
      rintro _ ⟨⟩
  rw [verify]
  refine raises_bind (raises_raiseIf value) fun _ => raises_bind (raises_raiseIf value) fun _ => ?_
  split
  · refine raises_bind (raises_raiseIf (mismatch _)) fun _ => raises_bind decoded fun _ => ?_
    refine raises_bind signed fun _ => raises_bind (raises_raiseIf (mismatch _)) fun _ => ?_
    refine raises_bind decoded fun serialized => raises_bind (fun error failed => ?_) fun _ => mild_checkClaims
    exact mild_of_invalid (parseClaims_closed serialized error failed)
  · rintro error failed
    exact Except.error.inj failed ▸ mismatch _

end References

namespace Service

open References (Intelligible FailsClosed)

/-! ## Calls -/

/-- The error that the two `except` of `execute` raise. -/
def executionError : Raised → CapabilityHubError
  | .hub error => error
  | _ => { code := "provider_unhandled_error", category := .provider,
           safeMessage := "The provider failed without a safe structured error." }

/-- `execute` ends with an exception, which is always noted. -/
def failExecution {σ α : Type} (taskId : String) (revision : Option String) (raised : Raised) (ledger : σ) :
    CallOutcome σ α where
  result := .error (.hub (executionError raised))
  ledger := ledger
  events := [failureEvent taskId "execute" revision (executionError raised)]

section

variable (sha256 mac : Bytes → Bytes) (validates : List (String × Json) → Json → Bool)
  (service : CapabilityHubService) (context : ServiceContext) (request : ExecutionRequest)
  (maxOutputTokens : Option Int)

/-- The manifest that an execution is about. -/
def executionTarget (executionAt : ℚ) : Except Raised CapabilityManifest := do
  positiveBudget (maxOutputTokens.getD context.maxOutputTokens)
  let claims ← References.verify mac request.executionRef context.referenceScope none "execution" executionAt
  service.activeManifest claims.revision

/-- What an execution is left with inside its `try` after its checks, with what the settling of its
reservation gives. -/
def finishExecution (checked : Checked) (steps : ExecutionSteps) (reconciled : Except Raised Unit) :
    Except Raised Finished := do
  match ← steps.admission with
  | some result => pure (.replayed result)
  | none => do
      let result ← settleResult validates checked request steps.answer reconciled
      steps.completed
      pure (.executed result)

/-- The event of an execution that has given a result. -/
def executionEvent (revision : String) : Finished → Event
  | .replayed result => {
      taskId := request.taskId, eventType := "execute", capabilityRevision := some revision
      outcome := "success", portableTokens := result.portableTokens.toNat
      reasonCodes := ["idempotent_replay"]
      metadata := [("operation", .str result.operation), ("provider", .str result.provider)] }
  | .executed result => {
      taskId := request.taskId, eventType := "execute", capabilityRevision := some revision
      outcome := "success", portableTokens := result.portableTokens.toNat
      metadata := [("operation", .str result.operation), ("provider", .str result.provider)] }

def Finished.result : Finished → ExecutionResult
  | .replayed result => result
  | .executed result => result

/-- `execute`, as its caller and the audit sink see it. The ledger gives `reserved` and `reconciled`, which
leave it as `ledger`. -/
def CapabilityHubService.execute {σ : Type} (grants : Dict (Nat × String) ExecutionGrant)
    (steps : ExecutionSteps) (reserved reconciled : Except Raised Unit) (ledger : σ) :
    CallOutcome σ ExecutionResult :=
  match executionTarget mac service context request maxOutputTokens steps.executionAt with
  | .error raised => failExecution request.taskId none raised ledger
  | .ok manifest =>
      let finished := do
        let checked ← checkExecution sha256 mac validates service grants request context maxOutputTokens
          steps.executionAt steps.approvalAt reserved
        finishExecution validates request checked steps reconciled
      match finished with
      | .error raised => failExecution request.taskId (some manifest.identity.revision) raised ledger
      | .ok finished => {
          result := .ok finished.result
          ledger := ledger
          events := [executionEvent request manifest.identity.revision finished] }

end

/-- A call is refused with an error about its reference, which is noted. -/
def Refused {σ α : Type} (failed : CapabilityHubError → Event) (outcome : CallOutcome σ α) : Prop :=
  ∃ error, outcome.result = .error (.hub error) ∧ error.category = .reference ∧ outcome.events = [failed error]

variable {mac : Bytes → Bytes} {reference expectedScope expectedPurpose : String} {now : ℚ}
  {σ α : Type} {raised : Raised}

theorem category_of_invalid {error : CapabilityHubError}
    (invalid : References.IsInvalidReference (.hub error)) : error.category = .reference := by
  rcases invalid with expired | ⟨code, other⟩
  · obtain rfl := Raised.hub.inj expired
    rfl
  · obtain rfl := Raised.hub.inj other
    rfl

/-- The outcome of a load whose reference does not verify. -/
theorem refused_load_iff {sha256 : Bytes → Bytes} {service : CapabilityHubService} {context : ServiceContext}
    {call : LoadCall} {times : LoadTimes} {spend : Budget.RawAmounts → σ → Except Raised Unit × σ} {ledger : σ}
    (guarded : service.guardDependencies .load = .ok ())
    (positive : positiveBudget call.maxOutputTokens = .ok ())
    (failed : References.verify mac call.capabilityRef context.referenceScope none "load" times.verifiedAt =
      .error raised) :
    Refused (failureEvent call.taskId "load" none)
        (service.load sha256 mac context call times spend ledger).toCallOutcome ↔
      References.IsInvalidReference raised := by
  have target : loadTarget mac service context call times = .error raised := by
    rw [loadTarget, guarded, positive, failed]
    rfl
  rw [CapabilityHubService.load, target]
  cases raised with
  | hub error =>
      have invalid := References.mild_verify _ failed error rfl
      exact iff_of_true ⟨error, rfl, category_of_invalid invalid, rfl⟩ invalid
  | _ =>
      refine iff_of_false ?_ (References.not_isInvalidReference fun hub same => ?_)
      · rintro ⟨error, same, _⟩
        cases same
      · cases same

/-- The outcome of an execution whose reference does not verify. -/
theorem refused_execute_iff {sha256 : Bytes → Bytes} {validates : List (String × Json) → Json → Bool}
    {service : CapabilityHubService} {context : ServiceContext} {request : ExecutionRequest}
    {maxOutputTokens : Option Int} {grants : Dict (Nat × String) ExecutionGrant} {steps : ExecutionSteps}
    {reserved reconciled : Except Raised Unit} {ledger : σ}
    (positive : positiveBudget (maxOutputTokens.getD context.maxOutputTokens) = .ok ())
    (failed : References.verify mac request.executionRef context.referenceScope none "execution"
      steps.executionAt = .error raised) :
    Refused (failureEvent request.taskId "execute" none)
        (service.execute sha256 mac validates context request maxOutputTokens grants steps reserved reconciled
          ledger) ↔
      References.IsInvalidReference raised := by
  have target : executionTarget mac service context request maxOutputTokens steps.executionAt =
      .error raised := by
    rw [executionTarget, positive, failed]
    rfl
  rw [CapabilityHubService.execute, target]
  cases raised with
  | hub error =>
      have invalid := References.mild_verify _ failed error rfl
      exact iff_of_true ⟨error, rfl, category_of_invalid invalid, rfl⟩ invalid
  | _ =>
      refine iff_of_false ?_ (References.not_isInvalidReference fun hub same => ?_)
      · rintro ⟨error, same, category, _⟩
        cases same
        cases category
      · cases same

theorem intelligible_of_failed {expectedRevision : Option String} (scopeGiven : expectedScope ≠ "")
    (purposeGiven : expectedPurpose ≠ "")
    (failed : References.verify mac reference expectedScope expectedRevision expectedPurpose now =
      .error raised) :
    References.IsInvalidReference raised ↔
      Intelligible mac reference expectedScope expectedRevision expectedPurpose now := by
  rw [← References.verify_closed_iff scopeGiven purposeGiven, failed, References.failsClosed_error]

/-! ## A payload that is not ASCII -/

theorem verify_accented (scopeGiven : expectedScope ≠ "") (purposeGiven : expectedPurpose ≠ "")
    (expectedRevision : Option String) :
    References.verify mac "chref1.é.AAAA" expectedScope expectedRevision expectedPurpose now =
      .error .unicodeError := by
  have parts : ("chref1.é.AAAA".toList.splitOn '.').map String.ofList = ["chref1", "é", "AAAA"] := by
    decide +kernel
  have decoded : References.decode "AAAA" = .ok [0, 0, 0] := by decide +kernel
  have accented : isAscii "é" = false := by decide
  rw [References.verify, raiseIf, if_neg scopeGiven, raiseIf, if_neg purposeGiven, ok_bind, ok_bind, parts]
  dsimp only
  rw [decoded, References.signature, accented]
  rfl

/-- A load of the reference. -/
def accentedLoad : LoadCall where
  capabilityRef := "chref1.é.AAAA"
  taskId := "task"

def accentedRequest : ExecutionRequest where
  executionRef := "chref1.é.AAAA"
  operation := "x"
  arguments := []
  taskId := "task"

def midnight : LoadTimes := ⟨0, fun _ => (0, 0), 0⟩

def idleSteps : ExecutionSteps where
  executionAt := 0
  approvalAt := 0
  admission := .ok none
  replayAudited := .ok ()
  answer := .error .valueError
  completed := .ok ()
  marked := .ok ()
  failureAudited := .ok ()
  audited := .ok ()

/-- **Hostile references.** Whatever the text given as a reference, it is refused with an `InvalidReference`,
and by a load or an execution with an error about the reference that is noted, exactly if it is intelligible. -/
theorem refusal_closed_iff (sha256 mac : Bytes → Bytes) (validates : List (String × Json) → Json → Bool)
    (reference : String) :
    (∀ expectedScope expectedRevision expectedPurpose now, expectedScope ≠ "" → expectedPurpose ≠ "" →
      (FailsClosed (References.verify mac reference expectedScope expectedRevision expectedPurpose now) ↔
        Intelligible mac reference expectedScope expectedRevision expectedPurpose now)) ∧
    (∀ (service : CapabilityHubService) (context : ServiceContext) (call : LoadCall) (times : LoadTimes)
      (σ : Type) (spend : Budget.RawAmounts → σ → Except Raised Unit × σ) (ledger : σ) (raised : Raised),
      call.capabilityRef = reference → service.guardDependencies .load = .ok () →
      positiveBudget call.maxOutputTokens = .ok () →
      References.verify mac reference context.referenceScope none "load" times.verifiedAt = .error raised →
      (Refused (failureEvent call.taskId "load" none)
          (service.load sha256 mac context call times spend ledger).toCallOutcome ↔
        Intelligible mac reference context.referenceScope none "load" times.verifiedAt)) ∧
    ∀ (service : CapabilityHubService) (context : ServiceContext) (request : ExecutionRequest)
      (maxOutputTokens : Option Int) (grants : Dict (Nat × String) ExecutionGrant) (steps : ExecutionSteps)
      (reserved reconciled : Except Raised Unit) (σ : Type) (ledger : σ) (raised : Raised),
      request.executionRef = reference →
      positiveBudget (maxOutputTokens.getD context.maxOutputTokens) = .ok () →
      References.verify mac reference context.referenceScope none "execution" steps.executionAt =
        .error raised →
      (Refused (failureEvent request.taskId "execute" none)
          (service.execute sha256 mac validates context request maxOutputTokens grants steps reserved
            reconciled ledger) ↔
        Intelligible mac reference context.referenceScope none "execution" steps.executionAt) := by
  refine ⟨fun _ _ _ _ scopeGiven purposeGiven => References.verify_closed_iff scopeGiven purposeGiven, ?_, ?_⟩
  · rintro service context call times σ spend ledger raised rfl guarded positive failed
    rw [refused_load_iff guarded positive failed]
    exact intelligible_of_failed (canonicalJson_ne_empty _) (by decide) failed
  · rintro service context request maxOutputTokens grants steps reserved reconciled σ ledger raised rfl
      positive failed
    rw [refused_execute_iff positive failed]
    exact intelligible_of_failed (canonicalJson_ne_empty _) (by decide) failed

theorem refusal_closed_accented :
    (FailsClosed (References.verify id "chref1.é.AAAA" "scope" none "load" 0) ↔
      Intelligible id "chref1.é.AAAA" "scope" none "load" 0) ∧
    (Refused (failureEvent "task" "load" none) (networkCatalog.load (fun _ => []) id offline accentedLoad
        midnight (fun _ spent => (.ok (), spent + 1)) (0 : Nat)).toCallOutcome ↔
      Intelligible id "chref1.é.AAAA" offline.referenceScope none "load" 0) ∧
    (Refused (failureEvent "task" "execute" none) (networkCatalog.execute (fun _ => []) id
        (fun _ _ => true) offline accentedRequest none ∅ idleSteps (.ok ()) (.ok ()) (0 : Nat)) ↔
      Intelligible id "chref1.é.AAAA" offline.referenceScope none "execution" 0) := by
  have closed := refusal_closed_iff (fun _ => []) id (fun _ _ => true) "chref1.é.AAAA"
  have given : offline.referenceScope ≠ "" := canonicalJson_ne_empty _
  refine ⟨closed.1 "scope" none "load" 0 (by decide) (by decide), ?_, ?_⟩
  · exact closed.2.1 networkCatalog offline accentedLoad midnight Nat _ 0 .unicodeError rfl rfl rfl
      (verify_accented given (by decide) none)
  · exact closed.2.2 networkCatalog offline accentedRequest none ∅ idleSteps (.ok ()) (.ok ()) Nat 0
      .unicodeError rfl rfl (verify_accented given (by decide) none)

/-- The load raises another error, and nothing is noted. -/
theorem not_failsClosed_accented :
    ¬FailsClosed (References.verify id "chref1.é.AAAA" "scope" none "load" 0) ∧
      let outcome := networkCatalog.load (fun _ => []) id offline accentedLoad midnight
        (fun _ spent => (.ok (), spent + 1)) (0 : Nat)
      outcome.result = .error .unicodeError ∧ outcome.events = [] := by
  have given : offline.referenceScope ≠ "" := canonicalJson_ne_empty _
  constructor
  · rw [verify_accented (by decide) (by decide), References.failsClosed_error]
    refine References.not_isInvalidReference fun hub same => ?_
    cases same
  · have target : loadTarget id networkCatalog offline accentedLoad midnight = .error .unicodeError := by
      have failed : References.verify id accentedLoad.capabilityRef offline.referenceScope none "load"
          midnight.verifiedAt = .error .unicodeError := verify_accented given (by decide) none
      rw [loadTarget, failed]
      rfl
    rw [CapabilityHubService.load, target]
    exact ⟨rfl, rfl⟩

end Service

end CapabilityHub
