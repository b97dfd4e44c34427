import CapabilityHub.Registry.Activation
import CapabilityHub.Service.Progress

/-! # Approvals

In every run in which references cannot be forged, a call of `execute` that needs an approval has
one for its exact intent, as long as the approvals that are presented were issued for the task of
the request (`CapabilityHub.Service.approved_of_forTask`). The scope of an approval leaves the task
out, so an approval for one task passes in another (`CapabilityHub.Service.other_task_invoked`).
-/

namespace CapabilityHub.Service

open References (ReferenceClaims Carries encodedPayload)

variable {sha256 slotHash mac : Bytes → Bytes} {validates : List (String × Json) → Json → Bool}
  {backend : IdempotencyBackend} {system final : System} {call : Call}

/-- The references that an action presents. -/
def Action.presented : Action → List String
  | .load _ capabilityRef .. => [capabilityRef]
  | .execute _ request .. => request.executionRef :: request.approvalRef.toList
  | _ => []

/-- References cannot be forged: one with the right MAC carries the payload of one handed out. -/
def Unforged (mac : Bytes → Bytes) (system : System) (action : Action) : Prop :=
  ∀ reference ∈ action.presented, ∀ encoded, Carries mac reference encoded →
    ∃ claims ∈ system.issued, encodedPayload claims = encoded

/-- The operation of the request requires approval or is a reversible write. -/
def AsksApproval (mac : Bytes → Bytes) (service : CapabilityHubService) (request : ExecutionRequest)
    (context : ServiceContext) (now : ℚ) : Prop :=
  ∃ claims manifest operation,
    References.verify mac request.executionRef context.referenceScope none "execution" now =
      .ok claims ∧
    service.activeManifest claims.revision = .ok manifest ∧
    manifest.operation request.operation = some operation ∧ NeedsApproval operation

/-- An approval that is presented where one is asked for was issued for the task as well. -/
def ForTask (mac : Bytes → Bytes) (system : System) : Action → Prop
  | .execute service request context _ executionAt _ _ =>
      AsksApproval mac service request context executionAt →
        ∀ approvalRef, request.approvalRef = some approvalRef → ∀ approval ∈ system.approvals,
          Carries mac approvalRef (encodedPayload approval.claims) →
            ∃ other ∈ system.approvals, other.claims = approval.claims ∧
              other.taskId = request.taskId
  | _ => True

/-- There is an approval of the exact intent of the call, and it had not expired as the call was
checked. -/
def Approved (system : System) (call : Call) : Prop :=
  ∃ approval ∈ system.approvals,
    approval.revision = call.checked.manifest.identity.revision ∧
    approval.operation = call.request.operation ∧
    canonicalJson (.obj approval.arguments) = canonicalJson (.obj call.request.arguments) ∧
    SameActor approval.context call.context ∧ approval.taskId = call.request.taskId ∧
    truncate call.approvalAt < approval.claims.expiresAt

/-- Every invocation that needs an approval has one. -/
def ApprovedInvocations (system : System) : Prop :=
  ∀ call ∈ system.calls, 0 < call.invocations → NeedsApproval call.checked.operation →
    Approved system call

/-! ## What is issued -/

/-- What the log says of the references that were handed out. -/
structure Logged (sha256 : Bytes → Bytes) (system : System) : Prop where
  valid : ∀ claims ∈ system.issued, claims.Valid
  approval : ∀ claims ∈ system.issued, claims.purpose = "approval" →
    ∃ approval ∈ system.approvals, approval.claims = claims
  bound : ∀ approval ∈ system.approvals, approval.claims.revision = approval.revision ∧
    approval.claims.scope = approvalScope sha256 approval.context approval.operation
      approval.arguments

theorem rehydrationPurpose_ne (kind : OmissionKind) (selector : String) :
    rehydrationPurpose kind selector ≠ "approval" := by
  intro same
  have letters := congrArg String.toList same
  simp [rehydrationPurpose, String.toList_append] at letters

/-- Claims that are valid and approve nothing. -/
def Other (claims : ReferenceClaims) : Prop := claims.Valid ∧ claims.purpose ≠ "approval"

theorem other_of_issueLoad {service : CapabilityHubService} {context : ServiceContext}
    {revision : String} {now : ℚ} {claims : ReferenceClaims}
    (issued : issueLoad mac service context revision now = .ok claims) : Other claims := by
  simp only [issueLoad, bind_eq_ok, pure_eq_ok] at issued
  rcases issued with ⟨manifest, _, reference, given, rfl⟩
  exact ⟨References.valid_of_issue given, by simp [References.issuedClaims]⟩

theorem other_of_issueHandle {service : CapabilityHubService} {context : ServiceContext}
    {revision : String} {target : OmissionKind × String} {times : ℚ × ℚ} {claims : ReferenceClaims}
    (issued : issueHandle sha256 mac service context revision target times = .ok claims) :
    Other claims := by
  simp only [issueHandle, bind_eq_ok, pure_eq_ok] at issued
  rcases issued with ⟨reference, given, _, _, rfl⟩
  exact ⟨References.valid_of_issue given, rehydrationPurpose_ne _ _⟩

theorem other_of_loadCapability {service : CapabilityHubService} {capabilityRef : String}
    {context : ServiceContext} {sectionNames operationNames : Option (List String)}
    {maxOutputTokens : Int} {verifiedAt executionAt : ℚ} {handleTimes : Nat → ℚ × ℚ}
    {delivered : Except Raised Unit} {loaded : Loaded}
    (done : loadCapability sha256 mac service capabilityRef context sectionNames operationNames
      maxOutputTokens verifiedAt executionAt handleTimes delivered = .ok loaded) :
    (∀ claims ∈ loaded.handles, Other claims) ∧
      ∀ execution, loaded.execution = some execution → Other execution.2.2 := by
  simp only [loadCapability, bind_eq_ok, exists_unit] at done
  rcases done with ⟨_, _, _, _, manifest, _, _, _, _, operations, _, handles, made, rest⟩
  have others : ∀ claims ∈ handles, Other claims := by
    intro claims member
    rcases (mem_of_mapM made).mp member with ⟨target, _, issued⟩
    exact other_of_issueHandle issued
  split at rest
  · simp only [bind_eq_ok, exists_unit, pure_eq_ok] at rest
    rcases rest with ⟨_, rfl⟩
    exact ⟨others, by simp⟩
  · simp only [bind_eq_ok, exists_unit, pure_eq_ok] at rest
    rcases rest with ⟨executionRef, issued, _, rfl⟩
    refine ⟨others, ?_⟩
    intro execution same
    cases same
    exact ⟨References.valid_of_issue issued, by simp [References.issuedClaims]⟩

theorem Logged.issue (logged : Logged sha256 system) {claims : List ReferenceClaims}
    (others : ∀ entry ∈ claims, Other entry) (issued : final.issued = system.issued ++ claims)
    (approvals : final.approvals = system.approvals) : Logged sha256 final := by
  constructor
  · intro entry member
    rw [issued, List.mem_append] at member
    exact member.elim (logged.valid entry) fun fresh => (others entry fresh).1
  · intro entry member purpose
    rw [issued, List.mem_append] at member
    rw [approvals]
    exact member.elim (fun known => logged.approval entry known purpose)
      fun fresh => absurd purpose (others entry fresh).2
  · rw [approvals]
    exact logged.bound

/-! ## What a call asks for -/

/-- What a call asks for is the same. -/
def SameIntent (first second : Call) : Prop :=
  first.request = second.request ∧ first.context = second.context ∧
    first.checked = second.checked ∧ first.approvalAt = second.approvalAt

theorem mem_put {index : Nat} {old changed : Call} (found : system.calls[index]? = some old)
    (member : call ∈ (system.put index changed).calls) (same : SameIntent old changed) :
    ∃ old ∈ system.calls, SameIntent old call := by
  rcases List.mem_or_eq_of_mem_set member with known | equal
  · exact ⟨call, known, rfl, rfl, rfl, rfl⟩
  · subst equal
    exact ⟨old, List.mem_of_getElem? found, same⟩

/-- A call asks for the same as it proceeds. -/
theorem intent_of_progress (progress : Progress sha256 slotHash backend system final)
    (member : call ∈ final.calls) : ∃ old ∈ system.calls, SameIntent old call := by
  cases progress with
  | idle => exact ⟨call, member, rfl, rfl, rfl, rfl⟩
  | advanced found _ => exact mem_put found member ⟨rfl, rfl, rfl, rfl⟩
  | invoked found _ => exact mem_put found member ⟨rfl, rfl, rfl, rfl⟩
  | settled found _ _ => exact mem_put found member ⟨rfl, rfl, rfl, rfl⟩
  | reserved found _ _ _ => exact mem_put found member ⟨rfl, rfl, rfl, rfl⟩
  | completed found _ => exact mem_put found member ⟨rfl, rfl, rfl, rfl⟩
  | abandoned found _ => exact mem_put found member ⟨rfl, rfl, rfl, rfl⟩
  | recovered =>
      unfold recoverStep at member
      cases backend <;> exact ⟨call, member, rfl, rfl, rfl, rfl⟩

theorem log_of_progress (progress : Progress sha256 slotHash backend system final) :
    final.issued = system.issued ∧ final.approvals = system.approvals := by
  cases progress with
  | recovered =>
      unfold recoverStep
      cases backend <;> exact ⟨rfl, rfl⟩
  | _ => exact ⟨rfl, rfl⟩

theorem Approved.of_intent {old : Call} (approved : Approved system old) (same : SameIntent old call)
    (grown : system.approvals ⊆ final.approvals) : Approved final call := by
  rcases approved with ⟨approval, member, facts⟩
  rcases same with ⟨request, context, checked, approvalAt⟩
  rw [request, context, checked, approvalAt] at facts
  exact ⟨approval, grown member, facts⟩

/-! ## The checks of an execution -/

/-- What passes the checks and asks for an approval has presented one. -/
theorem checkExecution_eq_ok {service : CapabilityHubService}
    {grants : Dict (Nat × String) ExecutionGrant} {request : ExecutionRequest}
    {context : ServiceContext} {maxOutputTokens : Option Int} {executionAt approvalAt : ℚ}
    {reserved : Except Raised Unit} {checked : Checked}
    (done : checkExecution sha256 mac validates service grants request context maxOutputTokens
      executionAt approvalAt reserved = .ok checked) (needs : NeedsApproval checked.operation) :
    AsksApproval mac service request context executionAt ∧
      ∃ approvalRef claims, request.approvalRef = some approvalRef ∧
        References.verify mac approvalRef
          (approvalScope sha256 context request.operation request.arguments)
          (some checked.manifest.identity.revision) "approval" approvalAt = .ok claims := by
  simp only [checkExecution, bind_eq_ok, exists_unit, raiseIf_eq_ok] at done
  rcases done with ⟨_, claims, verified, manifest, active, _, rest⟩
  split at rest
  · cases rest
  next grant known =>
    simp only [bind_eq_ok, exists_unit, raiseIf_eq_ok] at rest
    rcases rest with ⟨_, rest⟩
    split at rest
    · cases rest
    next operation named =>
      simp only [bind_eq_ok, exists_unit, raiseIf_eq_ok, pure_eq_ok, enforcePolicy, not_not] at rest
      rcases rest with ⟨_, _, _, approved, given, allowed, _, _, _, rfl⟩
      refine ⟨⟨claims, manifest, operation, verified, active, named, needs⟩, ?_⟩
      have presented : approved = true := approved_of_allow needs allowed
      subst presented
      unfold verifyApproval at given
      split at given
      · cases given
      next approvalRef presented =>
        rcases bind_eq_ok.mp given with ⟨claims', verified', _⟩
        exact ⟨approvalRef, claims', presented, verified'⟩

/-- A call that passes the checks has an approval for its task. -/
theorem approved_of_check (logged : Logged sha256 system) (injective : Function.Injective sha256)
    {service : CapabilityHubService} {request : ExecutionRequest} {context : ServiceContext}
    {maxOutputTokens : Option Int} {executionAt approvalAt : ℚ} {reserved : Except Raised Unit}
    {checked : Checked}
    (unforged : Unforged mac system
      (.execute service request context maxOutputTokens executionAt approvalAt reserved))
    (forTask : ForTask mac system
      (.execute service request context maxOutputTokens executionAt approvalAt reserved))
    (done : checkExecution sha256 mac validates service system.grants request context maxOutputTokens
      executionAt approvalAt reserved = .ok checked) (needs : NeedsApproval checked.operation)
    (phase : Phase) : Approved system
      { service := service, request := request, context := context, checked := checked,
        approvalAt := approvalAt, phase := phase } := by
  rcases checkExecution_eq_ok done needs with ⟨asks, approvalRef, claims, presented, verified⟩
  rcases References.verify_eq_ok verified with
    ⟨⟨encoded, carries, read⟩, current, sameScope, samePurpose, sameRevision⟩
  have shown : approvalRef ∈ (Action.execute service request context maxOutputTokens executionAt
      approvalAt reserved).presented := by simp [Action.presented, presented]
  -- the payload is one that was handed out, and its purpose makes it that of an approval
  rcases unforged approvalRef shown encoded carries with ⟨handed, listed, rfl⟩
  have known : handed = claims := by
    rw [References.decode_encodedPayload (logged.valid handed listed), Except.ok.injEq] at read
    exact read
  subst known
  rcases logged.approval handed listed samePurpose with ⟨approval, approves, same⟩
  rcases forTask asks approvalRef presented approval approves (by rw [same]; exact carries) with
    ⟨other, approves', same', task⟩
  have bound := logged.bound other approves'
  rw [same', same] at bound
  rcases approvalScope_injective injective (bound.2.symm.trans sameScope) with
    ⟨actor, operation, arguments⟩
  refine ⟨other, approves', bound.1.symm.trans (sameRevision _ rfl), operation, arguments, actor,
    task, ?_⟩
  rw [same', same]
  exact current

/-! ## Runs -/

/-- What holds throughout a run. -/
structure Vetted (sha256 : Bytes → Bytes) (system : System) : Prop where
  logged : Logged sha256 system
  approved : ∀ call ∈ system.calls, NeedsApproval call.checked.operation → Approved system call

theorem Vetted.put {index : Nat} {changed : Call} (vetted : Vetted sha256 system)
    (found : system.calls[index]? = some call) (same : SameIntent call changed) :
    Vetted sha256 (system.put index changed) := by
  refine ⟨⟨vetted.logged.valid, vetted.logged.approval, vetted.logged.bound⟩, ?_⟩
  intro other member needs
  rcases mem_put found member same with ⟨old, known, same'⟩
  have needed : NeedsApproval old.checked.operation := by rw [same'.2.2.1]; exact needs
  exact (vetted.approved old known needed).of_intent same' fun _ => id

theorem Vetted.provide (vetted : Vetted sha256 system) (index : Nat)
    (answer : Except Raised ExecutionResult) (reconciled : Except Raised Unit) :
    Vetted sha256 (provideStep validates system index answer reconciled) := by
  unfold provideStep System.change
  cases found : system.calls[index]? with
  | none => exact vetted
  | some call =>
      dsimp only
      split
      · split
        · exact vetted.put found ⟨rfl, rfl, rfl, rfl⟩
        · exact vetted.put found ⟨rfl, rfl, rfl, rfl⟩
      · exact vetted

theorem Vetted.progress (vetted : Vetted sha256 system)
    (progress : Progress sha256 slotHash backend system final) : Vetted sha256 final := by
  rcases log_of_progress progress with ⟨issued, approvals⟩
  constructor
  · exact vetted.logged.issue (fun _ none => absurd none List.not_mem_nil) (by simp [issued]) approvals
  · intro call member needs
    rcases intent_of_progress progress member with ⟨old, known, same⟩
    have needed : NeedsApproval old.checked.operation := by rw [same.2.2.1]; exact needs
    exact (vetted.approved old known needed).of_intent same (by rw [approvals]; exact fun _ => id)

theorem Vetted.issue (vetted : Vetted sha256 system) {claims : List ReferenceClaims}
    (others : ∀ entry ∈ claims, Other entry) (issued : final.issued = system.issued ++ claims)
    (approvals : final.approvals = system.approvals) (calls : final.calls = system.calls) :
    Vetted sha256 final := by
  constructor
  · exact vetted.logged.issue others issued approvals
  · intro call member needs
    rw [calls] at member
    exact (vetted.approved call member needs).of_intent ⟨rfl, rfl, rfl, rfl⟩
      (by rw [approvals]; exact fun _ => id)

theorem Vetted.approve (vetted : Vetted sha256 system) {service : CapabilityHubService}
    {revision operation : String} {arguments : List (String × Json)} {context : ServiceContext}
    {ttlSeconds : Int} {now : ℚ} {reference : String}
    (done : issueApproval sha256 mac service revision operation arguments context ttlSeconds now =
      .ok reference) (taskId : String)
    (issued : final.issued = system.issued ++ [References.issuedClaims revision
      (approvalScope sha256 context operation arguments) "approval" ttlSeconds now])
    (approvals : final.approvals = system.approvals ++ [⟨revision, operation, arguments, taskId,
      context, References.issuedClaims revision (approvalScope sha256 context operation arguments)
        "approval" ttlSeconds now⟩])
    (calls : final.calls = system.calls) : Vetted sha256 final := by
  simp only [issueApproval, bind_eq_ok, exists_unit] at done
  rcases done with ⟨_, _, _, given⟩
  refine ⟨⟨?_, ?_, ?_⟩, ?_⟩
  · intro claims member
    rw [issued, List.mem_append, List.mem_singleton] at member
    rcases member with known | rfl
    · exact vetted.logged.valid claims known
    · exact References.valid_of_issue given
  · intro claims member purpose
    rw [issued, List.mem_append, List.mem_singleton] at member
    simp only [approvals, List.mem_append, List.mem_singleton]
    rcases member with known | rfl
    · rcases vetted.logged.approval claims known purpose with ⟨approval, approves, same⟩
      exact ⟨approval, .inl approves, same⟩
    · exact ⟨_, .inr rfl, rfl⟩
  · intro approval member
    rw [approvals, List.mem_append, List.mem_singleton] at member
    rcases member with known | rfl
    · exact vetted.logged.bound approval known
    · exact ⟨rfl, rfl⟩
  · intro call member needs
    rw [calls] at member
    refine (vetted.approved call member needs).of_intent ⟨rfl, rfl, rfl, rfl⟩ ?_
    rw [approvals]
    exact List.subset_append_left _ _

/-- One step keeps every call that needs an approval approved. -/
theorem Vetted.step {action : Action} (vetted : Vetted sha256 system)
    (injective : Function.Injective sha256) (unforged : Unforged mac system action)
    (forTask : ForTask mac system action) :
    Vetted sha256 (step sha256 slotHash mac validates backend system action) := by
  cases action with
  | search service context revision now =>
      unfold Service.step
      dsimp only
      split
      next claims issued =>
        exact vetted.issue (by simpa using other_of_issueLoad issued) rfl rfl rfl
      · exact vetted
  | load service capabilityRef context sectionNames operationNames maxOutputTokens verifiedAt
      executionAt handleTimes delivered =>
      unfold Service.step
      dsimp only
      split
      · exact vetted
      next loaded done =>
        rcases other_of_loadCapability done with ⟨handles, execution⟩
        split
        · exact vetted.issue handles rfl rfl rfl
        next executionRef grant claims given =>
          have others : ∀ entry ∈ loaded.handles ++ [claims], Other entry := by
            intro entry member
            rcases List.mem_append.mp member with handle | last
            · exact handles entry handle
            · rw [List.mem_singleton.mp last]
              exact execution _ given
          exact vetted.issue others (List.append_assoc _ _ _) rfl rfl
  | approve service revision operation arguments taskId context ttlSeconds now =>
      unfold Service.step
      dsimp only
      split
      · exact vetted
      next reference done => exact vetted.approve done taskId rfl rfl rfl
  | execute service request context maxOutputTokens executionAt approvalAt reserved =>
      unfold Service.step
      dsimp only
      split
      · exact vetted
      next checked done =>
        refine ⟨⟨vetted.logged.valid, vetted.logged.approval, vetted.logged.bound⟩, ?_⟩
        intro call member needs
        rcases List.mem_append.mp member with known | fresh
        · exact vetted.approved call known needs
        · rw [List.mem_singleton.mp fresh] at needs ⊢
          exact approved_of_check vetted.logged injective unforged forTask done needs _
  | reserve index checkedAt insertedAt =>
      exact vetted.progress (reserveStep_progress index checkedAt insertedAt)
  | resume index timedOut =>
      exact vetted.progress (resumeStep_progress index timedOut)
  | invoke index => exact vetted.progress (@invokeStep_progress sha256 slotHash backend _ index)
  | refuse index => exact vetted.progress (@refuseStep_progress sha256 slotHash backend _ index)
  | provide index answer reconciled => exact vetted.provide index answer reconciled
  | complete index now =>
      exact vetted.progress (@completeStep_progress sha256 slotHash backend _ index now)
  | abandon index now =>
      exact vetted.progress (@abandonStep_progress sha256 slotHash backend _ index now)
  | recover now => exact vetted.progress (@Progress.recovered sha256 slotHash backend _ now)

/-- **Approved invocations.** Where the approvals that are presented were issued for the task, every
invocation that needs an approval has one for its exact intent. -/
theorem approved_of_forTask (sha256 slotHash mac : Bytes → Bytes)
    (validates : List (String × Json) → Json → Bool) (backend : IdempotencyBackend)
    (actions : List Action) (injective : Function.Injective sha256)
    (unforged : Along (step sha256 slotHash mac validates backend) (Unforged mac) .initial actions)
    (forTask : Along (step sha256 slotHash mac validates backend) (ForTask mac) .initial actions) :
    ApprovedInvocations (run (step sha256 slotHash mac validates backend) .initial actions) := by
  have start : Vetted sha256 .initial :=
    ⟨⟨by simp [System.initial], by simp [System.initial], by simp [System.initial]⟩,
      by simp [System.initial]⟩
  have vetted := (unforged.and forTask).invariant start fun system action both vetted =>
    vetted.step injective both.1 both.2
  intro call member _ needs
  exact vetted.approved call member needs

/-! ## An approval for another task -/

/-- The references an action presents are among those handed out. -/
def Presents (mac : Bytes → Bytes) (system : System) (action : Action) : Prop :=
  ∀ reference ∈ action.presented, ∃ claims ∈ system.issued,
    References.referenceOf mac claims = reference

theorem Presents.unforged {action : Action} (presents : Presents mac system action) :
    Unforged mac system action := by
  intro reference shown encoded carries
  rcases presents reference shown with ⟨claims, listed, rfl⟩
  exact ⟨claims, listed, (References.carries_referenceOf.mp carries).symm⟩

section

variable (sha256 slotHash mac validates) (service : CapabilityHubService)
  (manifest : CapabilityManifest) (operation : OperationSpec) (context : ServiceContext)

/-- The claims of a reference that is issued for the manifest at time zero. -/
def claimsFor (purpose scope : String) (ttlSeconds : Int) : ReferenceClaims :=
  References.issuedClaims manifest.identity.revision scope purpose ttlSeconds 0

/-- A request without arguments that presents an approval of its operation. -/
def requestOf (taskId : String) : ExecutionRequest where
  executionRef := References.referenceOf mac
    (claimsFor manifest "execution" context.referenceScope service.executionTtl)
  operation := operation.name
  arguments := []
  taskId := taskId
  approvalRef := some (References.referenceOf mac
    (claimsFor manifest "approval" (approvalScope sha256 context operation.name []) 300))
  idempotencyKey := some "k"

/-- The operation is loaded, approved for one task, and executed for another. -/
def crossing (approvedTask taskId : String) : List Action :=
  [.search service context manifest.identity.revision 0,
    .load service (References.referenceOf mac
      (claimsFor manifest "load" context.referenceScope service.loadRefTtl)) context none none 2000 0 0
      (fun _ => (0, 0)) (.ok ()),
    .approve service manifest.identity.revision operation.name [] approvedTask context 300 0,
    .execute service (requestOf sha256 mac service manifest operation context taskId) context none 0 0
      (.ok ()),
    .reserve 0 0 0, .invoke 0]

/-- A capability with one write that is open to the context. -/
structure OpenWrite : Prop where
  active : service.activeManifest manifest.identity.revision = .ok manifest
  unguarded : service.dependencyDecider = none
  lasting : 0 < service.loadRefTtl ∧ 0 < service.executionTtl
  provided : manifest.provider ∈ service.providers
  kind : manifest.kind ≠ .skill
  sections : manifest.sections = []
  operations : manifest.operations = [operation]
  permissions : manifest.permissions = []
  schema : operation.inputSchema = []
  write : operation.sideEffect = .reversibleWrite
  unauthorized : context.parameterAuthorizer = none
  named : manifest.identity.revision ≠ ""
  ascii : isAscii manifest.identity.revision = true ∧ isAscii operation.name = true ∧
    isAscii context.referenceScope = true

end

section

variable {service : CapabilityHubService} {manifest : CapabilityManifest} {operation : OperationSpec}
  {context : ServiceContext}

theorem truncate_zero : truncate 0 = 0 := by simp [truncate]

theorem referenceScope_given (context : ServiceContext) : context.referenceScope ≠ "" := canonicalJson_ne_empty _

theorem approvalScope_given (sha256 : Bytes → Bytes) (context : ServiceContext) (name : String)
    (arguments : List (String × Json)) : approvalScope sha256 context name arguments ≠ "" := canonicalJson_ne_empty _

theorem issue_claimsFor (mac : Bytes → Bytes) (named : manifest.identity.revision ≠ "") {purpose scope : String}
    (purposeGiven : purpose ≠ "") (scopeGiven : scope ≠ "") {ttlSeconds : Int}
    (lasting : 0 < ttlSeconds) :
    References.issue mac manifest.identity.revision scope ttlSeconds purpose 0 =
      .ok (References.referenceOf mac (claimsFor manifest purpose scope ttlSeconds)) :=
  References.issue_of_given named scopeGiven purposeGiven lasting

theorem verify_claimsFor (mac : Bytes → Bytes) (named : manifest.identity.revision ≠ "")
    (revisionAscii : isAscii manifest.identity.revision = true) {purpose scope : String}
    (purposeGiven : purpose ≠ "") (purposeAscii : isAscii purpose = true) (scopeGiven : scope ≠ "")
    (scopeAscii : isAscii scope = true) {ttlSeconds : Int} (lasting : 0 < ttlSeconds)
    {expectedRevision : Option String}
    (expected : expectedRevision = none ∨ expectedRevision = some manifest.identity.revision) :
    References.verify mac (References.referenceOf mac (claimsFor manifest purpose scope ttlSeconds))
      scope expectedRevision purpose 0 = .ok (claimsFor manifest purpose scope ttlSeconds) := by
  have valid : (claimsFor manifest purpose scope ttlSeconds).Valid := by
    refine ⟨named, scopeGiven, purposeGiven, ?_⟩
    simp [claimsFor, References.issuedClaims, lasting]
  apply References.verify_same valid _ _ scopeAscii purposeAscii revisionAscii expected
  · simp [claimsFor, References.issuedClaims, truncate_zero, lasting]
  · simp [claimsFor, References.issuedClaims, truncate_zero]

namespace OpenWrite

variable (openWrite : OpenWrite service manifest operation context)

include openWrite

theorem step_search : step sha256 slotHash mac validates backend system
      (.search service context manifest.identity.revision 0) =
    { system with issued := system.issued ++
        [claimsFor manifest "load" context.referenceScope service.loadRefTtl] } := by
  have issued := issue_claimsFor mac openWrite.named (by decide : "load" ≠ "")
    (referenceScope_given context) openWrite.lasting.1
  simp only [step, issueLoad, openWrite.active, issued, Bind.bind, Except.bind, pure, Except.pure,
    claimsFor]

theorem step_load : step sha256 slotHash mac validates backend system
      (.load service (References.referenceOf mac
        (claimsFor manifest "load" context.referenceScope service.loadRefTtl)) context none none 2000
        0 0 (fun _ => (0, 0)) (.ok ())) =
    { system with
      issued := system.issued ++
        [claimsFor manifest "execution" context.referenceScope service.executionTtl]
      grants := system.grants.set (service.shared, References.referenceOf mac
          (claimsFor manifest "execution" context.referenceScope service.executionTtl))
        ⟨manifest.identity.revision, [operation.name]⟩ } := by
  have verified := verify_claimsFor mac openWrite.named openWrite.ascii.1
    (by decide : "load" ≠ "") (by decide) (referenceScope_given context)
    openWrite.ascii.2.2 openWrite.lasting.1 (.inl rfl : none = none ∨ _)
  have issued := issue_claimsFor mac openWrite.named (by decide : "execution" ≠ "")
    (referenceScope_given context) openWrite.lasting.2
  have revision : (claimsFor manifest "load" context.referenceScope service.loadRefTtl).revision =
      manifest.identity.revision := rfl
  have targets : rehydrationTargets manifest [] [operation] = [] := by
    simp [rehydrationTargets, openWrite.sections, openWrite.operations]
  have loaded : loadCapability sha256 mac service (References.referenceOf mac
      (claimsFor manifest "load" context.referenceScope service.loadRefTtl)) context none none 2000 0 0
      (fun _ => (0, 0)) (.ok ()) = .ok ⟨[], some (References.referenceOf mac
        (claimsFor manifest "execution" context.referenceScope service.executionTtl),
          ⟨manifest.identity.revision, [operation.name]⟩,
          claimsFor manifest "execution" context.referenceScope service.executionTtl)⟩ := by
    simp [loadCapability, CapabilityHubService.guardDependencies, openWrite.unguarded,
      positiveBudget, verified, revision, openWrite.active, selectSections, selectOperations,
      openWrite.sections, openWrite.operations, targets, openWrite.kind, issued, Bind.bind,
      Except.bind, pure, Except.pure, raiseIf]
    rfl
  simp only [step, loaded, List.append_nil]

theorem step_approve (approvedTask : String) : step sha256 slotHash mac validates backend system
      (.approve service manifest.identity.revision operation.name [] approvedTask context 300 0) =
    { system with
      issued := system.issued ++
        [claimsFor manifest "approval" (approvalScope sha256 context operation.name []) 300]
      approvals := system.approvals ++ [⟨manifest.identity.revision, operation.name, [], approvedTask,
        context, claimsFor manifest "approval" (approvalScope sha256 context operation.name []) 300⟩]
      } := by
  have issued := issue_claimsFor mac openWrite.named (by decide : "approval" ≠ "")
    (approvalScope_given sha256 context operation.name []) (by decide : (0 : Int) < 300)
  have given : issueApproval sha256 mac service manifest.identity.revision operation.name [] context
      300 0 = .ok (References.referenceOf mac
        (claimsFor manifest "approval" (approvalScope sha256 context operation.name []) 300)) := by
    simp [issueApproval, openWrite.active, CapabilityManifest.operation, openWrite.operations, issued,
      Bind.bind, Except.bind, raiseIf]
  simp only [step, given, claimsFor]

theorem step_execute (taskId : String)
    (granted : system.grants.get? (service.shared, References.referenceOf mac
        (claimsFor manifest "execution" context.referenceScope service.executionTtl)) =
      some ⟨manifest.identity.revision, [operation.name]⟩) :
    step sha256 slotHash mac validates backend system
      (.execute service (requestOf sha256 mac service manifest operation context taskId) context none
        0 0 (.ok ())) =
    { system with
      calls := system.calls ++ [{
        service := service
        request := requestOf sha256 mac service manifest operation context taskId
        context := context
        checked := ⟨manifest, operation, context.maxOutputTokens⟩
        approvalAt := 0 }] } := by
  have verified := verify_claimsFor mac openWrite.named openWrite.ascii.1
    (by decide : "execution" ≠ "") (by decide) (referenceScope_given context)
    openWrite.ascii.2.2 openWrite.lasting.2 (.inl rfl : none = none ∨ _)
  have approved := verify_claimsFor mac openWrite.named openWrite.ascii.1
    (by decide : "approval" ≠ "") (by decide)
    (approvalScope_given sha256 context operation.name [])
    (isAscii_approvalScope sha256 context openWrite.ascii.2.1 []) (by decide : (0 : Int) < 300)
    (.inr rfl : some manifest.identity.revision = none ∨ _)
  have revision :
      (claimsFor manifest "execution" context.referenceScope service.executionTtl).revision =
        manifest.identity.revision := rfl
  have limit : ¬context.maxOutputTokens < 1 := by
    have positive := context.positive.2
    omega
  have checked : checkExecution sha256 mac validates service system.grants
      (requestOf sha256 mac service manifest operation context taskId) context none 0 0 (.ok ()) =
        .ok ⟨manifest, operation, context.maxOutputTokens⟩ := by
    simp [checkExecution, requestOf, positiveBudget, limit, verified, revision, openWrite.active,
      openWrite.kind, granted, CapabilityManifest.operation, openWrite.operations, validateArguments,
      openWrite.schema, authorizeArguments, openWrite.unauthorized,
      CapabilityHubService.guardDependencies, openWrite.unguarded, verifyApproval, approved,
      enforcePolicy, decidePolicy, openWrite.permissions, openWrite.write, openWrite.provided,
      Bind.bind, Except.bind, pure, Except.pure, raiseIf]
  simp only [step, checked]

/-- The two tasks need not be the same for the operation to be invoked. -/
theorem run_crossing (approvedTask taskId : String) :
    let final := run (step sha256 slotHash mac validates .shared) .initial
      (crossing sha256 mac service manifest operation context approvedTask taskId)
    (∃ call ∈ final.calls, 0 < call.invocations ∧ NeedsApproval call.checked.operation ∧
      call.request.taskId = taskId) ∧
    ∀ approval ∈ final.approvals, approval.taskId = approvedTask := by
  simp only [run, crossing, List.foldl_cons, List.foldl_nil, openWrite.step_search,
    openWrite.step_load, openWrite.step_approve]
  rw [openWrite.step_execute taskId Dict.get?_set_self]
  have short : ¬256 < "k".length := by decide
  simp [short, step, reserveStep, invokeStep, System.change, System.put, System.initial, requestOf,
    Call.seat, reserveSeat, NeedsApproval, openWrite.write, Dict.get?_empty]

/-- What the run presents has been handed out. -/
theorem unforged_crossing (approvedTask taskId : String) :
    Along (step sha256 slotHash mac validates .shared) (Unforged mac) .initial
      (crossing sha256 mac service manifest operation context approvedTask taskId) := by
  simp only [crossing, Along, openWrite.step_search, openWrite.step_load, openWrite.step_approve]
  refine ⟨?_, ?_, ?_, ?_, ?_, ?_, trivial⟩
  all_goals
    apply Presents.unforged
    simp [Presents, Action.presented, requestOf, System.initial]

/-- With one task, the approval that is presented was issued for it. -/
theorem forTask_crossing (taskId : String) :
    Along (step sha256 slotHash mac validates .shared) (ForTask mac) .initial
      (crossing sha256 mac service manifest operation context taskId taskId) := by
  simp only [crossing, Along, openWrite.step_search, openWrite.step_load, openWrite.step_approve]
  refine ⟨trivial, trivial, trivial, ?_, trivial, trivial, trivial⟩
  intro _ approvalRef _ approval approves _
  refine ⟨approval, approves, rfl, ?_⟩
  simp only [System.initial, List.nil_append, List.mem_singleton] at approves
  rw [approves]
  rfl

end OpenWrite

/-! ### One such capability -/

def actor : ServiceContext where
  tenantId := "t"
  principalId := "p"
  sessionId := "s"
  named := by simp
  positive := by decide

def write : OperationSpec where
  name := "w"
  operationType := .execute
  sideEffect := .reversibleWrite

def writer : CapabilityManifest where
  identity := ⟨"d", "c", "1", "x"⟩
  kind := .cli
  summary := ""
  provider := "h"
  operations := [write]

def writing : CapabilityHubService where
  registry := { Registry.emptyRegistry Registry.isolatePolicy with
    revisions := Dict.ofEntries [(writer.identity.revision, writer)]
    active := Dict.ofEntries [(writer.identity.coordinate, writer.identity.revision)] }
  providers := ["h"]

theorem openWrite_writing : OpenWrite writing writer write actor where
  active := rfl
  unguarded := rfl
  lasting := by decide
  provided := by decide
  kind := by decide
  sections := rfl
  operations := rfl
  permissions := rfl
  schema := rfl
  write := rfl
  unauthorized := rfl
  named := by decide
  ascii := ⟨by decide, by decide, isAscii_referenceScope (by decide)⟩

theorem approved_of_forTask_same_task : ApprovedInvocations
    (run (step id id id (fun _ _ => true) .shared) .initial
      (crossing id id writing writer write actor "a" "a")) :=
  approved_of_forTask id id id (fun _ _ => true) .shared _ Function.injective_id
    (openWrite_writing.unforged_crossing "a" "a") (openWrite_writing.forTask_crossing "a")

/-- The write that was approved for the task `a` is invoked for the task `b`. -/
theorem other_task_invoked :
    Along (step id id id (fun _ _ => true) .shared) (Unforged id) .initial
        (crossing id id writing writer write actor "a" "b") ∧
      ¬ApprovedInvocations (run (step id id id (fun _ _ => true) .shared) .initial
        (crossing id id writing writer write actor "a" "b")) := by
  refine ⟨openWrite_writing.unforged_crossing "a" "b", ?_⟩
  intro approved
  rcases openWrite_writing.run_crossing "a" "b" with ⟨⟨call, member, once, needs, task⟩, other⟩
  rcases approved call member once needs with ⟨approval, approves, _, _, _, _, same, _⟩
  have tasks : "a" = "b" := (other approval approves).symm.trans (same.trans task)
  exact absurd tasks (by decide)

end

end CapabilityHub.Service
