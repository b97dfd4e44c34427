import CapabilityHub.Approval.ScopedRefines
import CapabilityHub.Auth.Identity
import Mathlib.Tactic.NormNum

/-! # Decisions through the admin dispatcher

`approval.decide` takes the requester from its payload, and the caller where the payload names
none. Nothing compares the two principals: in a run whose decisions all name another principal than
the caller, every record is decided by another principal of its tenant
(`CapabilityHub.Approval.decided_by_another_along`), and a caller that names itself, or nobody,
decides its own record (`CapabilityHub.Approval.requester_approves_itself`).
-/

namespace CapabilityHub.Approval

open Auth (AuthIdentity)
open Tenancy (TenantScope)
open Transaction

/-- What the Unicode character database says. -/
structure IdentifierText where
  /-- `unicodedata.normalize("NFKC", text)` -/
  nfkc : String → String
  /-- Whether the category of a character starts with a `C`. -/
  control : Char → Bool

variable (text : IdentifierText)

/-- `_normalize_identifier`. -/
def normalizeIdentifier (value : String) : Except Raised {normalized : String // normalized ≠ ""} :=
  let normalized := strip (text.nfkc value)
  if refused : normalized = "" ∨ 256 < normalized.length ∨ 1024 < normalized.utf8ByteSize ∨
      normalized.toList.any text.control then
    .error .valueError
  else .ok ⟨normalized, fun empty => refused (.inl empty)⟩

/-- `TenantScope(tenant, principal, session, task)`. -/
def tenantScope (tenant principal session task : String) : Except Raised CallerScope := do
  let tenant ← normalizeIdentifier text tenant
  let principal ← normalizeIdentifier text principal
  let session ← normalizeIdentifier text session
  let task ← normalizeIdentifier text task
  .ok ⟨⟨tenant, principal, session, task⟩, tenant.2, principal.2, session.2, task.2⟩

/-- `_admin_payload`. -/
def adminPayload (payload : List (String × Json)) (required optional : List String) :
    Except Raised Unit :=
  raiseIf (¬((∀ key ∈ required, key ∈ payload.map Prod.fst) ∧
    ∀ key ∈ payload.map Prod.fst, key ∈ required ++ optional)) .valueError

/-- `_admin_text`. -/
def adminText (payload : List (String × Json)) (key : String) (default : Json) :
    Except Raised String :=
  match (mappingGet payload key).getD default with
  | .str value => do
      raiseIf (value = "" ∨ 512 < value.length) .valueError
      .ok value
  | _ => .error .valueError

/-- `_is_local_admin_identity`. -/
def IsLocalAdminIdentity (identity : AuthIdentity) (taskId : String) : Prop :=
  identity.tenantId = "local" ∧ identity.principalId = "operator" ∧ identity.sessionId = "cli" ∧
    identity.source ∈ ["admin-cli", "admin-dashboard"] ∧ taskId = "local-cli"

instance {identity : AuthIdentity} {taskId : String} :
    Decidable (IsLocalAdminIdentity identity taskId) :=
  inferInstanceAs (Decidable (_ ∧ _ ∧ _ ∧ _ ∧ _))

/-- The scope of the local operator. -/
def localScope : CallerScope := ⟨⟨"local", "operator", "cli", "local-cli"⟩, by decide⟩

/-- The arguments that `approval.decide` reads from its payload. -/
structure Decision where
  taskId : String
  approvalId : String
  decision : String

def readDecision (payload : List (String × Json)) : Except Raised Decision := do
  adminPayload payload ["task_id", "approval_id", "decision"]
    ["requester_principal_id", "requester_session_id"]
  let taskId ← adminText payload "task_id" .null
  let approvalId ← adminText payload "approval_id" .null
  let decision ← adminText payload "decision" .null
  .ok ⟨taskId, approvalId, decision⟩

/-- The scope of the requester, and that of the caller as the approver. -/
def readScopes (identity : AuthIdentity) (payload : List (String × Json)) (taskId : String) :
    Except Raised (CallerScope × CallerScope) := do
  let principal ← adminText payload "requester_principal_id" (.str identity.principalId)
  let session ← adminText payload "requester_session_id" (.str identity.sessionId)
  let requesterScope ← tenantScope text identity.tenantId principal session taskId
  let approverScope ← tenantScope text identity.tenantId identity.principalId identity.sessionId
    taskId
  .ok (requesterScope, approverScope)

variable (mac : Bytes → Bytes)

/-- `local_approval_decide`. -/
def localApprovalDecide (approvalId decision decidedBy : String) (now : ℚ) :
    Transaction ScopedApprovalRecords Raised ApprovalRecord :=
  if decision = "approve" then ScopedApprovalStore.approve mac localScope approvalId decidedBy now
  else if decision = "deny" then ScopedApprovalStore.deny mac localScope approvalId decidedBy now
  else query fun _ => .error .valueError

/-- `approval.decide`, at the moment that the store reads the clock. -/
def approvalDecide (identity : AuthIdentity) (payload : List (String × Json)) (now : ℚ) :
    Transaction ScopedApprovalRecords Raised ApprovalRecord := do
  let decision ← query fun _ => readDecision payload
  if IsLocalAdminIdentity identity decision.taskId then
    localApprovalDecide mac decision.approvalId decision.decision identity.principalId now
  else
    let scopes ← query fun _ => readScopes text identity payload decision.taskId
    if decision.decision = "approve" then
      ScopedApprovalStore.approveAs mac scopes.1 scopes.2 decision.approvalId now
    else if decision.decision = "deny" then
      ScopedApprovalStore.denyAs mac scopes.1 scopes.2 decision.approvalId now
    else query fun _ => .error .valueError

/-! ## Runs of the store -/

variable (sha256 : Bytes → Bytes)

def Call.Decides : Call → Prop
  | .approve .. | .deny .. => True
  | _ => False

/-- An operation of the store: one for a scope that decides nothing, or a decision through the
dispatcher. -/
inductive Operation where
  | own (scope : CallerScope) (call : Call) (undecided : ¬call.Decides)
  | decide (identity : AuthIdentity) (payload : List (String × Json)) (now : ℚ)

/-- The table after an operation. -/
def operate (table : ScopedApprovalRecords) : Operation → ScopedApprovalRecords
  | .own scope call _ => stateAfter (ScopedApprovalStore.call sha256 mac scope call) table
  | .decide identity payload now => stateAfter (approvalDecide text mac identity payload now) table

/-- The status of the record of an identifier in a scope. -/
def statusOf (table : ScopedApprovalRecords) (scope : CallerScope) (approvalId : String) :
    Option ApprovalStatus :=
  (table.get? (ScopedApprovalStore.place mac scope approvalId)).map (·.progress.status)

/-- The caller is another principal of the tenant of the scope. -/
def AnotherOf (identity : AuthIdentity) (scope : CallerScope) : Prop :=
  ∃ tenant principal, normalizeIdentifier text identity.tenantId = .ok tenant ∧
    normalizeIdentifier text identity.principalId = .ok principal ∧
    tenant.1 = scope.tenant ∧ principal.1 ≠ scope.principal

/-- The caller is the local operator, in the task of the command line. -/
def ByLocalAdmin (identity : AuthIdentity) (payload : List (String × Json)) : Prop :=
  ∃ decision, readDecision payload = .ok decision ∧ IsLocalAdminIdentity identity decision.taskId

/-- A record that the operation approves or denies is decided by another principal of its
tenant. -/
def DecidedByAnother (table : ScopedApprovalRecords) (operation : Operation) : Prop :=
  ∀ scope approvalId status, status = .approved ∨ status = .denied →
    statusOf mac table scope approvalId ≠ some status →
    statusOf mac (operate text mac sha256 table operation) scope approvalId = some status →
    ∃ identity payload now, operation = .decide identity payload now ∧
      (ByLocalAdmin identity payload ∨ AnotherOf text identity scope)

/-- The payload of a decision names another principal than the caller as the requester. -/
def NamesAnother : Operation → Prop
  | .own .. => True
  | .decide identity payload _ => ¬ByLocalAdmin identity payload →
      ∀ named requester own,
        adminText payload "requester_principal_id" (.str identity.principalId) = .ok named →
        normalizeIdentifier text named = .ok requester →
        normalizeIdentifier text identity.principalId = .ok own → requester ≠ own

/-! ## Where an operation may decide -/

section

variable {text mac sha256} {places places' : String × String → Prop} {scope : CallerScope}
  {approvalId : String} {now : ℚ} {table : ScopedApprovalRecords}

/-- The table changes by no decision, other than at the places. -/
def DecidesOnly (places : String × String → Prop) (table final : ScopedApprovalRecords) : Prop :=
  ∀ place status, status = .approved ∨ status = .denied →
    (final.get? place).map (·.progress.status) = some status →
    (table.get? place).map (·.progress.status) = some status ∨ places place

theorem decidesOnly_refl (table : ScopedApprovalRecords) : DecidesOnly places table table :=
  fun _ _ _ same => .inl same

theorem DecidesOnly.trans (first second third : ScopedApprovalRecords)
    (before : DecidesOnly places first second) (later : DecidesOnly places second third) :
    DecidesOnly places first third := fun place status decided found =>
  (later place status decided found).elim (before place status decided) .inr

theorem DecidesOnly.mono (weaker : ∀ place, places place → places' place)
    (table final : ScopedApprovalRecords) (only : DecidesOnly places table final) :
    DecidesOnly places' table final := fun place status decided found =>
  (only place status decided found).imp_right (weaker place)

/-- An update of selected rows that writes no decision. -/
theorem decidesOnly_updateWhere (selected : String × String → ScopedApprovalRow → Prop)
    [∀ key row, Decidable (selected key row)] {change : ScopedApprovalRow → ScopedApprovalRow}
    (each : ∀ key row, selected key row → places key ∨
      (change row).progress.status ≠ .approved ∧ (change row).progress.status ≠ .denied)
    (table : ScopedApprovalRecords) :
    DecidesOnly places table (table.updateWhere selected change) := by
  intro place status decided found
  rw [Dict.get?_updateWhere, Option.map_map, Option.map_eq_some_iff] at found
  obtain ⟨row, stored, same⟩ := found
  dsimp only [Function.comp_apply] at same
  by_cases chosen : selected place row
  · rw [if_pos chosen] at same
    rcases each place row chosen with here | undecided
    · exact .inr here
    · rw [same] at undecided
      rcases decided with rfl | rfl
      · exact absurd rfl undecided.1
      · exact absurd rfl undecided.2
  · rw [if_neg chosen] at same
    rw [stored, Option.map_some, same]
    exact .inl rfl

theorem decidesOnly_expire (digest : String) (approval : Option String)
    (table : ScopedApprovalRecords) :
    DecidesOnly places table (ScopedApprovalStore.expire digest now approval table) :=
  decidesOnly_updateWhere _
    (fun _ row _ => .inr (by simp [ScopedApprovalRow.withProgress, Progress.expired])) table

theorem relates_get :
    Relates (DecidesOnly places) (ScopedApprovalStore.get mac scope approvalId now) := by
  refine Relates.query_bind decidesOnly_refl fun _ _ => ?_
  refine Relates.query_bind decidesOnly_refl fun place _ => ?_
  refine Relates.bind DecidesOnly.trans (Relates.atomically decidesOnly_refl ?_) fun row =>
    relates_query decidesOnly_refl _
  exact Relates.bind DecidesOnly.trans (relates_write (decidesOnly_expire _ _)) fun _ =>
    relates_query decidesOnly_refl _

theorem relates_request {intent : ApprovalIntent} {ttlSeconds : ℚ} {given : Option String}
    {generated : String} : Relates (DecidesOnly places)
      (ScopedApprovalStore.request mac scope intent ttlSeconds given generated now) := by
  refine Relates.bind DecidesOnly.trans ?_ fun _ => relates_get
  refine Relates.query_bind decidesOnly_refl fun _ _ => ?_
  refine Relates.query_bind decidesOnly_refl fun _ _ => ?_
  refine Relates.query_bind decidesOnly_refl fun _ _ => ?_
  refine Relates.query_bind decidesOnly_refl fun _ _ => ?_
  refine Relates.query_bind decidesOnly_refl fun place _ => ?_
  refine Relates.bind DecidesOnly.trans (Relates.atomically decidesOnly_refl ?_) fun _ =>
    relates_pure decidesOnly_refl _
  refine Relates.query_bind decidesOnly_refl fun _ _ => relates_write fun table => ?_
  intro other status decided found
  rw [Dict.get?_set] at found
  split at found
  next =>
    rw [Option.map_some, Option.some.injEq] at found
    rcases decided with rfl | rfl <;> contradiction
  next => exact .inl found

theorem relates_list {status : Option String} {limit : Int} :
    Relates (DecidesOnly places) (ScopedApprovalStore.list mac scope status limit now) := by
  refine Relates.query_bind decidesOnly_refl fun _ _ => ?_
  refine Relates.query_bind decidesOnly_refl fun _ _ => Relates.atomically decidesOnly_refl ?_
  refine Relates.query_bind decidesOnly_refl fun _ _ => ?_
  exact Relates.bind DecidesOnly.trans (relates_write (decidesOnly_expire _ _)) fun _ =>
    relates_query decidesOnly_refl _

theorem relates_consume {intent : ApprovalIntent} : Relates (DecidesOnly places)
    (ScopedApprovalStore.consume sha256 mac scope approvalId intent now) := by
  refine Relates.bind DecidesOnly.trans ?_ fun _ => relates_get
  refine Relates.query_bind decidesOnly_refl fun _ _ => ?_
  refine Relates.query_bind decidesOnly_refl fun _ _ => ?_
  refine Relates.query_bind decidesOnly_refl fun place _ => Relates.atomically decidesOnly_refl ?_
  refine Relates.bind DecidesOnly.trans (relates_write (decidesOnly_expire _ _)) fun _ => ?_
  refine Relates.query_bind decidesOnly_refl fun _ _ => ?_
  refine Relates.query_bind decidesOnly_refl fun _ _ => ?_
  refine Relates.bind DecidesOnly.trans (relates_write (decidesOnly_updateWhere _
    fun _ row _ => .inr (by simp [ScopedApprovalRow.withProgress, Progress.consumed]))) fun _ =>
      relates_query decidesOnly_refl _

/-- A decision changes the record that it names. -/
theorem relates_decide {status : ApprovalStatus} {decidedBy : String} :
    Relates (DecidesOnly (· = ScopedApprovalStore.place mac scope approvalId))
      (ScopedApprovalStore.decide mac scope approvalId status decidedBy now) := by
  refine Relates.bind DecidesOnly.trans ?_ fun _ => relates_get
  refine Relates.query_bind decidesOnly_refl fun _ _ => ?_
  refine Relates.query_bind decidesOnly_refl fun _ _ => ?_
  refine Relates.query_bind decidesOnly_refl fun place ⟨_, given⟩ =>
    Relates.atomically decidesOnly_refl ?_
  have here : place = ScopedApprovalStore.place mac scope approvalId := by
    obtain ⟨_, _, same⟩ := bind_eq_ok.mp given
    exact (Except.ok.inj same).symm
  refine Relates.bind DecidesOnly.trans (relates_write (decidesOnly_expire _ _)) fun _ => ?_
  refine Relates.query_bind decidesOnly_refl fun _ _ => relates_write ?_
  exact decidesOnly_updateWhere _ fun key _ chosen => .inl (chosen.1.trans here)

/-- The operations of a scope that decide nothing decide nothing. -/
theorem relates_own {call : Call} (undecided : ¬call.Decides) :
    Relates (DecidesOnly fun _ => False) (ScopedApprovalStore.call sha256 mac scope call) := by
  cases call with
  | request => exact relates_request.map _
  | get => exact relates_get.map _
  | list => exact relates_list.map _
  | approve => exact absurd trivial undecided
  | deny => exact absurd trivial undecided
  | consume => exact relates_consume.map _

/-- The place of a record that a decision of the caller may change. -/
def MayDecide (text : IdentifierText) (mac : Bytes → Bytes) (identity : AuthIdentity)
    (payload : List (String × Json)) (place : String × String) : Prop :=
  ByLocalAdmin identity payload ∨ ∃ decision scopes, readDecision payload = .ok decision ∧
    readScopes text identity payload decision.taskId = .ok scopes ∧
    place = ScopedApprovalStore.place mac scopes.1 decision.approvalId

theorem relates_approvalDecide {identity : AuthIdentity} {payload : List (String × Json)} :
    Relates (DecidesOnly (MayDecide text mac identity payload))
      (approvalDecide text mac identity payload now) := by
  refine Relates.query_bind decidesOnly_refl fun decision ⟨_, read⟩ => ?_
  split
  next byOperator =>
    have allowed : ∀ place, place = ScopedApprovalStore.place mac localScope decision.approvalId →
        MayDecide text mac identity payload place := fun _ _ => .inl ⟨decision, read, byOperator⟩
    rw [localApprovalDecide]
    split
    · exact relates_decide.mono (DecidesOnly.mono allowed)
    split
    · exact relates_decide.mono (DecidesOnly.mono allowed)
    · exact relates_query decidesOnly_refl _
  next =>
    refine Relates.query_bind decidesOnly_refl fun scopes ⟨_, placed⟩ => ?_
    have allowed : ∀ place, place = ScopedApprovalStore.place mac scopes.1 decision.approvalId →
        MayDecide text mac identity payload place := fun _ same =>
      .inr ⟨decision, scopes, read, placed, same⟩
    split
    · exact Relates.query_bind decidesOnly_refl fun _ _ =>
        relates_decide.mono (DecidesOnly.mono allowed)
    split
    · exact Relates.query_bind decidesOnly_refl fun _ _ =>
        relates_decide.mono (DecidesOnly.mono allowed)
    · exact relates_query decidesOnly_refl _

theorem readScopes_eq_ok {identity : AuthIdentity} {payload : List (String × Json)}
    {taskId : String} {scopes : CallerScope × CallerScope}
    (read : readScopes text identity payload taskId = .ok scopes) :
    ∃ named tenant requester own,
      adminText payload "requester_principal_id" (.str identity.principalId) = .ok named ∧
      normalizeIdentifier text identity.tenantId = .ok tenant ∧
      normalizeIdentifier text named = .ok requester ∧
      normalizeIdentifier text identity.principalId = .ok own ∧
      scopes.1.tenant = tenant.1 ∧ scopes.1.principal = requester.1 := by
  simp only [readScopes, tenantScope, bind_eq_ok] at read
  obtain ⟨named, given, _, _, requesterScope, ⟨tenant, tenantRead, requester, requesterRead, _, _,
    _, _, made⟩, approverScope, ⟨_, _, own, ownRead, _⟩, same⟩ := read
  obtain rfl := Except.ok.inj made
  obtain rfl := Except.ok.inj same
  exact ⟨named, tenant, requester, own, given, tenantRead, requesterRead, ownRead, rfl, rfl⟩

/-- Records have places of their own. -/
theorem scope_of_place (keyed : Function.Injective mac) {other : CallerScope} {approvalId' : String}
    (same : ScopedApprovalStore.place mac scope approvalId =
      ScopedApprovalStore.place mac other approvalId') : scope = other := by
  have scopes : scope.toTenantScope = other.toTenantScope :=
    scopeDigest_injective keyed (Prod.ext_iff.mp same).1
  cases scope
  cases other
  cases scopes
  rfl

/-- An operation whose payload names another principal decides the records of others. -/
theorem decidedByAnother_of_namesAnother (keyed : Function.Injective mac) {operation : Operation}
    (another : NamesAnother text operation) :
    DecidedByAnother text mac sha256 table operation := by
  intro scope approvalId status decided before after
  cases operation with
  | own other call undecided =>
      rcases relates_own undecided table _ status decided after with same | nowhere
      · exact absurd same before
      · exact nowhere.elim
  | decide identity payload now =>
      refine ⟨identity, payload, now, rfl, ?_⟩
      rcases relates_approvalDecide table _ status decided after with same | byOperator | there
      · exact absurd same before
      · exact .inl byOperator
      · obtain ⟨decision, scopes, read, placed, place⟩ := there
        by_cases byOperator : ByLocalAdmin identity payload
        · exact .inl byOperator
        obtain rfl := scope_of_place keyed place
        obtain ⟨named, tenant, requester, own, given, tenantRead, requesterRead, ownRead,
          sameTenant, samePrincipal⟩ := readScopes_eq_ok placed
        refine .inr ⟨tenant, own, tenantRead, ownRead, sameTenant.symm, ?_⟩
        rw [samePrincipal]
        intro same
        exact another byOperator named requester own given requesterRead ownRead
          (Subtype.ext same.symm)

/-- The row that a request leaves. -/
theorem get?_request {intent : ApprovalIntent} {ttlSeconds : ℚ} {given : Option String}
    {generated : String} (own : scope.Matches intent) (lasting : 0 < ttlSeconds) (proper : 0 ≤ now)
    (fresh : table.get? (ScopedApprovalStore.place mac scope (identifierOf given generated)) = none) :
    (stateAfter (ScopedApprovalStore.call sha256 mac scope
      (.request intent ttlSeconds given generated now)) table).get?
        (ScopedApprovalStore.place mac scope (identifierOf given generated)) =
      some (.requested (identifierOf given generated) intent (.requested now ttlSeconds)) := by
  let place := ScopedApprovalStore.place mac scope (identifierOf given generated)
  let row := ScopedApprovalRow.requested (identifierOf given generated) intent
    (.requested now ttlSeconds)
  have found : (table.set place row).get? place = some row := Dict.get?_set_self
  have read : ScopedApprovalStore.get mac scope (identifierOf given generated) now
      (table.set place row) = .ok _ _ :=
    ScopedApprovalStore.get_of_some proper (identifierOf_ne_empty _ _) found
  have done : ScopedApprovalStore.request mac scope intent ttlSeconds given generated now table =
      .ok _ _ :=
    (bind_of_ok (ScopedApprovalStore.insertRecord_of_fresh own lasting proper fresh)).trans read
  have unexpired : row.progress.expire now = row.progress :=
    Progress.expire_of_not_due (Progress.not_due_requested lasting)
  simp only [ScopedApprovalStore.call, stateAfter, Functor.map, EStateM.map, done]
  rw [ScopedApprovalStore.get?_expire_one, if_pos rfl, found, Option.map_some,
    ScopedApprovalStore.expireRow, unexpired]
  rfl

/-- A decision of a caller on a pending record is made, whoever the requester is. -/
theorem statusOf_approvalDecide {identity : AuthIdentity} {payload : List (String × Json)}
    {taskId : String} {approverScope : CallerScope} {row : ScopedApprovalRow}
    (read : readDecision payload = .ok ⟨taskId, approvalId, "approve"⟩)
    (remote : ¬IsLocalAdminIdentity identity taskId)
    (scopes : readScopes text identity payload taskId = .ok (scope, approverScope))
    (sameTenant : scope.tenant = approverScope.tenant) (named : approvalId ≠ "") (proper : 0 ≤ now)
    (found : table.get? (ScopedApprovalStore.place mac scope approvalId) = some row)
    (pending : (row.progress.expire now).status = .pending) :
    statusOf mac (stateAfter (approvalDecide text mac identity payload now) table) scope approvalId =
      some .approved := by
  have decided : ScopedApprovalStore.decideRecord mac scope approvalId .approved
      approverScope.principal now table = .ok () _ :=
    ScopedApprovalStore.decideRecord_of_pending named approverScope.named.2.1 proper found pending
  have stored : (ScopedApprovalStore.decided mac scope approvalId .approved approverScope.principal
      now table).get? (ScopedApprovalStore.place mac scope approvalId) =
        some (row.withProgress (row.progress.decided now .approved approverScope.principal)) := by
    rw [ScopedApprovalStore.get?_decided found pending, if_pos rfl]
  have current : ¬(row.progress.decided now .approved approverScope.principal).Due now := fun due =>
    not_lt.mpr due.2 (Progress.lt_of_pending pending).1
  have performed : approvalDecide text mac identity payload now table =
      ScopedApprovalStore.get mac scope approvalId now
        (ScopedApprovalStore.decided mac scope approvalId .approved approverScope.principal now
          table) := by
    rw [approvalDecide, query_bind, read]
    dsimp only
    rw [if_neg remote, query_bind, scopes]
    dsimp only
    rw [if_pos rfl, ScopedApprovalStore.approveAs, ScopedApprovalStore.decideAs, query_bind, raiseIf,
      if_neg (not_not_intro sameTenant)]
    exact bind_of_ok decided
  rw [stateAfter, performed, ScopedApprovalStore.get_of_some proper named stored, statusOf,
    ScopedApprovalStore.get?_expire_one, if_pos rfl, stored, Option.map_some, Option.map_some]
  change some ((row.progress.decided now .approved approverScope.principal).expire now).status = _
  rw [Progress.expire_of_not_due current]
  rfl

end

/-- **No self-approval, where every payload names another principal.** -/
theorem decided_by_another_along (keyed : Function.Injective mac) (operations : List Operation)
    (another : ∀ operation ∈ operations, NamesAnother text operation) :
    Along (operate text mac sha256) (DecidedByAnother text mac sha256) ∅ operations :=
  (along_of_forall another).mono fun _ _ names => decidedByAnother_of_namesAnother keyed names

/-- A database in which every character is plain. -/
def plainText : IdentifierText := ⟨id, fun _ => false⟩

def alice : AuthIdentity := ⟨"tenant", "alice", "http", "session", by decide⟩

def reviewer : AuthIdentity := ⟨"tenant", "reviewer", "http", "review", by decide⟩

def requested : Operation := .own sampleScope (.request sampleIntent 60 (some "first") "0" 100) id

theorem decided_by_another_along_reviewedRun :
    Along (operate plainText id id) (DecidedByAnother plainText id id) ∅
      [requested, .decide reviewer [("task_id", .str "task"), ("approval_id", .str "first"),
        ("decision", .str "approve"), ("requester_principal_id", .str "alice"),
        ("requester_session_id", .str "session")] 101] := by
  apply decided_by_another_along plainText id id Function.injective_id
  intro operation member
  simp only [List.mem_cons, List.not_mem_nil, or_false] at member
  rcases member with rfl | rfl
  · trivial
  · intro _ named requester own given requesterRead ownRead same
    obtain rfl : "alice" = named := Except.ok.inj given
    obtain rfl := Except.ok.inj requesterRead
    exact absurd (congrArg Subtype.val (Except.ok.inj ownRead)) (by rw [← same]; decide)

/-- A payload that names nobody. -/
def ownPayload : List (String × Json) :=
  [("task_id", .str "task"), ("approval_id", .str "first"), ("decision", .str "approve")]

theorem readDecision_ownPayload : readDecision ownPayload = .ok ⟨"task", "first", "approve"⟩ := rfl

theorem readScopes_ownPayload :
    readScopes plainText alice ownPayload "task" = .ok (sampleScope, sampleScope) := rfl

theorem get?_requested : (operate plainText id id ∅ requested).get?
    (ScopedApprovalStore.place id sampleScope "first") =
      some (.requested "first" sampleIntent (.requested 100 60)) := by
  have identified : identifierOf (some "first") "0" = "first" := by decide
  have kept : (stateAfter (ScopedApprovalStore.call id id sampleScope
      (.request sampleIntent 60 (some "first") "0" 100)) ∅).get?
        (ScopedApprovalStore.place id sampleScope (identifierOf (some "first") "0")) = some _ :=
    get?_request rfl (by decide) (by decide) Dict.get?_empty
  rw [identified] at kept
  exact kept

/-- Alice approves her own request, by a payload that names nobody. -/
theorem requester_approves_itself :
    ¬Along (operate plainText id id) (DecidedByAnother plainText id id) ∅
      [requested, .decide alice ownPayload 101] := by
  intro ⟨_, decided, _⟩
  have proper : (0 : ℚ) ≤ 101 := by decide
  have current : ¬(Progress.requested 100 60).Due 101 := by
    intro due
    have late : (100 + 60 : ℚ) ≤ 101 := due.2
    norm_num at late
  have pending : ((Progress.requested 100 60).expire 101).status = .pending := by
    rw [Progress.expire_of_not_due current]
    rfl
  have approved := statusOf_approvalDecide readDecision_ownPayload (by decide) readScopes_ownPayload
    rfl (by decide) proper get?_requested pending
  obtain ⟨identity, payload, now, same, byOperator | another⟩ := decided sampleScope "first" .approved
    (.inl rfl) (by rw [statusOf, get?_requested]; decide) approved
  · obtain ⟨decision, _, operator⟩ := byOperator
    cases same
    exact absurd operator.1 (by decide)
  · obtain ⟨tenant, principal, _, read, _, different⟩ := another
    cases same
    obtain rfl := Except.ok.inj read
    exact different rfl

end CapabilityHub.Approval
