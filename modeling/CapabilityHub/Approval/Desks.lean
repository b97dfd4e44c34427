import CapabilityHub.Approval.ScopedStore

/-! # Desks

A desk takes the calls of one store, for one scope where the store has several. What it means that
a desk does what the ledger says is `CapabilityHub.Approval.Refines`.
-/

namespace CapabilityHub.Approval

open Transaction

/-- How the first transaction of a call ends: with what the call returns, or with a record that is
read again. -/
inductive Answer where
  | record (record : Option ApprovalRecord)
  | records (records : List ApprovalRecord)
  | reread (approvalId : String) (now : ℚ)

/-- A store as its callers see it. -/
structure Desk (σ : Type) where
  record? : σ → String → Option ApprovalRecord
  /-- The first transaction of a call. -/
  start : Call → Transaction σ Raised Answer

/-- What is left of a call after its first transaction. -/
def Desk.finish {σ : Type} (desk : Desk σ) : Answer → Transaction σ Raised Answer
  | .reread approvalId now => desk.start (.get approvalId now)
  | answer => pure answer

/-- A call, one transaction after the other. -/
def Desk.perform {σ : Type} (desk : Desk σ) (call : Call) : Transaction σ Raised Answer := do
  let answer ← desk.start call
  desk.finish answer

/-- `SqliteApprovalStore`. -/
def sqliteDesk (sha256 : Bytes → Bytes) : Desk ApprovalRecords where
  record? table approvalId := (table.get? approvalId).map (Entry.record approvalId)
  start
    | .request intent ttlSeconds approvalId generated now => do
        let identifier ←
          SqliteApprovalStore.insertRecord intent ttlSeconds approvalId generated now
        pure (.reread identifier now)
    | .get approvalId now => do
        let record ← SqliteApprovalStore.get approvalId now
        pure (.record (some record))
    | .list status limit now => do
        let records ← SqliteApprovalStore.list status limit now
        pure (.records records)
    | .approve approvalId decidedBy now => do
        let record ← SqliteApprovalStore.approve approvalId decidedBy now
        pure (.record record)
    | .deny approvalId decidedBy now => do
        let record ← SqliteApprovalStore.deny approvalId decidedBy now
        pure (.record record)
    | .consume approvalId intent now => do
        let record ← SqliteApprovalStore.consume sha256 approvalId intent now
        pure (.record record)

/-- `ScopedApprovalStore`, for the calls of one scope. -/
def scopedDesk (sha256 mac : Bytes → Bytes) (scope : CallerScope) : Desk ScopedApprovalRecords where
  record? table approvalId :=
    (table.get? (scopeDigest mac scope.toTenantScope,
      approvalDigest mac (scopeDigest mac scope.toTenantScope) approvalId)).map fun row =>
        row.record scope
  start
    | .request intent ttlSeconds approvalId generated now => do
        let identifier ← ScopedApprovalStore.insertRecord mac scope intent ttlSeconds approvalId
          generated now
        pure (.reread identifier now)
    | .get approvalId now => do
        let record ← ScopedApprovalStore.get mac scope approvalId now
        pure (.record (some record))
    | .list status limit now => do
        let records ← ScopedApprovalStore.list mac scope status limit now
        pure (.records records)
    | .approve approvalId decidedBy now => do
        ScopedApprovalStore.decideRecord mac scope approvalId .approved decidedBy now
        pure (.reread approvalId now)
    | .deny approvalId decidedBy now => do
        ScopedApprovalStore.decideRecord mac scope approvalId .denied decidedBy now
        pure (.reread approvalId now)
    | .consume approvalId intent now => do
        ScopedApprovalStore.consumeRecord sha256 mac scope approvalId intent now
        pure (.reread approvalId now)

/-- A call of `SqliteApprovalStore`, by the method of its name. -/
def SqliteApprovalStore.call (sha256 : Bytes → Bytes) : Call → Transaction ApprovalRecords Raised Answer
  | .request intent ttlSeconds approvalId generated now =>
      (Answer.record ∘ some) <$> request intent ttlSeconds approvalId generated now
  | .get approvalId now => (Answer.record ∘ some) <$> get approvalId now
  | .list status limit now => .records <$> list status limit now
  | .approve approvalId decidedBy now => .record <$> approve approvalId decidedBy now
  | .deny approvalId decidedBy now => .record <$> deny approvalId decidedBy now
  | .consume approvalId intent now => .record <$> consume sha256 approvalId intent now

/-- A call of `ScopedApprovalStore`, by the method of its name. -/
def ScopedApprovalStore.call (sha256 mac : Bytes → Bytes) (scope : CallerScope) :
    Call → Transaction ScopedApprovalRecords Raised Answer
  | .request intent ttlSeconds approvalId generated now =>
      (Answer.record ∘ some) <$> request mac scope intent ttlSeconds approvalId generated now
  | .get approvalId now => (Answer.record ∘ some) <$> get mac scope approvalId now
  | .list status limit now => .records <$> list mac scope status limit now
  | .approve approvalId decidedBy now =>
      (Answer.record ∘ some) <$> approve mac scope approvalId decidedBy now
  | .deny approvalId decidedBy now =>
      (Answer.record ∘ some) <$> deny mac scope approvalId decidedBy now
  | .consume approvalId intent now =>
      (Answer.record ∘ some) <$> consume sha256 mac scope approvalId intent now

theorem perform_sqliteDesk (sha256 : Bytes → Bytes) (call : Call) :
    (sqliteDesk sha256).perform call = SqliteApprovalStore.call sha256 call := by
  cases call <;>
    simp [Desk.perform, Desk.finish, sqliteDesk, SqliteApprovalStore.call,
      SqliteApprovalStore.request, Function.comp_def]

theorem perform_scopedDesk (sha256 mac : Bytes → Bytes) (scope : CallerScope) (call : Call) :
    (scopedDesk sha256 mac scope).perform call = ScopedApprovalStore.call sha256 mac scope call := by
  cases call <;>
    simp [Desk.perform, Desk.finish, scopedDesk, ScopedApprovalStore.call,
      ScopedApprovalStore.request, ScopedApprovalStore.approve, ScopedApprovalStore.deny,
      ScopedApprovalStore.decide, ScopedApprovalStore.consume, Function.comp_def]

/-! ## A desk that does what the ledger says -/

section

variable {σ : Type} (desk : Desk σ) {table : σ} {ledger next : Ledger} {call : Call}

/-- The records of the store are those of the ledger. -/
def Follows (table : σ) (ledger : Ledger) : Prop :=
  ∀ approvalId, desk.record? table approvalId = (ledger approvalId).map (Entry.record approvalId)

/-- An answer to a call, in the ledger that the call leads to. -/
def Tells (call : Call) (next : Ledger) : Answer → Prop
  | .record record => ∃ approvalId entry, call.subject = some approvalId ∧
      next approvalId = some entry ∧ record = some (entry.record approvalId)
  | .records _ => call.subject = none
  | .reread approvalId now => call.subject = some approvalId ∧ now = call.now ∧
      (∃ entry, next approvalId = some entry ∧ ¬entry.progress.Due now) ∧
      call ≠ .get approvalId now

/-- The desk takes the calls that the ledger takes, and refuses the others. -/
structure Refines (legal : Call → Prop) : Prop where
  gets : ∀ approvalId now, legal (.get approvalId now)
  accepts : ∀ {table ledger next call}, legal call → Follows desk table ledger →
    ledger "" = none → ledger.after call = some next →
    ∃ answer final, desk.start call table = .ok answer final ∧ Follows desk final next ∧
      Tells call next answer
  refuses : ∀ {table ledger call}, legal call → Follows desk table ledger →
    ledger "" = none → ledger.after call = none → ∃ error, desk.start call table = .error error table

end

/-! ## What both stores check -/

section

variable {now : ℚ}

theorem checkNow_of_nonneg (proper : 0 ≤ now) : checkNow now = .ok () := by
  rw [checkNow, raiseIf, if_neg (not_lt.mpr proper)]

theorem checkNow_of_neg (early : ¬0 ≤ now) : checkNow now = .error .valueError := by
  rw [checkNow, raiseIf, if_pos (not_le.mp early)]

theorem checkListLimit_of_proper {limit : Int} (proper : 1 ≤ limit ∧ limit ≤ 500) :
    checkListLimit limit = .ok () := by
  rw [checkListLimit, raiseIf, if_neg (not_not_intro proper)]

theorem selectedStatus_eq_ok {status : Option String} : (∃ wanted, selectedStatus status = .ok wanted) ↔
    ∀ text ∈ status, ∃ known, ApprovalStatus.parse text = .ok known := by
  cases status with
  | none => exact ⟨fun _ _ member => by contradiction, fun _ => ⟨none, rfl⟩⟩
  | some text =>
      rw [selectedStatus]
      constructor
      · intro ⟨wanted, done⟩ other same
        obtain rfl := Option.some.inj same
        obtain ⟨known, parsed, _⟩ := map_eq_ok.mp done
        exact ⟨known, parsed⟩
      · intro known
        obtain ⟨status, parsed⟩ := known text rfl
        exact ⟨some status, map_eq_ok.mpr ⟨status, parsed, rfl⟩⟩

theorem bind_ok {σ α β : Type} {work : Transaction σ Raised α} {answer : α → β} {table final : σ}
    {value : α} (done : work table = .ok value final) :
    (do let value ← work; pure (answer value) : Transaction σ Raised β) table =
      .ok (answer value) final :=
  bind_of_ok done

theorem bind_error {σ α β : Type} {work : Transaction σ Raised α} {answer : α → β} {table : σ}
    (raised : ∃ error, work table = .error error table) :
    ∃ error, (do let value ← work; pure (answer value) : Transaction σ Raised β) table =
      .error error table := by
  obtain ⟨error, raised⟩ := raised
  exact ⟨error, bind_of_error raised⟩

end

end CapabilityHub.Approval
