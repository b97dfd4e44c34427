import CapabilityHub.Approval.Desks

/-! # The scoped approval store does what the ledger says

For the calls of one scope, whose requests are for intents of the scope.
-/

namespace CapabilityHub.Approval

open Transaction

section

variable {sha256 mac : Bytes → Bytes} {scope : CallerScope} {table : ScopedApprovalRecords}
  {approvalId : String} {now : ℚ} {row : ScopedApprovalRow} {other : String × String}

namespace ScopedApprovalStore

variable (mac scope) in
/-- The primary key of a record. -/
def place (approvalId : String) : String × String :=
  (scopeDigest mac scope.toTenantScope,
    approvalDigest mac (scopeDigest mac scope.toTenantScope) approvalId)

/-- The row that the moment leaves. -/
def expireRow (now : ℚ) (row : ScopedApprovalRow) : ScopedApprovalRow :=
  row.withProgress (row.progress.expire now)

theorem digests_of_named (named : approvalId ≠ "") :
    digests mac scope approvalId = .ok (place mac scope approvalId) := by
  rw [digests, raiseIf, if_neg named]
  rfl

theorem digests_of_unnamed (unnamed : approvalId = "") :
    digests mac scope approvalId = .error .valueError := by
  rw [digests, raiseIf, if_pos unnamed]
  rfl

theorem expireRow_eq : (if row.progress.Due now then row.withProgress row.progress.expired else row) =
    expireRow now row := by
  rw [expireRow, Progress.expire]
  split <;> rfl

theorem get?_expire_one {at' : String × String} : (expire at'.1 now (some at'.2) table).get? other =
    if other = at' then (table.get? other).map (expireRow now) else table.get? other := by
  rw [expire, Dict.get?_updateWhere]
  cases table.get? other with
  | none => simp
  | some row =>
      by_cases same : other = at'
      · simp [same, ← expireRow_eq]
      · have elsewhere : ¬(other.1 = at'.1 ∧ other.2 = at'.2) := fun both =>
          same (Prod.ext both.1 both.2)
        simp [same, elsewhere]

theorem get?_expire_all {digest : String} : (expire digest now none table).get? other =
    if other.1 = digest then (table.get? other).map (expireRow now) else table.get? other := by
  rw [expire, Dict.get?_updateWhere]
  cases table.get? other with
  | none => simp
  | some row => by_cases same : other.1 = digest <;> simp [same, ← expireRow_eq]

theorem expire_of_absent {at' : String × String} (absent : table.get? at' = none) :
    expire at'.1 now (some at'.2) table = table := by
  apply Dict.updateWhere_of_forall_not
  intro key row found ⟨_, placed, named⟩
  rw [Prod.ext placed (named at'.2 rfl), absent] at found
  contradiction

theorem get_of_some (proper : 0 ≤ now) (named : approvalId ≠ "")
    (found : table.get? (place mac scope approvalId) = some row) :
    get mac scope approvalId now table = .ok ((expireRow now row).record scope)
      (expire (place mac scope approvalId).1 now (some (place mac scope approvalId).2) table) := by
  rw [get, query_bind, checkNow_of_nonneg proper]
  dsimp only
  rw [query_bind, digests_of_named named]
  simp [bind, EStateM.bind, atomically, write, query, get?_expire_one, found]

theorem get_of_refused (refused : approvalId = "" ∨
    table.get? (place mac scope approvalId) = none ∨ ¬0 ≤ now) :
    ∃ error, get mac scope approvalId now table = .error error table := by
  rw [get, query_bind]
  by_cases proper : 0 ≤ now
  · rw [checkNow_of_nonneg proper]
    dsimp only
    rw [query_bind]
    by_cases unnamed : approvalId = ""
    · rw [digests_of_unnamed unnamed]
      exact ⟨_, rfl⟩
    · have absent := (refused.resolve_left unnamed).resolve_right (not_not_intro proper)
      rw [digests_of_named unnamed]
      refine ⟨notFound approvalId, ?_⟩
      simp [bind, EStateM.bind, atomically, write, query, get?_expire_one, expire_of_absent, absent]
  · rw [checkNow_of_neg proper]
    exact ⟨_, rfl⟩

theorem insertRecord_of_fresh {intent : ApprovalIntent} {ttlSeconds : ℚ} {given : Option String}
    {generated : String} (own : scope.Matches intent) (lasting : 0 < ttlSeconds) (proper : 0 ≤ now)
    (fresh : table.get? (place mac scope (identifierOf given generated)) = none) :
    insertRecord mac scope intent ttlSeconds given generated now table =
      .ok (identifierOf given generated)
        (table.set (place mac scope (identifierOf given generated))
          (.requested (identifierOf given generated) intent (.requested now ttlSeconds))) := by
  rw [insertRecord, query_bind, requireMatchingScope, raiseIf, if_neg (not_not_intro own)]
  dsimp only
  rw [query_bind, raiseIf, if_neg (not_le.mpr lasting)]
  dsimp only
  rw [query_bind, raiseIf, if_neg (identifierOf_ne_empty _ _)]
  dsimp only
  rw [query_bind, checkNow_of_nonneg proper]
  dsimp only
  rw [query_bind, digests_of_named (identifierOf_ne_empty _ _)]
  simp [bind, EStateM.bind, pure, EStateM.pure, atomically, write, query, raiseIf, fresh]

theorem insertRecord_of_refused {intent : ApprovalIntent} {ttlSeconds : ℚ} {given : Option String}
    {generated : String} (own : scope.Matches intent) (refused : ¬(0 < ttlSeconds ∧ 0 ≤ now ∧
      table.get? (place mac scope (identifierOf given generated)) = none)) :
    ∃ error, insertRecord mac scope intent ttlSeconds given generated now table =
      .error error table := by
  rw [insertRecord, query_bind, requireMatchingScope, raiseIf, if_neg (not_not_intro own)]
  dsimp only
  rw [query_bind]
  by_cases lasting : ttlSeconds ≤ 0
  · rw [raiseIf, if_pos lasting]
    exact ⟨_, rfl⟩
  rw [raiseIf, if_neg lasting]
  dsimp only
  rw [query_bind, raiseIf, if_neg (identifierOf_ne_empty _ _)]
  dsimp only
  rw [query_bind]
  by_cases proper : 0 ≤ now
  · have taken : table.get? (place mac scope (identifierOf given generated)) ≠ none := fun fresh =>
      refused ⟨not_le.mp lasting, proper, fresh⟩
    rw [checkNow_of_nonneg proper]
    dsimp only
    rw [query_bind, digests_of_named (identifierOf_ne_empty _ _)]
    exact ⟨.valueError, by simp [bind, EStateM.bind, atomically, query, raiseIf, taken]⟩
  · rw [checkNow_of_neg proper]
    exact ⟨_, rfl⟩

theorem list_of_listable {status : Option String} {limit : Int}
    (listable : Listable status limit now) :
    ∃ records, list mac scope status limit now table =
      .ok records (expire (scopeDigest mac scope.toTenantScope) now none table) := by
  obtain ⟨wanted, parsed⟩ := selectedStatus_eq_ok.mpr listable.2.1
  refine ⟨selected scope (scopeDigest mac scope.toTenantScope) wanted limit
    (expire (scopeDigest mac scope.toTenantScope) now none table), ?_⟩
  rw [list, query_bind, checkListLimit_of_proper listable.1]
  dsimp only
  rw [query_bind, parsed]
  simp [bind, EStateM.bind, atomically, write, query, checkNow_of_nonneg listable.2.2]

theorem list_of_refused {status : Option String} {limit : Int}
    (refused : ¬Listable status limit now) :
    ∃ error, list mac scope status limit now table = .error error table := by
  rw [list, query_bind]
  by_cases bounded : 1 ≤ limit ∧ limit ≤ 500
  · rw [checkListLimit_of_proper bounded]
    dsimp only
    rw [query_bind]
    cases parsed : selectedStatus status with
    | error error => exact ⟨error, rfl⟩
    | ok wanted =>
        have early : ¬0 ≤ now := fun proper =>
          refused ⟨bounded, selectedStatus_eq_ok.mp ⟨wanted, parsed⟩, proper⟩
        exact ⟨.valueError, by simp [bind, EStateM.bind, atomically, query, checkNow_of_neg early]⟩
  · rw [checkListLimit, raiseIf, if_pos bounded]
    exact ⟨_, rfl⟩

variable (mac scope) in
/-- The table that a decision leaves. -/
def decided (approvalId : String) (status : ApprovalStatus) (decidedBy : String) (now : ℚ)
    (table : ScopedApprovalRecords) : ScopedApprovalRecords :=
  (expire (place mac scope approvalId).1 now (some (place mac scope approvalId).2)
      table).updateWhere
    (fun key row => key = place mac scope approvalId ∧ row.progress.status = .pending)
    fun row => row.withProgress (row.progress.decided now status decidedBy)

variable (mac scope) in
/-- The table that a consumption leaves. -/
def consumed (approvalId : String) (now : ℚ) (table : ScopedApprovalRecords) :
    ScopedApprovalRecords :=
  (expire (place mac scope approvalId).1 now (some (place mac scope approvalId).2)
      table).updateWhere (Consumable (place mac scope approvalId))
    fun row => row.withProgress (row.progress.consumed now)

theorem get?_decided {status : ApprovalStatus} {decidedBy : String}
    (found : table.get? (place mac scope approvalId) = some row)
    (pending : (row.progress.expire now).status = .pending) :
    (decided mac scope approvalId status decidedBy now table).get? other =
      if other = place mac scope approvalId then
        some (row.withProgress (row.progress.decided now status decidedBy))
      else table.get? other := by
  have current := Progress.expire_of_not_due fun due : row.progress.Due now =>
    not_lt.mpr due.2 (Progress.lt_of_pending pending).1
  rw [current] at pending
  rw [decided, Dict.get?_updateWhere, get?_expire_one]
  by_cases same : other = place mac scope approvalId
  · subst same
    simp [found, expireRow, ScopedApprovalRow.withProgress, current, pending]
  · simp [same]

theorem get?_consumed (found : table.get? (place mac scope approvalId) = some row)
    (approved : (row.progress.expire now).status = .approved) :
    (consumed mac scope approvalId now table).get? other =
      if other = place mac scope approvalId then
        some (row.withProgress (row.progress.consumed now))
      else table.get? other := by
  have current := Progress.expire_of_not_due fun due : row.progress.Due now =>
    not_lt.mpr due.2 (Progress.lt_of_approved approved).1
  rw [current] at approved
  rw [consumed, Dict.get?_updateWhere, get?_expire_one]
  by_cases same : other = place mac scope approvalId
  · subst same
    simp [found, expireRow, ScopedApprovalRow.withProgress, current, approved, Consumable]
  · simp [same, Consumable]

theorem checkPending_eq_ok : checkPending approvalId (some row) = .ok () ↔
    row.progress.status = .pending := by
  rw [checkPending, raiseIf_eq_ok, not_not]

theorem checkConsumable_eq_ok (injective : Function.Injective sha256) {intent : ApprovalIntent} :
    checkConsumable sha256 scope approvalId intent (some row) = .ok () ↔
      row.intent scope = intent ∧ row.progress.status = .approved := by
  rw [checkConsumable]
  simp only [bind_eq_ok, exists_unit, raiseIf_eq_ok, not_not, Bool.not_eq_false,
    sameIntent_iff injective]

theorem decideRecord_of_pending {status : ApprovalStatus} {decidedBy : String}
    (named : approvalId ≠ "") (decider : decidedBy ≠ "") (proper : 0 ≤ now)
    (found : table.get? (place mac scope approvalId) = some row)
    (pending : (row.progress.expire now).status = .pending) :
    decideRecord mac scope approvalId status decidedBy now table =
      .ok () (decided mac scope approvalId status decidedBy now table) := by
  have visible : (expire (place mac scope approvalId).1 now (some (place mac scope approvalId).2)
      table).get? (place mac scope approvalId) = some (expireRow now row) := by
    rw [get?_expire_one, if_pos rfl, found, Option.map_some]
  have allowed : checkPending approvalId (some (expireRow now row)) = .ok () :=
    checkPending_eq_ok.mpr pending
  rw [decideRecord, query_bind, raiseIf, if_neg decider]
  dsimp only
  rw [query_bind, checkNow_of_nonneg proper]
  dsimp only
  rw [query_bind, digests_of_named named]
  simp only [bind, EStateM.bind, atomically, write, query, visible, allowed]
  rfl

theorem decideRecord_of_refused {status : ApprovalStatus} {decidedBy : String}
    (refused : approvalId = "" ∨ ∀ row, table.get? (place mac scope approvalId) = some row →
      ¬(decidedBy ≠ "" ∧ 0 ≤ now ∧ (row.progress.expire now).status = .pending)) :
    ∃ error, decideRecord mac scope approvalId status decidedBy now table = .error error table := by
  rw [decideRecord, query_bind]
  by_cases unnamed : decidedBy = ""
  · rw [raiseIf, if_pos unnamed]
    exact ⟨_, rfl⟩
  rw [raiseIf, if_neg unnamed]
  dsimp only
  rw [query_bind]
  by_cases proper : 0 ≤ now
  · rw [checkNow_of_nonneg proper]
    dsimp only
    rw [query_bind]
    by_cases empty : approvalId = ""
    · rw [digests_of_unnamed empty]
      exact ⟨_, rfl⟩
    have refused := refused.resolve_left empty
    rw [digests_of_named empty]
    have raised : ∃ error, checkPending approvalId ((expire (place mac scope approvalId).1 now
        (some (place mac scope approvalId).2) table).get? (place mac scope approvalId)) =
          .error error := by
      rw [get?_expire_one, if_pos rfl]
      cases found : table.get? (place mac scope approvalId) with
      | none => exact ⟨_, rfl⟩
      | some row =>
          cases checked : checkPending approvalId (some (expireRow now row)) with
          | error error => exact ⟨error, checked⟩
          | ok => exact absurd ⟨unnamed, proper, checkPending_eq_ok.mp checked⟩ (refused row found)
    obtain ⟨error, raised⟩ := raised
    exact ⟨error, by simp [bind, EStateM.bind, atomically, write, query, raised]⟩
  · rw [checkNow_of_neg proper]
    exact ⟨_, rfl⟩

theorem consumeRecord_of_approved (injective : Function.Injective sha256) {intent : ApprovalIntent}
    (own : scope.Matches intent) (named : approvalId ≠ "") (proper : 0 ≤ now)
    (found : table.get? (place mac scope approvalId) = some row) (same : row.intent scope = intent)
    (approved : (row.progress.expire now).status = .approved) :
    consumeRecord sha256 mac scope approvalId intent now table =
      .ok () (consumed mac scope approvalId now table) := by
  have visible : (expire (place mac scope approvalId).1 now (some (place mac scope approvalId).2)
      table).get? (place mac scope approvalId) = some (expireRow now row) := by
    rw [get?_expire_one, if_pos rfl, found, Option.map_some]
  have allowed : checkConsumable sha256 scope approvalId intent (some (expireRow now row)) =
      .ok () := (checkConsumable_eq_ok injective).mpr ⟨same, approved⟩
  have one := Dict.countWhere_key (Consumable (place mac scope approvalId)) visible
    (fun _ _ chosen => chosen.1) ⟨rfl, approved⟩
  rw [consumeRecord, query_bind, requireMatchingScope, raiseIf, if_neg (not_not_intro own)]
  dsimp only
  rw [query_bind, checkNow_of_nonneg proper]
  dsimp only
  rw [query_bind, digests_of_named named]
  simp only [bind, EStateM.bind, atomically, write, query, visible, allowed, one, raiseIf]
  rfl

theorem consumeRecord_of_refused (injective : Function.Injective sha256) {intent : ApprovalIntent}
    (refused : approvalId = "" ∨ ∀ row, table.get? (place mac scope approvalId) = some row →
      ¬(0 ≤ now ∧ row.intent scope = intent ∧ (row.progress.expire now).status = .approved)) :
    ∃ error, consumeRecord sha256 mac scope approvalId intent now table = .error error table := by
  rw [consumeRecord, query_bind]
  by_cases own : scope.Matches intent
  swap
  · rw [requireMatchingScope, raiseIf, if_pos own]
    exact ⟨_, rfl⟩
  rw [requireMatchingScope, raiseIf, if_neg (not_not_intro own)]
  dsimp only
  rw [query_bind]
  by_cases proper : 0 ≤ now
  · rw [checkNow_of_nonneg proper]
    dsimp only
    rw [query_bind]
    by_cases empty : approvalId = ""
    · rw [digests_of_unnamed empty]
      exact ⟨_, rfl⟩
    have refused := refused.resolve_left empty
    rw [digests_of_named empty]
    have raised : ∃ error, checkConsumable sha256 scope approvalId intent
        ((expire (place mac scope approvalId).1 now (some (place mac scope approvalId).2)
          table).get? (place mac scope approvalId)) = .error error := by
      rw [get?_expire_one, if_pos rfl]
      cases found : table.get? (place mac scope approvalId) with
      | none => exact ⟨_, rfl⟩
      | some row =>
          cases checked : checkConsumable sha256 scope approvalId intent
            (some (expireRow now row)) with
          | error error => exact ⟨error, checked⟩
          | ok =>
              obtain ⟨same, approved⟩ := (checkConsumable_eq_ok injective).mp checked
              exact absurd ⟨proper, same, approved⟩ (refused row found)
    obtain ⟨error, raised⟩ := raised
    exact ⟨error, by simp [bind, EStateM.bind, atomically, write, query, raised]⟩
  · rw [checkNow_of_neg proper]
    exact ⟨_, rfl⟩

end ScopedApprovalStore

end

section

variable {sha256 mac : Bytes → Bytes} {ledger next : Ledger} {now : ℚ}

/-- The calls of a desk of the scope: a request is for an intent of the scope. -/
def Call.Within (scope : CallerScope) : Call → Prop
  | .request intent .. => scope.Matches intent
  | _ => True

section

variable {scope : CallerScope} {table final : ScopedApprovalRecords} {approvalId subject : String}
  {row : ScopedApprovalRow} {entry : Entry}

open ScopedApprovalStore (place)

theorem place_injective (injective : Function.Injective mac) :
    Function.Injective (place mac scope) := fun _ _ same =>
  approvalDigest_injective injective _ (Prod.ext_iff.mp same).2

theorem Follows.absent (follows : Follows (scopedDesk sha256 mac scope) table ledger) :
    table.get? (place mac scope approvalId) = none ↔ ledger approvalId = none := by
  have same : (table.get? (place mac scope approvalId)).map _ = _ := follows approvalId
  constructor
  · intro absent
    rwa [absent, Option.map_none, eq_comm, Option.map_eq_none_iff] at same
  · intro absent
    rwa [absent, Option.map_none, Option.map_eq_none_iff] at same

theorem Follows.found (follows : Follows (scopedDesk sha256 mac scope) table ledger)
    (found : ledger approvalId = some entry) :
    ∃ row, table.get? (place mac scope approvalId) = some row ∧
      row.record scope = entry.record approvalId := by
  have same : (table.get? (place mac scope approvalId)).map _ = _ := follows approvalId
  rw [found, Option.map_some, Option.map_eq_some_iff] at same
  exact same

/-- A row tells its entry. -/
theorem entry_of_record (same : row.record scope = entry.record approvalId) :
    row.approvalId = approvalId ∧ row.intent scope = entry.intent ∧
      row.progress = entry.progress := by
  rw [ScopedApprovalRow.record, Entry.record, ApprovalRecord.mk.injEq] at same
  exact same

/-- A table that changed one row follows the ledger that changed its entry. -/
theorem Follows.put (injective : Function.Injective mac)
    (follows : Follows (scopedDesk sha256 mac scope) table ledger)
    (changed : ∀ other, final.get? other =
      if other = place mac scope subject then some row else table.get? other)
    (told : row.record scope = entry.record subject) :
    Follows (scopedDesk sha256 mac scope) final (ledger.put subject entry) := by
  intro approvalId
  change (final.get? (place mac scope approvalId)).map _ = _
  rw [changed]
  by_cases same : approvalId = subject
  · subst same
    rw [if_pos rfl, Ledger.put_self, Option.map_some, Option.map_some, told]
  · rw [if_neg fun equal => same (place_injective injective equal), Ledger.put_of_ne same]
    exact follows approvalId

theorem record_requested {intent : ApprovalIntent} {progress : Progress}
    (own : scope.Matches intent) :
    (ScopedApprovalRow.requested approvalId intent progress).record scope =
      Entry.record approvalId ⟨intent, progress⟩ := by
  rw [CallerScope.Matches, Prod.mk.injEq, Prod.mk.injEq, Prod.mk.injEq] at own
  obtain ⟨tenant, principal, session, task⟩ := own
  cases intent
  dsimp only at tenant principal session task
  subst tenant principal session task
  rfl

theorem matches_intent : scope.Matches (row.intent scope) := rfl

theorem record_withProgress {progress : Progress}
    (told : row.record scope = entry.record approvalId) :
    (row.withProgress progress).record scope = Entry.record approvalId ⟨entry.intent, progress⟩ := by
  obtain ⟨named, intent, _⟩ := entry_of_record told
  rw [Entry.record, ← intent, ← named]
  rfl

/-- A decision of the ledger is one of the scoped store. -/
theorem decideRecord_of_decide (injective : Function.Injective mac)
    (follows : Follows (scopedDesk sha256 mac scope) table ledger) (unnamed : ledger "" = none)
    {status : ApprovalStatus} {decidedBy : String}
    (done : ledger.decide subject status decidedBy now = some next) :
    ∃ final, ScopedApprovalStore.decideRecord mac scope subject status decidedBy now table =
        .ok () final ∧ Follows (scopedDesk sha256 mac scope) final next ∧
      ∃ (intent : ApprovalIntent) (progress : Progress), next subject = some ⟨intent, progress.decided now status decidedBy⟩ ∧
        now < progress.expiresAt := by
  rw [Ledger.decide] at done
  split at done
  next => contradiction
  next entry found =>
    split at done
    next proper =>
      obtain rfl := Option.some.inj done
      obtain ⟨row, stored, told⟩ := follows.found found
      have pending : (row.progress.expire now).status = .pending := by
        rw [(entry_of_record told).2.2]
        exact proper.2.2
      have named : subject ≠ "" := fun empty => by
        rw [empty, unnamed] at found
        contradiction
      refine ⟨_, ScopedApprovalStore.decideRecord_of_pending named proper.1 proper.2.1 stored pending,
        follows.put injective (fun _ => ScopedApprovalStore.get?_decided stored pending) ?_,
        entry.intent, entry.progress, Ledger.put_self, (Progress.lt_of_pending proper.2.2).1⟩
      rw [record_withProgress told, (entry_of_record told).2.2]
    next => contradiction

theorem decideRecord_of_undecided (follows : Follows (scopedDesk sha256 mac scope) table ledger)
    {status : ApprovalStatus} {decidedBy : String}
    (refused : ledger.decide subject status decidedBy now = none) :
    ∃ error, ScopedApprovalStore.decideRecord mac scope subject status decidedBy now table =
      .error error table := by
  refine ScopedApprovalStore.decideRecord_of_refused (.inr fun row stored proper => ?_)
  have told := follows subject
  change (table.get? (place mac scope subject)).map _ = _ at told
  rw [stored, Option.map_some, eq_comm, Option.map_eq_some_iff] at told
  obtain ⟨entry, found, told⟩ := told
  rw [(entry_of_record told.symm).2.2] at proper
  rw [Ledger.decide, found] at refused
  simp [proper] at refused

/-- `ScopedApprovalStore` does what the ledger says, for the calls of one scope. -/
theorem scoped_refines (injective : Function.Injective sha256) (keyed : Function.Injective mac) :
    Refines (scopedDesk sha256 mac scope) (Call.Within scope) where
  gets := fun _ _ => trivial
  accepts := by
    intro table ledger next call within follows unnamed done
    cases call with
    | request intent ttlSeconds given generated now =>
        rw [Ledger.after] at done
        split at done
        next proper =>
          obtain rfl := Option.some.inj done
          exact ⟨_, _, bind_ok (ScopedApprovalStore.insertRecord_of_fresh within proper.1
            proper.2.1 (follows.absent.mpr proper.2.2)),
            follows.put keyed (fun _ => Dict.get?_set) (record_requested within),
            rfl, rfl, ⟨_, Ledger.put_self, Progress.not_due_requested proper.1⟩,
              fun same => by cases same⟩
        next => contradiction
    | get subject now =>
        rw [Ledger.after] at done
        split at done
        next => contradiction
        next entry found =>
          split at done
          next proper =>
            obtain rfl := Option.some.inj done
            obtain ⟨row, stored, told⟩ := follows.found found
            have named : subject ≠ "" := fun empty => by
              rw [empty, unnamed] at found
              contradiction
            have expired : (ScopedApprovalStore.expireRow now row).record scope =
                Entry.record subject ⟨entry.intent, entry.progress.expire now⟩ := by
              rw [ScopedApprovalStore.expireRow, record_withProgress told,
                (entry_of_record told).2.2]
            refine ⟨_, _, bind_ok (ScopedApprovalStore.get_of_some proper named stored),
              follows.put keyed (fun other => ?_) expired, subject, _, rfl, Ledger.put_self, ?_⟩
            · rw [ScopedApprovalStore.get?_expire_one]
              by_cases same : other = place mac scope subject
              · subst same
                rw [if_pos rfl, if_pos rfl, stored, Option.map_some]
              · rw [if_neg same, if_neg same]
            · rw [expired]
          next => contradiction
    | list status limit now =>
        rw [Ledger.after] at done
        split at done
        next listable =>
          obtain rfl := Option.some.inj done
          have listing : ∃ records, ScopedApprovalStore.list mac scope status limit now table =
              .ok records _ := ScopedApprovalStore.list_of_listable listable
          obtain ⟨records, listed⟩ := listing
          refine ⟨_, _, bind_ok listed, fun approvalId => ?_, rfl⟩
          change ((ScopedApprovalStore.expire _ now none table).get?
            (place mac scope approvalId)).map _ = _
          have here : (place mac scope approvalId).1 = scopeDigest mac scope.toTenantScope := rfl
          rw [ScopedApprovalStore.get?_expire_all, if_pos here]
          dsimp only
          cases found : ledger approvalId with
          | none => rw [follows.absent.mpr found]; rfl
          | some entry =>
              obtain ⟨row, stored, told⟩ := follows.found found
              rw [stored, Option.map_some, Option.map_some, Option.map_some, Option.map_some,
                ScopedApprovalStore.expireRow, record_withProgress told, (entry_of_record told).2.2]
        next => contradiction
    | approve subject decidedBy now =>
        obtain ⟨final, decided, following, intent, progress, told, current⟩ :=
          decideRecord_of_decide keyed follows unnamed done
        exact ⟨_, _, bind_ok decided, following, rfl, rfl,
          ⟨_, told, fun due => not_le.mpr current due.2⟩, fun same => by cases same⟩
    | deny subject decidedBy now =>
        obtain ⟨final, decided, following, intent, progress, told, current⟩ :=
          decideRecord_of_decide keyed follows unnamed done
        exact ⟨_, _, bind_ok decided, following, rfl, rfl,
          ⟨_, told, fun due => not_le.mpr current due.2⟩, fun same => by cases same⟩
    | consume subject intent now =>
        rw [Ledger.after] at done
        split at done
        next => contradiction
        next entry found =>
          split at done
          next proper =>
            obtain rfl := Option.some.inj done
            obtain ⟨row, stored, told⟩ := follows.found found
            obtain ⟨_, intents, progresses⟩ := entry_of_record told
            have named : subject ≠ "" := fun empty => by
              rw [empty, unnamed] at found
              contradiction
            have same : row.intent scope = intent := intents.trans proper.2.1
            have own : scope.Matches intent := by
              rw [← same]
              exact matches_intent
            have approved : (row.progress.expire now).status = .approved := by
              rw [progresses]
              exact proper.2.2
            refine ⟨_, _, bind_ok (ScopedApprovalStore.consumeRecord_of_approved injective own named
              proper.1 stored same approved),
              follows.put keyed (fun _ => ScopedApprovalStore.get?_consumed stored approved) ?_,
              rfl, rfl, ⟨_, Ledger.put_self, Progress.not_due_terminal (.inr (.inl rfl))⟩,
                fun same => by cases same⟩
            rw [record_withProgress told, progresses]
          next => contradiction
  refuses := by
    intro table ledger call within follows unnamed refused
    cases call with
    | request intent ttlSeconds given generated now =>
        rw [Ledger.after, ite_eq_right_iff] at refused
        refine bind_error (ScopedApprovalStore.insertRecord_of_refused within ?_)
        rw [follows.absent]
        exact fun proper => by simpa using refused proper
    | get subject now =>
        rw [Ledger.after] at refused
        refine bind_error (ScopedApprovalStore.get_of_refused (.inr ?_))
        rw [follows.absent]
        split at refused
        next absent => exact .inl absent
        next entry found => exact .inr fun proper => by simp [proper] at refused
    | list status limit now =>
        rw [Ledger.after] at refused
        split at refused
        next => contradiction
        next unlistable => exact bind_error (ScopedApprovalStore.list_of_refused unlistable)
    | approve subject decidedBy now =>
        obtain ⟨error, raised⟩ := decideRecord_of_undecided follows refused
        exact ⟨error, bind_of_error raised⟩
    | deny subject decidedBy now =>
        obtain ⟨error, raised⟩ := decideRecord_of_undecided follows refused
        exact ⟨error, bind_of_error raised⟩
    | consume subject intent now =>
        rw [Ledger.after] at refused
        have raised : ∃ error, ScopedApprovalStore.consumeRecord sha256 mac scope subject intent now
            table = .error error table := by
          refine ScopedApprovalStore.consumeRecord_of_refused injective
            (.inr fun row stored proper => ?_)
          have told := follows subject
          change (table.get? (place mac scope subject)).map _ = _ at told
          rw [stored, Option.map_some, eq_comm, Option.map_eq_some_iff] at told
          obtain ⟨entry, found, told⟩ := told
          obtain ⟨_, intents, progresses⟩ := entry_of_record told.symm
          rw [intents, progresses] at proper
          rw [found] at refused
          simp [proper] at refused
        obtain ⟨error, raised⟩ := raised
        exact ⟨error, bind_of_error raised⟩

end

end

end CapabilityHub.Approval
