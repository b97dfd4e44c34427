import CapabilityHub.Approval.Desks

/-! # The approval store does what the ledger says -/

namespace CapabilityHub.Approval

open Transaction

section

variable {sha256 : Bytes → Bytes} {table : ApprovalRecords} {ledger next : Ledger} {call : Call}
  {approvalId other : String} {now : ℚ} {row : Entry}

/-- The entry that the moment leaves. -/
def Entry.expire (now : ℚ) (row : Entry) : Entry := ⟨row.intent, row.progress.expire now⟩

namespace SqliteApprovalStore

theorem get?_expire_one : (expire now (some approvalId) table).get? other =
    if other = approvalId then (table.get? other).map (Entry.expire now) else table.get? other := by
  rw [expire, Dict.get?_updateWhere]
  cases table.get? other with
  | none => simp
  | some row =>
      by_cases same : other = approvalId <;> by_cases due : row.progress.Due now <;>
        simp [same, due, Entry.expire, Entry.expired, Progress.expire]

theorem get?_expire_all :
    (expire now none table).get? other = (table.get? other).map (Entry.expire now) := by
  rw [expire, Dict.get?_updateWhere]
  cases table.get? other with
  | none => rfl
  | some row =>
      by_cases due : row.progress.Due now <;>
        simp [due, Entry.expire, Entry.expired, Progress.expire]

theorem expire_of_absent (absent : table.get? approvalId = none) :
    expire now (some approvalId) table = table := by
  apply Dict.updateWhere_of_forall_not
  intro key row found ⟨_, named⟩
  rw [named approvalId rfl, absent] at found
  contradiction

theorem get_of_some (proper : 0 ≤ now) (found : table.get? approvalId = some row) :
    get approvalId now table =
      .ok ((row.expire now).record approvalId) (expire now (some approvalId) table) := by
  rw [get, query_bind, checkNow_of_nonneg proper]
  simp [bind, EStateM.bind, atomically, write, query, get?_expire_one, found]

theorem get_of_refused (refused : table.get? approvalId = none ∨ ¬0 ≤ now) :
    ∃ error, get approvalId now table = .error error table := by
  rw [get, query_bind]
  by_cases proper : 0 ≤ now
  · have absent := refused.resolve_right (not_not_intro proper)
    rw [checkNow_of_nonneg proper]
    refine ⟨notFound approvalId, ?_⟩
    simp [bind, EStateM.bind, atomically, write, query, get?_expire_one, expire_of_absent, absent]
  · rw [checkNow_of_neg proper]
    exact ⟨_, rfl⟩

theorem insertRecord_of_fresh {intent : ApprovalIntent} {ttlSeconds : ℚ} {given : Option String}
    {generated : String} (lasting : 0 < ttlSeconds) (proper : 0 ≤ now)
    (fresh : table.get? (identifierOf given generated) = none) :
    insertRecord intent ttlSeconds given generated now table =
      .ok (identifierOf given generated)
        (table.set (identifierOf given generated) ⟨intent, .requested now ttlSeconds⟩) := by
  rw [insertRecord, query_bind, raiseIf, if_neg (not_le.mpr lasting)]
  dsimp only
  rw [query_bind, raiseIf, if_neg (identifierOf_ne_empty _ _)]
  dsimp only
  rw [query_bind, checkNow_of_nonneg proper]
  simp [bind, EStateM.bind, pure, EStateM.pure, atomically, write, query, raiseIf, fresh]

theorem insertRecord_of_refused {intent : ApprovalIntent} {ttlSeconds : ℚ} {given : Option String}
    {generated : String}
    (refused : ¬(0 < ttlSeconds ∧ 0 ≤ now ∧ table.get? (identifierOf given generated) = none)) :
    ∃ error, insertRecord intent ttlSeconds given generated now table = .error error table := by
  rw [insertRecord, query_bind]
  by_cases lasting : ttlSeconds ≤ 0
  · rw [raiseIf, if_pos lasting]
    exact ⟨_, rfl⟩
  rw [raiseIf, if_neg lasting]
  dsimp only
  rw [query_bind, raiseIf, if_neg (identifierOf_ne_empty _ _)]
  dsimp only
  rw [query_bind]
  by_cases proper : 0 ≤ now
  · have taken : table.get? (identifierOf given generated) ≠ none := fun fresh =>
      refused ⟨not_le.mp lasting, proper, fresh⟩
    rw [checkNow_of_nonneg proper]
    exact ⟨.valueError, by simp [bind, EStateM.bind, atomically, query, raiseIf, taken]⟩
  · rw [checkNow_of_neg proper]
    exact ⟨_, rfl⟩

theorem list_of_listable {status : Option String} {limit : Int}
    (listable : Listable status limit now) :
    ∃ records, list status limit now table = .ok records (expire now none table) := by
  obtain ⟨wanted, parsed⟩ := selectedStatus_eq_ok.mpr listable.2.1
  refine ⟨selected wanted limit (expire now none table), ?_⟩
  rw [list, query_bind, checkListLimit_of_proper listable.1]
  dsimp only
  rw [query_bind, parsed]
  simp [bind, EStateM.bind, atomically, write, query, checkNow_of_nonneg listable.2.2]

theorem list_of_refused {status : Option String} {limit : Int}
    (refused : ¬Listable status limit now) :
    ∃ error, list status limit now table = .error error table := by
  rw [list, query_bind]
  by_cases bounded : 1 ≤ limit ∧ limit ≤ 500
  · rw [checkListLimit_of_proper bounded]
    dsimp only
    rw [query_bind]
    cases parsed : selectedStatus status with
    | error error => exact ⟨error, rfl⟩
    | ok wanted =>
        have early : ¬0 ≤ now := fun proper =>
          refused ⟨bounded, selectedStatus_eq_ok.mp ⟨wanted, parsed⟩, proper⟩
        exact ⟨.valueError, by simp [bind, EStateM.bind, atomically, query, checkNow_of_neg early]⟩
  · rw [checkListLimit, raiseIf, if_pos bounded]
    exact ⟨_, rfl⟩

/-- The table that a decision leaves. -/
def decided (approvalId : String) (status : ApprovalStatus) (decidedBy : String) (now : ℚ)
    (table : ApprovalRecords) : ApprovalRecords :=
  (expire now (some approvalId) table).updateWhere
    (fun key row => key = approvalId ∧ row.progress.status = .pending)
    fun row => ⟨row.intent, row.progress.decided now status decidedBy⟩

/-- The table that a consumption leaves. -/
def consumed (approvalId : String) (now : ℚ) (table : ApprovalRecords) : ApprovalRecords :=
  (expire now (some approvalId) table).updateWhere
    (fun key row => key = approvalId ∧ row.progress.status = .approved)
    fun row => ⟨row.intent, row.progress.consumed now⟩

theorem get?_decided {status : ApprovalStatus} {decidedBy : String}
    (found : table.get? approvalId = some row)
    (pending : (row.progress.expire now).status = .pending) :
    (decided approvalId status decidedBy now table).get? other =
      if other = approvalId then some ⟨row.intent, row.progress.decided now status decidedBy⟩
      else table.get? other := by
  have current : row.progress.expire now = row.progress := by
    rw [Progress.expire] at pending ⊢
    split at pending <;> simp_all [Progress.expired]
  rw [current] at pending
  rw [decided, Dict.get?_updateWhere, get?_expire_one]
  by_cases same : other = approvalId
  · subst same
    simp [found, Entry.expire, current, pending]
  · simp [same]

theorem get?_consumed (found : table.get? approvalId = some row)
    (approved : (row.progress.expire now).status = .approved) :
    (consumed approvalId now table).get? other =
      if other = approvalId then some ⟨row.intent, row.progress.consumed now⟩
      else table.get? other := by
  have current : row.progress.expire now = row.progress := by
    rw [Progress.expire] at approved ⊢
    split at approved <;> simp_all [Progress.expired]
  rw [current] at approved
  rw [consumed, Dict.get?_updateWhere, get?_expire_one]
  by_cases same : other = approvalId
  · subst same
    simp [found, Entry.expire, current, approved]
  · simp [same]

theorem checkPending_eq_ok : checkPending approvalId (some row) = .ok () ↔
    row.progress.status = .pending := by
  rw [checkPending]
  simp only [bind_eq_ok, exists_unit, raiseIf_eq_ok, not_not]
  exact ⟨fun both => both.2, fun pending => ⟨by rw [pending]; decide, pending⟩⟩

theorem checkConsumable_eq_ok (injective : Function.Injective sha256) {intent : ApprovalIntent} :
    checkConsumable sha256 approvalId intent (some row) = .ok () ↔
      row.intent = intent ∧ row.progress.status = .approved := by
  rw [checkConsumable]
  simp only [bind_eq_ok, exists_unit, raiseIf_eq_ok, not_not, Bool.not_eq_false,
    sameIntent_iff injective]
  exact ⟨fun all => ⟨all.1, all.2.2.2⟩, fun ⟨same, approved⟩ =>
    ⟨same, by rw [approved]; decide, by rw [approved]; decide, approved⟩⟩

theorem decide_of_pending {status : ApprovalStatus} {decidedBy : String} (named : decidedBy ≠ "")
    (proper : 0 ≤ now) (found : table.get? approvalId = some row)
    (pending : (row.progress.expire now).status = .pending) :
    decide approvalId status decidedBy now table =
      .ok (some (Entry.record approvalId ⟨row.intent, row.progress.decided now status decidedBy⟩))
        (decided approvalId status decidedBy now table) := by
  have visible : (expire now (some approvalId) table).get? approvalId = some (row.expire now) := by
    rw [get?_expire_one, if_pos rfl, found, Option.map_some]
  have allowed : checkPending approvalId (some (row.expire now)) = .ok () :=
    checkPending_eq_ok.mpr pending
  have stored : (decided approvalId status decidedBy now table).get? approvalId =
      some ⟨row.intent, row.progress.decided now status decidedBy⟩ := by
    rw [get?_decided found pending, if_pos rfl]
  rw [decide, query_bind, raiseIf, if_neg named]
  dsimp only
  rw [query_bind, checkNow_of_nonneg proper]
  simp only [bind, EStateM.bind, atomically, write, query, visible, allowed]
  rw [decided] at stored
  rw [stored, decided]
  rfl

theorem decide_of_refused {status : ApprovalStatus} {decidedBy : String}
    (refused : ∀ row, table.get? approvalId = some row →
      ¬(decidedBy ≠ "" ∧ 0 ≤ now ∧ (row.progress.expire now).status = .pending)) :
    ∃ error, decide approvalId status decidedBy now table = .error error table := by
  rw [decide, query_bind]
  by_cases unnamed : decidedBy = ""
  · rw [raiseIf, if_pos unnamed]
    exact ⟨_, rfl⟩
  rw [raiseIf, if_neg unnamed]
  dsimp only
  rw [query_bind]
  by_cases proper : 0 ≤ now
  · rw [checkNow_of_nonneg proper]
    have raised : ∃ error, checkPending approvalId
        ((expire now (some approvalId) table).get? approvalId) = .error error := by
      rw [get?_expire_one, if_pos rfl]
      cases found : table.get? approvalId with
      | none => exact ⟨_, rfl⟩
      | some row =>
          cases checked : checkPending approvalId (some (row.expire now)) with
          | error error => exact ⟨error, checked⟩
          | ok => exact absurd ⟨unnamed, proper, checkPending_eq_ok.mp checked⟩ (refused row found)
    obtain ⟨error, raised⟩ := raised
    exact ⟨error, by simp [bind, EStateM.bind, atomically, write, query, raised]⟩
  · rw [checkNow_of_neg proper]
    exact ⟨_, rfl⟩

theorem consume_of_approved (injective : Function.Injective sha256) {intent : ApprovalIntent}
    (proper : 0 ≤ now) (found : table.get? approvalId = some row) (same : row.intent = intent)
    (approved : (row.progress.expire now).status = .approved) :
    consume sha256 approvalId intent now table =
      .ok (some (Entry.record approvalId ⟨row.intent, row.progress.consumed now⟩))
        (consumed approvalId now table) := by
  have visible : (expire now (some approvalId) table).get? approvalId = some (row.expire now) := by
    rw [get?_expire_one, if_pos rfl, found, Option.map_some]
  have allowed : checkConsumable sha256 approvalId intent (some (row.expire now)) = .ok () :=
    (checkConsumable_eq_ok injective).mpr ⟨same, approved⟩
  have stored : (consumed approvalId now table).get? approvalId =
      some ⟨row.intent, row.progress.consumed now⟩ := by
    rw [get?_consumed found approved, if_pos rfl]
  rw [consume, query_bind, checkNow_of_nonneg proper]
  simp only [bind, EStateM.bind, atomically, write, query, visible, allowed]
  rw [consumed] at stored
  rw [stored, consumed]
  rfl

theorem consume_of_refused (injective : Function.Injective sha256) {intent : ApprovalIntent}
    (refused : ∀ row, table.get? approvalId = some row →
      ¬(0 ≤ now ∧ row.intent = intent ∧ (row.progress.expire now).status = .approved)) :
    ∃ error, consume sha256 approvalId intent now table = .error error table := by
  rw [consume, query_bind]
  by_cases proper : 0 ≤ now
  · rw [checkNow_of_nonneg proper]
    have raised : ∃ error, checkConsumable sha256 approvalId intent
        ((expire now (some approvalId) table).get? approvalId) = .error error := by
      rw [get?_expire_one, if_pos rfl]
      cases found : table.get? approvalId with
      | none => exact ⟨_, rfl⟩
      | some row =>
          cases checked : checkConsumable sha256 approvalId intent (some (row.expire now)) with
          | error error => exact ⟨error, checked⟩
          | ok =>
              obtain ⟨same, approved⟩ := (checkConsumable_eq_ok injective).mp checked
              exact absurd ⟨proper, same, approved⟩ (refused row found)
    obtain ⟨error, raised⟩ := raised
    exact ⟨error, by simp [bind, EStateM.bind, atomically, write, query, raised]⟩
  · rw [checkNow_of_neg proper]
    exact ⟨_, rfl⟩

end SqliteApprovalStore

end

section

variable {sha256 mac : Bytes → Bytes} {ledger next : Ledger} {call : Call} {now : ℚ}

theorem follows_sqlite {table : ApprovalRecords} :
    Follows (sqliteDesk sha256) table ledger ↔ ∀ approvalId, table.get? approvalId = ledger approvalId := by
  have injective (approvalId : String) : Function.Injective (Entry.record approvalId) := by
    intro first second same
    rw [Entry.record, Entry.record, ApprovalRecord.mk.injEq] at same
    obtain ⟨_, intents, progresses⟩ := same
    cases first
    cases second
    cases intents
    cases progresses
    rfl
  exact forall_congr' fun approvalId => (Option.map_injective (injective approvalId)).eq_iff

/-- `SqliteApprovalStore` does what the ledger says. -/
theorem sqlite_refines (injective : Function.Injective sha256) :
    Refines (sqliteDesk sha256) fun _ => True where
  gets := fun _ _ => trivial
  accepts := by
    intro table ledger next call _ follows _ done
    rw [follows_sqlite] at follows
    have spelled : ∀ final, (∀ approvalId, final.get? approvalId = next approvalId) →
        Follows (sqliteDesk sha256) final next := fun final same => follows_sqlite.mpr same
    cases call with
    | request intent ttlSeconds given generated now =>
        rw [Ledger.after] at done
        split at done
        next proper =>
          obtain rfl := Option.some.inj done
          refine ⟨_, _, bind_ok (SqliteApprovalStore.insertRecord_of_fresh proper.1 proper.2.1
            ((follows _).trans proper.2.2)), spelled _ fun approvalId => ?_,
            rfl, rfl, ⟨_, Ledger.put_self, Progress.not_due_requested proper.1⟩,
              fun same => by cases same⟩
          rw [Dict.get?_set, Ledger.put, Function.update_apply, follows]
        next => contradiction
    | get subject now =>
        rw [Ledger.after] at done
        split at done
        next => contradiction
        next entry found =>
          split at done
          next proper =>
            obtain rfl := Option.some.inj done
            refine ⟨_, _, bind_ok (SqliteApprovalStore.get_of_some proper ((follows _).trans found)),
              spelled _ fun approvalId => ?_, subject, _, rfl, Ledger.put_self, rfl⟩
            rw [SqliteApprovalStore.get?_expire_one, Ledger.put, Function.update_apply, follows]
            by_cases same : approvalId = subject
            · subst same
              rw [if_pos rfl, if_pos rfl, found]
              rfl
            · rw [if_neg same, if_neg same]
          next => contradiction
    | list status limit now =>
        rw [Ledger.after] at done
        split at done
        next listable =>
          obtain rfl := Option.some.inj done
          obtain ⟨records, listed⟩ := SqliteApprovalStore.list_of_listable listable
          refine ⟨_, _, bind_ok listed, spelled _ fun approvalId => ?_, rfl⟩
          rw [SqliteApprovalStore.get?_expire_all, follows]
          rfl
        next => contradiction
    | approve subject decidedBy now =>
        rw [Ledger.after, Ledger.decide] at done
        split at done
        next => contradiction
        next entry found =>
          split at done
          next proper =>
            obtain rfl := Option.some.inj done
            refine ⟨_, _, bind_ok (SqliteApprovalStore.decide_of_pending proper.1 proper.2.1
              ((follows _).trans found) proper.2.2), spelled _ fun approvalId => ?_,
              subject, _, rfl, Ledger.put_self, rfl⟩
            rw [SqliteApprovalStore.get?_decided ((follows _).trans found) proper.2.2, follows,
              Ledger.put, Function.update_apply]
          next => contradiction
    | deny subject decidedBy now =>
        rw [Ledger.after, Ledger.decide] at done
        split at done
        next => contradiction
        next entry found =>
          split at done
          next proper =>
            obtain rfl := Option.some.inj done
            refine ⟨_, _, bind_ok (SqliteApprovalStore.decide_of_pending proper.1 proper.2.1
              ((follows _).trans found) proper.2.2), spelled _ fun approvalId => ?_,
              subject, _, rfl, Ledger.put_self, rfl⟩
            rw [SqliteApprovalStore.get?_decided ((follows _).trans found) proper.2.2, follows,
              Ledger.put, Function.update_apply]
          next => contradiction
    | consume subject intent now =>
        rw [Ledger.after] at done
        split at done
        next => contradiction
        next entry found =>
          split at done
          next proper =>
            obtain rfl := Option.some.inj done
            refine ⟨_, _, bind_ok (SqliteApprovalStore.consume_of_approved injective proper.1
              ((follows _).trans found) proper.2.1 proper.2.2), spelled _ fun approvalId => ?_,
              subject, _, rfl, Ledger.put_self, rfl⟩
            rw [SqliteApprovalStore.get?_consumed ((follows _).trans found) proper.2.2, follows,
              Ledger.put, Function.update_apply]
          next => contradiction
  refuses := by
    intro table ledger call _ follows _ refused
    rw [follows_sqlite] at follows
    cases call with
    | request intent ttlSeconds given generated now =>
        rw [Ledger.after, ite_eq_right_iff] at refused
        refine bind_error (SqliteApprovalStore.insertRecord_of_refused ?_)
        rw [follows]
        exact fun proper => by simpa using refused proper
    | get subject now =>
        rw [Ledger.after] at refused
        refine bind_error (SqliteApprovalStore.get_of_refused ?_)
        rw [follows]
        split at refused
        next absent => exact .inl absent
        next entry found => exact .inr fun proper => by simp [proper] at refused
    | list status limit now =>
        rw [Ledger.after] at refused
        split at refused
        next => contradiction
        next unlistable => exact bind_error (SqliteApprovalStore.list_of_refused unlistable)
    | approve subject decidedBy now =>
        rw [Ledger.after, Ledger.decide] at refused
        refine bind_error (SqliteApprovalStore.decide_of_refused fun row found proper => ?_)
        rw [follows] at found
        rw [found] at refused
        simp [proper] at refused
    | deny subject decidedBy now =>
        rw [Ledger.after, Ledger.decide] at refused
        refine bind_error (SqliteApprovalStore.decide_of_refused fun row found proper => ?_)
        rw [follows] at found
        rw [found] at refused
        simp [proper] at refused
    | consume subject intent now =>
        rw [Ledger.after] at refused
        refine bind_error (SqliteApprovalStore.consume_of_refused injective fun row found proper => ?_)
        rw [follows] at found
        rw [found] at refused
        simp [proper] at refused

end

end CapabilityHub.Approval
