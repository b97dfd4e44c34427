import CapabilityHub.Approval.ScopedRefines
import CapabilityHub.Approval.StoreRefines

/-! # Interleaved calls

The transactions of the calls of a store interleave in any order: a call starts with its first
transaction, and the second one, where there is one, follows at any later moment. Along every such
run each record lives by the state machine, and the two stores, driven by the same calls, take the
same calls and keep the same records (`CapabilityHub.Approval.desks_alike`).
-/

namespace CapabilityHub.Approval

open Transaction

/-- A store whose calls are under way. -/
structure InFlight (σ : Type) where
  table : σ
  /-- The second transactions that are still to come. -/
  rereads : List (String × ℚ) := []
  /-- The calls that were not refused, the last one first. -/
  past : List Call := []

inductive Action where
  /-- The first transaction of a call. -/
  | start (call : Call)
  /-- The second transaction of a call for the record, at the moment of the call. -/
  | reread (approvalId : String) (now : ℚ)

section

variable {σ τ : Type} (desk : Desk σ)

def InFlight.step (state : InFlight σ) : Action → InFlight σ
  | .start call =>
      match desk.start call state.table with
      | .ok (.reread approvalId now) table =>
          ⟨table, (approvalId, now) :: state.rereads, call :: state.past⟩
      | .ok _ table => ⟨table, state.rereads, call :: state.past⟩
      | .error _ table => { state with table := table }
  | .reread approvalId now =>
      if (approvalId, now) ∈ state.rereads then
        { state with
          table := stateAfter (desk.start (.get approvalId now)) state.table
          rereads := state.rereads.erase (approvalId, now) }
      else state

/-- The first transaction of the call returns. -/
def Takes (call : Call) (table : σ) : Prop :=
  ∃ answer final, desk.start call table = .ok answer final

/-- The call, performed at once, returns. -/
def Succeeds (call : Call) (table : σ) : Prop :=
  ∃ answer final, desk.perform call table = .ok answer final

/-- The call, performed at once, returns the record. -/
def Returns (call : Call) (table : σ) (record : ApprovalRecord) : Prop :=
  ∃ final, desk.perform call table = .ok (.record (some record)) final

/-- **What holds of every step of a store.** -/
structure Lawful (state : InFlight σ) (action : Action) : Prop where
  /-- A record is consumed once, after it was approved, before its expiry, for its own intent. -/
  consumption : ∀ approvalId intent now, action = .start (.consume approvalId intent now) →
    Takes desk (.consume approvalId intent now) state.table →
    (∃ record, desk.record? state.table approvalId = some record ∧
      now < record.progress.expiresAt ∧ record.intent = intent) ∧
    (∃ call ∈ state.past, call.Approves approvalId) ∧
    ∀ call ∈ state.past, ¬call.Consumes approvalId
  /-- No other step consumes. -/
  only : ∀ approvalId record,
    desk.record? (state.step desk action).table approvalId = some record →
    record.progress.status = .consumed → desk.record? state.table approvalId = some record ∨
      ∃ intent now, action = .start (.consume approvalId intent now)
  /-- A denied, consumed or expired record stays as it is. -/
  terminal : ∀ approvalId record, desk.record? state.table approvalId = some record →
    record.progress.status.Terminal →
    desk.record? (state.step desk action).table approvalId = some record
  /-- A call that raises in its first transaction changes nothing. -/
  refusal : ∀ call, action = .start call → ¬Takes desk call state.table →
    (state.step desk action).table = state.table
  /-- A second transaction finds its record, and leaves all records as they are. -/
  rereads : ∀ approvalId now, action = .reread approvalId now →
    (approvalId, now) ∈ state.rereads →
    (∃ record final, desk.start (.get approvalId now) state.table =
      .ok (.record (some record)) final) ∧
    ∀ other, desk.record? (state.step desk action).table other = desk.record? state.table other

/-- Two stores, each driven by the action. -/
def stepBoth (first : Desk σ) (second : Desk τ) (state : InFlight σ × InFlight τ)
    (action : Action) : InFlight σ × InFlight τ :=
  (state.1.step first action, state.2.step second action)

/-- **The two stores answer the action alike.** -/
structure Alike (first : Desk σ) (second : Desk τ) (state : InFlight σ × InFlight τ)
    (action : Action) : Prop where
  taken : ∀ call, action = .start call →
    (Takes first call state.1.table ↔ Takes second call state.2.table)
  succeeding : ∀ call, action = .start call →
    (Succeeds first call state.1.table ↔ Succeeds second call state.2.table)
  returned : ∀ call, action = .start call → ∀ record,
    (Returns first call state.1.table record ↔ Returns second call state.2.table record)
  records : ∀ approvalId, first.record? (stepBoth first second state action).1.table approvalId =
    second.record? (stepBoth first second state action).2.table approvalId

end

/-! ## A store in flight and the ledger -/

section

variable {σ τ : Type} {desk : Desk σ} {legal : Call → Prop} {state : InFlight σ} {table : σ}
  {ledger next : Ledger} {call : Call} {action : Action} {approvalId : String} {entry : Entry}
  {now : ℚ}

/-- Nothing is left to expire at the moment of a second transaction. -/
def Settled (ledger : Ledger) (approvalId : String) (now : ℚ) : Prop :=
  0 ≤ now ∧ ∃ entry, ledger approvalId = some entry ∧ ¬entry.progress.Due now

/-- The store keeps the records of the ledger. -/
structure Sound (desk : Desk σ) (state : InFlight σ) (ledger : Ledger) : Prop where
  follows : Follows desk state.table ledger
  recorded : Recorded state.past ledger
  settled : ∀ reread ∈ state.rereads, Settled ledger reread.1 reread.2

/-- The ledger after an action: a second transaction does nothing. -/
noncomputable def Action.after (ledger : Ledger) : Action → Ledger
  | .start call => (ledger.after call).getD ledger
  | .reread .. => ledger

theorem Moved.settled (moved : Moved call approvalId (some entry) (some entry'))
    (settled : ¬entry.progress.Due now) : ¬entry'.progress.Due now := by
  cases moved with
  | kept => exact settled
  | expired => exact Progress.not_due_terminal (.inr (.inr rfl))
  | approved pending => exact fun due => settled ⟨.inl pending, due.2⟩
  | denied => exact Progress.not_due_terminal (.inl rfl)
  | consumed => exact Progress.not_due_terminal (.inr (.inl rfl))

theorem Settled.after (settled : Settled ledger approvalId now)
    (done : ledger.after call = some next) : Settled next approvalId now := by
  obtain ⟨proper, entry, found, current⟩ := settled
  have moved := moved_of_after done approvalId
  rw [found] at moved
  obtain ⟨entry', found', _⟩ := moved.remains
  rw [found'] at moved
  exact ⟨proper, entry', found', moved.settled current⟩

/-- Reading a settled record again leaves the ledger as it is. -/
theorem Settled.after_get (settled : Settled ledger approvalId now) :
    ledger.after (.get approvalId now) = some ledger := by
  obtain ⟨proper, entry, found, current⟩ := settled
  have same : ledger.put approvalId ⟨entry.intent, entry.progress.expire now⟩ = ledger := by
    rw [Progress.expire_of_not_due current, Ledger.put, ← found, Function.update_eq_self]
  rw [Ledger.after, found]
  dsimp only
  rw [if_pos proper, same]

theorem nonneg_of_after (done : ledger.after call = some next) : 0 ≤ call.now := by
  cases call with
  | request =>
      rw [Ledger.after] at done
      split at done
      next proper => exact proper.2.1
      next => contradiction
  | get =>
      rw [Ledger.after] at done
      split at done
      next => contradiction
      next =>
        split at done
        next proper => exact proper
        next => contradiction
  | list =>
      rw [Ledger.after] at done
      split at done
      next listable => exact listable.2.2
      next => contradiction
  | approve | deny =>
      rw [Ledger.after, Ledger.decide] at done
      split at done
      next => contradiction
      next =>
        split at done
        next proper => exact proper.2.1
        next => contradiction
  | consume =>
      rw [Ledger.after] at done
      split at done
      next => contradiction
      next =>
        split at done
        next proper => exact proper.1
        next => contradiction

theorem Refines.takes_iff (refines : Refines desk legal) (allowed : legal call)
    (follows : Follows desk table ledger) (unnamed : ledger "" = none) :
    Takes desk call table ↔ ∃ next, ledger.after call = some next := by
  constructor
  · intro ⟨answer, final, taken⟩
    cases done : ledger.after call with
    | some next => exact ⟨next, rfl⟩
    | none =>
        obtain ⟨error, raised⟩ := refines.refuses allowed follows unnamed done
        rw [raised] at taken
        contradiction
  · intro ⟨next, done⟩
    obtain ⟨answer, final, taken, _⟩ := refines.accepts allowed follows unnamed done
    exact ⟨answer, final, taken⟩

/-- A call performed at once returns the record that the ledger then has. -/
theorem Refines.perform_of_after (refines : Refines desk legal) (allowed : legal call)
    (follows : Follows desk table ledger) (unnamed : ledger "" = none)
    (done : ledger.after call = some next) :
    ∃ answer final, desk.perform call table = .ok answer final ∧
      match call.subject with
      | some approvalId =>
          ∃ entry, next approvalId = some entry ∧ answer = .record (some (entry.record approvalId))
      | none => ∃ records, answer = .records records := by
  obtain ⟨answer, final, taken, following, tells⟩ := refines.accepts allowed follows unnamed done
  have performed : desk.perform call table = desk.finish answer final := bind_of_ok taken
  rw [performed]
  cases answer with
  | record record =>
      obtain ⟨approvalId, entry, subject, found, rfl⟩ := tells
      rw [subject]
      exact ⟨_, final, rfl, entry, found, rfl⟩
  | records records =>
      rw [show call.subject = none from tells]
      exact ⟨_, final, rfl, records, rfl⟩
  | reread approvalId now =>
      obtain ⟨subject, rfl, ⟨entry, found, current⟩, _⟩ := tells
      have settled : Settled next approvalId call.now := ⟨nonneg_of_after done, entry, found, current⟩
      obtain ⟨answer, final', reread, _, told⟩ :=
        refines.accepts (refines.gets approvalId call.now) following
          (unnamed_of_after unnamed done) settled.after_get
      rw [subject]
      refine ⟨answer, final', reread, entry, found, ?_⟩
      cases answer with
      | record record =>
          obtain ⟨_, entry', same, found', rfl⟩ := told
          obtain rfl := Option.some.inj same
          rw [found] at found'
          obtain rfl := Option.some.inj found'
          rfl
      | records => contradiction
      | reread other now =>
          obtain ⟨same, rfl, _, different⟩ := told
          obtain rfl := Option.some.inj same
          exact absurd rfl different

theorem Refines.succeeds_iff (refines : Refines desk legal) (allowed : legal call)
    (follows : Follows desk table ledger) (unnamed : ledger "" = none) :
    Succeeds desk call table ↔ ∃ next, ledger.after call = some next := by
  constructor
  · intro succeeds
    obtain ⟨answer, final, performed⟩ := succeeds
    cases done : ledger.after call with
    | some next => exact ⟨next, rfl⟩
    | none =>
        obtain ⟨error, raised⟩ := refines.refuses allowed follows unnamed done
        rw [Desk.perform, bind_of_error raised] at performed
        contradiction
  · intro accepted
    obtain ⟨next, done⟩ := accepted
    obtain ⟨answer, final, performed, _⟩ := refines.perform_of_after allowed follows unnamed done
    exact ⟨answer, final, performed⟩

/-- What a call returns is the record in the ledger after it. -/
theorem Refines.returns_iff (refines : Refines desk legal) (allowed : legal call)
    (follows : Follows desk table ledger) (unnamed : ledger "" = none) {record : ApprovalRecord} :
    Returns desk call table record ↔ ∃ next approvalId entry, ledger.after call = some next ∧
      call.subject = some approvalId ∧ next approvalId = some entry ∧
      entry.record approvalId = record := by
  constructor
  · intro ⟨final, performed⟩
    obtain ⟨next, done⟩ := (refines.succeeds_iff allowed follows unnamed).mp ⟨_, _, performed⟩
    obtain ⟨answer, final', performed', told⟩ :=
      refines.perform_of_after allowed follows unnamed done
    rw [performed] at performed'
    obtain ⟨rfl, rfl⟩ := EStateM.Result.ok.inj performed'
    generalize about : call.subject = subject at told
    cases subject with
    | none =>
        obtain ⟨records, same⟩ := told
        contradiction
    | some approvalId =>
        obtain ⟨entry, found, same⟩ := told
        exact ⟨next, approvalId, entry, done, rfl, found, (Option.some.inj (Answer.record.inj same)).symm⟩
  · intro ⟨next, approvalId, entry, done, about, found, same⟩
    obtain ⟨answer, final, performed, told⟩ := refines.perform_of_after allowed follows unnamed done
    rw [about] at told
    obtain ⟨entry', found', rfl⟩ := told
    rw [found] at found'
    obtain rfl := Option.some.inj found'
    exact ⟨final, by rw [performed, same]⟩

def Action.Legal (legal : Call → Prop) : Action → Prop
  | .start call => legal call
  | .reread .. => True

/-- The table, the calls and the second transactions after a call that is taken. -/
theorem step_of_taken {answer : Answer} {final : σ}
    (taken : desk.start call state.table = .ok answer final) :
    (state.step desk (.start call)).table = final ∧
      (state.step desk (.start call)).past = call :: state.past ∧
      ∀ reread ∈ (state.step desk (.start call)).rereads,
        answer = .reread reread.1 reread.2 ∨ reread ∈ state.rereads := by
  rw [InFlight.step, taken]
  cases answer with
  | record | records => exact ⟨rfl, rfl, fun _ member => .inr member⟩
  | reread approvalId now =>
      refine ⟨rfl, rfl, fun reread member => ?_⟩
      rcases List.mem_cons.mp member with rfl | member
      · exact .inl rfl
      · exact .inr member

theorem step_of_raised {error : Raised} (raised : desk.start call state.table = .error error state.table) :
    state.step desk (.start call) = state := by
  rw [InFlight.step, raised]

/-- Every step keeps the records of the ledger. -/
theorem Sound.step (refines : Refines desk legal) (allowed : action.Legal legal)
    (sound : Sound desk state ledger) : Sound desk (state.step desk action) (action.after ledger) := by
  cases action with
  | start call =>
      rw [Action.after]
      cases done : ledger.after call with
      | none =>
          obtain ⟨error, raised⟩ :=
            refines.refuses allowed sound.follows sound.recorded.unnamed done
          rwa [step_of_raised raised]
      | some next =>
          obtain ⟨answer, final, taken, following, tells⟩ :=
            refines.accepts allowed sound.follows sound.recorded.unnamed done
          obtain ⟨table, past, rereads⟩ := step_of_taken taken
          refine ⟨by rwa [table], by rw [past]; exact sound.recorded.after done, ?_⟩
          intro reread member
          rcases rereads reread member with rfl | member
          · obtain ⟨_, same, settled, _⟩ := tells
            exact ⟨same ▸ nonneg_of_after done, settled⟩
          · exact (sound.settled reread member).after done
  | reread approvalId now =>
      rw [Action.after, InFlight.step]
      split
      next member =>
        obtain ⟨answer, final, taken, following, _⟩ := refines.accepts (refines.gets approvalId now)
          sound.follows sound.recorded.unnamed (sound.settled _ member).after_get
        refine ⟨?_, sound.recorded, fun reread kept => sound.settled _ (List.mem_of_mem_erase kept)⟩
        rw [stateAfter, taken]
        exact following
      next => exact sound

theorem Follows.record_iff (follows : Follows desk table ledger) {record : ApprovalRecord} :
    desk.record? table approvalId = some record ↔
      ∃ entry, ledger approvalId = some entry ∧ entry.record approvalId = record := by
  rw [follows, Option.map_eq_some_iff]

/-- What an action makes of every record. -/
theorem Sound.moved (refines : Refines desk legal) (allowed : action.Legal legal)
    (sound : Sound desk state ledger) (approvalId : String) :
    (action.after ledger) approvalId = ledger approvalId ∨
      ∃ call, action = .start call ∧ Takes desk call state.table ∧
        Moved call approvalId (ledger approvalId) ((action.after ledger) approvalId) := by
  cases action with
  | start call =>
      rw [Action.after]
      cases done : ledger.after call with
      | none => exact .inl rfl
      | some next => exact .inr ⟨call, rfl, (refines.takes_iff allowed sound.follows
          sound.recorded.unnamed).mpr ⟨next, done⟩, moved_of_after done approvalId⟩
  | reread => exact .inl rfl

/-- Every step of a store that keeps the records of the ledger is lawful. -/
theorem Sound.lawful (refines : Refines desk legal) (allowed : action.Legal legal)
    (sound : Sound desk state ledger) : Lawful desk state action := by
  have after := sound.step refines allowed
  constructor
  · intro approvalId intent now same taken
    subst same
    obtain ⟨next, done⟩ := (refines.takes_iff allowed sound.follows sound.recorded.unnamed).mp taken
    rw [Ledger.after] at done
    split at done
    next => contradiction
    next entry found =>
      split at done
      next proper =>
        obtain ⟨current, approved⟩ := Progress.lt_of_approved proper.2.2
        refine ⟨⟨_, sound.follows.record_iff.mpr ⟨entry, found, rfl⟩, current, proper.2.1⟩,
          sound.recorded.approved approvalId entry found (.inl approved), ?_⟩
        intro other member consumes
        obtain ⟨entry', found', consumed⟩ :=
          sound.recorded.consumed approvalId ⟨other, member, consumes⟩
        rw [found] at found'
        obtain rfl := Option.some.inj found'
        rw [approved] at consumed
        contradiction
      next => contradiction
  · intro approvalId record found consumed
    obtain ⟨entry, kept, rfl⟩ := after.follows.record_iff.mp found
    rcases sound.moved refines allowed approvalId with same | ⟨call, rfl, _, moved⟩
    · exact .inl (sound.follows.record_iff.mpr ⟨entry, same.symm.trans kept, rfl⟩)
    · rw [kept] at moved
      rcases moved.consumes consumed with before | consumes
      · exact .inl (sound.follows.record_iff.mpr ⟨entry, before, rfl⟩)
      · cases call with
        | consume other intent now =>
            obtain rfl : other = approvalId := consumes
            exact .inr ⟨intent, now, rfl⟩
        | _ => exact absurd consumes id
  · intro approvalId record found terminal
    obtain ⟨entry, stored, rfl⟩ := sound.follows.record_iff.mp found
    refine after.follows.record_iff.mpr ⟨entry, ?_, rfl⟩
    rcases sound.moved refines allowed approvalId with same | ⟨call, rfl, _, moved⟩
    · exact same.trans stored
    · rw [stored] at moved
      exact moved.terminal terminal
  · intro call same refused
    subst same
    cases done : ledger.after call with
    | some next => exact absurd ((refines.takes_iff allowed sound.follows
        sound.recorded.unnamed).mpr ⟨next, done⟩) refused
    | none =>
        obtain ⟨error, raised⟩ := refines.refuses allowed sound.follows sound.recorded.unnamed done
        rw [step_of_raised raised]
  · intro approvalId now same member
    subst same
    have settled := sound.settled _ member
    obtain ⟨answer, final, taken, _, tells⟩ := refines.accepts (refines.gets approvalId now)
      sound.follows sound.recorded.unnamed settled.after_get
    refine ⟨?_, fun other => (after.follows other).trans (sound.follows other).symm⟩
    cases answer with
    | record =>
        obtain ⟨_, entry, _, _, rfl⟩ := tells
        exact ⟨_, final, taken⟩
    | records => contradiction
    | reread other now =>
        obtain ⟨same, rfl, _, different⟩ := tells
        obtain rfl := Option.some.inj same
        exact absurd rfl different

variable {second : Desk τ} {legal' : Call → Prop} {state' : InFlight τ}

/-- Two stores that keep the records of one ledger answer alike. -/
theorem Sound.alike (refines : Refines desk legal) (refines' : Refines second legal')
    (allowed : action.Legal legal) (allowed' : action.Legal legal') (sound : Sound desk state ledger)
    (sound' : Sound second state' ledger) : Alike desk second (state, state') action := by
  constructor
  · intro call same
    subst same
    rw [refines.takes_iff allowed sound.follows sound.recorded.unnamed,
      refines'.takes_iff allowed' sound'.follows sound'.recorded.unnamed]
  · intro call same
    subst same
    rw [refines.succeeds_iff allowed sound.follows sound.recorded.unnamed,
      refines'.succeeds_iff allowed' sound'.follows sound'.recorded.unnamed]
  · intro call same record
    subst same
    rw [refines.returns_iff allowed sound.follows sound.recorded.unnamed,
      refines'.returns_iff allowed' sound'.follows sound'.recorded.unnamed]
  · intro approvalId
    exact ((sound.step refines allowed).follows approvalId).trans
      ((sound'.step refines' allowed').follows approvalId).symm

end

/-! ## The two stores -/

section

variable {sha256 mac : Bytes → Bytes}

/-- A plain store and one for a scope, both empty. -/
def emptyDesks : InFlight ApprovalRecords × InFlight ScopedApprovalRecords := (⟨∅, [], []⟩, ⟨∅, [], []⟩)

/-- **Approval records live by their state machine.** -/
theorem desks_alike (injective : Function.Injective sha256) (keyed : Function.Injective mac)
    (scope : CallerScope) (actions : List Action)
    (within : ∀ action ∈ actions, action.Legal (Call.Within scope)) :
    Along (stepBoth (sqliteDesk sha256) (scopedDesk sha256 mac scope))
      (fun state action => Lawful (sqliteDesk sha256) state.1 action ∧
        Lawful (scopedDesk sha256 mac scope) state.2 action ∧
        Alike (sqliteDesk sha256) (scopedDesk sha256 mac scope) state action) emptyDesks actions := by
  have plain := sqlite_refines injective
  have caller : Refines (scopedDesk sha256 mac scope) (Call.Within scope) :=
    scoped_refines injective keyed
  have anything (action : Action) : action.Legal fun _ => True := by
    cases action <;> trivial
  let holds (state : InFlight ApprovalRecords × InFlight ScopedApprovalRecords) : Prop :=
    ∃ ledger, Sound (sqliteDesk sha256) state.1 ledger ∧
      Sound (scopedDesk sha256 mac scope) state.2 ledger
  have start : holds emptyDesks :=
    ⟨fun _ => none, ⟨fun _ => rfl, recorded_nil, nofun⟩, ⟨fun _ => rfl, recorded_nil, nofun⟩⟩
  refine (along_of_forall within).imp start ?_ ?_
  · intro state action allowed ⟨ledger, sound, sound'⟩
    exact ⟨action.after ledger, sound.step plain (anything action), sound'.step caller allowed⟩
  · intro state action ⟨ledger, sound, sound'⟩ allowed
    exact ⟨sound.lawful plain (anything action), sound'.lawful caller allowed,
      sound.alike plain caller (anything action) allowed sound'⟩

theorem desks_alike_sampleRun :
    Along (stepBoth (sqliteDesk id) (scopedDesk id id sampleScope))
      (fun state action => Lawful (sqliteDesk id) state.1 action ∧
        Lawful (scopedDesk id id sampleScope) state.2 action ∧
        Alike (sqliteDesk id) (scopedDesk id id sampleScope) state action) emptyDesks
      [.start (.request sampleIntent 60 (some "first") "0" 100),
        .start (.approve "first" "reviewer" 101), .start (.consume "first" sampleIntent 102),
        .reread "first" 101, .start (.consume "first" sampleIntent 103)] := by
  apply desks_alike Function.injective_id Function.injective_id
  simp only [List.forall_mem_cons, List.not_mem_nil, IsEmpty.forall_iff, implies_true]
  exact ⟨rfl, trivial, trivial, trivial, trivial, trivial⟩

end

end CapabilityHub.Approval
