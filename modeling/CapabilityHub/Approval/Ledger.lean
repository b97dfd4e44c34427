import CapabilityHub.Approval.Records
import CapabilityHub.Data.Runs

/-! # What an approval store is for

A ledger gives the record of an identifier, and a call either is refused or leads to another
ledger. What a call may make of one record is `CapabilityHub.Approval.Moved`, and along the calls
that were not refused every record has the history that its status tells
(`CapabilityHub.Approval.Recorded`).
-/

namespace CapabilityHub.Approval

/-- The intent of a record and how far it got. -/
structure Entry where
  intent : ApprovalIntent
  progress : Progress
  deriving DecidableEq

/-- The record of each identifier. -/
abbrev Ledger : Type := String → Option Entry

/-- `approval_id or f"apr_{uuid4().hex}"`, with what `uuid4` gives. -/
def identifierOf (approvalId : Option String) (generated : String) : String :=
  match approvalId with
  | some given => if given = "" then "apr_" ++ generated else given
  | none => "apr_" ++ generated

/-- A call of a store, with the moment that it is supplied. -/
inductive Call where
  | request (intent : ApprovalIntent) (ttlSeconds : ℚ) (approvalId : Option String)
      (generated : String) (now : ℚ)
  | get (approvalId : String) (now : ℚ)
  | list (status : Option String) (limit : Int) (now : ℚ)
  | approve (approvalId decidedBy : String) (now : ℚ)
  | deny (approvalId decidedBy : String) (now : ℚ)
  | consume (approvalId : String) (intent : ApprovalIntent) (now : ℚ)

namespace Call

def now : Call → ℚ
  | request _ _ _ _ now | get _ now | list _ _ now | approve _ _ now | deny _ _ now
  | consume _ _ now => now

/-- The identifier of the record that a call is about. -/
def subject : Call → Option String
  | request _ _ approvalId generated _ => some (identifierOf approvalId generated)
  | get approvalId _ | approve approvalId _ _ | deny approvalId _ _ | consume approvalId _ _ =>
      some approvalId
  | list .. => none

def Approves (approvalId : String) : Call → Prop
  | approve other _ _ => other = approvalId
  | _ => False

def Consumes (approvalId : String) : Call → Prop
  | consume other _ _ => other = approvalId
  | _ => False

end Call

/-- What the arguments of `list` have to satisfy. -/
def Listable (status : Option String) (limit : Int) (now : ℚ) : Prop :=
  (1 ≤ limit ∧ limit ≤ 500) ∧ (∀ text ∈ status, ∃ known, ApprovalStatus.parse text = .ok known) ∧
    0 ≤ now

namespace Ledger

variable (ledger : Ledger)

def put (approvalId : String) (entry : Entry) : Ledger :=
  Function.update ledger approvalId (some entry)

/-- A decision on a pending record. -/
def decide (approvalId : String) (status : ApprovalStatus) (decidedBy : String) (now : ℚ) :
    Option Ledger :=
  match ledger approvalId with
  | none => none
  | some entry =>
      if decidedBy ≠ "" ∧ 0 ≤ now ∧ (entry.progress.expire now).status = .pending then
        some (ledger.put approvalId ⟨entry.intent, entry.progress.decided now status decidedBy⟩)
      else none

open Classical in
/-- The ledger after a call; `none` where the call is refused. -/
noncomputable def after : Call → Option Ledger
  | .request intent ttlSeconds approvalId generated now =>
      if 0 < ttlSeconds ∧ 0 ≤ now ∧ ledger (identifierOf approvalId generated) = none then
        some (ledger.put (identifierOf approvalId generated) ⟨intent, .requested now ttlSeconds⟩)
      else none
  | .get approvalId now =>
      match ledger approvalId with
      | none => none
      | some entry =>
          if 0 ≤ now then
            some (ledger.put approvalId ⟨entry.intent, entry.progress.expire now⟩)
          else none
  | .list status limit now =>
      if Listable status limit now then
        some fun approvalId =>
          (ledger approvalId).map fun entry => ⟨entry.intent, entry.progress.expire now⟩
      else none
  | .approve approvalId decidedBy now => ledger.decide approvalId .approved decidedBy now
  | .deny approvalId decidedBy now => ledger.decide approvalId .denied decidedBy now
  | .consume approvalId intent now =>
      match ledger approvalId with
      | none => none
      | some entry =>
          if 0 ≤ now ∧ entry.intent = intent ∧ (entry.progress.expire now).status = .approved then
            some (ledger.put approvalId ⟨entry.intent, entry.progress.consumed now⟩)
          else none

end Ledger

/-- **The state machine of a record**: what a call that is not refused may make of the record of an
identifier. -/
inductive Moved : Call → String → Option Entry → Option Entry → Prop
  | kept {call approvalId entry} (other : ¬call.Consumes approvalId) :
      Moved call approvalId entry entry
  | expired {call approvalId intent progress} (other : ¬call.Consumes approvalId)
      (due : progress.Due call.now) :
      Moved call approvalId (some ⟨intent, progress⟩) (some ⟨intent, progress.expired⟩)
  | requested {intent ttlSeconds approvalId generated now} :
      Moved (.request intent ttlSeconds approvalId generated now)
        (identifierOf approvalId generated) none (some ⟨intent, .requested now ttlSeconds⟩)
  | approved {approvalId decidedBy now intent progress} (pending : progress.status = .pending)
      (current : now < progress.expiresAt) :
      Moved (.approve approvalId decidedBy now) approvalId (some ⟨intent, progress⟩)
        (some ⟨intent, progress.decided now .approved decidedBy⟩)
  | denied {approvalId decidedBy now intent progress} (pending : progress.status = .pending)
      (current : now < progress.expiresAt) :
      Moved (.deny approvalId decidedBy now) approvalId (some ⟨intent, progress⟩)
        (some ⟨intent, progress.decided now .denied decidedBy⟩)
  | consumed {approvalId now intent progress} (approved : progress.status = .approved)
      (current : now < progress.expiresAt) :
      Moved (.consume approvalId intent now) approvalId (some ⟨intent, progress⟩)
        (some ⟨intent, progress.consumed now⟩)

variable {ledger next : Ledger} {call : Call} {past : List Call} {approvalId : String}
  {entry : Entry} {before later : Option Entry}

theorem identifierOf_ne_empty (given : Option String) (generated : String) :
    identifierOf given generated ≠ "" := by
  have prefixed : "apr_" ++ generated ≠ "" := by
    intro empty
    have letters := congrArg String.toList empty
    rw [String.toList_append] at letters
    cases letters
  unfold identifierOf
  split
  · split
    · exact prefixed
    · assumption
  · exact prefixed

theorem Ledger.put_self : ledger.put approvalId entry approvalId = some entry :=
  Function.update_self ..

theorem Ledger.put_of_ne {other : String} (different : other ≠ approvalId) :
    ledger.put approvalId entry other = ledger other :=
  Function.update_of_ne different ..

/-- A record that the moment of a call may end. -/
theorem Moved.of_expire (other : ¬call.Consumes approvalId) (entry : Entry) :
    Moved call approvalId (some entry) (some ⟨entry.intent, entry.progress.expire call.now⟩) := by
  obtain ⟨intent, progress⟩ := entry
  by_cases due : progress.Due call.now
  · rw [Progress.expire, if_pos due]
    exact .expired other due
  · rw [Progress.expire_of_not_due due]
    exact .kept other

/-- What every call that is not refused makes of every record. -/
theorem moved_of_after (done : ledger.after call = some next) (approvalId : String) :
    Moved call approvalId (ledger approvalId) (next approvalId) := by
  cases call with
  | request intent ttlSeconds given generated now =>
      rw [Ledger.after] at done
      split at done
      next proper =>
        obtain rfl := Option.some.inj done
        by_cases same : approvalId = identifierOf given generated
        · subst same
          rw [Ledger.put_self, proper.2.2]
          exact .requested
        · rw [Ledger.put_of_ne same]
          exact .kept id
      next => contradiction
  | get subject now =>
      rw [Ledger.after] at done
      split at done
      next => contradiction
      next entry found =>
        split at done
        next =>
          obtain rfl := Option.some.inj done
          by_cases same : approvalId = subject
          · subst same
            rw [Ledger.put_self, found]
            exact Moved.of_expire (show ¬(Call.get approvalId now).Consumes approvalId from id) entry
          · rw [Ledger.put_of_ne same]
            exact .kept id
        next => contradiction
  | list status limit now =>
      rw [Ledger.after] at done
      split at done
      next =>
        obtain rfl := Option.some.inj done
        dsimp only
        cases found : ledger approvalId with
        | none => exact .kept id
        | some entry => exact Moved.of_expire (show ¬(Call.list status limit now).Consumes approvalId from id) entry
      next => contradiction
  | approve subject decidedBy now =>
      rw [Ledger.after, Ledger.decide] at done
      split at done
      next => contradiction
      next entry found =>
        split at done
        next proper =>
          obtain rfl := Option.some.inj done
          by_cases same : approvalId = subject
          · subst same
            obtain ⟨current, pending⟩ := Progress.lt_of_pending proper.2.2
            rw [Ledger.put_self, found]
            exact .approved pending current
          · rw [Ledger.put_of_ne same]
            exact .kept id
        next => contradiction
  | deny subject decidedBy now =>
      rw [Ledger.after, Ledger.decide] at done
      split at done
      next => contradiction
      next entry found =>
        split at done
        next proper =>
          obtain rfl := Option.some.inj done
          by_cases same : approvalId = subject
          · subst same
            obtain ⟨current, pending⟩ := Progress.lt_of_pending proper.2.2
            rw [Ledger.put_self, found]
            exact .denied pending current
          · rw [Ledger.put_of_ne same]
            exact .kept id
        next => contradiction
  | consume subject intent now =>
      rw [Ledger.after] at done
      split at done
      next => contradiction
      next entry found =>
        split at done
        next proper =>
          obtain rfl := Option.some.inj done
          by_cases same : approvalId = subject
          · subst same
            obtain ⟨current, approved⟩ := Progress.lt_of_approved proper.2.2
            obtain rfl := proper.2.1
            rw [Ledger.put_self, found]
            exact .consumed approved current
          · rw [Ledger.put_of_ne same]
            exact .kept fun named => same named.symm
        next => contradiction

/-- Denied, consumed and expired records stay as they are. -/
theorem Moved.terminal (moved : Moved call approvalId (some entry) later)
    (terminal : entry.progress.status.Terminal) : later = some entry := by
  cases moved with
  | kept => rfl
  | expired _ due =>
      rcases due.1 with pending | approved <;> rcases terminal with end' | end' | end' <;> simp_all
  | approved pending => rcases terminal with end' | end' | end' <;> simp_all
  | denied pending => rcases terminal with end' | end' | end' <;> simp_all
  | consumed approved => rcases terminal with end' | end' | end' <;> simp_all

/-- Only a consumption consumes. -/
theorem Moved.consumes (moved : Moved call approvalId before (some entry))
    (consumed : entry.progress.status = .consumed) :
    before = some entry ∨ call.Consumes approvalId := by
  cases moved with
  | kept => exact .inl rfl
  | expired => contradiction
  | requested => contradiction
  | approved => contradiction
  | denied => contradiction
  | consumed => exact .inr rfl

/-- No call loses a record. -/
theorem Moved.remains (moved : Moved call approvalId (some entry) later) :
    ∃ entry', later = some entry' ∧ entry'.intent = entry.intent ∧
      entry'.progress.expiresAt = entry.progress.expiresAt := by
  cases moved <;> exact ⟨_, rfl, rfl, rfl⟩

/-- **The history that a ledger tells**, of the calls that were not refused. -/
structure Recorded (past : List Call) (ledger : Ledger) : Prop where
  unnamed : ledger "" = none
  approved : ∀ approvalId entry, ledger approvalId = some entry →
    entry.progress.status = .approved ∨ entry.progress.status = .consumed →
    ∃ call ∈ past, call.Approves approvalId
  consumed : ∀ approvalId, (∃ call ∈ past, call.Consumes approvalId) →
    ∃ entry, ledger approvalId = some entry ∧ entry.progress.status = .consumed

theorem recorded_nil : Recorded [] fun _ => none where
  unnamed := rfl
  approved := fun _ _ found => by contradiction
  consumed := fun _ ⟨_, member, _⟩ => by contradiction

theorem unnamed_of_after (unnamed : ledger "" = none) (done : ledger.after call = some next) :
    next "" = none := by
  have moved := moved_of_after done ""
  rw [unnamed] at moved
  generalize next "" = later at moved ⊢
  generalize named : "" = approvalId at moved
  cases moved with
  | kept => rfl
  | requested => exact absurd named.symm (identifierOf_ne_empty _ _)

theorem Recorded.after (recorded : Recorded past ledger) (done : ledger.after call = some next) :
    Recorded (call :: past) next where
  unnamed := unnamed_of_after recorded.unnamed done
  approved := fun approvalId entry found status => by
    have moved := moved_of_after done approvalId
    rw [found] at moved
    generalize start : ledger approvalId = before at moved
    have earlier : ∀ entry, before = some entry →
        entry.progress.status = .approved ∨ entry.progress.status = .consumed →
        ∃ other ∈ call :: past, other.Approves approvalId := by
      intro entry same reached
      obtain ⟨other, member, approves⟩ := recorded.approved approvalId entry (start.trans same) reached
      exact ⟨other, List.mem_cons_of_mem _ member, approves⟩
    cases moved with
    | kept => exact earlier entry rfl status
    | expired => rcases status with status | status <;> contradiction
    | requested => rcases status with status | status <;> contradiction
    | approved => exact ⟨_, List.mem_cons_self, rfl⟩
    | denied => rcases status with status | status <;> contradiction
    | consumed approved => exact earlier _ rfl (.inl approved)
  consumed := fun approvalId ⟨other, member, consumes⟩ => by
    have moved := moved_of_after done approvalId
    rcases List.mem_cons.mp member with rfl | member
    · generalize start : ledger approvalId = before at moved
      generalize stop : next approvalId = later at moved ⊢
      cases moved with
      | kept untouched => contradiction
      | expired untouched => contradiction
      | requested => contradiction
      | approved => contradiction
      | denied => contradiction
      | consumed => exact ⟨_, rfl, rfl⟩
    · obtain ⟨entry, found, consumed⟩ := recorded.consumed approvalId ⟨other, member, consumes⟩
      rw [found] at moved
      exact ⟨entry, moved.terminal (.inr (.inl consumed)), consumed⟩

end CapabilityHub.Approval
