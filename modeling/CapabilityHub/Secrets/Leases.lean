import CapabilityHub.Secrets.Broker

/-! # Leases of secrets

In every run in which no token is drawn twice, a handle delivers its secret as often as it was
issued for at most, each time for its own scope and before its expiry, nothing is admitted for a
handle that was revoked, and a `consume` with another scope or after the expiry spends nothing
(`CapabilityHub.Secrets.leases_along`).
-/

namespace CapabilityHub.Secrets

namespace Broker

/-! ## What the operations do -/

/-- The leases after a use of the lease. -/
def spend (token : String) (lease : Lease) (leases : Leases) : Leases :=
  if lease.usesRemaining - 1 = 0 then leases.erase token
  else leases.set token { lease with usesRemaining := lease.usesRemaining - 1 }

/-- How an admission ends. -/
inductive Admission (token : String) (scope : SecretScope) (timestamp : Int) (leases : Leases) :
    EStateM.Result Raised Leases (String × Int) → Prop
  | refused {error} (other : error ≠ secretBrokerError "secret_handle_expired") :
      Admission token scope timestamp leases (.error error leases)
  | lapsed {lease} (found : leases.get? token = some lease) (late : lease.expiresAt ≤ timestamp) :
      Admission token scope timestamp leases
        (.error (secretBrokerError "secret_handle_expired") (leases.erase token))
  | admitted {lease} (found : leases.get? token = some lease) (current : timestamp < lease.expiresAt)
      (same : lease.scope = scope) : Admission token scope timestamp leases
        (.ok (lease.aliasName, lease.usesRemaining - 1) (spend token lease leases))

theorem admission (trusted : List String) (token : String) (scope : SecretScope) (timestamp : Int)
    (leases : Leases) :
    Admission token scope timestamp leases (admitUse trusted token scope timestamp leases) := by
  unfold admitUse
  split
  next => exact .refused (by decide)
  next lease found =>
    split
    next late => exact .lapsed found late
    next current =>
      split
      next => exact .refused (by decide)
      next same =>
        split
        next => exact .refused (by decide)
        next => exact .admitted found (Int.not_le.mp current) (not_not.mp same)

theorem issue_cases (trusted : List String) (aliasName : String) (scope : SecretScope)
    (ttlSeconds uses timestamp : Int) (token : String) (leases : Leases) :
    (∃ error, Secrets.issue trusted aliasName scope ttlSeconds uses timestamp token leases =
      .error error leases) ∨
    1 ≤ uses ∧ Secrets.issue trusted aliasName scope ttlSeconds uses timestamp token leases =
      .ok () (leases.set token ⟨aliasName, scope, timestamp + ttlSeconds, uses⟩) := by
  rw [Secrets.issue, Transaction.query_bind]
  by_cases named : IsAlias aliasName
  swap
  · rw [raiseIf, if_pos named]
    exact .inl ⟨_, rfl⟩
  rw [raiseIf, if_neg (not_not_intro named)]
  dsimp only
  rw [Transaction.query_bind]
  by_cases known : scope.provider ∈ trusted
  swap
  · rw [raiseIf, if_pos known]
    exact .inl ⟨_, rfl⟩
  rw [raiseIf, if_neg (not_not_intro known)]
  dsimp only
  rw [Transaction.query_bind]
  by_cases lasting : 1 ≤ ttlSeconds ∧ ttlSeconds ≤ maxTtlSeconds
  swap
  · rw [raiseIf, if_pos lasting]
    exact .inl ⟨_, rfl⟩
  rw [raiseIf, if_neg (not_not_intro lasting)]
  dsimp only
  rw [Transaction.query_bind]
  by_cases useful : 1 ≤ uses ∧ uses ≤ maxUses
  · rw [raiseIf, if_neg (not_not_intro useful)]
    exact .inr ⟨useful.1, rfl⟩
  · rw [raiseIf, if_pos useful]
    exact .inl ⟨_, rfl⟩

/-! ## What holds of a broker -/

variable {trusted : List String} {broker next : Broker} {token other : String}
  {scope : SecretScope} {timestamp : Int} {lease : Lease} {issued : Issued} {action : Action}

/-- A lease is what is left of a handle that was issued. -/
structure LeaseOf (broker : Broker) (token : String) (lease : Lease) (issued : Issued) : Prop where
  member : issued ∈ broker.issued
  named : issued.token = token
  scope : lease.scope = issued.scope
  expiresAt : lease.expiresAt = issued.expiresAt
  uses : (broker.admissions token : Int) + lease.usesRemaining = issued.uses
  left : 1 ≤ lease.usesRemaining
  unrevoked : token ∉ broker.revoked
  unlapsed : token ∉ broker.lapsed

/-- **The leases are the active handles.** -/
structure Sound (broker : Broker) : Prop where
  nodup : (broker.issued.map Issued.token).Nodup
  live : ∀ token lease, broker.leases.get? token = some lease →
    ∃ issued, LeaseOf broker token lease issued
  active : ∀ issued ∈ broker.issued, broker.Active issued →
    ∃ lease, broker.leases.get? issued.token = some lease
  bounded : ∀ issued ∈ broker.issued, (broker.admissions issued.token : Int) ≤ issued.uses
  rightful : ∀ consumption ∈ broker.consumptions, ∃ issued ∈ broker.issued,
    issued.token = consumption.token ∧ issued.scope = consumption.scope ∧
      consumption.timestamp < issued.expiresAt
  revoked : ∀ token ∈ broker.revoked, broker.IsIssued token
  lapsed : ∀ token ∈ broker.lapsed, broker.IsIssued token

theorem sound_empty : Sound {} where
  nodup := List.nodup_nil
  live := nofun
  active := nofun
  bounded := nofun
  rightful := nofun
  revoked := nofun
  lapsed := nofun

/-- Handles with one token are one handle. -/
theorem Sound.unique (sound : Sound broker) {first second : Issued} (member : first ∈ broker.issued)
    (member' : second ∈ broker.issued) (same : first.token = second.token) : first = second :=
  List.inj_on_of_nodup_map sound.nodup member member' same

theorem Sound.leaseOf (sound : Sound broker) (found : broker.leases.get? token = some lease)
    (member : issued ∈ broker.issued) (same : issued.token = token) :
    LeaseOf broker token lease issued := by
  obtain ⟨issued', leased⟩ := sound.live token lease found
  rwa [sound.unique member leased.member (same.trans leased.named.symm)]

theorem Sound.admissions_fresh (sound : Sound broker) (fresh : ¬broker.IsIssued token) :
    broker.admissions token = 0 := by
  rw [admissions, List.countP_eq_zero]
  intro consumption member same
  obtain ⟨issued, known, named, _⟩ := sound.rightful consumption member
  refine fresh (List.mem_map.mpr ⟨issued, known, ?_⟩)
  rw [named, of_decide_eq_true same]

/-- A new handle. -/
theorem Sound.issue (sound : Sound broker) (fresh : ¬broker.IsIssued token) {aliasName : String}
    {expiresAt uses : Int} (useful : 1 ≤ uses) : Sound { broker with
      leases := broker.leases.set token ⟨aliasName, scope, expiresAt, uses⟩
      issued := ⟨token, scope, expiresAt, uses⟩ :: broker.issued } := by
  have unrevoked : token ∉ broker.revoked := fun revoked => fresh (sound.revoked token revoked)
  have unlapsed : token ∉ broker.lapsed := fun lapsed => fresh (sound.lapsed token lapsed)
  have unused : (broker.admissions token : Int) = 0 := by
    rw [sound.admissions_fresh fresh]
    rfl
  have whole : (broker.admissions token : Int) + uses = uses := by rw [unused, Int.zero_add]
  have within : (broker.admissions token : Int) ≤ uses := by
    rw [unused]
    exact Int.le_trans (by decide) useful
  refine ⟨List.nodup_cons.mpr ⟨fresh, sound.nodup⟩, ?_, ?_, ?_, ?_, ?_, ?_⟩
  · intro other lease found
    dsimp only at found
    rw [Dict.get?_set] at found
    split at found
    next same =>
      subst same
      obtain rfl := Option.some.inj found
      exact ⟨_, List.mem_cons_self, rfl, rfl, rfl, whole, useful, unrevoked, unlapsed⟩
    next =>
      obtain ⟨issued, leased⟩ := sound.live other lease found
      exact ⟨issued, { leased with member := List.mem_cons_of_mem _ leased.member }⟩
  · intro issued member active
    dsimp only
    rw [Dict.get?_set]
    split
    next => exact ⟨_, rfl⟩
    next different =>
      rcases List.mem_cons.mp member with rfl | member
      · exact absurd rfl different
      · exact sound.active issued member active
  · intro issued member
    rcases List.mem_cons.mp member with rfl | member
    · exact within
    · exact sound.bounded issued member
  · intro consumption member
    obtain ⟨issued, known, rest⟩ := sound.rightful consumption member
    exact ⟨issued, List.mem_cons_of_mem _ known, rest⟩
  · exact fun revoked member => List.mem_cons_of_mem _ (sound.revoked revoked member)
  · exact fun lapsed member => List.mem_cons_of_mem _ (sound.lapsed lapsed member)

/-- A handle that loses its lease. -/
theorem Sound.erase (sound : Sound broker) {revoked lapsed : List String}
    (kept : ∀ token ∈ broker.revoked, token ∈ revoked)
    (kept' : ∀ token ∈ broker.lapsed, token ∈ lapsed)
    (only : ∀ other, other ∈ revoked → other = token ∨ other ∈ broker.revoked)
    (only' : ∀ other, other ∈ lapsed → other = token ∨ other ∈ broker.lapsed)
    (known : token ∈ revoked ∨ token ∈ lapsed → broker.IsIssued token)
    (gone : broker.IsIssued token → token ∈ revoked ∨ token ∈ lapsed) : Sound { broker with
      leases := broker.leases.erase token, revoked := revoked, lapsed := lapsed } := by
  refine ⟨sound.nodup, ?_, ?_, sound.bounded, sound.rightful, ?_, ?_⟩
  · intro other lease found
    dsimp only at found
    rw [Dict.get?_erase] at found
    split at found
    next => contradiction
    next different =>
      obtain ⟨issued, leased⟩ := sound.live other lease found
      exact ⟨issued, { leased with
        unrevoked := fun member => (only other member).elim different leased.unrevoked
        unlapsed := fun member => (only' other member).elim different leased.unlapsed }⟩
  · intro issued member ⟨unspent, unrevoked, unlapsed⟩
    dsimp only
    rw [Dict.get?_erase]
    split
    next same =>
      rcases gone (List.mem_map.mpr ⟨issued, member, same⟩) with revoked | lapsed
      · exact absurd (same ▸ revoked) unrevoked
      · exact absurd (same ▸ lapsed) unlapsed
    next =>
      exact sound.active issued member ⟨unspent, fun earlier => unrevoked (kept _ earlier),
        fun earlier => unlapsed (kept' _ earlier)⟩
  · intro other member
    rcases only other member with rfl | earlier
    · exact known (.inl member)
    · exact sound.revoked other earlier
  · intro other member
    rcases only' other member with rfl | earlier
    · exact known (.inr member)
    · exact sound.lapsed other earlier

theorem get?_spend {leases : Leases} : (spend token lease leases).get? other =
    if other = token then
      if lease.usesRemaining - 1 = 0 then none
      else some { lease with usesRemaining := lease.usesRemaining - 1 }
    else leases.get? other := by
  rw [spend]
  by_cases last : lease.usesRemaining - 1 = 0
  · rw [if_pos last, if_pos last, Dict.get?_erase]
  · rw [if_neg last, if_neg last, Dict.get?_set]

/-- An admission spends one use of its handle. -/
theorem Sound.admit (sound : Sound broker) (found : broker.leases.get? token = some lease)
    (current : timestamp < lease.expiresAt) {consumption : Consumption}
    (named : consumption.token = token) (same : lease.scope = consumption.scope)
    (stamped : consumption.timestamp = timestamp) : Sound { broker with
      leases := spend token lease broker.leases
      consumptions := broker.consumptions ++ [consumption] } := by
  obtain ⟨issued, leased⟩ := sound.live token lease found
  have counted (other : String) : admissions { broker with
      leases := spend token lease broker.leases
      consumptions := broker.consumptions ++ [consumption] } other =
        broker.admissions other + if other = token then 1 else 0 := by
    rw [admissions, admissions, List.countP_append, List.countP_singleton, named]
    by_cases same : other = token
    · simp [same]
    · simp [same, Ne.symm same]
  have left := leased.left
  have uses := leased.uses
  refine ⟨sound.nodup, ?_, ?_, ?_, ?_, sound.revoked, sound.lapsed⟩
  · intro other lease' found'
    dsimp only at found'
    rw [get?_spend] at found'
    split at found'
    next same =>
      subst same
      split at found'
      next => contradiction
      next more =>
        obtain rfl := Option.some.inj found'
        refine ⟨issued, { leased with uses := ?_, left := ?_ }⟩
        · rw [counted, if_pos rfl]
          push_cast
          omega
        · dsimp only
          omega
    next different =>
      obtain ⟨issued', leased'⟩ := sound.live other lease' found'
      refine ⟨issued', { leased' with uses := ?_ }⟩
      rw [counted, if_neg different]
      exact leased'.uses
  · intro issued' member ⟨unspent, unrevoked, unlapsed⟩
    rw [counted] at unspent
    dsimp only
    rw [get?_spend]
    split at unspent
    next same =>
      obtain rfl := sound.unique member leased.member (same.trans leased.named.symm)
      rw [if_pos same, if_neg]
      · exact ⟨_, rfl⟩
      · rw [same] at unspent
        push_cast at unspent
        omega
    next different =>
      rw [if_neg different]
      exact sound.active issued' member ⟨unspent, unrevoked, unlapsed⟩
  · intro issued' member
    rw [counted]
    split
    next same =>
      obtain rfl := sound.unique member leased.member (same.trans leased.named.symm)
      rw [same]
      push_cast
      omega
    next => exact sound.bounded issued' member
  · intro other member
    rcases List.mem_append.mp member with earlier | new
    · exact sound.rightful other earlier
    · obtain rfl := List.mem_singleton.mp new
      exact ⟨issued, leased.member, leased.named.trans named.symm, leased.scope.symm.trans same,
        by rw [stamped, ← leased.expiresAt]; exact current⟩

/-- What a stage of a consumption leaves as it is. -/
def Restages (change : Consumption → Consumption) : Prop :=
  ∀ consumption, (change consumption).token = consumption.token ∧
    (change consumption).scope = consumption.scope ∧
    (change consumption).timestamp = consumption.timestamp

theorem restages_resolve (value : Option String) : Restages (Consumption.resolve value) := by
  intro consumption
  unfold Consumption.resolve
  split <;> exact ⟨rfl, rfl, rfl⟩

theorem restages_deliver : Restages Consumption.deliver := by
  intro consumption
  rw [Consumption.deliver]
  split <;> exact ⟨rfl, rfl, rfl⟩

theorem restages_finish (raises : Bool) : Restages (Consumption.finish raises) := by
  intro consumption
  rw [Consumption.finish]
  split <;> exact ⟨rfl, rfl, rfl⟩

theorem map_modify_of_same {α β : Type} {f : α → β} {change : α → α}
    (same : ∀ item, f (change item) = f item) (items : List α) (index : Nat) :
    (items.modify index change).map f = items.map f := by
  induction items generalizing index with
  | nil => simp
  | cons first rest ih =>
      cases index with
      | zero => rw [List.modify_zero_cons, List.map_cons, List.map_cons, same]
      | succ index => rw [List.modify_succ_cons, List.map_cons, List.map_cons, ih]

/-- A consumption that goes on leaves the leases to the active handles. -/
theorem Sound.restage (sound : Sound broker) {change : Consumption → Consumption}
    (restages : Restages change) (index : Nat) :
    Sound { broker with consumptions := broker.consumptions.modify index change } := by
  have counted (other : String) : admissions { broker with
      consumptions := broker.consumptions.modify index change } other = broker.admissions other := by
    have tokens := map_modify_of_same (fun consumption => (restages consumption).1)
      broker.consumptions index
    have counts := congrArg (List.countP fun token => decide (token = other)) tokens
    rwa [List.countP_map, List.countP_map] at counts
  have bindings := map_modify_of_same (f := fun consumption : Consumption =>
      (consumption.token, consumption.scope, consumption.timestamp))
    (fun consumption => by rw [(restages consumption).1, (restages consumption).2.1,
      (restages consumption).2.2]) broker.consumptions index
  refine ⟨sound.nodup, ?_, ?_, ?_, ?_, sound.revoked, sound.lapsed⟩
  · intro other lease found
    obtain ⟨issued, leased⟩ := sound.live other lease found
    exact ⟨issued, { leased with uses := by rw [counted]; exact leased.uses }⟩
  · intro issued member ⟨unspent, rest⟩
    rw [counted] at unspent
    exact sound.active issued member ⟨unspent, rest⟩
  · intro issued member
    rw [counted]
    exact sound.bounded issued member
  · intro consumption member
    have bound := List.mem_map_of_mem (f := fun consumption : Consumption =>
      (consumption.token, consumption.scope, consumption.timestamp)) member
    dsimp only at bound
    rw [bindings, List.mem_map] at bound
    obtain ⟨earlier, known, same⟩ := bound
    rw [Prod.mk.injEq, Prod.mk.injEq] at same
    rw [← same.1, ← same.2.1, ← same.2.2]
    exact sound.rightful earlier known

/-- No token is drawn twice. -/
def Fresh (broker : Broker) : Action → Prop
  | .issue _ _ _ _ _ token => ¬broker.IsIssued token
  | _ => True

theorem Sound.step (sound : Sound broker) (fresh : Fresh broker action) :
    Sound (broker.step trusted action) := by
  cases action with
  | issue aliasName scope ttlSeconds uses timestamp token =>
      rw [Broker.step]
      rcases issue_cases trusted aliasName scope ttlSeconds uses timestamp token broker.leases with
        ⟨error, raised⟩ | ⟨useful, done⟩
      · rw [raised]
        exact sound
      · rw [done]
        exact sound.issue fresh useful
  | consume token scope timestamp =>
      have ends := admission trusted token scope timestamp broker.leases
      rw [Broker.step]
      generalize admitUse trusted token scope timestamp broker.leases = result at ends ⊢
      cases ends with
      | refused other =>
          dsimp only
          rw [if_neg other]
          exact sound
      | lapsed found late =>
          obtain ⟨issued, leased⟩ := sound.live token _ found
          have known : broker.IsIssued token := List.mem_map.mpr ⟨issued, leased.member, leased.named⟩
          dsimp only
          rw [if_pos rfl]
          exact sound.erase (fun _ member => member) (fun _ member => List.mem_cons_of_mem _ member)
            (fun _ member => .inr member) (fun _ member => List.mem_cons.mp member) (fun _ => known)
            fun _ => .inr List.mem_cons_self
      | admitted found current same =>
          exact sound.admit found current rfl same rfl
  | resolve index value => exact sound.restage (restages_resolve value) index
  | deliver index => exact sound.restage restages_deliver index
  | finish index raises => exact sound.restage (restages_finish raises) index
  | revoke token =>
      rw [Broker.step]
      by_cases known : broker.IsIssued token
      · rw [if_pos known]
        exact sound.erase (fun _ member => List.mem_cons_of_mem _ member) (fun _ member => member)
          (fun _ member => List.mem_cons.mp member) (fun _ member => .inr member) (fun _ => known)
          fun _ => .inl List.mem_cons_self
      · rw [if_neg known]
        exact sound.erase (fun _ member => member) (fun _ member => member)
          (fun _ member => .inr member) (fun _ member => .inr member)
          (fun earlier => earlier.elim (sound.revoked token) (sound.lapsed token))
          fun member => absurd member known

/-! ## Runs -/

/-- **What holds of every broker that a run reaches.** -/
structure Keeps (broker : Broker) : Prop where
  /-- The trusted consumer is called as often as the handle was issued for at most. -/
  deliveries : ∀ issued ∈ broker.issued, (broker.deliveries issued.token : Int) ≤ issued.uses
  /-- Each time for a `consume` with the scope of the handle and before its expiry. -/
  rightful : ∀ consumption ∈ broker.consumptions, consumption.stage.Delivered →
    ∃ issued ∈ broker.issued, issued.token = consumption.token ∧
      issued.scope = consumption.scope ∧ consumption.timestamp < issued.expiresAt
  /-- `active_count` counts the active handles. -/
  activeCount : broker.activeCount = (broker.issued.filter fun issued => broker.Active issued).length

/-- **What holds of every step of a run.** -/
structure Lawful (trusted : List String) (broker : Broker) (action : Action) : Prop where
  /-- Nothing is admitted for a handle that was revoked. -/
  revoked : ∀ token scope timestamp, action = .consume token scope timestamp →
    token ∈ broker.revoked → ¬broker.Admits trusted token scope timestamp
  /-- A `consume` with another scope or after the expiry spends no use. -/
  wasted : ∀ token scope timestamp, action = .consume token scope timestamp →
    ∀ issued ∈ broker.issued, issued.token = token →
      issued.scope ≠ scope ∨ issued.expiresAt ≤ timestamp →
      ¬broker.Admits trusted token scope timestamp ∧
        (broker.step trusted action).consumptions = broker.consumptions ∧
        ∀ other lease, (broker.step trusted action).leases.get? other = some lease →
          broker.leases.get? other = some lease

theorem Sound.keeps (sound : Sound broker) : Keeps broker where
  deliveries := by
    intro issued member
    have fewer : broker.deliveries issued.token ≤ broker.admissions issued.token :=
      List.countP_mono_left fun consumption _ counted => by
        rw [decide_eq_true_eq] at counted ⊢
        exact counted.1
    exact Int.le_trans (Int.ofNat_le.mpr fewer) (sound.bounded issued member)
  rightful := fun consumption member _ => sound.rightful consumption member
  activeCount := by
    have nodup := (sound.nodup.sublist ((List.filter_sublist (p := fun issued =>
      decide (broker.Active issued)) (l := broker.issued)).map Issued.token))
    have perm : broker.leases.keys.Perm
        ((broker.issued.filter fun issued => broker.Active issued).map Issued.token) := by
      refine (List.perm_ext_iff_of_nodup broker.leases.keys_nodup nodup).mpr fun token => ?_
      rw [← Dict.get?_isSome_iff, List.mem_map]
      constructor
      · intro ⟨lease, found⟩
        obtain ⟨issued, leased⟩ := sound.live token lease found
        refine ⟨issued, List.mem_filter.mpr ⟨leased.member, decide_eq_true ?_⟩, leased.named⟩
        have left := leased.left
        have uses := leased.uses
        rw [Active, leased.named]
        exact ⟨by omega, leased.unrevoked, leased.unlapsed⟩
      · intro ⟨issued, member, named⟩
        obtain ⟨known, active⟩ := List.mem_filter.mp member
        rw [← named]
        exact sound.active issued known (of_decide_eq_true active)
    rw [Broker.activeCount, ← Dict.length_keys, perm.length_eq, List.length_map]

theorem Sound.lawful (sound : Sound broker) : Lawful trusted broker action where
  revoked := by
    intro token scope timestamp _ revoked ⟨admitted, leases, done⟩
    have ends := admission trusted token scope timestamp broker.leases
    rw [done] at ends
    cases ends with
    | admitted found =>
        obtain ⟨issued, leased⟩ := sound.live token _ found
        exact leased.unrevoked revoked
  wasted := by
    intro token scope timestamp same issued member named wrong
    subst same
    have ends := admission trusted token scope timestamp broker.leases
    rw [Admits, Broker.step]
    generalize admitUse trusted token scope timestamp broker.leases = result at ends ⊢
    cases ends with
    | refused other =>
        exact ⟨fun ⟨_, _, done⟩ => (by contradiction), rfl, fun _ _ found => found⟩
    | lapsed found late =>
        refine ⟨fun ⟨_, _, done⟩ => (by contradiction), rfl, fun other lease kept => ?_⟩
        dsimp only at kept
        rw [Dict.get?_erase] at kept
        split at kept
        next => contradiction
        next => exact kept
    | admitted found current same =>
        have leased := sound.leaseOf found member named
        rcases wrong with different | late
        · exact absurd (leased.scope.symm.trans same) different
        · rw [leased.expiresAt] at current
          omega

/-- **Leases of secrets are kept**, where no token is drawn twice. -/
theorem leases_along (trusted : List String) (actions : List Action)
    (unique : Along (step trusted) Fresh {} actions) :
    Keeps (run (step trusted) {} actions) ∧ Along (step trusted) (Lawful trusted) {} actions :=
  ⟨(unique.invariant sound_empty fun _ _ fresh sound => sound.step fresh).keeps,
    unique.imp sound_empty (fun _ _ fresh sound => sound.step fresh) fun _ _ sound _ => sound.lawful⟩

def sampleScope : SecretScope :=
  ⟨"tenant", "alice", "session", "task", "http", "call", "policy-v1", by decide⟩

theorem leases_along_sampleRun :
    let actions : List Action := [.issue "API_KEY" sampleScope 60 2 100 "token",
      .consume "token" sampleScope 110, .resolve 0 (some "secret"), .deliver 0, .revoke "token",
      .consume "token" sampleScope 120, .finish 0 false]
    Keeps (run (step ["http"]) {} actions) ∧ Along (step ["http"]) (Lawful ["http"]) {} actions :=
  leases_along ["http"] _
    ⟨List.not_mem_nil, trivial, trivial, trivial, trivial, trivial, trivial, trivial⟩

end Broker

end CapabilityHub.Secrets
