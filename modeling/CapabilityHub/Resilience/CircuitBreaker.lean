import CapabilityHub.Data.Dict
import CapabilityHub.Errors
import Mathlib.Algebra.Order.Ring.Rat

/-! # The circuit breaker of the providers

One circuit for each provider key, the least recently used first. What an operation makes of
the circuit of its key is a function of that circuit; `acquire_cases` and `get?_record` say what
it makes of all of them.
-/

namespace CapabilityHub.Resilience

inductive CircuitState where
  | closed
  | opened
  | halfOpen
  deriving DecidableEq

structure CircuitPermit where
  providerKey : String
  generation : Nat
  halfOpenProbe : Bool
  deriving DecidableEq

structure CircuitEntry where
  state : CircuitState := .closed
  failures : Nat := 0
  openedAt : Option ℚ := none
  probeInFlight : Bool := false
  inFlight : Nat := 0
  generation : Nat := 0
  deriving DecidableEq

/-- The settings of a `CircuitBreaker`. -/
structure CircuitSettings where
  failureThreshold : Nat := 5
  recoveryTimeoutSeconds : ℚ := 30
  maxEntries : Nat := 128
  threshold : 1 ≤ failureThreshold
  timeout : 0 ≤ recoveryTimeoutSeconds
  capacity : 1 ≤ maxEntries

/-- `_entries`. -/
abbrev Circuits := Dict String CircuitEntry

def circuitError (code message : String) : Raised :=
  .hub { code := code, category := .provider, safeMessage := message }

def circuitOpen : Raised := circuitError "provider_circuit_open" "Provider access is paused."

def circuitCapacity : Raised :=
  circuitError "provider_circuit_capacity"
    "Provider protection capacity is temporarily unavailable."

variable (settings : CircuitSettings)

namespace CircuitEntry

/-- The lazy transition of `acquire`: an open circuit half-opens after the recovery timeout. -/
def recover (now : ℚ) (entry : CircuitEntry) : Except Raised CircuitEntry :=
  if entry.state = .opened then
    if now - entry.openedAt.getD now < settings.recoveryTimeoutSeconds then .error circuitOpen
    else .ok { entry with
      state := .halfOpen, probeInFlight := false, generation := entry.generation + 1 }
  else .ok entry

/-- The permit that `acquire` gives. -/
def permit (key : String) (entry : CircuitEntry) : Except Raised (CircuitPermit × CircuitEntry) :=
  if entry.state = .halfOpen then
    if entry.probeInFlight then .error circuitOpen
    else .ok (⟨key, entry.generation, true⟩, { entry with probeInFlight := true })
  else .ok (⟨key, entry.generation, false⟩, { entry with inFlight := entry.inFlight + 1 })

/-- `acquire`, of the circuit that `_entry` has found. -/
def acquire (key : String) (now : ℚ) (entry : CircuitEntry) :
    Except Raised (CircuitPermit × CircuitEntry) := do
  let recovered ← entry.recover settings now
  recovered.permit key

/-- `_open`. -/
def open' (now : ℚ) (entry : CircuitEntry) : CircuitEntry :=
  { entry with
    state := .opened, openedAt := some now, probeInFlight := false, inFlight := 0,
    generation := entry.generation + 1 }

/-- `record_success`, of a circuit in the generation of the permit. -/
def recordSuccess (permit : CircuitPermit) (entry : CircuitEntry) : CircuitEntry where
  state := .closed
  failures := 0
  openedAt := none
  probeInFlight := false
  inFlight := if permit.halfOpenProbe then entry.inFlight else entry.inFlight - 1
  generation := if entry.state ≠ .closed then entry.generation + 1 else entry.generation

/-- `record_failure`, of a circuit in the generation of the permit. -/
def recordFailure (permit : CircuitPermit) (countable : Bool) (now : ℚ) (entry : CircuitEntry) :
    CircuitEntry :=
  if permit.halfOpenProbe then entry.open' now
  else
    let released := { entry with inFlight := entry.inFlight - 1 }
    if countable then
      let failed := { released with failures := released.failures + 1 }
      if settings.failureThreshold ≤ failed.failures then failed.open' now else failed
    else released

/-- Whether `_entry` may evict the circuit. -/
def Evictable (entry : CircuitEntry) : Prop := entry.state = .closed ∧ entry.inFlight = 0

instance (entry : CircuitEntry) : Decidable entry.Evictable :=
  inferInstanceAs (Decidable (_ ∧ _))

variable {settings} {entry changed : CircuitEntry} {key : String} {now : ℚ} {permit : CircuitPermit}
  {countable : Bool}

/-- The ways in which a circuit gives a permit. -/
inductive Grants (settings : CircuitSettings) (key : String) (now : ℚ) (entry : CircuitEntry) :
    CircuitPermit → CircuitEntry → Prop
  | call (closed : entry.state = .closed) :
      Grants settings key now entry ⟨key, entry.generation, false⟩
        { entry with inFlight := entry.inFlight + 1 }
  | probe (halfOpen : entry.state = .halfOpen) (idle : entry.probeInFlight = false) :
      Grants settings key now entry ⟨key, entry.generation, true⟩
        { entry with probeInFlight := true }
  | recovery (opened : entry.state = .opened)
      (elapsed : settings.recoveryTimeoutSeconds ≤ now - entry.openedAt.getD now) :
      Grants settings key now entry ⟨key, entry.generation + 1, true⟩
        { entry with
          state := .halfOpen, probeInFlight := true, generation := entry.generation + 1 }

theorem grants_of_acquire (given : entry.acquire settings key now = .ok (permit, changed)) :
    Grants settings key now entry permit changed := by
  obtain ⟨recovered, recovers, permits⟩ := bind_eq_ok.mp given
  unfold recover at recovers
  unfold CircuitEntry.permit at permits
  cases state : entry.state with
  | closed =>
      rw [if_neg (state ▸ CircuitState.noConfusion)] at recovers
      cases recovers
      rw [if_neg (state ▸ CircuitState.noConfusion)] at permits
      cases permits
      exact .call state
  | halfOpen =>
      rw [if_neg (state ▸ CircuitState.noConfusion)] at recovers
      cases recovers
      rw [if_pos state] at permits
      split at permits
      · cases permits
      next idle =>
        cases permits
        exact .probe state (eq_false_of_ne_true idle)
  | opened =>
      rw [if_pos state] at recovers
      split at recovers
      · cases recovers
      next elapsed =>
        cases recovers
        rw [if_pos rfl, if_neg Bool.false_ne_true] at permits
        cases permits
        exact .recovery state (not_lt.mp elapsed)

theorem acquire_eq_ok : entry.acquire settings key now = .ok (permit, changed) ↔
    Grants settings key now entry permit changed := by
  refine ⟨grants_of_acquire, fun grants => ?_⟩
  rw [acquire, recover]
  cases grants with
  | call closed =>
      rw [if_neg (closed ▸ CircuitState.noConfusion)]
      exact if_neg (closed ▸ CircuitState.noConfusion)
  | probe half idle =>
      rw [if_neg (half ▸ CircuitState.noConfusion)]
      exact (if_pos half).trans (if_neg (idle ▸ Bool.false_ne_true))
  | recovery opened elapsed =>
      rw [if_pos opened, if_neg (not_lt.mpr elapsed)]
      rfl

theorem Grants.permit_eq (grants : Grants settings key now entry permit changed) :
    permit.providerKey = key ∧ permit.generation = changed.generation := by
  cases grants with
  | call _ => exact ⟨rfl, rfl⟩
  | probe _ _ => exact ⟨rfl, rfl⟩
  | recovery _ _ => exact ⟨rfl, rfl⟩

/-- The generation of a circuit only grows, and does so whenever its state changes. -/
def Grows (entry changed : CircuitEntry) : Prop :=
  entry.generation ≤ changed.generation ∧
    (changed.state ≠ entry.state → entry.generation < changed.generation)

theorem Grants.grows (grants : Grants settings key now entry permit changed) :
    entry.Grows changed := by
  cases grants with
  | call closed => exact ⟨Nat.le_refl _, fun turned => (turned rfl).elim⟩
  | probe halfOpen idle => exact ⟨Nat.le_refl _, fun turned => (turned rfl).elim⟩
  | recovery opened elapsed => exact ⟨Nat.le_succ _, fun _ => Nat.lt_succ_self _⟩

theorem grows_recordSuccess : entry.Grows (entry.recordSuccess permit) := by
  by_cases closed : entry.state = .closed
  · constructor
    · simp [recordSuccess, closed]
    · intro turned
      exact (turned closed.symm).elim
  · constructor
    · simp [recordSuccess, closed]
    · intro _
      simp [recordSuccess, closed]

theorem grows_recordFailure : entry.Grows (entry.recordFailure settings permit countable now) := by
  unfold recordFailure
  split
  · exact ⟨Nat.le_succ _, fun _ => Nat.lt_succ_self _⟩
  · dsimp only
    split
    · split
      · exact ⟨Nat.le_succ _, fun _ => Nat.lt_succ_self _⟩
      · exact ⟨Nat.le_refl _, fun turned => (turned rfl).elim⟩
    · exact ⟨Nat.le_refl _, fun turned => (turned rfl).elim⟩

end CircuitEntry

namespace Circuits

/-- `_entry`. -/
def entry (circuits : Circuits) (key : String) : Except Raised (CircuitEntry × Circuits) :=
  match circuits.get? key with
  | some found => .ok (found, circuits.moveToEnd key)
  | none =>
      if settings.maxEntries ≤ circuits.size then
        match circuits.entries.find? fun item => item.2.Evictable with
        | none => .error circuitCapacity
        | some evictable => .ok ({}, (circuits.erase evictable.1).set key {})
      else .ok ({}, circuits.set key {})

/-- `acquire`, at the reading `now` of the clock. -/
def acquire (circuits : Circuits) (key : String) (now : ℚ) :
    Except Raised CircuitPermit × Circuits :=
  if key = "" then (.error .valueError, circuits)
  else
    match circuits.entry settings key with
    | .error raised => (.error raised, circuits)
    | .ok (found, circuits) =>
        match found.acquire settings key now with
        | .error raised => (.error raised, circuits)
        | .ok (permit, changed) => (.ok permit, circuits.set key changed)

/-- Change the circuit that the permit names if it is in the generation of the permit. -/
def record (circuits : Circuits) (permit : CircuitPermit) (change : CircuitEntry → CircuitEntry) :
    Circuits :=
  match circuits.get? permit.providerKey with
  | none => circuits
  | some found =>
      if found.generation ≠ permit.generation then circuits
      else (circuits.set permit.providerKey (change found)).moveToEnd permit.providerKey

def recordSuccess (circuits : Circuits) (permit : CircuitPermit) : Circuits :=
  circuits.record permit (CircuitEntry.recordSuccess permit)

/-- `record_failure`, at the reading `now` of the clock. -/
def recordFailure (circuits : Circuits) (permit : CircuitPermit) (countable : Bool) (now : ℚ) :
    Circuits :=
  circuits.record permit (CircuitEntry.recordFailure settings permit countable now)

variable {settings} {circuits after : Circuits} {key other : String} {now : ℚ}
  {permit : CircuitPermit} {change : CircuitEntry → CircuitEntry}

theorem get?_record : (circuits.record permit change).get? other =
    if other = permit.providerKey then
      (circuits.get? other).map fun found =>
        if found.generation = permit.generation then change found else found
    else circuits.get? other := by
  unfold record
  cases found : circuits.get? permit.providerKey with
  | none =>
      dsimp only
      split
      next same => rw [same, found, Option.map_none]
      next => rfl
  | some item =>
      dsimp only
      by_cases current : item.generation = permit.generation
      · rw [if_neg (not_not_intro current), Dict.get?_moveToEnd, Dict.get?_set]
        split
        next same => rw [same, found, Option.map_some, if_pos current]
        next => rfl
      · rw [if_pos current]
        split
        next same => rw [same, found, Option.map_some, if_neg current]
        next => rfl

theorem size_record : (circuits.record permit change).size = circuits.size := by
  unfold record
  cases found : circuits.get? permit.providerKey with
  | none => rfl
  | some item =>
      dsimp only
      split
      · rfl
      · rw [Dict.size_moveToEnd, Dict.size_set, if_pos (Dict.mem_keys_of_get? found)]

/-- What `acquire` does to the circuits. -/
inductive Acquired (settings : CircuitSettings) (circuits : Circuits) (key : String) (now : ℚ) :
    Except Raised CircuitPermit → Circuits → Prop
  | refused {raised : Raised} {after : Circuits} (same : ∀ other, after.get? other = circuits.get? other) :
      Acquired settings circuits key now (.error raised) after
  | granted {found changed : CircuitEntry} {permit : CircuitPermit} {after : Circuits}
      (present : circuits.get? key = some found)
      (given : found.acquire settings key now = .ok (permit, changed))
      (next : ∀ other, after.get? other = if other = key then some changed else circuits.get? other) :
      Acquired settings circuits key now (.ok permit) after
  | created {evicted : Option String} {after : Circuits} (absent : circuits.get? key = none)
      (evictable : ∀ victim ∈ evicted, ∃ item, circuits.get? victim = some item ∧ item.Evictable)
      (next : ∀ other, after.get? other =
        if other = key then some { inFlight := 1 }
        else if other ∈ evicted then none else circuits.get? other) :
      Acquired settings circuits key now (.ok ⟨key, 0, false⟩) after

/-- `_entry` finds the circuit of the key, or puts a new one in the place of an idle one. -/
theorem entry_eq_ok {found : CircuitEntry} (entered : circuits.entry settings key = .ok (found, after)) :
    (circuits.get? key = some found ∧ ∀ other, after.get? other = circuits.get? other) ∨
    (circuits.get? key = none ∧ found = {} ∧ ∃ evicted : Option String,
      (∀ victim ∈ evicted, ∃ item, circuits.get? victim = some item ∧ item.Evictable) ∧
      ∀ other, after.get? other = if other = key then some {}
        else if other ∈ evicted then none else circuits.get? other) := by
  unfold entry at entered
  cases present : circuits.get? key with
  | some item =>
      simp only [present, Except.ok.injEq, Prod.mk.injEq] at entered
      rcases entered with ⟨rfl, rfl⟩
      exact .inl ⟨rfl, fun _ => Dict.get?_moveToEnd⟩
  | none =>
      simp only [present] at entered
      refine .inr ⟨rfl, ?_⟩
      split at entered
      · cases victim : circuits.entries.find? fun item => item.2.Evictable with
        | none =>
            rw [victim] at entered
            cases entered
        | some evictable =>
            rw [victim] at entered
            cases entered
            have member := Dict.mem_entries_iff.mp (List.mem_of_find?_eq_some victim)
            have idle := List.find?_some victim
            refine ⟨rfl, some evictable.1, ?_, fun other => ?_⟩
            · intro key same
              cases same
              exact ⟨evictable.2, member, of_decide_eq_true idle⟩
            · simp only [Dict.get?_set, Dict.get?_erase, Option.mem_some_iff, eq_comm]
      · cases entered
        refine ⟨rfl, none, fun _ member => (Option.not_mem_none _ member).elim, fun other => ?_⟩
        simp only [Dict.get?_set, Option.not_mem_none, ↓reduceIte]

theorem acquire_cases {outcome : Except Raised CircuitPermit}
    (acquired : circuits.acquire settings key now = (outcome, after)) :
    Acquired settings circuits key now outcome after := by
  unfold acquire at acquired
  split at acquired
  · cases acquired
    exact .refused fun _ => rfl
  · cases entered : circuits.entry settings key with
    | error raised =>
        simp only [entered, Prod.mk.injEq] at acquired
        rcases acquired with ⟨rfl, rfl⟩
        exact .refused fun _ => rfl
    | ok pair =>
        rcases pair with ⟨found, next⟩
        simp only [entered] at acquired
        rcases entry_eq_ok entered with ⟨present, same⟩ | ⟨absent, rfl, evicted, idle, others⟩
        · cases given : found.acquire settings key now with
          | error raised =>
              simp only [given, Prod.mk.injEq] at acquired
              rcases acquired with ⟨rfl, rfl⟩
              exact .refused same
          | ok granted =>
              simp only [given, Prod.mk.injEq] at acquired
              rcases acquired with ⟨rfl, rfl⟩
              exact .granted present given fun other => by rw [Dict.get?_set, same]
        · cases acquired
          refine .created absent idle fun other => ?_
          rw [Dict.get?_set, others]
          split <;> rfl

theorem acquire_present {found : CircuitEntry} (present : circuits.get? key = some found)
    (named : key ≠ "") : (circuits.acquire settings key now).1 =
      (found.acquire settings key now).map Prod.fst := by
  rw [acquire, if_neg named, entry, present]
  dsimp only
  cases found.acquire settings key now with
  | error raised => rfl
  | ok granted => rfl

/-- The circuits never outgrow the capacity. -/
theorem size_acquire {outcome : Except Raised CircuitPermit}
    (acquired : circuits.acquire settings key now = (outcome, after))
    (bounded : circuits.size ≤ settings.maxEntries) : after.size ≤ settings.maxEntries := by
  have entered {found : CircuitEntry} {next : Circuits}
      (enters : circuits.entry settings key = .ok (found, next)) :
      next.size ≤ settings.maxEntries ∧ key ∈ next.keys := by
    unfold entry at enters
    cases present : circuits.get? key with
    | some item =>
        simp only [present, Except.ok.injEq, Prod.mk.injEq] at enters
        rcases enters with ⟨_, rfl⟩
        constructor
        · rw [Dict.size_moveToEnd]
          exact bounded
        · rw [← Dict.get?_isSome_iff, Dict.get?_moveToEnd]
          exact ⟨item, present⟩
    | none =>
        simp only [present] at enters
        have absent := Dict.get?_eq_none_iff.mp present
        split at enters
        · cases victim : circuits.entries.find? fun item => item.2.Evictable with
          | none =>
              rw [victim] at enters
              cases enters
          | some evictable =>
              rw [victim] at enters
              cases enters
              have member := Dict.mem_keys_of_get?
                (Dict.mem_entries_iff.mp (List.mem_of_find?_eq_some victim))
              have fewer := Dict.size_erase_add_one member
              refine ⟨?_, Dict.mem_keys_set.mpr (.inl rfl)⟩
              rw [Dict.size_set]
              split <;> omega
        · cases enters
          refine ⟨?_, Dict.mem_keys_set.mpr (.inl rfl)⟩
          rw [Dict.size_set, if_neg absent]
          omega
  unfold acquire at acquired
  split at acquired
  · cases acquired
    exact bounded
  · cases enters : circuits.entry settings key with
    | error raised =>
        simp only [enters, Prod.mk.injEq] at acquired
        rcases acquired with ⟨_, rfl⟩
        exact bounded
    | ok pair =>
        rcases entered enters with ⟨within, member⟩
        simp only [enters] at acquired
        split at acquired
        · cases acquired
          exact within
        · cases acquired
          rw [Dict.size_set, if_pos member]
          exact within

end Circuits

end CapabilityHub.Resilience
