import CapabilityHub.Resilience.CircuitRuns

/-! # The protocol of a circuit breaker

What holds of a circuit and of the permits it has given since it last turned, in every run in
which a permit is recorded at most once and no permit of an evicted circuit meets its own number
in a later one.
-/

namespace CapabilityHub.Resilience

/-- The permit that is recorded was not recorded before. -/
def Once (system : System) (action : Action) : Prop :=
  ∀ issue ∈ action.recorded.bind system.issue?, issue.recorded = false

/-- The clock does not go back. -/
def Monotone (system : System) (action : Action) : Prop :=
  ∀ now ∈ action.reading, ∀ last ∈ system.clock, last ≤ now

instance : DecidableRel Once := fun _ _ => inferInstanceAs (Decidable (∀ _ ∈ _, _))

instance : DecidableRel Monotone := fun _ _ => inferInstanceAs (Decidable (∀ _ ∈ _, ∀ _ ∈ _, _))

/-- What a step of the breaker keeps to. -/
structure Protocol (settings : CircuitSettings) (system : System) (action : Action) : Prop where
  /-- No two probes of a key are outstanding. -/
  probe : ∀ key, ∀ issue ∈ (step settings system action).issuedTo key,
    ∀ other ∈ (step settings system action).issuedTo key,
    issue.permit.halfOpenProbe = true → issue.recorded = false →
    other.permit.halfOpenProbe = true → other.recorded = false → issue = other
  /-- An open circuit rejects until its recovery timeout is over. -/
  paused : ∀ key now, action = .acquire key now → system.state key = some .opened →
    now < system.openedAt key + settings.recoveryTimeoutSeconds →
    (system.circuits.acquire settings key now).1 = .error circuitOpen
  /-- A closed circuit opens at the last of `failure_threshold` failures in a row. -/
  opens : ∀ key, system.state key = some .closed →
    ((step settings system action).state key = some .opened ↔
      ∃ moment now issue, action = .failure moment true now ∧ system.issue? moment = some issue ∧
        issue.permit.providerKey = key ∧ system.Current issue ∧
        system.streak key + 1 = settings.failureThreshold)
  /-- A half-open circuit opens when its probe fails. -/
  reopens : ∀ key, system.state key = some .halfOpen →
    ((step settings system action).state key = some .opened ↔
      ∃ moment countable now issue, action = .failure moment countable now ∧
        system.issue? moment = some issue ∧ issue.permit.providerKey = key ∧
        issue.permit.halfOpenProbe = true ∧ system.Current issue)
  bounded : (step settings system action).circuits.size ≤ settings.maxEntries
  /-- A circuit that is not closed, or has calls in flight, is not evicted. -/
  kept : ∀ key entry, system.circuits.get? key = some entry →
    (entry.state ≠ .closed ∨ ∃ issue ∈ system.current key, issue.recorded = false) →
    ((step settings system action).circuits.get? key).isSome
  /-- A circuit none of whose permits is outstanding gives one, after its recovery timeout. -/
  unstuck : ∀ key now, action = .acquire key now → (system.circuits.get? key).isSome →
    (∀ issue ∈ system.issuedTo key, issue.recorded = true) →
    (system.state key = some .opened →
      system.openedAt key + settings.recoveryTimeoutSeconds ≤ now) →
    ∃ permit, (system.circuits.acquire settings key now).1 = .ok permit

/-- What a circuit says of the permits it has given since it last turned. -/
inductive Fits (settings : CircuitSettings) (current : List Issue) (streak : Nat) (openedAt : ℚ) :
    Option CircuitEntry → Prop
  | absent (empty : current = []) : Fits settings current streak openedAt none
  | closed {entry : CircuitEntry} (state : entry.state = .closed)
      (generation : ∀ issue ∈ current, issue.permit.generation = entry.generation)
      (calls : ∀ issue ∈ current, issue.permit.halfOpenProbe = false)
      (inFlight : entry.inFlight = current.countP (·.recorded = false))
      (failures : entry.failures = streak) (below : streak < settings.failureThreshold) :
      Fits settings current streak openedAt (some entry)
  | opened {entry : CircuitEntry} (state : entry.state = .opened) (empty : current = [])
      (idle : entry.inFlight = 0) (since : entry.openedAt = some openedAt) :
      Fits settings current streak openedAt (some entry)
  | halfOpen {entry : CircuitEntry} {probe : Issue} (state : entry.state = .halfOpen)
      (single : current = [probe]) (generation : probe.permit.generation = entry.generation)
      (probing : probe.permit.halfOpenProbe = true) (outstanding : probe.recorded = false)
      (inFlight : entry.probeInFlight = true) (idle : entry.inFlight = 0) :
      Fits settings current streak openedAt (some entry)

namespace System

variable {settings : CircuitSettings} {system : System} {action : Action} {key : String}
  {moment : Nat} {issue : Issue} {now : ℚ}

/-- The circuit of a key fits its permits, and a probe is outstanding only until the circuit
turns. -/
structure SoundAt (settings : CircuitSettings) (system : System) (key : String) : Prop where
  fits : Fits settings (system.current key) (system.streak key) (system.openedAt key)
    (system.circuits.get? key)
  probes : ∀ issue ∈ system.issuedTo key, issue.permit.halfOpenProbe = true →
    issue.recorded = false → issue ∈ system.current key

structure Sound (settings : CircuitSettings) (system : System) : Prop where
  epochs : system.Epochs
  ordered : system.issued.Pairwise fun earlier later => earlier.moment < later.moment
  named : system.circuits.get? "" = none
  bounded : system.circuits.size ≤ settings.maxEntries
  each : ∀ key, SoundAt settings system key

theorem mem_issuedTo : issue ∈ system.issuedTo key ↔
    issue ∈ system.issued ∧ issue.permit.providerKey = key := by
  simp [issuedTo]

theorem mem_current : issue ∈ system.current key ↔
    issue ∈ system.issuedTo key ∧ system.turned key ≤ issue.moment := by
  simp [current]

theorem mem_current_iff (member : issue ∈ system.issued) :
    issue ∈ system.current issue.permit.providerKey ↔ system.Current issue := by
  simp [mem_current, mem_issuedTo, member, Current]

/-- Only a half-open circuit has a probe outstanding. -/
theorem SoundAt.recorded (sound : SoundAt settings system key)
    (state : system.state key ≠ some .halfOpen) (member : issue ∈ system.issuedTo key)
    (probe : issue.permit.halfOpenProbe = true) : issue.recorded = true := by
  by_contra outstanding
  have among := sound.probes issue member probe (eq_false_of_ne_true outstanding)
  have fits := sound.fits
  unfold System.state at state
  generalize system.circuits.get? key = circuit at fits state
  cases fits with
  | absent empty => exact absurd (empty ▸ among) List.not_mem_nil
  | opened _ empty _ _ => exact absurd (empty ▸ among) List.not_mem_nil
  | closed _ _ calls _ _ _ => exact Bool.false_ne_true ((calls issue among).symm.trans probe)
  | halfOpen half _ _ _ _ _ _ => exact state (congrArg some half)

/-! ## Keys that a step does not touch, and keys whose circuit it turns -/

theorem SoundAt.frame (sound : SoundAt settings system key)
    (circuit : (step settings system action).circuits.get? key = system.circuits.get? key)
    (issued : (step settings system action).issuedTo key = system.issuedTo key)
    (streak : system.streakAfter key action = system.streak key) :
    SoundAt settings (step settings system action) key := by
  have state : (step settings system action).state key = system.state key :=
    congrArg (Option.map CircuitEntry.state) circuit
  have turned : (step settings system action).turned key = system.turned key := by
    rw [turned_step, if_pos state]
  have opened : (step settings system action).openedAt key = system.openedAt key := by
    rw [openedAt_step, if_neg fun moved => moved.1 state]
  have current : (step settings system action).current key = system.current key := by
    rw [System.current, issued, turned]
    rfl
  constructor
  · rw [current, opened, circuit, streak_step, if_pos state, streak]
    exact sound.fits
  · rw [issued, current]
    exact sound.probes

/-- A circuit that turns keeps the permits that the step itself has given. -/
theorem SoundAt.turn {kept given : List Issue} {entry : Option CircuitEntry}
    (turns : entry.map (·.state) ≠ system.state key)
    (circuit : (step settings system action).circuits.get? key = entry)
    (issued : (step settings system action).issuedTo key = kept ++ given)
    (before : ∀ issue ∈ kept, issue.moment < system.moment)
    (new : ∀ issue ∈ given, issue.moment = system.moment)
    (recorded : ∀ issue ∈ kept, issue.permit.halfOpenProbe = true → issue.recorded = true)
    (fits : ∀ since, (entry.map (·.state) = some .opened →
      since = action.reading.getD (system.openedAt key)) → Fits settings given 0 since entry) :
    SoundAt settings (step settings system action) key := by
  have state : (step settings system action).state key = entry.map (·.state) :=
    congrArg (Option.map CircuitEntry.state) circuit
  have current : (step settings system action).current key = given := by
    have none : (kept.filter fun issue => system.moment ≤ issue.moment) = [] := by
      simpa using before
    have all : (given.filter fun issue => system.moment ≤ issue.moment) = given := by
      simpa using fun issue member => Nat.le_of_eq (new issue member).symm
    rw [System.current, issued, turned_step, if_neg (state ▸ turns), List.filter_append, none, all,
      List.nil_append]
  constructor
  · rw [current, circuit, streak_step, if_neg (state ▸ turns)]
    apply fits
    intro open'
    rw [openedAt_step, if_pos ⟨state ▸ turns, state.trans open'⟩]
  · intro issue member probe outstanding
    rw [current]
    rw [issued] at member
    rcases List.mem_append.mp member with old | given
    · exact absurd ((recorded issue old probe).symm.trans outstanding) Bool.noConfusion
    · exact given

/-! ## Acquiring -/

theorem SoundAt.acquire (sound : Sound settings system) (other : String) (now : ℚ)
    (key : String) : SoundAt settings (step settings system (.acquire other now)) key := by
  have earlier : ∀ issue ∈ system.issuedTo key, issue.moment < system.moment :=
    fun issue member => sound.epochs.given issue (mem_issuedTo.mp member).1
  have at_key := sound.each key
  rcases acquired : system.circuits.acquire settings other now with ⟨outcome, after⟩
  have circuits : (step settings system (.acquire other now)).circuits = after := by
    rw [circuits_step, circuitsAfter, acquired]
  have issued : (step settings system (.acquire other now)).issued =
      system.issued ++ given system.moment outcome := by
    rw [issued_step, issuedAfter, acquired]
  have issuedTo {permit : CircuitPermit} (granted : outcome = .ok permit) :
      (step settings system (.acquire other now)).issuedTo key = system.issuedTo key ++
        if permit.providerKey = key then [{ permit, moment := system.moment }] else [] := by
    rw [System.issuedTo, issued, granted, List.filter_append, given, List.filter_singleton]
    simp only [System.issuedTo, Bool.cond_decide]
  have frame {permit : CircuitPermit} (given : outcome = .ok permit)
      (elsewhere : permit.providerKey ≠ key)
      (circuit : after.get? key = system.circuits.get? key) :
      SoundAt settings (step settings system (.acquire other now)) key := by
    refine at_key.frame (circuits ▸ circuit) ?_ rfl
    rw [issuedTo given, if_neg elsewhere, List.append_nil]
  cases Circuits.acquire_cases acquired with
  | refused same =>
      refine at_key.frame (circuits ▸ same key) ?_ rfl
      rw [System.issuedTo, issued, given, List.append_nil, System.issuedTo]
  | @granted found changed permit _ present given next =>
      have grants := CircuitEntry.acquire_eq_ok.mp given
      by_cases named : key = other
      · subst named
        have circuit : (step settings system (.acquire key now)).circuits.get? key = some changed :=
          circuits ▸ (next key).trans (if_pos rfl)
        have issued' := issuedTo rfl
        rw [if_pos grants.permit_eq.1] at issued'
        have fits := at_key.fits
        rw [present] at fits
        cases grants with
        | call closed =>
            have state : (step settings system (.acquire key now)).state key = system.state key := by
              rw [System.state, circuit, System.state, present]
              rfl
            have current : (step settings system (.acquire key now)).current key =
                system.current key ++
                  [{ permit := ⟨key, found.generation, false⟩, moment := system.moment }] := by
              rw [System.current, issued', turned_step, if_pos state, List.filter_append,
                List.filter_singleton, decide_eq_true (sound.epochs.turned key)]
              rfl
            constructor
            · rw [current, circuit, streak_step, if_pos state, openedAt_step,
                if_neg fun moved => moved.1 state]
              cases fits with
              | closed _ generation calls inFlight failures below =>
                  refine .closed closed ?_ ?_ ?_ failures below
                  · intro issue member
                    rcases List.mem_append.mp member with old | new
                    · exact generation issue old
                    · rw [List.mem_singleton.mp new]
                  · intro issue member
                    rcases List.mem_append.mp member with old | new
                    · exact calls issue old
                    · rw [List.mem_singleton.mp new]
                  · rw [List.countP_append, ← inFlight]
                    rfl
              | opened opened _ _ _ => cases closed.symm.trans opened
              | halfOpen half _ _ _ _ _ _ => cases closed.symm.trans half
            · intro issue member probe outstanding
              rw [issued'] at member
              rw [current]
              rcases List.mem_append.mp member with old | new
              · exact List.mem_append_left _ (at_key.probes issue old probe outstanding)
              · exact List.mem_append_right _ new
        | probe half idle =>
            cases fits with
            | closed closed _ _ _ _ _ => cases half.symm.trans closed
            | opened opened _ _ _ => cases half.symm.trans opened
            | halfOpen _ _ _ _ _ inFlight _ => cases idle.symm.trans inFlight
        | recovery opened elapsed =>
            have state : system.state key = some .opened := by
              rw [System.state, present]
              exact congrArg some opened
            have idle : found.inFlight = 0 := by
              cases fits with
              | closed closed _ _ _ _ _ => cases opened.symm.trans closed
              | opened _ _ idle _ => exact idle
              | halfOpen half _ _ _ _ _ _ => cases opened.symm.trans half
            refine SoundAt.turn (state ▸ fun same => by cases same) circuit issued' earlier
              (fun issue member => List.mem_singleton.mp member ▸ rfl)
              (fun issue member => at_key.recorded (state ▸ fun same => by cases same) member) fun since _ => ?_
            exact .halfOpen rfl rfl rfl rfl rfl rfl idle
      · refine frame rfl ?_ ((next key).trans (if_neg named))
        rw [grants.permit_eq.1]
        exact fun equal => named equal.symm
  | @created evicted _ absent evictable next =>
      by_cases named : key = other
      · subst named
        have state : system.state key = none := by rw [System.state, absent]; rfl
        have circuit := circuits ▸ (next key).trans (if_pos rfl)
        have issued' := issuedTo rfl
        rw [if_pos rfl] at issued'
        refine SoundAt.turn (state ▸ fun same => by cases same) circuit issued' earlier
          (fun issue member => List.mem_singleton.mp member ▸ rfl)
          (fun issue member => at_key.recorded (state ▸ fun same => by cases same) member) fun since _ => ?_
        refine .closed rfl ?_ ?_ rfl rfl settings.threshold
        · intro issue member
          rw [List.mem_singleton.mp member]
        · intro issue member
          rw [List.mem_singleton.mp member]
      · have elsewhere := (next key).trans (if_neg named)
        by_cases victim : key ∈ evicted
        · rw [if_pos victim] at elsewhere
          rcases evictable key victim with ⟨item, present, closed, _⟩
          have state : system.state key = some .closed := by
            rw [System.state, present]
            exact congrArg some closed
          have issued' := issuedTo rfl
          rw [if_neg fun equal => named equal.symm] at issued'
          exact SoundAt.turn (state ▸ fun same => by cases same) (circuits ▸ elsewhere) issued' earlier
            (fun issue member => absurd member List.not_mem_nil)
            (fun issue member => at_key.recorded (state ▸ fun same => by cases same) member) fun since _ => .absent rfl
        · rw [if_neg victim] at elsewhere
          exact frame rfl (fun equal => named equal.symm) elsewhere

/-! ## Recording -/

theorem Sound.moment_injective (sound : Sound settings system) {other : Issue}
    (member : issue ∈ system.issued) (member' : other ∈ system.issued)
    (same : issue.moment = other.moment) : issue = other := by
  have nodup : (system.issued.map (·.moment)).Nodup :=
    List.pairwise_map.mpr (sound.ordered.imp Nat.ne_of_lt)
  exact List.inj_on_of_nodup_map nodup member member' same

theorem countP_marked {issues : List Issue}
    (ordered : issues.Pairwise fun earlier later => earlier.moment < later.moment)
    (member : issue ∈ issues) (outstanding : issue.recorded = false) :
    (issues.map (Issue.marked issue.moment)).countP (·.recorded = false) + 1 =
      issues.countP (·.recorded = false) := by
  induction issues with
  | nil => exact absurd member List.not_mem_nil
  | cons first rest ih =>
      rw [List.pairwise_cons] at ordered
      rw [List.map_cons, List.countP_cons, List.countP_cons]
      rcases List.mem_cons.mp member with rfl | member
      · have others : rest.map (Issue.marked issue.moment) = rest := by
          refine (List.map_congr_left fun other among => ?_).trans (List.map_id _)
          exact marked_of_ne (Nat.ne_of_gt (ordered.1 other among))
        rw [others, recorded_marked rfl, outstanding]
        simp
      · rw [marked_of_ne (Nat.ne_of_lt (ordered.1 issue member)), ← ih ordered.2 member]
        omega

section Record

variable (sound : Sound settings system) (records : action.recorded = some moment)
  (found : system.issue? moment = some issue)
  (issued : system.issuedAfter settings action = system.issued.map (Issue.marked moment))

include issued

theorem issuedTo_record :
    (step settings system action).issuedTo key = (system.issuedTo key).map (Issue.marked moment) := by
  simp only [System.issuedTo, issued_step, issued, List.filter_map, Function.comp_def,
    permit_marked]

theorem current_record (turned : (step settings system action).turned key = system.turned key) :
    (step settings system action).current key = (system.current key).map (Issue.marked moment) := by
  simp only [System.current, issuedTo_record issued, turned, List.filter_map, Function.comp_def,
    moment_marked]

include sound records found

/-- An outcome that leaves the circuit alone and is not of a current permit. -/
theorem SoundAt.unmoved (apart : issue ∉ system.current key)
    (circuit : (step settings system action).circuits.get? key = system.circuits.get? key) :
    SoundAt settings (step settings system action) key := by
  rcases issue?_eq_some found with ⟨member, rfl⟩
  have at_key := sound.each key
  have state : (step settings system action).state key = system.state key :=
    congrArg (Option.map CircuitEntry.state) circuit
  have turned : (step settings system action).turned key = system.turned key := by
    rw [turned_step, if_pos state]
  have current : (step settings system action).current key = system.current key := by
    rw [current_record issued turned]
    refine (List.map_congr_left fun other among => ?_).trans (List.map_id _)
    apply marked_of_ne
    intro same
    have inside := (mem_issuedTo.mp (mem_current.mp among).1).1
    exact apart (sound.moment_injective inside member same ▸ among)
  have streak : system.streakAfter key action = system.streak key := by
    unfold streakAfter
    rw [records, Option.bind_some, found]
    refine if_neg fun own => apart ?_
    exact own.1 ▸ (mem_current_iff member).mpr own.2
  constructor
  · rw [current, circuit, streak_step, if_pos state, streak, openedAt_step,
      if_neg fun moved => moved.1 state]
    exact at_key.fits
  · intro other among probe outstanding
    rw [issuedTo_record issued] at among
    obtain ⟨earlier, inside, rfl⟩ := List.mem_map.mp among
    rcases of_marked_outstanding outstanding with ⟨_, same⟩
    rw [current, same]
    rw [same] at probe outstanding
    exact at_key.probes earlier inside probe outstanding

/-- An outcome that turns the circuit of its permit. -/
theorem SoundAt.turned {changed : CircuitEntry} (current : issue ∈ system.current key)
    (turns : system.state key ≠ some changed.state)
    (circuit : (step settings system action).circuits.get? key = some changed)
    (idle : changed.inFlight = 0)
    (changes : changed.state = .closed ∧ changed.failures = 0 ∨
      changed.state = .opened ∧ ∃ now, changed.openedAt = some now ∧ action.reading = some now) :
    SoundAt settings (step settings system action) key := by
  rcases issue?_eq_some found with ⟨member, rfl⟩
  have at_key := sound.each key
  have turning : (some changed).map (·.state) ≠ system.state key := fun same => turns same.symm
  have kept : (step settings system action).issuedTo key =
      (system.issuedTo key).map (Issue.marked issue.moment) ++ [] :=
    (issuedTo_record issued).trans (List.append_nil _).symm
  refine SoundAt.turn turning circuit kept ?_ (fun _ none => absurd none List.not_mem_nil) ?_
    fun since opened => ?_
  · intro other among
    obtain ⟨earlier, inside, rfl⟩ := List.mem_map.mp among
    rw [moment_marked]
    exact sound.epochs.given earlier (mem_issuedTo.mp inside).1
  · intro other among probe
    obtain ⟨earlier, inside, rfl⟩ := List.mem_map.mp among
    rw [permit_marked] at probe
    by_contra outstanding
    rcases of_marked_outstanding (eq_false_of_ne_true outstanding) with ⟨apart, same⟩
    rw [same] at outstanding
    -- an outstanding probe is the only current permit, and that is the one recorded
    have probing := at_key.probes earlier inside probe (eq_false_of_ne_true outstanding)
    have fits := at_key.fits
    generalize system.circuits.get? key = before at fits
    cases fits with
    | absent empty => exact absurd (empty ▸ probing) List.not_mem_nil
    | opened _ empty _ _ => exact absurd (empty ▸ probing) List.not_mem_nil
    | closed _ _ calls _ _ _ => exact absurd ((calls _ probing).symm.trans probe) Bool.noConfusion
    | halfOpen _ single _ _ _ _ _ =>
        rw [single, List.mem_singleton] at probing current
        exact apart (congrArg Issue.moment (probing.trans current.symm))
  · rcases changes with ⟨closed, zero⟩ | ⟨opens, now, at_now, reading⟩
    · exact .closed closed (fun _ none => absurd none List.not_mem_nil)
        (fun _ none => absurd none List.not_mem_nil) idle zero settings.threshold
    · refine .opened opens rfl idle ?_
      rw [opened (congrArg some opens), reading, at_now]
      rfl

/-- An outcome that leaves the circuit of its permit closed. -/
theorem SoundAt.settled {entry changed : CircuitEntry} (current : issue ∈ system.current key)
    (outstanding : issue.recorded = false) (present : system.circuits.get? key = some entry)
    (closed : entry.state = .closed)
    (circuit : (step settings system action).circuits.get? key = some changed)
    (closed' : changed.state = .closed) (generation : changed.generation = entry.generation)
    (inFlight : changed.inFlight = entry.inFlight - 1)
    (failures : entry.failures = system.streak key →
      changed.failures = system.streakAfter key action)
    (below : changed.failures < settings.failureThreshold) :
    SoundAt settings (step settings system action) key := by
  rcases issue?_eq_some found with ⟨member, rfl⟩
  have at_key := sound.each key
  have state : (step settings system action).state key = system.state key := by
    rw [System.state, circuit, System.state, present, Option.map_some, Option.map_some, closed,
      closed']
  have turned : (step settings system action).turned key = system.turned key := by
    rw [turned_step, if_pos state]
  have current' := current_record issued turned
  constructor
  · rw [current', circuit, streak_step, if_pos state, openedAt_step,
      if_neg fun moved => moved.1 state]
    have fits := at_key.fits
    rw [present] at fits
    cases fits with
    | closed _ generations calls calling failed _ =>
        have number := failures failed
        refine .closed closed' ?_ ?_ ?_ number (number ▸ below)
        · intro other among
          obtain ⟨earlier, inside, rfl⟩ := List.mem_map.mp among
          rw [permit_marked, generation]
          exact generations earlier inside
        · intro other among
          obtain ⟨earlier, inside, rfl⟩ := List.mem_map.mp among
          rw [permit_marked]
          exact calls earlier inside
        · have ordered : (system.current key).Pairwise fun earlier later =>
              earlier.moment < later.moment :=
            (sound.ordered.sublist List.filter_sublist).sublist List.filter_sublist
          rw [inFlight, calling, ← countP_marked ordered current outstanding]
          rfl
    | opened opened _ _ _ => exact absurd (closed.symm.trans opened) nofun
    | halfOpen half _ _ _ _ _ _ => exact absurd (closed.symm.trans half) nofun
  · intro other among probe left
    rw [issuedTo_record issued] at among
    obtain ⟨earlier, inside, rfl⟩ := List.mem_map.mp among
    have same := (of_marked_outstanding left).2
    rw [current']
    rw [same] at probe left
    exact List.mem_map_of_mem (at_key.probes earlier inside probe left)

/-- An outcome acts on the circuit of a current permit, and on nothing else. -/
theorem SoundAt.record {change : CircuitEntry → CircuitEntry} (own : Own system action)
    (circuits : system.circuitsAfter settings action =
      system.circuits.record issue.permit change)
    (acts : ∀ entry, system.circuits.get? issue.permit.providerKey = some entry →
      issue ∈ system.current issue.permit.providerKey →
      (step settings system action).circuits.get? issue.permit.providerKey = some (change entry) →
      SoundAt settings (step settings system action) issue.permit.providerKey) (key : String) :
    SoundAt settings (step settings system action) key := by
  have unmoved : issue ∉ system.current key →
      (step settings system action).circuits.get? key = system.circuits.get? key →
      SoundAt settings (step settings system action) key :=
    SoundAt.unmoved sound records found issued
  have after : (step settings system action).circuits.get? key = _ :=
    (congrArg (Dict.get? · key) circuits).trans Circuits.get?_record
  by_cases named : key = issue.permit.providerKey
  · rw [if_pos named] at after
    cases present : system.circuits.get? key with
    | none =>
        rw [present, Option.map_none] at after
        have fits := (sound.each key).fits
        rw [present] at fits
        cases fits with
        | absent empty => exact unmoved (empty ▸ List.not_mem_nil) (after.trans present.symm)
    | some entry =>
        rw [present, Option.map_some] at after
        by_cases numbered : entry.generation = issue.permit.generation
        · rw [if_pos numbered] at after
          subst named
          have member := (issue?_eq_some found).1
          have recorded : issue ∈ action.recorded.bind system.issue? := by
            rw [records]
            exact found
          have born := own issue recorded entry present numbered
          have current := (sound.epochs.generation issue member entry present born).2 numbered
          exact acts entry present ((mem_current_iff member).mpr current) after
        · rw [if_neg numbered] at after
          refine unmoved (fun current => numbered ?_) (after.trans present.symm)
          have fits := (sound.each key).fits
          rw [present] at fits
          cases fits with
          | closed _ generation _ _ _ _ => exact (generation issue current).symm
          | opened _ empty _ _ => exact absurd (empty ▸ current) List.not_mem_nil
          | halfOpen _ single generation _ _ _ _ =>
              rw [single, List.mem_singleton] at current
              exact current ▸ generation.symm
  · rw [if_neg named] at after
    exact unmoved (fun current => named (mem_issuedTo.mp (mem_current.mp current).1).2.symm) after

end Record

theorem SoundAt.success (sound : Sound settings system) (own : Own system (.success moment))
    (once : Once system (.success moment)) (found : system.issue? moment = some issue)
    (key : String) : SoundAt settings (step settings system (.success moment)) key := by
  have outstanding := once issue found
  have circuits : system.circuitsAfter settings (.success moment) =
      system.circuits.recordSuccess issue.permit := by
    rw [circuitsAfter, found]
  refine SoundAt.record sound rfl found rfl own circuits (fun entry present current after => ?_) key
  have fits := (sound.each issue.permit.providerKey).fits
  rw [present] at fits
  cases fits with
  | closed closed _ calls inFlight _ _ =>
      have call := calls issue current
      refine SoundAt.settled sound rfl found rfl current outstanding present closed after rfl ?_ ?_
        (fun _ => ?_) settings.threshold
      · exact if_neg (not_not_intro closed)
      · exact if_neg (call ▸ Bool.false_ne_true)
      · unfold streakAfter
        rw [show Action.recorded (.success moment) = some moment from rfl, Option.bind_some, found]
        exact (if_pos ⟨rfl, (mem_current_iff (issue?_eq_some found).1).mp current⟩).symm
  | opened _ empty _ _ => exact absurd (empty ▸ current) List.not_mem_nil
  | halfOpen half single _ probing _ _ idle =>
      rw [single, List.mem_singleton] at current
      subst current
      refine SoundAt.turned sound rfl found rfl (single ▸ List.mem_singleton_self _) ?_ after ?_
        (.inl ⟨rfl, rfl⟩)
      · rw [System.state, present, Option.map_some, half]
        exact fun same => by cases same
      · exact (if_pos probing).trans idle

theorem SoundAt.failure {countable : Bool} (sound : Sound settings system)
    (own : Own system (.failure moment countable now))
    (once : Once system (.failure moment countable now))
    (found : system.issue? moment = some issue) (key : String) :
    SoundAt settings (step settings system (.failure moment countable now)) key := by
  have outstanding := once issue found
  have circuits : system.circuitsAfter settings (.failure moment countable now) =
      system.circuits.recordFailure settings issue.permit countable now := by
    rw [circuitsAfter, found]
  refine SoundAt.record sound rfl found rfl own circuits (fun entry present current after => ?_) key
  have fits := (sound.each issue.permit.providerKey).fits
  have own' := (mem_current_iff (issue?_eq_some found).1).mp current
  rw [present] at fits
  unfold CircuitEntry.recordFailure at after
  cases fits with
  | closed closed _ calls inFlight failures below =>
      rw [if_neg (calls issue current ▸ Bool.false_ne_true)] at after
      dsimp only at after
      have streak : system.streakAfter issue.permit.providerKey (.failure moment countable now) =
          if countable then system.streak issue.permit.providerKey + 1
          else system.streak issue.permit.providerKey := by
        unfold streakAfter
        rw [show Action.recorded (.failure moment countable now) = some moment from rfl,
          Option.bind_some, found]
        refine (if_pos ⟨rfl, own'⟩).trans ?_
        cases countable <;> rfl
      have settle := SoundAt.settled sound rfl found rfl current outstanding present closed after
      cases countable with
      | false =>
          exact settle closed rfl rfl (fun failed => failed.trans streak.symm) (failures ▸ below)
      | true =>
          rw [if_pos rfl] at after settle
          by_cases reached : settings.failureThreshold ≤ entry.failures + 1
          · rw [if_pos reached] at after
            refine SoundAt.turned sound rfl found rfl current ?_ after rfl
              (.inr ⟨rfl, now, rfl, rfl⟩)
            rw [System.state, present, Option.map_some, closed]
            exact fun same => by cases same
          · rw [if_neg reached] at settle
            refine settle closed rfl rfl (fun failed => ?_) (Nat.lt_of_not_le reached)
            rw [streak, ← failed]
            rfl
  | opened _ empty _ _ => exact absurd (empty ▸ current) List.not_mem_nil
  | halfOpen half single _ probing _ _ idle =>
      have same := current
      rw [single, List.mem_singleton] at same
      subst same
      rw [if_pos probing] at after
      refine SoundAt.turned sound rfl found rfl current ?_ after rfl (.inr ⟨rfl, now, rfl, rfl⟩)
      rw [System.state, present, Option.map_some, half]
      exact fun same => by cases same

theorem issue?_none (none : system.issue? moment = none) :
    system.issued.map (Issue.marked moment) = system.issued := by
  refine (List.map_congr_left fun issue member => ?_).trans (List.map_id _)
  apply marked_of_ne
  intro same
  have missing := List.find?_eq_none.mp none issue member
  exact missing (decide_eq_true same)

/-- An outcome of a permit that was never given. -/
theorem SoundAt.unknown (at_key : SoundAt settings system key)
    (circuits : system.circuitsAfter settings action = system.circuits)
    (issued : system.issuedAfter settings action = system.issued)
    (none : action.recorded.bind system.issue? = none) :
    SoundAt settings (step settings system action) key := by
  refine at_key.frame (congrArg (Dict.get? · key) circuits) ?_ ?_
  · rw [System.issuedTo, issued_step, issued, System.issuedTo]
  · unfold streakAfter
    rw [none]

theorem Sound.ordered_step (sound : Sound settings system) (action : Action) :
    (step settings system action).issued.Pairwise fun earlier later =>
      earlier.moment < later.moment := by
  have marked (moment : Nat) : (system.issued.map (Issue.marked moment)).Pairwise
      fun earlier later => earlier.moment < later.moment := by
    rw [List.pairwise_map]
    simp only [moment_marked]
    exact sound.ordered
  rw [issued_step]
  cases action with
  | success moment => exact marked moment
  | failure moment _ _ => exact marked moment
  | acquire other now =>
      rw [issuedAfter, List.pairwise_append]
      generalize (system.circuits.acquire settings other now).1 = outcome
      refine ⟨sound.ordered, ?_, fun issue old fresh member => ?_⟩
      · cases outcome with
        | error raised => exact .nil
        | ok permit => exact List.pairwise_singleton _ _
      · cases outcome with
        | error raised => exact absurd member List.not_mem_nil
        | ok permit =>
            rw [List.mem_singleton.mp member]
            exact sound.epochs.given issue old

theorem Sound.bounded_step (sound : Sound settings system) (action : Action) :
    (step settings system action).circuits.size ≤ settings.maxEntries := by
  rw [circuits_step]
  cases action with
  | acquire other now => exact Circuits.size_acquire (Prod.eta _).symm sound.bounded
  | success moment =>
      rw [circuitsAfter]
      split
      · exact sound.bounded
      · exact Circuits.size_record.trans_le sound.bounded
  | failure moment countable now =>
      rw [circuitsAfter]
      split
      · exact sound.bounded
      · exact Circuits.size_record.trans_le sound.bounded

theorem Sound.named_step (sound : Sound settings system) (action : Action) :
    (step settings system action).circuits.get? "" = none := by
  have moves := moves_step settings system action ""
  rw [sound.named] at moves
  have unmade (permit : CircuitPermit) (change : CircuitEntry → CircuitEntry) :
      (system.circuits.record permit change).get? "" = none := by
    rw [Circuits.get?_record, sound.named, Option.map_none, ite_self]
  rw [circuits_step]
  cases action with
  | acquire other now =>
      rw [circuitsAfter]
      by_cases empty : other = ""
      · rw [Circuits.acquire, if_pos empty]
        exact sound.named
      · rcases acquired : system.circuits.acquire settings other now with ⟨outcome, after⟩
        have apart : ¬"" = other := fun same => empty same.symm
        cases Circuits.acquire_cases acquired with
        | refused same => exact (same "").trans sound.named
        | granted _ _ next => exact ((next "").trans (if_neg apart)).trans sound.named
        | created _ _ next =>
            refine ((next "").trans (if_neg apart)).trans ?_
            rw [sound.named, ite_self]
  | success moment =>
      rw [circuitsAfter]
      split
      · exact sound.named
      · exact unmade _ _
  | failure moment countable now =>
      rw [circuitsAfter]
      split
      · exact sound.named
      · exact unmade _ _

theorem Sound.step (sound : Sound settings system) (own : Own system action)
    (once : Once system action) : Sound settings (step settings system action) where
  epochs := sound.epochs.step settings action
  ordered := sound.ordered_step action
  named := sound.named_step action
  bounded := sound.bounded_step action
  each := fun key => by
    cases action with
    | acquire other now => exact SoundAt.acquire sound other now key
    | success moment =>
        cases found : system.issue? moment with
        | none =>
            exact (sound.each key).unknown (by rw [circuitsAfter, found]) (issue?_none found) found
        | some issue => exact SoundAt.success sound own once found key
    | failure moment countable now =>
        cases found : system.issue? moment with
        | none =>
            exact (sound.each key).unknown (by rw [circuitsAfter, found]) (issue?_none found) found
        | some issue => exact SoundAt.failure sound own once found key

theorem sound_initial (settings : CircuitSettings) : Sound settings {} where
  epochs := epochs_initial
  ordered := .nil
  named := rfl
  bounded := Nat.zero_le _
  each := fun _ => ⟨.absent rfl, fun _ member => absurd member List.not_mem_nil⟩

/-! ## What a sound system does next -/

theorem SoundAt.one_probe {other : Issue} (sound : SoundAt settings system key)
    (member : issue ∈ system.issuedTo key) (member' : other ∈ system.issuedTo key)
    (probe : issue.permit.halfOpenProbe = true) (outstanding : issue.recorded = false)
    (probe' : other.permit.halfOpenProbe = true) (outstanding' : other.recorded = false) :
    issue = other := by
  have among := sound.probes issue member probe outstanding
  have among' := sound.probes other member' probe' outstanding'
  have fits := sound.fits
  generalize system.circuits.get? key = circuit at fits
  cases fits with
  | absent empty => exact absurd (empty ▸ among) List.not_mem_nil
  | opened _ empty _ _ => exact absurd (empty ▸ among) List.not_mem_nil
  | closed _ _ calls _ _ _ => exact absurd ((calls issue among).symm.trans probe) nofun
  | halfOpen _ single _ _ _ _ _ =>
      rw [single, List.mem_singleton] at among among'
      exact among.trans among'.symm

theorem Sound.named_key {entry : CircuitEntry} (sound : Sound settings system)
    (present : system.circuits.get? key = some entry) : key ≠ "" := by
  rintro rfl
  exact nomatch sound.named.symm.trans present

theorem Sound.paused (sound : Sound settings system) (open' : system.state key = some .opened)
    (early : now < system.openedAt key + settings.recoveryTimeoutSeconds) :
    (system.circuits.acquire settings key now).1 = .error circuitOpen := by
  obtain ⟨entry, present, opened⟩ := Option.map_eq_some_iff.mp open'
  rw [Circuits.acquire_present present (sound.named_key present)]
  have fits := (sound.each key).fits
  rw [present] at fits
  cases fits with
  | closed closed _ _ _ _ _ => exact absurd (opened.symm.trans closed) nofun
  | halfOpen half _ _ _ _ _ _ => exact absurd (opened.symm.trans half) nofun
  | opened _ _ _ since =>
      have waits : now - entry.openedAt.getD now < settings.recoveryTimeoutSeconds := by
        rw [since, Option.getD_some]
        exact sub_lt_iff_lt_add'.mpr early
      rw [CircuitEntry.acquire, CircuitEntry.recover, if_pos opened, if_pos waits]
      rfl

theorem Sound.unstuck (sound : Sound settings system) (known : (system.circuits.get? key).isSome)
    (recorded : ∀ issue ∈ system.issuedTo key, issue.recorded = true)
    (late : system.state key = some .opened →
      system.openedAt key + settings.recoveryTimeoutSeconds ≤ now) :
    ∃ permit, (system.circuits.acquire settings key now).1 = .ok permit := by
  obtain ⟨entry, present⟩ := Option.isSome_iff_exists.mp known
  rw [Circuits.acquire_present present (sound.named_key present)]
  have grants {permit : CircuitPermit} {changed : CircuitEntry}
      (grants : entry.Grants settings key now permit changed) :
      ∃ permit, (entry.acquire settings key now).map Prod.fst = .ok permit :=
    ⟨permit, by rw [CircuitEntry.acquire_eq_ok.mpr grants]; rfl⟩
  have fits := (sound.each key).fits
  rw [present] at fits
  cases fits with
  | closed closed _ _ _ _ _ => exact grants (.call closed)
  | opened opened _ _ since =>
      refine grants (.recovery opened ?_)
      rw [since, Option.getD_some]
      refine le_sub_iff_add_le'.mpr (late ?_)
      rw [System.state, present, Option.map_some, opened]
  | halfOpen _ single _ _ outstanding _ _ =>
      have member := (mem_current.mp (single ▸ List.mem_singleton_self _)).1
      exact absurd ((recorded _ member).symm.trans outstanding) nofun

theorem Sound.kept {entry : CircuitEntry} (sound : Sound settings system)
    (present : system.circuits.get? key = some entry)
    (busy : entry.state ≠ .closed ∨ ∃ issue ∈ system.current key, issue.recorded = false) :
    ((Resilience.step settings system action).circuits.get? key).isSome := by
  have recorded (permit : CircuitPermit) (change : CircuitEntry → CircuitEntry) :
      ((system.circuits.record permit change).get? key).isSome := by
    rw [Circuits.get?_record, present]
    split <;> rfl
  have busy' : ¬entry.Evictable := by
    rintro ⟨closed, idle⟩
    rcases busy with moved | ⟨issue, current, outstanding⟩
    · exact moved closed
    · have fits := (sound.each key).fits
      rw [present] at fits
      cases fits with
      | closed _ _ _ inFlight _ _ =>
          have none := List.countP_eq_zero.mp (inFlight.symm.trans idle) issue current
          exact none (decide_eq_true outstanding)
      | opened opened _ _ _ => exact absurd (closed.symm.trans opened) nofun
      | halfOpen half _ _ _ _ _ _ => exact absurd (closed.symm.trans half) nofun
  rw [circuits_step]
  cases action with
  | success moment =>
      rw [circuitsAfter]
      split
      · rw [present]
        rfl
      · exact recorded _ _
  | failure moment countable now =>
      rw [circuitsAfter]
      split
      · rw [present]
        rfl
      · exact recorded _ _
  | acquire other now =>
      rw [circuitsAfter]
      rcases acquired : system.circuits.acquire settings other now with ⟨outcome, after⟩
      cases Circuits.acquire_cases acquired with
      | refused same => rw [same, present]; rfl
      | granted _ _ next =>
          rw [next]
          split
          · rfl
          · rw [present]
            rfl
      | @created evicted _ absent evictable next =>
          rw [next]
          split
          · rfl
          · have safe : key ∉ evicted := by
              intro victim
              rcases evictable key victim with ⟨item, found, idle⟩
              cases present.symm.trans found
              exact busy' idle
            rw [if_neg safe, present]
            rfl

/-- The only way into the open state is a failure of a current permit. -/
theorem Sound.opened_cases (sound : Sound settings system) (own : Own system action)
    (before : system.state key ≠ some .opened)
    (after : (Resilience.step settings system action).state key = some .opened) :
    ∃ moment countable now issue entry, action = .failure moment countable now ∧
      system.issue? moment = some issue ∧ issue.permit.providerKey = key ∧
      issue ∈ system.current key ∧ system.circuits.get? key = some entry ∧
      (entry.recordFailure settings issue.permit countable now).state = .opened := by
  have unmoved {circuits : Circuits} (same : circuits.get? key = system.circuits.get? key)
      (open' : (circuits.get? key).map (·.state) = some .opened) : False :=
    before ((congrArg (Option.map CircuitEntry.state) same).symm.trans open')
  have through {permit : CircuitPermit} {change : CircuitEntry → CircuitEntry}
      (open' : ((system.circuits.record permit change).get? key).map (·.state) = some .opened) :
      key = permit.providerKey ∧ ∃ entry, system.circuits.get? key = some entry ∧
        entry.generation = permit.generation ∧ (change entry).state = .opened := by
    rw [Circuits.get?_record] at open'
    by_cases named : key = permit.providerKey
    · refine ⟨named, ?_⟩
      rw [if_pos named] at open'
      cases present : system.circuits.get? key with
      | none =>
          rw [present] at open'
          cases open'
      | some entry =>
          rw [present, Option.map_some] at open'
          by_cases numbered : entry.generation = permit.generation
          · rw [if_pos numbered] at open'
            exact ⟨entry, rfl, numbered, Option.some.inj open'⟩
          · rw [if_neg numbered, ← present] at open'
            exact (unmoved rfl open').elim
    · rw [if_neg named] at open'
      exact (unmoved rfl open').elim
  unfold System.state at after
  rw [circuits_step] at after
  cases action with
  | acquire other now =>
      rw [circuitsAfter] at after
      rcases acquired : system.circuits.acquire settings other now with ⟨outcome, circuits⟩
      rw [acquired] at after
      cases Circuits.acquire_cases acquired with
      | refused same => exact (unmoved (same key) after).elim
      | granted present given next =>
          by_cases named : key = other
          · rw [next, if_pos named] at after
            cases CircuitEntry.acquire_eq_ok.mp given with
            | call closed => cases closed.symm.trans (Option.some.inj after)
            | probe half _ => cases half.symm.trans (Option.some.inj after)
            | recovery _ _ => cases after
          · exact (unmoved ((next key).trans (if_neg named)) after).elim
      | created absent evictable next =>
          rw [next] at after
          split at after
          · cases after
          · split at after
            · cases after
            · exact (unmoved rfl after).elim
  | success moment =>
      rw [circuitsAfter] at after
      split at after
      · exact (unmoved rfl after).elim
      · obtain ⟨_, entry, _, _, closes⟩ := through after
        cases closes
  | failure moment countable now =>
      cases found : system.issue? moment with
      | none =>
          rw [circuitsAfter, found] at after
          exact (unmoved rfl after).elim
      | some issue =>
          rw [circuitsAfter, found] at after
          obtain ⟨rfl, entry, present, numbered, opens⟩ := through after
          have member := (issue?_eq_some found).1
          have born := own issue found entry present numbered
          have current := (sound.epochs.generation issue member entry present born).2 numbered
          exact ⟨moment, countable, now, issue, entry, rfl, found, rfl,
            (mem_current_iff member).mpr current, present, opens⟩

theorem Sound.after_failure {countable : Bool} {entry : CircuitEntry}
    (sound : Sound settings system) (found : system.issue? moment = some issue)
    (current : issue ∈ system.current key) (present : system.circuits.get? key = some entry) :
    (Resilience.step settings system (.failure moment countable now)).circuits.get? key =
      some (entry.recordFailure settings issue.permit countable now) := by
  have named := (mem_issuedTo.mp (mem_current.mp current).1).2
  have numbered : entry.generation = issue.permit.generation := by
    have fits := (sound.each key).fits
    rw [present] at fits
    cases fits with
    | closed _ generation _ _ _ _ => exact (generation issue current).symm
    | opened _ empty _ _ => exact absurd (empty ▸ current) List.not_mem_nil
    | halfOpen _ single generation _ _ _ _ =>
        rw [single, List.mem_singleton] at current
        exact current ▸ generation.symm
  rw [circuits_step, circuitsAfter, found]
  refine Circuits.get?_record.trans ?_
  rw [if_pos named.symm, present, Option.map_some, if_pos numbered]

theorem Sound.opens (sound : Sound settings system) (own : Own system action)
    (closed' : system.state key = some .closed) :
    (Resilience.step settings system action).state key = some .opened ↔
      ∃ moment now issue, action = .failure moment true now ∧ system.issue? moment = some issue ∧
        issue.permit.providerKey = key ∧ system.Current issue ∧
        system.streak key + 1 = settings.failureThreshold := by
  obtain ⟨entry, present, closed⟩ := Option.map_eq_some_iff.mp closed'
  have fits := (sound.each key).fits
  rw [present] at fits
  cases fits with
  | opened opened _ _ _ => exact absurd (closed.symm.trans opened) nofun
  | halfOpen half _ _ _ _ _ _ => exact absurd (closed.symm.trans half) nofun
  | closed _ _ calls _ failures below =>
      constructor
      · intro after
        obtain ⟨moment, countable, now, issue, found, rfl, given, rfl, current, known, opens⟩ :=
          sound.opened_cases own (closed' ▸ nofun) after
        cases present.symm.trans known
        have own' := (mem_current_iff (issue?_eq_some given).1).mp current
        rw [CircuitEntry.recordFailure, if_neg (calls issue current ▸ Bool.false_ne_true)] at opens
        dsimp only at opens
        cases countable with
        | false => exact absurd (closed.symm.trans opens) nofun
        | true =>
            rw [if_pos rfl] at opens
            split at opens
            next reached => exact ⟨moment, now, issue, rfl, given, rfl, own', by omega⟩
            next => exact absurd (closed.symm.trans opens) nofun
      · rintro ⟨moment, now, issue, rfl, given, rfl, own', last⟩
        have current := (mem_current_iff (issue?_eq_some given).1).mpr own'
        have reached : settings.failureThreshold ≤ entry.failures + 1 := by omega
        rw [System.state, sound.after_failure given current present, Option.map_some,
          CircuitEntry.recordFailure, if_neg (calls issue current ▸ Bool.false_ne_true)]
        dsimp only
        rw [if_pos rfl, if_pos reached]
        rfl

theorem Sound.reopens (sound : Sound settings system) (own : Own system action)
    (half' : system.state key = some .halfOpen) :
    (Resilience.step settings system action).state key = some .opened ↔
      ∃ moment countable now issue, action = .failure moment countable now ∧
        system.issue? moment = some issue ∧ issue.permit.providerKey = key ∧
        issue.permit.halfOpenProbe = true ∧ system.Current issue := by
  obtain ⟨entry, present, half⟩ := Option.map_eq_some_iff.mp half'
  constructor
  · intro after
    obtain ⟨moment, countable, now, issue, found, rfl, given, rfl, current, known, opens⟩ :=
      sound.opened_cases own (half' ▸ nofun) after
    have fits := (sound.each issue.permit.providerKey).fits
    rw [present] at fits
    cases fits with
    | closed closed _ _ _ _ _ => exact absurd (half.symm.trans closed) nofun
    | opened opened _ _ _ => exact absurd (half.symm.trans opened) nofun
    | halfOpen _ single _ probing _ _ _ =>
        have same := current
        rw [single, List.mem_singleton] at same
        exact ⟨moment, countable, now, issue, rfl, given, rfl, same ▸ probing,
          (mem_current_iff (issue?_eq_some given).1).mp current⟩
  · rintro ⟨moment, countable, now, issue, rfl, given, rfl, probing, own'⟩
    have current := (mem_current_iff (issue?_eq_some given).1).mpr own'
    rw [System.state, sound.after_failure given current present, Option.map_some,
      CircuitEntry.recordFailure, if_pos probing]
    rfl

end System

theorem protocol_of_sound {settings : CircuitSettings} {system : System} {action : Action}
    (sound : system.Sound settings) (own : Own system action) (once : Once system action) :
    Protocol settings system action where
  probe := fun key _ member _ member' =>
    ((sound.step own once).each key).one_probe member member'
  paused := fun _ _ _ => sound.paused
  opens := fun _ => sound.opens own
  reopens := fun _ => sound.reopens own
  bounded := sound.bounded_step action
  kept := fun _ _ => sound.kept
  unstuck := fun _ _ _ => sound.unstuck

/-- The protocol holds along every run in which a permit is recorded at most once and no permit of
an evicted circuit meets its own number in a later one. -/
theorem protocol_along {settings : CircuitSettings} {actions : List Action}
    (once : Along (step settings) Once {} actions) (own : Along (step settings) Own {} actions) :
    Along (step settings) (Protocol settings) {} actions :=
  (once.and own).imp (System.sound_initial settings)
    (fun _ _ lawful sound => sound.step lawful.2 lawful.1)
    fun _ _ sound lawful => protocol_of_sound sound lawful.2 lawful.1

theorem protocol_along_evictedRun : Along (step oneCircuit) (Protocol oneCircuit) {} evictedRun :=
  protocol_along (by decide +kernel) (by decide +kernel)

/-- The permit of the evicted circuit takes the call in flight of the new one from it, and the new
circuit is evicted in turn. -/
theorem busy_circuit_evicted : ¬∀ actions : List Action,
    Along (step oneCircuit) Once {} actions → Along (step oneCircuit) Monotone {} actions →
      Along (step oneCircuit) (Protocol oneCircuit) {} actions := by
  intro always
  have last := (always (evictedRun ++ [.failure 1 false 1] ++ [.acquire "c" 1])
    (by decide +kernel) (by decide +kernel)).last
  have kept := last.kept "a" ⟨.closed, 0, none, false, 0, 0⟩ (by decide +kernel)
    (.inr ⟨⟨⟨"a", 0, false⟩, 7, false⟩, by decide +kernel, rfl⟩)
  exact absurd kept (by decide +kernel)

end CapabilityHub.Resilience
