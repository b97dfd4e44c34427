import CapabilityHub.Data.Runs
import CapabilityHub.Residency.LocalState
import CapabilityHub.Residency.ScopedContext
import Mathlib.Data.NNRat.Defs

/-! # The two residency stores agree

Both stores do to the list of sections what `Recency.call` does, so they report the same and keep
the same sections in the same order of their last use.
-/

namespace CapabilityHub.Residency

open Tenancy

variable {ω : Type} [LinearOrder ω] (value : EvictionValue ω) (settings : ContextSettings)

inductive Call where
  | add (entry : ResidentSection)
  | access (key : String)
  | pin (key : String) (pinned : Bool)
  | remove (key : String)

/-- A call, or both stores opened again from what they wrote. -/
inductive Action where
  | call (call : Call) (now : ℚ≥0)
  | reload

/-- What a call evicts from the list of sections, and the list that it leaves. -/
noncomputable def Recency.call (limit : Int) (sections : List Section) :
    Call → Option (List Eviction × List Section)
  | .add entry => open Classical in
      if entry.Stored then Recency.add value sections entry.toSection limit else none
  | .access key => (Recency.access sections key).map fun done => ([], done.2)
  | .pin key pinned => (Recency.pin sections key pinned).map ([], ·)
  | .remove key => (Recency.remove sections key).map fun done => ([done.1], done.2)

/-- The evictions that a call reports, and the next state. -/
def LocalContextState.call (state : LocalContextState) :
    Call → Except ContextError (List Eviction) × LocalContextState
  | .add entry => state.add value settings entry
  | .access key =>
      let done := state.access value settings key
      (done.1.map fun _ => [], done.2)
  | .pin key pinned =>
      let done := state.pin value settings key pinned
      (done.1.map fun _ => [], done.2)
  | .remove key =>
      let done := state.remove value settings key
      (done.1.map ([·]), done.2)

/-- A keying that takes the letters of ASCII for letters. -/
structure LetteredKeying extends Keying where
  letter : ∀ character, 'a' ≤ character → character ≤ 'z' →
    alnum character = true ∧ control character = false
  dash : control '-' = false

example : Nonempty LetteredKeying :=
  ⟨{ scope := TenantScope.tenant, key := fun _ _ key => key, alnum := fun _ => true,
     control := fun _ => false, letter := fun _ _ _ => ⟨rfl, rfl⟩, dash := rfl }⟩

variable (keying : LetteredKeying) (scope : TenantScope)

namespace ScopedContextState

/-- The evictions that a call reports, and the next state. -/
def call (state : ScopedState Json) (now : ℚ) :
    Call → Except Raised (List Eviction × ScopedState Json)
  | .add entry => add value settings keying.toKeying scope state now entry
  | .access key =>
      (access value settings keying.toKeying scope state now key).map fun done => ([], done.2)
  | .pin key pinned =>
      (pin value settings keying.toKeying scope state now key pinned).map fun done => ([], done.2)
  | .remove key =>
      (remove value settings keying.toKeying scope state now key).map fun done => ([done.1], done.2)

end ScopedContextState

/-- Both stores. -/
structure Stores where
  kept : LocalContextState
  shared : ScopedState Json

/-- One step of both stores. -/
def step (stores : Stores) : Action → Stores
  | .call call now =>
      { kept := (stores.kept.call value settings call).2
        shared :=
          match ScopedContextState.call value settings keying scope stores.shared now call with
          | .ok (_, next) => next
          | .error _ => stores.shared }
  | .reload =>
      match LocalContextState.openFile value settings stores.kept.file with
      | .ok opened => { stores with kept := opened }
      | .error _ => stores

/-- The stores show the same sections in the same order of their last use. -/
def Alike (stores : Stores) (now : ℚ≥0) : Prop :=
  ∃ snapshot, ScopedContextState.snapshot value settings keying.toKeying scope stores.shared now =
      .ok snapshot ∧
    snapshot.generation = stores.kept.snapshot.generation ∧
    ContextInventory.recency snapshot.entries =
      ContextInventory.recency stores.kept.snapshot.entries

/-- What a step keeps to. -/
structure Agrees (stores : Stores) (action : Action) : Prop where
  succeeds : ∀ call now, action = .call call now →
    ((stores.kept.call value settings call).1.isOk ↔
      (ScopedContextState.call value settings keying scope stores.shared now call).isOk)
  evicts : ∀ call now evictions evictions' next, action = .call call now →
    (stores.kept.call value settings call).1 = .ok evictions →
    ScopedContextState.call value settings keying scope stores.shared now call =
      .ok (evictions', next) → evictions' = evictions
  alike : ∀ now, Alike value settings keying scope (step value settings keying scope stores action) now
  /-- The generation grows by one with each call that succeeds. -/
  counts : ∀ call now, action = .call call now →
    (step value settings keying scope stores action).kept.generation = stores.kept.generation +
      if (stores.kept.call value settings call).1.isOk then 1 else 0
  reloads : action = .reload →
    (step value settings keying scope stores action).kept.generation = stores.kept.generation ∧
      ∃ opened, LocalContextState.openFile value settings stores.kept.file = .ok opened

variable {value} {settings} {keying} {scope} {sections after : List Section} {generation : Int}
  {evictions : List Eviction} {call : Call}

theorem Recency.call_fits (fits : Recency.Fits settings.maxPortableTokens sections)
    (called : Recency.call value settings.maxPortableTokens sections call = some (evictions, after)) :
    Recency.Fits settings.maxPortableTokens after ∧
      ∀ eviction ∈ evictions, 0 ≤ eviction.portableTokens := by
  cases call with
  | add entry =>
      rw [Recency.call] at called
      split at called
      next stored => exact fits.add stored.1 called
      next => cases called
  | access key =>
      obtain ⟨⟨entry, left⟩, accessed, same⟩ := Option.map_eq_some_iff.mp called
      cases same
      exact ⟨fits.access accessed, nofun⟩
  | pin key pinned =>
      obtain ⟨left, done, same⟩ := Option.map_eq_some_iff.mp called
      cases same
      exact ⟨fits.pin done, nofun⟩
  | remove key =>
      obtain ⟨⟨eviction, left⟩, removed, same⟩ := Option.map_eq_some_iff.mp called
      cases same
      obtain ⟨fits', tokens⟩ := fits.remove removed
      exact ⟨fits', fun other member => List.mem_singleton.mp member ▸ tokens⟩

/-! ## The store of one process -/

namespace LocalContextState

variable {state : LocalContextState}

/-- What a call does to a store that holds a list. -/
def Does (settings : ContextSettings) (sections : List Section) (generation : Int)
    (outcome : Except ContextError (List Eviction) × LocalContextState) :
    Option (List Eviction × List Section) → Prop
  | none => (∃ raised, outcome.1 = .error raised) ∧ outcome.2.Holds settings sections generation
  | some (evictions, after) =>
      outcome.1 = .ok evictions ∧ outcome.2.Holds settings after (generation + 1)

/-- What an operation does to an inventory that is bounded, where it evicts what `report` says. -/
def Meets {ρ : Type} (limit : Int) (report : ρ → List Eviction)
    (outcome : Except ContextError ρ × ContextInventory) :
    Option (List Eviction × List Section) → Prop
  | none => (∃ raised, outcome.1 = .error raised) ∧ outcome.2.maxPortableTokens = limit
  | some (evictions, after) =>
      (∃ result, outcome.1 = .ok result ∧ report result = evictions) ∧ outcome.2.Holds limit after

theorem Holds.does {ρ : Type} {action key : String} {report evicted : ρ → List Eviction}
    {operation : ContextInventory → Except ContextError ρ × ContextInventory}
    {expected : Option (List Eviction × List Section)}
    (holds : state.Holds settings sections generation)
    (fits : Recency.Fits settings.maxPortableTokens sections)
    (meets : Meets settings.maxPortableTokens report (operation state.inventory) expected) :
    Does settings sections generation
      ((state.change value settings action key operation evicted).1.map report,
        (state.change value settings action key operation evicted).2) expected := by
  cases expected with
  | none =>
      obtain ⟨⟨raised, failed⟩, limited⟩ := meets
      have changed : (state.change value settings action key operation evicted).1 = .error raised ∧ _ :=
        holds.change_error fits failed limited
      obtain ⟨failed', held⟩ := changed
      exact ⟨⟨raised, congrArg (Except.map report) failed'⟩, held⟩
  | some done =>
      obtain ⟨⟨result, succeeded, reports⟩, held⟩ := meets
      have changed : (state.change value settings action key operation evicted).1 = .ok result ∧ _ :=
        holds.change_ok succeeded held
      obtain ⟨succeeded', held'⟩ := changed
      exact ⟨(congrArg (Except.map report) succeeded').trans (congrArg Except.ok reports), held'⟩

theorem meets_add {inventory : ContextInventory} {entry : ResidentSection}
    (holds : inventory.Holds settings.maxPortableTokens sections) (value : EvictionValue ω) :
    Meets settings.maxPortableTokens id
      (match decodeEntry (encodeEntry entry) with
        | .error raised => (.error (.raised raised), inventory)
        | .ok selected =>
            let added := inventory.add value selected
            (added.1.mapError .raised, added.2))
      (Recency.call value settings.maxPortableTokens sections (.add entry)) := by
  rw [Recency.call]
  split
  next raised failed =>
    have unstored : ¬entry.Stored := fun stored =>
      nomatch failed.symm.trans (decodeEntry_eq_ok.mpr ⟨stored, rfl⟩)
    rw [if_neg unstored]
    exact ⟨⟨_, rfl⟩, holds.1⟩
  next selected decoded =>
    obtain ⟨stored, rfl⟩ := decodeEntry_eq_ok.mp decoded
    rw [if_pos stored]
    have evicts := holds.add
      (not_or.mpr ⟨stored.1.key, not_lt.mpr stored.1.portableTokens⟩) value
    cases added : Recency.add value sections entry.toSection settings.maxPortableTokens with
    | none =>
        rw [added] at evicts
        exact ⟨⟨_, congrArg (Except.mapError ContextError.raised) evicts⟩,
          (ContextInventory.maxPortableTokens_add value entry).trans holds.1⟩
    | some done =>
        rw [added] at evicts
        exact ⟨⟨done.1, congrArg (Except.mapError ContextError.raised) evicts.1, rfl⟩, evicts.2⟩

/-- An operation that finds its section or raises `KeyError`. -/
theorem meets_keyed {ρ τ : Type} {inventory : ContextInventory} {report : ρ → List Eviction}
    {operation : ContextInventory → Option (ρ × ContextInventory)} {found : Option τ}
    {related : ρ × ContextInventory → τ → Prop} {after : τ → List Eviction × List Section}
    (limited : inventory.maxPortableTokens = settings.maxPortableTokens)
    (both : Option.Rel related (operation inventory) found)
    (each : ∀ done rest, related done rest → report done.1 = (after rest).1 ∧
      done.2.Holds settings.maxPortableTokens (after rest).2) :
    Meets settings.maxPortableTokens report (keyed operation inventory) (found.map after) := by
  unfold keyed
  generalize operation inventory = outcome at both
  cases both with
  | none => exact ⟨⟨_, rfl⟩, limited⟩
  | some both => exact ⟨⟨_, rfl, (each _ _ both).1⟩, (each _ _ both).2⟩

/-- A pin as an operation with a result. -/
theorem pin_rel {inventory : ContextInventory} {key : String} {pinned : Bool}
    (holds : inventory.Holds settings.maxPortableTokens sections) :
    Option.Rel (fun done after => done.2.Holds settings.maxPortableTokens after)
      ((inventory.pin key pinned).map ((), ·)) (Recency.pin sections key pinned) := by
  have related : Option.Rel _ (inventory.pin key pinned) (Recency.pin sections key pinned) := holds.pin
  generalize inventory.pin key pinned = outcome, Recency.pin sections key pinned = after at related
  cases related with
  | none => exact .none
  | some held => exact .some held

theorem Holds.does_call (holds : state.Holds settings sections generation)
    (fits : Recency.Fits settings.maxPortableTokens sections) (call : Call) :
    Does settings sections generation (state.call value settings call)
      (Recency.call value settings.maxPortableTokens sections call) := by
  cases call with
  | add entry =>
      have does : Does settings sections generation
          ((state.add value settings entry).1.map id, (state.add value settings entry).2) _ :=
        holds.does fits (meets_add holds.held value)
      have same (outcome : Except ContextError (List Eviction)) : outcome.map id = outcome := by
        cases outcome <;> rfl
      rw [same] at does
      exact does
  | access key =>
      exact holds.does fits (meets_keyed holds.held.1 holds.held.access
        fun done rest both => ⟨rfl, both.2⟩)
  | pin key pinned =>
      exact holds.does fits (meets_keyed holds.held.1 (pin_rel holds.held)
        fun done rest held => ⟨rfl, held⟩)
  | remove key =>
      exact holds.does fits (meets_keyed holds.held.1 holds.held.remove
        fun done rest both => ⟨congrArg ([·]) both.1, both.2⟩)

end LocalContextState

/-! ## The store of a tenant's session -/

namespace ScopedContextState

variable {state next : ScopedState Json} {now : ℚ}

/-- Where the residency of a scope is kept. -/
def place (keying : Keying) (scope : TenantScope) : String × String × String :=
  (keying.scope scope, "context-residency",
    keying.key (keying.scope scope) "context-residency" "inventory")

/-- The scoped state holds the sections at a generation. -/
def Keeps (settings : ContextSettings) (keying : Keying) (scope : TenantScope)
    (state : ScopedState Json) (sections : List Section) (generation : Int) : Prop :=
  ∃ raw, (∀ now, state.entry (place keying scope) now = raw) ∧ Holds settings raw sections generation

/-- A name of small letters and dashes. -/
def PlainName (name : String) : Bool :=
  name.toList.all fun character =>
    character = '-' || (decide ('a' ≤ character) && decide (character ≤ 'z'))

theorem letter_of_plainName {name : String} (plain : PlainName name = true) :
    ∀ character ∈ name.toList, character = '-' ∨ 'a' ≤ character ∧ character ≤ 'z' := by
  intro character member
  simpa using List.all_eq_true.mp plain character member

theorem identifier_plain {name : String}
    (plain : PlainName name = true)
    (sized : name ≠ "" ∧ name.length ≤ 256 ∧ name.utf8ByteSize ≤ 1024) :
    identifier keying.toKeying name = .ok () := by
  refine raiseIf_eq_ok.mpr fun bad => ?_
  rcases bad with empty | long | wide | control
  · exact sized.1 empty
  · exact absurd sized.2.1 (not_le.mpr long)
  · exact absurd sized.2.2 (not_le.mpr wide)
  · obtain ⟨character, member, controls⟩ := List.any_eq_true.mp control
    rcases letter_of_plainName plain character member with rfl | letter
    · exact nomatch keying.dash.symm.trans controls
    · exact nomatch (keying.letter character letter.1 letter.2).2.symm.trans controls

theorem checkName_plain {name : String}
    (plain : PlainName name = true)
    (sized : name ≠ "" ∧ name.length ≤ 256 ∧ name.utf8ByteSize ≤ 1024) :
    checkName keying.toKeying name = .ok () := by
  refine bind_eq_ok.mpr ⟨(), identifier_plain plain sized, raiseIf_eq_ok.mpr fun odd => ?_⟩
  obtain ⟨character, member, odd⟩ := List.any_eq_true.mp odd
  rcases letter_of_plainName plain character member with rfl | letter
  · simp at odd
  · simp [(keying.letter character letter.1 letter.2).1] at odd

/-- The residency is read where the update finds it. -/
theorem transactEntry_residency {ρ : Type} {update : Option Json → Except Raised (Option Json × ρ)}
    (natural : 0 ≤ now) :
    state.transactEntry keying.toKeying scope "inventory" update "context-residency" now =
      ((update (state.entry (place keying.toKeying scope) now)).mapError ScopedState.transactError >>=
        fun done => match done.1 with
          | none => .ok (done.2,
              { state with entries := state.entries.erase (place keying.toKeying scope) })
          | some value => .ok (done.2,
              { state with
                entries := state.entries.set (place keying.toKeying scope) ⟨value, now, none⟩ })) := by
  unfold ScopedState.transactEntry
  rw [checkName_plain (by decide +kernel) (by decide +kernel),
    identifier_plain (by decide +kernel) (by decide +kernel)]
  have timed : checkTimestamp now = .ok () := raiseIf_eq_ok.mpr (not_lt.mpr natural)
  rw [timed]
  change (update (state.entry (place keying.toKeying scope) now)).mapError _ >>= _ = _
  cases update (state.entry (place keying.toKeying scope) now) with
  | error raised => rfl
  | ok done =>
      obtain ⟨replacement, result⟩ := done
      cases replacement <;> rfl

theorem getEntry_residency (natural : 0 ≤ now) :
    state.getEntry keying.toKeying scope "inventory" "context-residency" now =
      .ok (state.entry (place keying.toKeying scope) now) := by
  unfold ScopedState.getEntry
  rw [checkName_plain (by decide +kernel) (by decide +kernel),
    identifier_plain (by decide +kernel) (by decide +kernel)]
  have timed : checkTimestamp now = .ok () := raiseIf_eq_ok.mpr (not_lt.mpr natural)
  rw [timed]
  rfl

/-- An operation on an inventory whose list it changes as expected. -/
def Performs {ρ : Type} (limit : Int) (sections : List Section) (report : ρ → List Eviction)
    (operation : ContextInventory → Except Raised (ρ × ContextInventory)) :
    Option (List Eviction × List Section) → Prop
  | none => ∀ inventory : ContextInventory, inventory.Holds limit sections →
      ∃ raised, operation inventory = .error raised
  | some (evictions, after) => ∀ inventory : ContextInventory, inventory.Holds limit sections →
      ∃ result left, operation inventory = .ok (result, left) ∧ report result = evictions ∧
        left.Holds limit after

/-- What a call does to a state that keeps a list. -/
def Does (settings : ContextSettings) (keying : Keying) (scope : TenantScope) (generation : Int)
    (outcome : Except Raised (List Eviction × ScopedState Json)) :
    Option (List Eviction × List Section) → Prop
  | none => ∃ raised, outcome = .error raised
  | some (evictions, after) => ∃ next, outcome = .ok (evictions, next) ∧
      Keeps settings keying scope next after (generation + 1)

theorem Keeps.does {ρ : Type} {action key : String} {report evicted : ρ → List Eviction}
    {operation : ContextInventory → Except Raised (ρ × ContextInventory)}
    {expected : Option (List Eviction × List Section)}
    (keeps : Keeps settings keying.toKeying scope state sections generation)
    (fits : Recency.Fits settings.maxPortableTokens sections) (natural : 0 ≤ generation)
    (timely : 0 ≤ now)
    (performs : Performs settings.maxPortableTokens sections report operation expected)
    (fits' : ∀ evictions after, expected = some (evictions, after) →
      Recency.Fits settings.maxPortableTokens after ∧
        ∀ result, report result = evictions → ∀ eviction ∈ evicted result,
          0 ≤ eviction.portableTokens) :
    Does settings keying.toKeying scope generation
      ((mutate value settings keying.toKeying scope state now action key operation evicted).map
        fun done => (report done.1, done.2)) expected := by
  obtain ⟨raw, reads, holds⟩ := keeps
  unfold mutate
  rw [transactEntry_residency timely, reads]
  cases expected with
  | none =>
      have failed : ∃ raised,
          update value settings action key operation evicted raw = .error raised :=
        holds.update_error fits natural performs
      obtain ⟨raised, failed⟩ := failed
      rw [failed]
      exact ⟨_, rfl⟩
  | some done =>
      obtain ⟨evictions, after⟩ := done
      obtain ⟨fits', tokens⟩ := fits' evictions after rfl
      have succeeded : ∃ result written,
          update value settings action key operation evicted raw = .ok (some written, result) ∧
            report result = evictions ∧ Holds settings (some written) after (generation + 1) :=
        holds.update_ok fits natural fits' performs tokens
      obtain ⟨result, written, done, reports, held⟩ := succeeded
      rw [done]
      refine ⟨{ state with
        entries := state.entries.set (place keying.toKeying scope) ⟨written, now, none⟩ },
        by rw [← reports]; rfl, some written, fun later => ?_, held⟩
      rw [ScopedState.entry_set, if_pos rfl]

theorem performs_add {entry : ResidentSection} (stored : entry.Stored) (value : EvictionValue ω) :
    Performs settings.maxPortableTokens sections id
      (fun inventory =>
        let added := inventory.add value entry
        added.1.map fun evictions => (evictions, added.2))
      (Recency.call value settings.maxPortableTokens sections (.add entry)) := by
  rw [Recency.call, if_pos stored]
  have valid := not_or.mpr ⟨stored.1.key, not_lt.mpr stored.1.portableTokens⟩
  cases added : Recency.add value sections entry.toSection settings.maxPortableTokens with
  | none =>
      intro inventory holds
      have evicts := holds.add valid value
      rw [added] at evicts
      exact ⟨_, congrArg (Except.map _) evicts⟩
  | some done =>
      intro inventory holds
      have evicts := holds.add valid value
      rw [added] at evicts
      exact ⟨done.1, _, congrArg (Except.map _) evicts.1, rfl, evicts.2⟩

theorem performs_found {ρ τ : Type} {report : ρ → List Eviction}
    {operation : ContextInventory → Option (ρ × ContextInventory)} {rest : Option τ}
    {related : ρ × ContextInventory → τ → Prop} {after : τ → List Eviction × List Section}
    (both : ∀ inventory : ContextInventory, inventory.Holds settings.maxPortableTokens sections →
      Option.Rel related (operation inventory) rest)
    (each : ∀ done rest, related done rest → report done.1 = (after rest).1 ∧
      done.2.Holds settings.maxPortableTokens (after rest).2) :
    Performs settings.maxPortableTokens sections report (found operation) (rest.map after) := by
  cases rest with
  | none =>
      intro inventory holds
      have both := both inventory holds
      unfold found
      generalize operation inventory = outcome at both
      cases both
      exact ⟨_, rfl⟩
  | some rest =>
      intro inventory holds
      have both := both inventory holds
      unfold found
      generalize operation inventory = outcome at both
      cases both with
      | some both => exact ⟨_, _, rfl, (each _ _ both).1, (each _ _ both).2⟩

theorem Keeps.does_call (keeps : Keeps settings keying.toKeying scope state sections generation)
    (fits : Recency.Fits settings.maxPortableTokens sections) (natural : 0 ≤ generation)
    (timely : 0 ≤ now) (call : Call) :
    Does settings keying.toKeying scope generation
      (ScopedContextState.call value settings keying scope state now call)
      (Recency.call value settings.maxPortableTokens sections call) := by
  have called (evictions : List Eviction) (after : List Section)
      (called : Recency.call value settings.maxPortableTokens sections call =
        some (evictions, after)) := Recency.call_fits fits called
  cases call with
  | add entry =>
      by_cases stored : entry.Stored
      · have does : Does settings keying.toKeying scope generation
            ((mutate value settings keying.toKeying scope state now "add" entry.key
              (fun inventory =>
                let added := inventory.add value entry
                added.1.map fun evictions => (evictions, added.2)) id).map
              fun done => (id done.1, done.2)) _ :=
          keeps.does fits natural timely (performs_add stored value) fun evictions after is =>
            ⟨(called evictions after is).1, fun result same => same ▸ (called evictions after is).2⟩
        have same (outcome : Except Raised (List Eviction × ScopedState Json)) :
            outcome.map (fun done => (id done.1, done.2)) = outcome := by
          cases outcome <;> rfl
        rw [same] at does
        have decoded := decodeEntry_eq_ok.mpr ⟨stored, rfl⟩
        unfold ScopedContextState.call add
        dsimp only
        rw [decoded]
        exact does
      · rw [Recency.call, if_neg stored]
        unfold ScopedContextState.call add
        dsimp only
        cases decoded : decodeEntry (encodeEntry entry) with
        | error raised => exact ⟨raised, rfl⟩
        | ok selected => exact absurd (decodeEntry_eq_ok.mp decoded).1 stored
  | access key =>
      have performs : Performs settings.maxPortableTokens sections (fun _ => [])
          (found (·.access key))
          (Recency.call value settings.maxPortableTokens sections (.access key)) :=
        performs_found (fun _ holds => holds.access) fun done rest both => ⟨rfl, both.2⟩
      exact keeps.does fits natural timely performs fun evictions after is =>
        ⟨(called evictions after is).1, fun _ _ => nofun⟩
  | pin key pinned =>
      have performs : Performs settings.maxPortableTokens sections (fun _ => [])
          (found fun inventory => (inventory.pin key pinned).map ((), ·))
          (Recency.call value settings.maxPortableTokens sections (.pin key pinned)) :=
        performs_found (fun _ holds => LocalContextState.pin_rel holds)
          fun done rest held => ⟨rfl, held⟩
      exact keeps.does fits natural timely performs fun evictions after is =>
        ⟨(called evictions after is).1, fun _ _ => nofun⟩
  | remove key =>
      have performs : Performs settings.maxPortableTokens sections ([·]) (found (·.remove key))
          (Recency.call value settings.maxPortableTokens sections (.remove key)) :=
        performs_found (fun _ holds => holds.remove)
          fun done rest both => ⟨congrArg ([·]) both.1, both.2⟩
      exact keeps.does fits natural timely performs fun evictions after is =>
        ⟨(called evictions after is).1, fun result same => same ▸ (called evictions after is).2⟩

theorem Keeps.snapshot (keeps : Keeps settings keying.toKeying scope state sections generation)
    (fits : Recency.Fits settings.maxPortableTokens sections) (natural : 0 ≤ generation)
    (timely : 0 ≤ now) (value : EvictionValue ω) :
    ∃ snapshot, ScopedContextState.snapshot value settings keying.toKeying scope state now =
        .ok snapshot ∧ snapshot.generation = generation ∧
      ContextInventory.recency snapshot.entries = sections := by
  obtain ⟨raw, reads, holds⟩ := keeps
  obtain ⟨inventory, events, decoded, held, _⟩ := holds.decode fits natural value
  refine ⟨⟨generation, settings.maxPortableTokens, inventory.usedPortableTokens,
    inventory.sections⟩, ?_, rfl, held.recency⟩
  unfold ScopedContextState.snapshot read
  rw [getEntry_residency timely, reads]
  change decode value settings raw >>= _ = _
  rw [decoded]
  rfl

end ScopedContextState

/-! ## Both stores -/

/-- Both stores hold one list of sections at one generation. -/
structure Together (settings : ContextSettings) (keying : LetteredKeying) (scope : TenantScope)
    (stores : Stores) (sections : List Section) (generation : Int) : Prop where
  kept : stores.kept.Holds settings sections generation
  shared : ScopedContextState.Keeps settings keying.toKeying scope stores.shared sections generation
  fits : Recency.Fits settings.maxPortableTokens sections
  natural : 0 ≤ generation

variable {stores : Stores}

theorem Together.alike (together : Together settings keying scope stores sections generation)
    (now : ℚ≥0) : Alike value settings keying scope stores now := by
  obtain ⟨snapshot, taken, counted, listed⟩ := together.shared.snapshot
    together.fits together.natural now.2 value
  refine ⟨snapshot, taken, counted.trans together.kept.counted.symm, listed.trans ?_⟩
  exact together.kept.held.recency.symm

/-- A call does the same to both stores. -/
theorem Together.does_call (together : Together settings keying scope stores sections generation)
    (value : EvictionValue ω) (call : Call) (now : ℚ≥0) :
    (∃ evictions after, (stores.kept.call value settings call).1 = .ok evictions ∧
        (∃ next, ScopedContextState.call value settings keying scope stores.shared now call =
          .ok (evictions, next)) ∧
        Together settings keying scope (step value settings keying scope stores (.call call now))
          after (generation + 1)) ∨
      (∃ raised, (stores.kept.call value settings call).1 = .error raised) ∧
        (∃ raised, ScopedContextState.call value settings keying scope stores.shared now call =
          .error raised) ∧
        Together settings keying scope (step value settings keying scope stores (.call call now))
          sections generation := by
  have kept : LocalContextState.Does settings sections generation
      (stores.kept.call value settings call) _ := together.kept.does_call together.fits call
  have shared : ScopedContextState.Does settings keying.toKeying scope generation
      (ScopedContextState.call value settings keying scope stores.shared now call) _ :=
    together.shared.does_call together.fits together.natural now.2 call
  cases called : Recency.call value settings.maxPortableTokens sections call with
  | none =>
      rw [called] at kept shared
      obtain ⟨raised, failed⟩ := shared
      refine .inr ⟨kept.1, ⟨raised, failed⟩, kept.2, ?_, together.fits, together.natural⟩
      unfold step
      dsimp only
      rw [failed]
      exact together.shared
  | some done =>
      obtain ⟨evictions, after⟩ := done
      rw [called] at kept shared
      obtain ⟨next, succeeded, keeps⟩ := shared
      refine .inl ⟨evictions, after, kept.1, ⟨next, succeeded⟩, kept.2, ?_,
        (Recency.call_fits together.fits called).1, Int.add_nonneg together.natural Int.one_nonneg⟩
      unfold step
      dsimp only
      rw [succeeded]
      exact keeps

theorem Together.reload (together : Together settings keying scope stores sections generation)
    (value : EvictionValue ω) :
    (∃ opened, LocalContextState.openFile value settings stores.kept.file = .ok opened) ∧
      Together settings keying scope (step value settings keying scope stores .reload) sections
        generation := by
  obtain ⟨opened, done, held⟩ := together.kept.openFile together.fits together.natural
    value
  refine ⟨⟨opened, done⟩, ?_⟩
  unfold step
  dsimp only
  rw [done]
  exact ⟨held, together.shared, together.fits, together.natural⟩

/-- The stores hold one list. -/
def Agreed (settings : ContextSettings) (keying : LetteredKeying) (scope : TenantScope)
    (stores : Stores) : Prop :=
  ∃ sections generation, Together settings keying scope stores sections generation

theorem together_initial : Together settings keying scope
    { kept := { inventory := { maxPortableTokens := settings.maxPortableTokens } }, shared := {} }
    [] 0 where
  kept := ⟨ContextInventory.holds_empty, rfl, .inl ⟨rfl, rfl, rfl⟩⟩
  shared := ⟨none, fun _ => rfl, .inl ⟨rfl, rfl, rfl⟩⟩
  fits := Recency.fits_nil settings.positive
  natural := le_refl 0

theorem Together.agrees {action : Action}
    (together : Together settings keying scope stores sections generation) :
    Agrees value settings keying scope stores action ∧ ∃ after later,
      Together settings keying scope (step value settings keying scope stores action) after later := by
  cases action with
  | call call now =>
      rcases together.does_call value call now with
        ⟨evictions, after, kept, ⟨next, shared⟩, next'⟩ | ⟨⟨raised, kept⟩, ⟨raised', shared⟩, next'⟩
      · refine ⟨⟨?_, ?_, fun now' => next'.alike now', ?_, nofun⟩, after, _, next'⟩
        · intro _ _ same
          cases same
          rw [kept, shared]
          exact ⟨fun _ => rfl, fun _ => rfl⟩
        · intro _ _ _ _ _ same kept' shared'
          cases same
          cases kept.symm.trans kept'
          cases shared.symm.trans shared'
          rfl
        · intro _ _ same
          cases same
          rw [next'.kept.counted, together.kept.counted, kept]
          rfl
      · refine ⟨⟨?_, ?_, fun now' => next'.alike now', ?_, nofun⟩, sections, _, next'⟩
        · intro _ _ same
          cases same
          rw [kept, shared]
          exact ⟨nofun, nofun⟩
        · intro _ _ _ _ _ same kept'
          cases same
          exact nomatch kept.symm.trans kept'
        · intro _ _ same
          cases same
          rw [next'.kept.counted, together.kept.counted, kept]
          exact (Int.add_zero _).symm
  | reload =>
      obtain ⟨opens, next'⟩ := together.reload value
      refine ⟨⟨nofun, nofun, fun now => next'.alike now, nofun, fun _ => ⟨?_, opens⟩⟩, sections,
        generation, next'⟩
      rw [next'.kept.counted, together.kept.counted]

theorem agreed_initial : Agreed settings keying scope
    { kept := { inventory := { maxPortableTokens := settings.maxPortableTokens } }, shared := {} } :=
  ⟨[], 0, together_initial⟩

theorem Agreed.step {action : Action} (agreed : Agreed settings keying scope stores) :
    Agreed settings keying scope (Residency.step value settings keying scope stores action) := by
  obtain ⟨_, _, together⟩ := agreed
  exact together.agrees.2

theorem Agreed.agrees {action : Action} (agreed : Agreed settings keying scope stores) :
    Agrees value settings keying scope stores action := by
  obtain ⟨_, _, together⟩ := agreed
  exact together.agrees.1

/-- Both stores agree at every step of every run. -/
theorem agrees_along (actions : List Action) :
    Along (step value settings keying scope) (Agrees value settings keying scope)
      { kept := { inventory := { maxPortableTokens := settings.maxPortableTokens } }, shared := {} }
      actions :=
  along_true.imp agreed_initial (fun _ _ _ agreed => agreed.step) fun _ _ agreed _ => agreed.agrees

end CapabilityHub.Residency
