import CapabilityHub.Tenancy.Calls
import CapabilityHub.Tenancy.Cursors

/-! # Isolation of scopes

All scopes share two tables. What a caller of one scope observes is what it would observe if no other
scope made any call, and within a scope what the calls on some namespaces and streams observe does not
depend on the others, except through `cleanup_expired`, whose limit is one for the whole scope
(`CapabilityHub.Tenancy.scoped_state_isolated`).
-/

namespace CapabilityHub.Tenancy

variable {ν ρ : Type}

/-- The rows of some namespaces and streams of a scope. -/
def ScopedState.part (state : ScopedState ν) (digest : String) (namespaces streams : String → Bool) :
    ScopedState ν where
  entries := state.entries.filterKeys fun place => decide (place.1 = digest) && namespaces place.2.1
  events := state.events.filter fun row => decide (row.scopeDigest = digest) && streams row.stream

namespace ScopedState

variable {state next : ScopedState ν} {digest stream : String} {namespaces streams : String → Bool}
  {place : String × String × String} {row : ScopedEntry ν} {now : ℚ}

/-- A place among those of a part. -/
def InPart (digest : String) (namespaces : String → Bool) (place : String × String × String) : Prop :=
  place.1 = digest ∧ namespaces place.2.1

theorem keep_iff : (decide (place.1 = digest) && namespaces place.2.1) = true ↔
    InPart digest namespaces place := by
  rw [Bool.and_eq_true, decide_eq_true_iff, InPart]

theorem get?_part (inside : InPart digest namespaces place) :
    (state.part digest namespaces streams).entries.get? place = state.entries.get? place :=
  (Dict.get?_filterKeys _).trans (if_pos (keep_iff.mpr inside))

theorem entry_part (inside : InPart digest namespaces place) :
    (state.part digest namespaces streams).entry place now = state.entry place now := by
  rw [entry, get?_part inside, entry]

theorem part_set (inside : InPart digest namespaces place) :
    ({ state with entries := state.entries.set place row }).part digest namespaces streams =
      { state.part digest namespaces streams with
        entries := (state.part digest namespaces streams).entries.set place row } := by
  rw [part, part, Dict.filterKeys_set, if_pos (keep_iff.mpr inside)]

theorem part_set_outside (outside : ¬InPart digest namespaces place) :
    ({ state with entries := state.entries.set place row }).part digest namespaces streams =
      state.part digest namespaces streams := by
  rw [part, part, Dict.filterKeys_set, if_neg (keep_iff.not.mpr outside)]

theorem part_erase :
    ({ state with entries := state.entries.erase place }).part digest namespaces streams =
      { state.part digest namespaces streams with
        entries := (state.part digest namespaces streams).entries.erase place } := by
  rw [part, part, Dict.erase_eq_filterKeys, Dict.erase_eq_filterKeys, Dict.filterKeys_comm]

theorem part_erase_outside (outside : ¬InPart digest namespaces place) :
    ({ state with entries := state.entries.erase place }).part digest namespaces streams =
      state.part digest namespaces streams := by
  have absent : ∀ other ∈ (state.part digest namespaces streams).entries.keys,
      decide (other ≠ place) = true := by
    intro other member
    apply decide_eq_true
    rintro rfl
    obtain ⟨found, present⟩ := Dict.get?_isSome_iff.mpr member
    rw [part, Dict.get?_filterKeys, if_neg (keep_iff.not.mpr outside)] at present
    cases present
  rw [part_erase, Dict.erase_eq_filterKeys, Dict.filterKeys_eq_self absent]

theorem stream_part (inside : streams stream = true) :
    (state.part digest namespaces streams).stream digest stream = state.stream digest stream := by
  rw [ScopedState.stream, ScopedState.stream, part, List.filter_filter]
  apply List.filter_congr
  intro row _
  by_cases same : row.scopeDigest = digest ∧ row.stream = stream
  · simp [same.1, same.2, inside]
  · simp [same]

theorem lastSequence_part (inside : streams stream = true) :
    (state.part digest namespaces streams).lastSequence digest stream = state.lastSequence digest stream := by
  rw [lastSequence, lastSequence, stream_part inside]

/-! ## Entries -/

variable {keying : Keying} {scope : TenantScope} {key namespaceName : String} {value : ν}
  {ttlSeconds : Option ℚ} {update : Option ν → Except Raised (Option ν × ρ)} {limit : Nat}

theorem setEntry_part (inside : namespaces namespaceName = true) :
    (state.part (keying.scope scope) namespaces streams).setEntry keying scope key value namespaceName
        ttlSeconds now =
      (state.setEntry keying scope key value namespaceName ttlSeconds now).map fun next =>
        next.part (keying.scope scope) namespaces streams := by
  have written (row : ScopedEntry ν) := @part_set _ state (keying.scope scope) namespaces streams
    (keying.scope scope, namespaceName, keying.key (keying.scope scope) namespaceName key) row
    ⟨rfl, inside⟩
  simp only [setEntry, map_bind, map_ok, written]

theorem getEntry_part (inside : namespaces namespaceName = true) :
    (state.part (keying.scope scope) namespaces streams).getEntry keying scope key namespaceName now =
      state.getEntry keying scope key namespaceName now := by
  have read := @entry_part _ state (keying.scope scope) namespaces streams
    (keying.scope scope, namespaceName, keying.key (keying.scope scope) namespaceName key) now
    ⟨rfl, inside⟩
  simp only [getEntry, read]

theorem transactEntry_part (inside : namespaces namespaceName = true) :
    (state.part (keying.scope scope) namespaces streams).transactEntry keying scope key update
        namespaceName now =
      (state.transactEntry keying scope key update namespaceName now).map fun done =>
        (done.1, done.2.part (keying.scope scope) namespaces streams) := by
  have place : InPart (keying.scope scope) namespaces
      (keying.scope scope, namespaceName, keying.key (keying.scope scope) namespaceName key) :=
    ⟨rfl, inside⟩
  have written (row : ScopedEntry ν) := @part_set _ state _ _ streams _ row place
  have read := @entry_part _ state _ _ streams _ now place
  simp only [transactEntry, map_bind, read]
  congr 1
  funext _
  congr 1
  funext _
  congr 1
  funext _
  congr 1
  funext outcome
  obtain ⟨replacement, result⟩ := outcome
  cases replacement with
  | none => simp only [map_ok, part_erase]
  | some value => simp only [map_ok, written]

theorem deleteEntry_part (inside : namespaces namespaceName = true) :
    (state.part (keying.scope scope) namespaces streams).deleteEntry keying scope key namespaceName =
      (state.deleteEntry keying scope key namespaceName).map fun done =>
        (done.1, done.2.part (keying.scope scope) namespaces streams) := by
  have found := @get?_part _ state (keying.scope scope) namespaces streams
    (keying.scope scope, namespaceName, keying.key (keying.scope scope) namespaceName key) ⟨rfl, inside⟩
  simp only [deleteEntry, map_bind, map_ok, found, part_erase]

theorem listEntries_part (inside : namespaces namespaceName = true) :
    (state.part (keying.scope scope) namespaces streams).listEntries keying scope namespaceName limit now =
      state.listEntries keying scope namespaceName limit now := by
  have rows : (state.part (keying.scope scope) namespaces streams).selectedEntries (keying.scope scope)
      namespaceName now = state.selectedEntries (keying.scope scope) namespaceName now := by
    rw [selectedEntries, selectedEntries, part, Dict.filterKeys]
    dsimp only
    rw [List.filter_filter]
    congr 2
    apply List.filter_congr
    intro entry _
    by_cases same : entry.1.1 = keying.scope scope ∧ entry.1.2.1 = namespaceName
    · simp [same.1, same.2, inside]
    · have other : ¬(entry.1.1 = keying.scope scope ∧ entry.1.2.1 = namespaceName ∧
          ¬Expired entry.2.expiresAt now) := fun all => same ⟨all.1, all.2.1⟩
      rw [decide_eq_false other, Bool.false_and]
  simp only [listEntries, rows]

/-! ## Events -/

variable {eventId : String} {afterSequence : Nat}

theorem listEvents_part (inside : streams stream = true) :
    (state.part (keying.scope scope) namespaces streams).listEvents keying scope stream afterSequence limit
        now = state.listEvents keying scope stream afterSequence limit now := by
  simp only [listEvents, selected, stream_part inside]

/-- An event is appended in its part as in the whole, where no other part of the scope has its identifier. -/
theorem appendEvent_part (inside : streams stream = true)
    (own : ∀ row ∈ state.events, row.scopeDigest = keying.scope scope → row.event.eventId = eventId →
      streams row.stream = true) :
    (state.part (keying.scope scope) namespaces streams).appendEvent keying scope value stream ttlSeconds
        now eventId =
      (state.appendEvent keying scope value stream ttlSeconds now eventId).map fun done =>
        (done.1, done.2.part (keying.scope scope) namespaces streams) := by
  have taken (sequence : Nat) : (∃ row ∈ (state.part (keying.scope scope) namespaces streams).events,
        row.place = (keying.scope scope, stream, sequence) ∨
          row.scopeDigest = keying.scope scope ∧ row.event.eventId = eventId) ↔
      ∃ row ∈ state.events, row.place = (keying.scope scope, stream, sequence) ∨
        row.scopeDigest = keying.scope scope ∧ row.event.eventId = eventId := by
    constructor
    · rintro ⟨row, member, clash⟩
      exact ⟨row, List.mem_of_mem_filter member, clash⟩
    · rintro ⟨row, member, clash⟩
      refine ⟨row, List.mem_filter.mpr ⟨member, ?_⟩, clash⟩
      rw [Bool.and_eq_true, decide_eq_true_iff]
      rcases clash with place | ⟨same, identified⟩
      · obtain ⟨same, streamed⟩ := Prod.mk.inj place
        exact ⟨same, (congrArg streams (Prod.mk.inj streamed).1).trans inside⟩
      · exact ⟨same, own row member same identified⟩
  have added (event : ScopedEvent ν) :
      ({ state with
        events := state.events ++ [(⟨keying.scope scope, stream, event⟩ : EventRow ν)] }).part
          (keying.scope scope) namespaces streams =
        { state.part (keying.scope scope) namespaces streams with
          events := (state.part (keying.scope scope) namespaces streams).events ++
            [⟨keying.scope scope, stream, event⟩] } := by
    simp [part, inside]
  simp only [appendEvent, map_bind, map_ok, added, lastSequence_part inside, taken]

/-! ## Cleanups -/

/-- The rows of a scope that have expired. -/
def expiredEntries (state : ScopedState ν) (digest : String) (now : ℚ) :
    List (String × String × String) :=
  (state.entries.entries.filter fun entry =>
    entry.1.1 = digest ∧ Expired entry.2.expiresAt now).map Prod.fst

def expiredEvents (state : ScopedState ν) (digest : String) (now : ℚ) : List (String × String × Nat) :=
  (state.events.filter fun row =>
    row.scopeDigest = digest ∧ Expired row.event.expiresAt now).map EventRow.place

theorem expiredEntries_part : (state.part digest namespaces streams).expiredEntries digest now =
    (state.expiredEntries digest now).filter fun place => namespaces place.2.1 := by
  rw [expiredEntries, expiredEntries, part, Dict.filterKeys, List.filter_map]
  dsimp only
  rw [List.filter_filter, List.filter_filter]
  congr 1
  apply List.filter_congr
  intro entry _
  by_cases same : entry.1.1 = digest
  · simp [same, Bool.and_comm]
  · simp [same]

theorem expiredEvents_part : (state.part digest namespaces streams).expiredEvents digest now =
    (state.expiredEvents digest now).filter fun place => streams place.2.1 := by
  rw [expiredEvents, expiredEvents, part, List.filter_map]
  dsimp only
  rw [List.filter_filter, List.filter_filter]
  congr 1
  apply List.filter_congr
  intro row _
  by_cases same : row.scopeDigest = digest
  · simp [same, Bool.and_comm, EventRow.place]
  · simp [same]

theorem scope_of_expiredEntries (member : place ∈ state.expiredEntries digest now) : place.1 = digest := by
  obtain ⟨entry, selected, rfl⟩ := List.mem_map.mp member
  exact (of_decide_eq_true (List.mem_filter.mp selected).2).1

theorem scope_of_expiredEvents {place : String × String × Nat}
    (member : place ∈ state.expiredEvents digest now) : place.1 = digest := by
  obtain ⟨row, selected, rfl⟩ := List.mem_map.mp member
  exact (of_decide_eq_true (List.mem_filter.mp selected).2).1

/-- What is removed from a part is what is removed from it in the whole. -/
theorem remove_part {entries entries' : List (String × String × String)}
    {events events' : List (String × String × Nat)}
    (entry : ∀ place, InPart digest namespaces place → (place ∈ entries' ↔ place ∈ entries))
    (event : ∀ place, place.1 = digest → streams place.2.1 = true → (place ∈ events' ↔ place ∈ events)) :
    (state.part digest namespaces streams).remove entries' events' =
      (state.remove entries events).part digest namespaces streams := by
  have entriesSame : (state.part digest namespaces streams).entries.filterKeys (· ∉ entries') =
      ((state.remove entries events).part digest namespaces streams).entries := by
    apply Dict.ext_entries
    simp only [part, remove, Dict.filterKeys, List.filter_filter]
    apply List.filter_congr
    intro row _
    by_cases inside : InPart digest namespaces row.1
    · rw [keep_iff.mpr inside, Bool.and_true, Bool.true_and]
      exact decide_eq_decide.mpr (entry row.1 inside).not
    · rw [Bool.eq_false_iff.mpr (keep_iff.not.mpr inside), Bool.and_false, Bool.false_and]
  have eventsSame : (state.part digest namespaces streams).events.filter (·.place ∉ events') =
      ((state.remove entries events).part digest namespaces streams).events := by
    simp only [part, remove, List.filter_filter]
    apply List.filter_congr
    intro row _
    by_cases inside : row.scopeDigest = digest ∧ streams row.stream = true
    · simp only [inside, decide_true, Bool.and_self, Bool.and_true, Bool.true_and]
      exact decide_eq_decide.mpr (event row.place inside.1 inside.2).not
    · have other : (decide (row.scopeDigest = digest) && streams row.stream) = false := by
        rw [Bool.eq_false_iff, Ne, Bool.and_eq_true, decide_eq_true_iff]
        exact inside
      rw [other, Bool.and_false, Bool.false_and]
  rw [remove, entriesSame, eventsSame]

theorem remove_nil : state.remove [] [] = state := by
  have entriesSame : state.entries.filterKeys (fun place => decide (place ∉ [])) = state.entries :=
    Dict.filterKeys_eq_self fun place _ => decide_eq_true List.not_mem_nil
  have eventsSame : state.events.filter (fun row => decide (row.place ∉ [])) = state.events :=
    List.filter_eq_self.mpr fun row _ => decide_eq_true List.not_mem_nil
  rw [remove, entriesSame, eventsSame]

/-- What is removed outside of a part is not missed in it. -/
theorem remove_hidden {entries : List (String × String × String)} {events : List (String × String × Nat)}
    (entry : ∀ place ∈ entries, place.1 ≠ digest) (event : ∀ place ∈ events, place.1 ≠ digest) :
    (state.remove entries events).part digest namespaces streams = state.part digest namespaces streams := by
  have same := @remove_part _ state digest namespaces streams entries [] events []
    (fun place inside => iff_of_false List.not_mem_nil fun member => entry place member inside.1)
    (fun place here _ => iff_of_false List.not_mem_nil fun member => event place member here)
  rw [← same, remove_nil]

variable {entryOrder : VisitOrder (String × String × String)}
  {eventOrder : VisitOrder (String × String × Nat)}

theorem mem_of_pickedEntries (member : place ∈ state.pickedEntries entryOrder digest now limit) :
    place ∈ state.expiredEntries digest now :=
  (entryOrder.perm _).mem_iff.mp (List.mem_of_mem_take member)

theorem mem_of_pickedEvents {place : String × String × Nat}
    (member : place ∈ state.pickedEvents eventOrder digest now limit) :
    place ∈ state.expiredEvents digest now :=
  (eventOrder.perm _).mem_iff.mp (List.mem_of_mem_take member)

theorem pickedEntries_eq (room : (state.expiredEntries digest now).length ≤ limit) :
    state.pickedEntries entryOrder digest now limit =
      entryOrder.visit (state.expiredEntries digest now) :=
  List.take_of_length_le ((entryOrder.perm _).length_eq.trans_le room)

theorem pickedEvents_eq (room : (state.expiredEvents digest now).length ≤ limit) :
    state.pickedEvents eventOrder digest now limit = eventOrder.visit (state.expiredEvents digest now) :=
  List.take_of_length_le ((eventOrder.perm _).length_eq.trans_le room)

theorem cleanupExpired_eq :
    state.cleanupExpired keying scope now limit entryOrder eventOrder =
      checkTimestamp now >>= fun _ => checkLimit limit 10000 >>= fun _ =>
        .ok (⟨(state.pickedEntries entryOrder (keying.scope scope) now limit).length,
            (state.pickedEvents eventOrder (keying.scope scope) now limit).length⟩,
          state.remove (state.pickedEntries entryOrder (keying.scope scope) now limit)
            (state.pickedEvents eventOrder (keying.scope scope) now limit)) := rfl

/-- A cleanup of all parts of a scope. -/
theorem cleanupExpired_whole (entries : ∀ name, namespaces name = true) (events : ∀ name, streams name = true) :
    (state.part (keying.scope scope) namespaces streams).cleanupExpired keying scope now limit entryOrder
        eventOrder =
      (state.cleanupExpired keying scope now limit entryOrder eventOrder).map fun done =>
        (done.1, done.2.part (keying.scope scope) namespaces streams) := by
  have picked : (state.part (keying.scope scope) namespaces streams).pickedEntries entryOrder
      (keying.scope scope) now limit = state.pickedEntries entryOrder (keying.scope scope) now limit := by
    have same := @expiredEntries_part _ state (keying.scope scope) namespaces streams now
    rw [List.filter_eq_self.mpr fun place _ => entries place.2.1] at same
    exact congrArg (fun rows => (entryOrder.visit rows).take limit) same
  have picked' : (state.part (keying.scope scope) namespaces streams).pickedEvents eventOrder
      (keying.scope scope) now limit = state.pickedEvents eventOrder (keying.scope scope) now limit := by
    have same := @expiredEvents_part _ state (keying.scope scope) namespaces streams now
    rw [List.filter_eq_self.mpr fun place _ => events place.2.1] at same
    exact congrArg (fun rows => (eventOrder.visit rows).take limit) same
  rw [cleanupExpired_eq, cleanupExpired_eq, picked, picked', map_bind]
  simp only [map_bind, map_ok]
  rw [remove_part (fun _ _ => Iff.rfl) fun _ _ _ => Iff.rfl]

/-- A cleanup whose limit is enough leaves in a part what it leaves there in the whole. -/
theorem cleanupExpired_room (entries : (state.expiredEntries (keying.scope scope) now).length ≤ limit)
    (events : (state.expiredEvents (keying.scope scope) now).length ≤ limit) :
    ((state.part (keying.scope scope) namespaces streams).cleanupExpired keying scope now limit entryOrder
        eventOrder).map Prod.snd =
      (state.cleanupExpired keying scope now limit entryOrder eventOrder).map fun done =>
        done.2.part (keying.scope scope) namespaces streams := by
  have entries' : ((state.part (keying.scope scope) namespaces streams).expiredEntries
      (keying.scope scope) now).length ≤ limit := by
    rw [expiredEntries_part]
    exact (List.length_filter_le _ _).trans entries
  have events' : ((state.part (keying.scope scope) namespaces streams).expiredEvents
      (keying.scope scope) now).length ≤ limit := by
    rw [expiredEvents_part]
    exact (List.length_filter_le _ _).trans events
  rw [cleanupExpired_eq, cleanupExpired_eq]
  simp only [map_bind, map_ok]
  rw [remove_part]
  · intro place inside
    rw [pickedEntries_eq entries, pickedEntries_eq entries', (entryOrder.perm _).mem_iff,
      (entryOrder.perm _).mem_iff, expiredEntries_part, List.mem_filter]
    exact and_iff_left inside.2
  · intro place _ inside
    rw [pickedEvents_eq events, pickedEvents_eq events', (eventOrder.perm _).mem_iff,
      (eventOrder.perm _).mem_iff, expiredEvents_part, List.mem_filter]
    exact and_iff_left inside

end ScopedState

/-! ## Calls -/

open ScopedState

variable {keying : Keying} {scope : TenantScope} {namespaces streams : String → Bool}
  {state : ScopedState ν} {call : Call ν ρ}

/-- The limit of a cleanup of the scope is enough for all of its rows that have expired. -/
def Roomy (keying : Keying) (scope : TenantScope) (state : ScopedState ν) : Call ν ρ → Prop
  | .cleanupExpired other now limit _ _ => other = scope →
      (state.expiredEntries (keying.scope scope) now).length ≤ limit ∧
        (state.expiredEvents (keying.scope scope) now).length ≤ limit
  | _ => True

/-- An event of the scope that has the identifier of a new one is of the part. -/
def Owned (keying : Keying) (scope : TenantScope) (streams : String → Bool) (state : ScopedState ν) :
    Call ν ρ → Prop
  | .appendEvent _ _ _ _ _ eventId => ∀ row ∈ state.events, row.scopeDigest = keying.scope scope →
      row.event.eventId = eventId → streams row.stream = true
  | _ => True

/-- A call on a part does to it in the whole what it does to it alone. -/
theorem perform_part (mine : call.scope = scope) (on : call.On namespaces streams)
    (owned : Owned keying scope streams state call) (plain : ¬call.Cleans) :
    perform keying (state.part (keying.scope scope) namespaces streams) call =
      (perform keying state call).map fun done =>
        (done.1, done.2.part (keying.scope scope) namespaces streams) := by
  subst mine
  cases call with
  | setEntry other key value namespaceName ttlSeconds now =>
      simp only [perform, Call.scope, setEntry_part on, map_map]
  | getEntry other key namespaceName now =>
      simp only [perform, Call.scope, getEntry_part on, map_map]
  | transactEntry other key update namespaceName now =>
      simp only [perform, Call.scope, transactEntry_part on, map_map]
  | deleteEntry other key namespaceName =>
      simp only [perform, Call.scope, deleteEntry_part on, map_map]
  | listEntries other namespaceName limit now =>
      simp only [perform, Call.scope, listEntries_part on, map_map]
  | appendEvent other value stream ttlSeconds now eventId =>
      have same := @appendEvent_part _ state stream namespaces streams now keying other value ttlSeconds
        eventId on owned
      simp only [perform, Call.scope, same, map_map]
  | listEvents other stream afterSequence limit now =>
      simp only [perform, Call.scope, listEvents_part on, map_map]
  | cleanupExpired other now limit entryOrder eventOrder => exact absurd trivial plain

/-- A call on anything else does nothing to a part. -/
theorem perform_hidden (injective : Function.Injective keying.scope)
    (elsewhere : ¬(call.scope = scope ∧ call.On namespaces streams)) :
    ((perform keying state call).map fun done =>
        done.2.part (keying.scope scope) namespaces streams) =
      (perform keying state call).map fun _ => state.part (keying.scope scope) namespaces streams := by
  have outside {other : TenantScope} {namespaceName key : String}
      (elsewhere : ¬(other = scope ∧ namespaces namespaceName = true)) :
      ¬InPart (keying.scope scope) namespaces (keying.scope other, namespaceName, key) :=
    fun inside => elsewhere ⟨injective inside.1, inside.2⟩
  cases call with
  | setEntry other key value namespaceName ttlSeconds now =>
      have kept (row : ScopedEntry ν) := @part_set_outside _ state (keying.scope scope) namespaces streams
        (keying.scope other, namespaceName, keying.key (keying.scope other) namespaceName key) row
        (outside elsewhere)
      simp only [perform, setEntry, map_bind, map_ok, kept]
  | getEntry other key namespaceName now => simp only [perform, map_map]
  | transactEntry other key update namespaceName now =>
      have kept (row : ScopedEntry ν) := @part_set_outside _ state (keying.scope scope) namespaces streams
        (keying.scope other, namespaceName, keying.key (keying.scope other) namespaceName key) row
        (outside elsewhere)
      have kept' := @part_erase_outside _ state (keying.scope scope) namespaces streams
        (keying.scope other, namespaceName, keying.key (keying.scope other) namespaceName key)
        (outside elsewhere)
      simp only [perform, transactEntry, map_bind]
      congr 1
      funext _
      congr 1
      funext _
      congr 1
      funext _
      congr 1
      funext outcome
      obtain ⟨replacement, result⟩ := outcome
      cases replacement with
      | none => simp only [map_ok, kept']
      | some value => simp only [map_ok, kept]
  | deleteEntry other key namespaceName =>
      have kept := @part_erase_outside _ state (keying.scope scope) namespaces streams
        (keying.scope other, namespaceName, keying.key (keying.scope other) namespaceName key)
        (outside elsewhere)
      simp only [perform, deleteEntry, map_bind, map_ok, kept]
  | listEntries other namespaceName limit now => simp only [perform, map_map]
  | appendEvent other value stream ttlSeconds now eventId =>
      have kept (event : ScopedEvent ν) :
          ({ state with
            events := state.events ++ [(⟨keying.scope other, stream, event⟩ : EventRow ν)] }).part
              (keying.scope scope) namespaces streams =
            state.part (keying.scope scope) namespaces streams := by
        have other : ¬(keying.scope other = keying.scope scope ∧ streams stream = true) :=
          fun both => elsewhere ⟨injective both.1, both.2⟩
        simp [part, other]
      simp only [perform, appendEvent, map_bind, map_ok, kept]
  | listEvents other stream afterSequence limit now => simp only [perform, map_map]
  | cleanupExpired other now limit entryOrder eventOrder =>
      have different : keying.scope other ≠ keying.scope scope :=
        fun same => elsewhere ⟨injective same, trivial⟩
      have kept := @remove_hidden _ state (keying.scope scope) namespaces streams
        (state.pickedEntries entryOrder (keying.scope other) now limit)
        (state.pickedEvents eventOrder (keying.scope other) now limit)
        (fun place member => (scope_of_expiredEntries (mem_of_pickedEntries member)).trans_ne different)
        (fun place member => (scope_of_expiredEvents (mem_of_pickedEvents member)).trans_ne different)
      simp only [perform, cleanupExpired_eq, map_bind, map_ok, kept]

theorem callStep_of_part
    (same : perform keying (state.part (keying.scope scope) namespaces streams) call =
      (perform keying state call).map fun done =>
        (done.1, done.2.part (keying.scope scope) namespaces streams)) :
    callStep keying (state.part (keying.scope scope) namespaces streams) call =
      ((callStep keying state call).1.part (keying.scope scope) namespaces streams,
        (callStep keying state call).2) := by
  rw [callStep, same, callStep]
  cases perform keying state call <;> rfl

theorem cleanup_part {now : ℚ} {limit : Nat} {entryOrder : VisitOrder (String × String × String)}
    {eventOrder : VisitOrder (String × String × Nat)}
    (entries : ∀ name, namespaces name = true) (events : ∀ name, streams name = true) :
    perform keying (state.part (keying.scope scope) namespaces streams)
        (.cleanupExpired scope now limit entryOrder eventOrder : Call ν ρ) =
      (perform keying state (.cleanupExpired scope now limit entryOrder eventOrder : Call ν ρ)).map
        fun done => (done.1, done.2.part (keying.scope scope) namespaces streams) := by
  simp only [perform, cleanupExpired_whole entries events, map_map]

theorem cleanup_follows {now : ℚ} {limit : Nat} {entryOrder : VisitOrder (String × String × String)}
    {eventOrder : VisitOrder (String × String × Nat)}
    (entries : (state.expiredEntries (keying.scope scope) now).length ≤ limit)
    (events : (state.expiredEvents (keying.scope scope) now).length ≤ limit) :
    (callStep keying (state.part (keying.scope scope) namespaces streams)
        (.cleanupExpired scope now limit entryOrder eventOrder : Call ν ρ)).1 =
      (callStep keying state (.cleanupExpired scope now limit entryOrder eventOrder : Call ν ρ)).1.part
        (keying.scope scope) namespaces streams := by
  have same := @cleanupExpired_room _ state namespaces streams now keying scope limit entryOrder eventOrder
    entries events
  rw [callStep, callStep, perform, perform]
  cases done : state.cleanupExpired keying scope now limit entryOrder eventOrder with
  | error error =>
      rw [done] at same
      cases part : (state.part (keying.scope scope) namespaces streams).cleanupExpired keying scope now
        limit entryOrder eventOrder with
      | error error' => rfl
      | ok result =>
          rw [part] at same
          cases same
  | ok result =>
      rw [done] at same
      cases part : (state.part (keying.scope scope) namespaces streams).cleanupExpired keying scope now
        limit entryOrder eventOrder with
      | error error' =>
          rw [part] at same
          cases same
      | ok result' =>
          rw [part] at same
          exact Except.ok.inj same

/-- What one call does to a part of a scope and what its caller sees. -/
theorem unwinds (injective : Function.Injective keying.scope) {seen : Call ν ρ → Prop}
    (owned : Owned keying scope streams state call)
    (cleaned : ((∀ name, namespaces name = true) ∧ ∀ name, streams name = true) ∨
      Roomy keying scope state call ∧ (seen call → ¬call.Cleans)) :
    Unwinds (callStep keying) (fun state => state.part (keying.scope scope) namespaces streams)
      (fun call => call.scope = scope ∧ call.On namespaces streams) seen state call where
  hidden := by
    intro elsewhere
    have same := @perform_hidden _ _ keying scope namespaces streams state call injective elsewhere
    rw [callStep]
    cases done : perform keying state call with
    | error error => rfl
    | ok result =>
        rw [done] at same
        exact Except.ok.inj same
  follows := by
    rintro ⟨mine, on⟩
    by_cases plain : call.Cleans
    · cases call with
      | cleanupExpired other now limit entryOrder eventOrder =>
          obtain rfl : other = scope := mine
          rcases cleaned with ⟨entries, events⟩ | ⟨room, _⟩
          · exact congrArg Prod.fst (callStep_of_part (cleanup_part entries events))
          · exact cleanup_follows (room rfl).1 (room rfl).2
      | _ => cases plain
    · exact congrArg Prod.fst (callStep_of_part (perform_part mine on owned plain))
  agrees := by
    rintro ⟨mine, on⟩ sees
    by_cases plain : call.Cleans
    · cases call with
      | cleanupExpired other now limit entryOrder eventOrder =>
          obtain rfl : other = scope := mine
          rcases cleaned with ⟨entries, events⟩ | ⟨_, unseen⟩
          · have same := callStep_of_part (@cleanup_part _ ρ keying other namespaces streams state now limit
              entryOrder eventOrder entries events)
            rw [same]
          · exact absurd trivial (unseen sees)
      | _ => cases plain
    · rw [callStep_of_part (perform_part mine on owned plain)]

/-! ## Runs -/

variable {calls : List (Call ν ρ)}

/-- A call stores no event but one with the identifier that it draws. -/
theorem events_perform : ∀ done, perform keying state call = .ok done →
    ∀ row ∈ done.2.events, row ∈ state.events ∨ call.eventId? = some row.event.eventId := by
  cases call with
  | setEntry other key value namespaceName ttlSeconds now =>
      exact of_map (of_bind fun _ => of_bind fun _ => of_bind fun _ => of_bind fun _ =>
        of_ok fun _ => .inl)
  | getEntry other key namespaceName now => exact of_map fun _ _ _ => .inl
  | transactEntry other key update namespaceName now =>
      refine of_map (of_bind fun _ => of_bind fun _ => of_bind fun _ => of_bind fun outcome => ?_)
      obtain ⟨replacement, result⟩ := outcome
      cases replacement with
      | none => exact of_ok fun _ => .inl
      | some value => exact of_ok fun _ => .inl
  | deleteEntry other key namespaceName =>
      exact of_map (of_bind fun _ => of_bind fun _ => of_ok fun _ => .inl)
  | listEntries other namespaceName limit now => exact of_map fun _ _ _ => .inl
  | appendEvent other value stream ttlSeconds now eventId =>
      refine of_map (of_bind fun _ => of_bind fun _ => of_bind fun _ => of_bind fun _ => of_ok ?_)
      intro row member
      rcases List.mem_append.mp member with stored | added
      · exact .inl stored
      · rw [List.mem_singleton.mp added]
        exact .inr rfl
  | listEvents other stream afterSequence limit now => exact of_map fun _ _ _ => .inl
  | cleanupExpired other now limit entryOrder eventOrder =>
      exact of_map (of_bind fun _ => of_bind fun _ => of_ok fun _ member =>
        .inl (List.mem_of_mem_filter member))

/-- The identifiers of the stored events are ones that earlier calls drew. -/
def Drawn (state : ScopedState ν) (drawn : List String) : Prop :=
  ∀ row ∈ state.events, row.event.eventId ∈ drawn

theorem Drawn.step {drawn : List String} (earlier : Drawn state drawn) :
    Drawn (callStep keying state call).1 (drawn ++ call.eventId?.toList) := by
  intro row member
  rw [List.mem_append, Option.mem_toList]
  rw [callStep] at member
  cases done : perform keying state call with
  | error error =>
      rw [done] at member
      exact .inl (earlier row member)
  | ok result =>
      rw [done] at member
      exact (events_perform result done row member).imp_left (earlier row)

/-- Where no two calls draw one identifier, no call draws that of a stored event. -/
theorem along_owned {drawn : List String} (earlier : Drawn state drawn)
    (fresh : (drawn ++ calls.filterMap Call.eventId?).Nodup) :
    Along (fun state call => (callStep keying state call).1) (Owned keying scope streams) state calls := by
  induction calls generalizing state drawn with
  | nil => trivial
  | cons call rest ih =>
      have split : (call :: rest).filterMap Call.eventId? =
          call.eventId?.toList ++ rest.filterMap Call.eventId? := by
        cases drawn : call.eventId? with
        | none => exact List.filterMap_cons_none drawn
        | some eventId => exact List.filterMap_cons_some drawn
      rw [split, ← List.append_assoc] at fresh
      refine ⟨?_, ih earlier.step fresh⟩
      have unused := (List.nodup_append.mp (List.nodup_append.mp fresh).1).2.2
      cases call with
      | appendEvent other value stream ttlSeconds now eventId =>
          intro row member _ same
          exact absurd same (unused _ (earlier row member) _ (List.mem_singleton.mpr rfl))
      | _ => trivial

theorem on_all : call.On (fun _ => true) fun _ => true := by
  cases call <;> trivial

/-- What the callers of one scope see is what they see alone. -/
theorem scope_isolated (injective : Function.Injective keying.scope) (scope : TenantScope)
    (calls : List (Call ν ρ)) :
    answers (callStep keying) {} (calls.filter fun call => call.scope = scope) =
      (answers (callStep keying) {} calls).filter fun answer => answer.1.scope = scope := by
  have along : Along (fun state call => (callStep keying state call).1)
      (Unwinds (callStep keying) (fun state => state.part (keying.scope scope) (fun _ => true) fun _ => true)
        (fun call => call.scope = scope ∧ call.On (fun _ => true) fun _ => true) fun _ => True) {} calls := by
    refine along_true.mono fun state call _ => unwinds injective ?_ (.inl ⟨fun _ => rfl, fun _ => rfl⟩)
    cases call with
    | appendEvent other value stream ttlSeconds now eventId => exact fun _ _ _ _ => rfl
    | _ => trivial
  have purged := answers_purge along
  have start : ({} : ScopedState ν).part (keying.scope scope) (fun _ => true) (fun _ => true) = {} := rfl
  rw [start] at purged
  simpa [on_all] using purged

/-- What the callers on some namespaces and streams of a scope see is what they see alone, where no cleanup
of the scope is cut short. -/
theorem parts_isolated (injective : Function.Injective keying.scope) (scope : TenantScope)
    (namespaces streams : String → Bool) (calls : List (Call ν ρ))
    (fresh : (calls.filterMap Call.eventId?).Nodup)
    (roomy : Along (fun state call => (callStep keying state call).1) (Roomy keying scope) {} calls) :
    (answers (callStep keying) {} (calls.filter fun call =>
        call.scope = scope ∧ call.On namespaces streams)).filter (fun answer => ¬answer.1.Cleans) =
      (answers (callStep keying) {} calls).filter fun answer =>
        (answer.1.scope = scope ∧ answer.1.On namespaces streams) ∧ ¬answer.1.Cleans := by
  have owned := @along_owned _ _ keying scope streams {} calls [] (fun row member => by cases member)
    fresh
  exact answers_purge ((roomy.and owned).mono fun state call both =>
    unwinds injective both.2 (.inr ⟨both.1, id⟩))

/-- **Isolation of scoped state.** Scopes do not influence each other, and neither do the namespaces and
streams of one scope where the limit of each of its cleanups is enough for what has expired. -/
theorem scoped_state_isolated {mac : Bytes → Bytes} (injective : Function.Injective mac)
    (alnum control : Char → Bool) (scope : TenantScope) (calls : List (Call ν ρ)) :
    (answers (callStep (hmacKeying mac alnum control)) {} (calls.filter fun call => call.scope = scope) =
      (answers (callStep (hmacKeying mac alnum control)) {} calls).filter fun answer =>
        answer.1.scope = scope) ∧
    ∀ namespaces streams : String → Bool, (calls.filterMap Call.eventId?).Nodup →
      Along (fun state call => (callStep (hmacKeying mac alnum control) state call).1)
        (Roomy (hmacKeying mac alnum control) scope) {} calls →
      (answers (callStep (hmacKeying mac alnum control)) {} (calls.filter fun call =>
          call.scope = scope ∧ call.On namespaces streams)).filter (fun answer => ¬answer.1.Cleans) =
        (answers (callStep (hmacKeying mac alnum control)) {} calls).filter fun answer =>
          (answer.1.scope = scope ∧ answer.1.On namespaces streams) ∧ ¬answer.1.Cleans := by
  have apart : Function.Injective (hmacKeying mac alnum control).scope :=
    Approval.scopeDigest_injective injective
  exact ⟨scope_isolated apart scope calls, fun namespaces streams fresh roomy =>
    parts_isolated apart scope namespaces streams calls fresh roomy⟩

/-! ## A limit that two namespaces share -/

section SharedLimit

def reportScope : TenantScope := ⟨"acme", "ann", "desk", "report"⟩

/-- Two namespaces with one expired entry each, a cleanup of one row, and a deletion. -/
def sharedLimit : List (Call Nat Unit) :=
  [.setEntry reportScope "key" 1 "first" (some 1) 0, .setEntry reportScope "key" 2 "second" (some 1) 0,
    .cleanupExpired reportScope 2 1 (oldestFirst _) (oldestFirst _), .deleteEntry reportScope "key" "second"]

/-- Any digests, and names of any characters. -/
def openKeying (scope : TenantScope → String) (key : String → String → String → String) : Keying where
  scope := scope
  key := key
  alnum := fun _ => true
  control := fun _ => false

/-- Whether a deletion has found its entry. -/
def Answer.existed : Except Raised (Answer ν ρ) → Option Bool
  | .ok (.deleted existed) => some existed
  | _ => Option.none

variable (digests : TenantScope → String) (keys : String → String → String → String)

/-- The place of the key in a namespace. -/
def sharedPlace (namespaceName : String) : String × String × String :=
  (digests reportScope, namespaceName, keys (digests reportScope) namespaceName "key")

/-- The first of the expired entries is removed. -/
theorem callStep_cleanup {entries : Dict (String × String × String) (ScopedEntry Nat)}
    {picked : String × String × String} {rest : List (String × String × String)}
    (expired : expiredEntries { entries := entries } (digests reportScope) 2 = picked :: rest) :
    callStep (openKeying digests keys) { entries := entries }
        (.cleanupExpired reportScope 2 1 (oldestFirst _) (oldestFirst _) : Call Nat Unit) =
      ({ entries := entries.filterKeys (· ∉ [picked]) }, .ok (.cleaned ⟨1, 0⟩)) := by
  have first : pickedEntries { entries := entries } (oldestFirst _) (digests reportScope) 2 1 = [picked] := by
    change (expiredEntries { entries := entries } (digests reportScope) 2).take 1 = [picked]
    rw [expired]
    rfl
  have done : ScopedState.cleanupExpired (openKeying digests keys) { entries := entries } reportScope 2 1
      (oldestFirst _) (oldestFirst _) = .ok (⟨1, 0⟩, { entries := entries.filterKeys (· ∉ [picked]) }) := by
    change Except.ok (CleanupResult.mk (pickedEntries { entries := entries } (oldestFirst _)
      (digests reportScope) 2 1).length 0, ScopedState.remove { entries := entries }
        (pickedEntries { entries := entries } (oldestFirst _) (digests reportScope) 2 1) []) = _
    rw [first]
    rfl
  rw [callStep, perform, done]
  rfl

/-- The entry of the second namespace. -/
def secondEntry : Dict (String × String × String) (ScopedEntry Nat) :=
  (∅ : Dict _ _).set (sharedPlace digests keys "second") ⟨2, 0, some (0 + 1)⟩

/-- The entries of both. -/
def bothEntries : Dict (String × String × String) (ScopedEntry Nat) :=
  ((∅ : Dict _ _).set (sharedPlace digests keys "first") ⟨1, 0, some (0 + 1)⟩).set
    (sharedPlace digests keys "second") ⟨2, 0, some (0 + 1)⟩

theorem sharedPlace_ne : sharedPlace digests keys "second" ≠ sharedPlace digests keys "first" := by
  simp [sharedPlace]

/-- What has a lifetime of one second from the start has expired after two. -/
theorem expired_sharedPlace (name : String) (value : Nat) :
    decide ((sharedPlace digests keys name, (⟨value, 0, some (0 + 1)⟩ : ScopedEntry Nat)).1.1 =
      digests reportScope ∧ Expired (some (0 + 1)) 2) = true :=
  decide_eq_true ⟨rfl, 0 + 1, rfl, by norm_num⟩

theorem expired_second : expiredEntries { entries := secondEntry digests keys } (digests reportScope) 2 =
    [sharedPlace digests keys "second"] := by
  have selected : [(sharedPlace digests keys "second", (⟨2, 0, some (0 + 1)⟩ : ScopedEntry Nat))].filter
      (fun entry => entry.1.1 = digests reportScope ∧ Expired entry.2.expiresAt 2) =
        [(sharedPlace digests keys "second", ⟨2, 0, some (0 + 1)⟩)] :=
    List.filter_eq_self.mpr fun entry member => by
      rw [List.mem_singleton.mp member]
      exact expired_sharedPlace digests keys "second" 2
  exact congrArg (List.map Prod.fst) selected

theorem expired_both : expiredEntries { entries := bothEntries digests keys } (digests reportScope) 2 =
    [sharedPlace digests keys "first", sharedPlace digests keys "second"] := by
  have rows : (bothEntries digests keys).entries =
      [(sharedPlace digests keys "first", ⟨1, 0, some (0 + 1)⟩),
        (sharedPlace digests keys "second", ⟨2, 0, some (0 + 1)⟩)] := by
    refine Dict.entries_set_of_notMem _ fun member => ?_
    exact sharedPlace_ne digests keys (List.mem_singleton.mp member)
  have selected : (bothEntries digests keys).entries.filter
      (fun entry => entry.1.1 = digests reportScope ∧ Expired entry.2.expiresAt 2) =
        (bothEntries digests keys).entries := by
    rw [rows]
    refine List.filter_eq_self.mpr fun entry member => ?_
    rcases List.mem_cons.mp member with rfl | member
    · exact expired_sharedPlace digests keys "first" 1
    · rw [List.mem_singleton.mp member]
      exact expired_sharedPlace digests keys "second" 2
  rw [expiredEntries, selected, rows]
  rfl

/-- A limit that another namespace uses up leaves an entry that is removed otherwise. -/
theorem existed_sharedLimit :
    ((answers (callStep (openKeying digests keys)) {} sharedLimit).map fun answer =>
        Answer.existed answer.2) = [none, none, none, some true] ∧
      ((answers (callStep (openKeying digests keys)) {} sharedLimit.tail).map fun answer =>
        Answer.existed answer.2) = [none, none, some false] := by
  have setFirst : callStep (openKeying digests keys) {}
      (.setEntry reportScope "key" 1 "first" (some 1) 0 : Call Nat Unit) =
        ({ entries := (∅ : Dict _ _).set (sharedPlace digests keys "first") ⟨1, 0, some (0 + 1)⟩ },
          .ok .none) := rfl
  have setSecond (entries : Dict _ _) : callStep (openKeying digests keys) { entries := entries }
      (.setEntry reportScope "key" 2 "second" (some 1) 0 : Call Nat Unit) =
        ({ entries := entries.set (sharedPlace digests keys "second") ⟨2, 0, some (0 + 1)⟩ },
          .ok .none) := rfl
  have deleted (entries : Dict _ _) : callStep (openKeying digests keys) { entries := entries }
      (.deleteEntry reportScope "key" "second" : Call Nat Unit) =
        ({ entries := entries.erase (sharedPlace digests keys "second") },
          .ok (.deleted (entries.get? (sharedPlace digests keys "second")).isSome)) := rfl
  constructor
  · have cleaned := callStep_cleanup digests keys (expired_both digests keys)
    rw [bothEntries] at cleaned
    simp only [sharedLimit, answers, setFirst, setSecond, cleaned, deleted, List.map_cons, List.map_nil,
      Answer.existed, Dict.get?_filterKeys, Dict.get?_set_self, List.mem_singleton,
      sharedPlace_ne, not_false_eq_true, decide_true, if_true, Option.isSome_some]
  · have cleaned := callStep_cleanup digests keys (expired_second digests keys)
    rw [secondEntry] at cleaned
    simp only [sharedLimit, List.tail_cons, answers, setSecond, cleaned, deleted, List.map_cons,
      List.map_nil, Answer.existed, Dict.get?_filterKeys, List.mem_singleton, not_true_eq_false,
      decide_false, Bool.false_eq_true, if_false, Option.isSome_none]

/-- The answers to the deletion differ. -/
theorem answers_sharedLimit :
    (answers (callStep (openKeying digests keys)) {} (sharedLimit.filter fun call =>
        call.scope = reportScope ∧ call.On (fun name => name = "second") fun _ => true)).filter
        (fun answer => ¬answer.1.Cleans) ≠
      (answers (callStep (openKeying digests keys)) {} sharedLimit).filter fun answer =>
        (answer.1.scope = reportScope ∧ answer.1.On (fun name => name = "second") fun _ => true) ∧
          ¬answer.1.Cleans := by
  obtain ⟨full, alone⟩ := existed_sharedLimit digests keys
  have kept : (sharedLimit.filter fun call =>
      call.scope = reportScope ∧ call.On (fun name => name = "second") fun _ => true) =
        sharedLimit.tail := rfl
  obtain ⟨first, second, cleaned, deleted, whole⟩ : ∃ first second cleaned deleted,
      answers (callStep (openKeying digests keys)) {} sharedLimit =
        [(.setEntry reportScope "key" 1 "first" (some 1) 0, first),
          (.setEntry reportScope "key" 2 "second" (some 1) 0, second),
          (.cleanupExpired reportScope 2 1 (oldestFirst _) (oldestFirst _), cleaned),
          (.deleteEntry reportScope "key" "second", deleted)] := ⟨_, _, _, _, rfl⟩
  obtain ⟨second', cleaned', deleted', part⟩ : ∃ second' cleaned' deleted',
      answers (callStep (openKeying digests keys)) {} sharedLimit.tail =
        [(.setEntry reportScope "key" 2 "second" (some 1) 0, second'),
          (.cleanupExpired reportScope 2 1 (oldestFirst _) (oldestFirst _), cleaned'),
          (.deleteEntry reportScope "key" "second", deleted')] := ⟨_, _, _, rfl⟩
  rw [whole] at full
  rw [part] at alone
  rw [kept, part, whole]
  intro same
  have last : second' = second ∧ deleted' = deleted := by
    simpa [Call.Cleans, Call.On, Call.scope] using same
  simp [last.2] at alone
  simp [alone] at full

/-- The same calls with a limit that is enough. -/
def roomyLimit : List (Call Nat Unit) :=
  [.setEntry reportScope "key" 1 "first" (some 1) 0, .setEntry reportScope "key" 2 "second" (some 1) 0,
    .cleanupExpired reportScope 2 2 (oldestFirst _) (oldestFirst _), .deleteEntry reportScope "key" "second"]

theorem scoped_state_isolated_roomy :
    (answers (callStep (hmacKeying id (fun _ => true) fun _ => false)) {} (roomyLimit.filter fun call =>
        call.scope = reportScope ∧ call.On (fun name => name = "second") fun _ => true)).filter
        (fun answer => ¬answer.1.Cleans) =
      (answers (callStep (hmacKeying id (fun _ => true) fun _ => false)) {} roomyLimit).filter fun answer =>
        (answer.1.scope = reportScope ∧ answer.1.On (fun name => name = "second") fun _ => true) ∧
          ¬answer.1.Cleans := by
  refine (scoped_state_isolated Function.injective_id _ _ reportScope roomyLimit).2 _ _
    List.nodup_nil ⟨trivial, trivial, fun _ => ⟨?_, Nat.zero_le 2⟩, trivial, trivial⟩
  exact (congrArg List.length (expired_both (Approval.scopeDigest id)
    (hmacKeying id (fun _ => true) fun _ => false).key)).le

/-- Callers on one namespace see a difference that only calls on another one make. -/
theorem not_scoped_state_isolated :
    ¬∀ calls : List (Call Nat Unit),
      (answers (callStep (hmacKeying id (fun _ => true) fun _ => false)) {} (calls.filter fun call =>
          call.scope = reportScope ∧ call.On (fun name => name = "second") fun _ => true)).filter
          (fun answer => ¬answer.1.Cleans) =
        (answers (callStep (hmacKeying id (fun _ => true) fun _ => false)) {} calls).filter fun answer =>
          (answer.1.scope = reportScope ∧ answer.1.On (fun name => name = "second") fun _ => true) ∧
            ¬answer.1.Cleans :=
  fun isolated => answers_sharedLimit (Approval.scopeDigest id)
    (hmacKeying id (fun _ => true) fun _ => false).key (isolated sharedLimit)

end SharedLimit

end CapabilityHub.Tenancy
