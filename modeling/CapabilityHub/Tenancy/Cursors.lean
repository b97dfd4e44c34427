import CapabilityHub.Data.Runs
import CapabilityHub.Tenancy.ScopedState
import Mathlib.Data.List.MinMax
import Mathlib.Logic.Function.Basic

/-! # Readers of an event stream

A reader asks for the events after the greatest number that it has seen. It misses none as long as
the numbers of a stream grow, and they grow as long as the event with the greatest one is stored
whenever the next is appended.
-/

namespace CapabilityHub.Tenancy

variable {ν : Type}

/-- One that reads a stream from where it has got to. -/
structure Reader where
  name : Nat
  scope : TenantScope
  stream : String
  deriving DecidableEq

/-- An event as the caller of `append_event` got it. -/
structure Issue (ν : Type) where
  scope : TenantScope
  stream : String
  event : ScopedEvent ν
  deriving DecidableEq

inductive Action (ν : Type) where
  | setEntry (scope : TenantScope) (key : String) (value : ν) (namespaceName : String)
      (ttlSeconds : Option ℚ) (now : ℚ)
  | appendEvent (scope : TenantScope) (value : ν) (stream : String) (ttlSeconds : Option ℚ)
      (now : ℚ) (eventId : String)
  | listEvents (reader : Reader) (limit : Nat) (now : ℚ)
  | cleanupExpired (scope : TenantScope) (now : ℚ) (limit : Nat)
      (entryOrder : VisitOrder (String × String × String))
      (eventOrder : VisitOrder (String × String × Nat))

structure System (ν : Type) where
  state : ScopedState ν := {}
  issued : List (Issue ν) := []
  /-- The latest moment of a call. What has expired by then stays expired. -/
  clock : ℚ := 0
  seen : Reader → List (ScopedEvent ν) := fun _ => []

/-- The greatest number that a reader has seen. -/
def System.cursor (system : System ν) (reader : Reader) : Nat :=
  ((system.seen reader).map (·.sequence)).foldr max 0

/-- One call; one that raises leaves everything as it is. -/
def step (keying : Keying) (system : System ν) : Action ν → System ν
  | .setEntry scope key value namespaceName ttlSeconds now =>
      match system.state.setEntry keying scope key value namespaceName ttlSeconds now with
      | .error _ => system
      | .ok next => { system with state := next, clock := max system.clock now }
  | .appendEvent scope value stream ttlSeconds now eventId =>
      match system.state.appendEvent keying scope value stream ttlSeconds now eventId with
      | .error _ => system
      | .ok (event, next) =>
          { system with
            state := next
            issued := system.issued ++ [⟨scope, stream, event⟩]
            clock := max system.clock now }
  | .listEvents reader limit now =>
      match system.state.listEvents keying reader.scope reader.stream (system.cursor reader) limit
          now with
      | .error _ => system
      | .ok page =>
          { system with
            clock := max system.clock now
            seen := Function.update system.seen reader (system.seen reader ++ page) }
  | .cleanupExpired scope now limit entryOrder eventOrder =>
      match system.state.cleanupExpired keying scope now limit entryOrder eventOrder with
      | .error _ => system
      | .ok (_, next) => { system with state := next, clock := max system.clock now }

variable (keying : Keying) (system : System ν) (action : Action ν)

/-- The event is in the stream that is named. -/
def Issue.Of (issue : Issue ν) (scope : TenantScope) (stream : String) : Prop :=
  keying.scope issue.scope = keying.scope scope ∧ issue.stream = stream

/-- What a call keeps to. -/
structure Follows : Prop where
  /-- The number of a new event is greater than every number issued before in its stream. -/
  fresh : ∀ scope value stream ttlSeconds now eventId event next,
    action = .appendEvent scope value stream ttlSeconds now eventId →
    system.state.appendEvent keying scope value stream ttlSeconds now eventId = .ok (event, next) →
    ∀ issue ∈ system.issued, issue.Of keying scope stream → issue.event.sequence < event.sequence
  /-- A reader gets every event of its stream that has not expired, unless the page is full and
  the event is after it. -/
  delivers : ∀ reader limit now page, action = .listEvents reader limit now →
    system.state.listEvents keying reader.scope reader.stream (system.cursor reader) limit now =
      .ok page →
    ∀ issue ∈ system.issued, issue.Of keying reader.scope reader.stream →
      ¬Expired issue.event.expiresAt (max system.clock now) →
      issue.event ∈ (step keying system action).seen reader ∨
        page.length = limit ∧ (step keying system action).cursor reader < issue.event.sequence

/-- An event is appended only while the one with the greatest number that was issued in its stream
is stored. -/
def Lawful : Action ν → Prop
  | .appendEvent scope _ stream _ _ _ =>
      ∀ issue ∈ system.issued, issue.Of keying scope stream →
        ∃ row ∈ system.state.stream (keying.scope scope) stream,
          issue.event.sequence ≤ row.event.sequence
  | _ => True

instance decidableOf {issue : Issue ν} {scope : TenantScope} {stream : String} :
    Decidable (issue.Of keying scope stream) :=
  inferInstanceAs (Decidable (_ ∧ _))

instance decidableLawful : DecidablePred (Lawful keying system)
  | .appendEvent _ _ _ _ _ _ => by unfold Lawful; infer_instance
  | .setEntry _ _ _ _ _ _ => .isTrue trivial
  | .listEvents _ _ _ => .isTrue trivial
  | .cleanupExpired _ _ _ _ _ => .isTrue trivial

/-! ## The calls -/

variable {keying} {system} {action} {state next : ScopedState ν} {scope : TenantScope}
  {stream : String} {now later : ℚ}

theorem Expired.mono {expiresAt : Option ℚ} (expired : Expired expiresAt now) (le : now ≤ later) :
    Expired expiresAt later := by
  obtain ⟨moment, member, past⟩ := expired
  exact ⟨moment, member, past.trans le⟩

theorem ScopedState.mem_stream {row : EventRow ν} {digest : String} :
    row ∈ state.stream digest stream ↔
      row ∈ state.events ∧ row.scopeDigest = digest ∧ row.stream = stream := by
  rw [ScopedState.stream, List.mem_filter, decide_eq_true_eq]

/-- What `append_event` does. -/
theorem ScopedState.appendEvent_eq_ok {value : ν} {ttlSeconds : Option ℚ} {eventId : String}
    {event : ScopedEvent ν}
    (done : state.appendEvent keying scope value stream ttlSeconds now eventId = .ok (event, next)) :
    event.sequence = state.lastSequence (keying.scope scope) stream + 1 ∧
      (∀ row ∈ state.events, row.place ≠ (keying.scope scope, stream, event.sequence)) ∧
      next = { state with events := state.events ++ [⟨keying.scope scope, stream, event⟩] } := by
  obtain ⟨_, _, done⟩ := bind_eq_ok.mp done
  obtain ⟨_, _, done⟩ := bind_eq_ok.mp done
  obtain ⟨expiresAt, _, done⟩ := bind_eq_ok.mp done
  obtain ⟨_, free, done⟩ := bind_eq_ok.mp done
  cases done
  refine ⟨rfl, fun row member taken => raiseIf_eq_ok.mp free ⟨row, member, .inl taken⟩, rfl⟩

theorem ScopedState.listEvents_eq_ok {afterSequence limit : Nat} {page : List (ScopedEvent ν)}
    (done : state.listEvents keying scope stream afterSequence limit now = .ok page) :
    page = ((state.selected (keying.scope scope) stream afterSequence now).take limit).map
      (·.event) := by
  obtain ⟨_, _, done⟩ := bind_eq_ok.mp done
  obtain ⟨_, _, done⟩ := bind_eq_ok.mp done
  obtain ⟨_, _, done⟩ := bind_eq_ok.mp done
  cases done
  rfl

/-- A row that `cleanup_expired` deletes is of an event that has expired, or stands where one
stands that has. -/
theorem ScopedState.cleanupExpired_eq_ok {limit : Nat}
    {entryOrder : VisitOrder (String × String × String)}
    {eventOrder : VisitOrder (String × String × Nat)} {result : CleanupResult}
    (done : state.cleanupExpired keying scope now limit entryOrder eventOrder = .ok (result, next)) :
    (∀ row ∈ next.events, row ∈ state.events) ∧
      ∀ row ∈ state.events, row ∈ next.events ∨
        ∃ gone ∈ state.events, gone.place = row.place ∧ Expired gone.event.expiresAt now := by
  obtain ⟨_, _, done⟩ := bind_eq_ok.mp done
  obtain ⟨_, _, done⟩ := bind_eq_ok.mp done
  cases done
  refine ⟨fun row member => (List.mem_filter.mp member).1, fun row member => ?_⟩
  by_cases picked : row.place ∈ state.pickedEvents eventOrder (keying.scope scope) now limit
  · have visited := (eventOrder.perm _).mem_iff.mp (List.mem_of_mem_take picked)
    obtain ⟨gone, among, same⟩ := List.mem_map.mp visited
    obtain ⟨inside, expired⟩ := List.mem_filter.mp among
    exact .inr ⟨gone, inside, same, (of_decide_eq_true expired).2⟩
  · exact .inl (List.mem_filter.mpr ⟨member, decide_eq_true picked⟩)

/-! ## The invariant -/

structure Sound (keying : Keying) (system : System ν) : Prop where
  placed : ∀ row ∈ system.state.events, ∀ row' ∈ system.state.events,
    row.place = row'.place → row = row'
  /-- An event that has not expired is stored. -/
  kept : ∀ issue ∈ system.issued, ¬Expired issue.event.expiresAt system.clock →
    ⟨keying.scope issue.scope, issue.stream, issue.event⟩ ∈ system.state.events
  stored : ∀ row ∈ system.state.events, ∃ issue ∈ system.issued,
    row = ⟨keying.scope issue.scope, issue.stream, issue.event⟩
  seen : ∀ reader, ∀ event ∈ system.seen reader, ∃ issue ∈ system.issued,
    issue.Of keying reader.scope reader.stream ∧ issue.event = event
  /-- A reader has got every event that has not expired, up to its cursor. -/
  received : ∀ reader, ∀ issue ∈ system.issued, issue.Of keying reader.scope reader.stream →
    ¬Expired issue.event.expiresAt system.clock → issue.event.sequence ≤ system.cursor reader →
    issue.event ∈ system.seen reader

theorem sound_initial : Sound keying ({} : System ν) where
  placed := fun _ member => absurd member List.not_mem_nil
  kept := fun _ member => absurd member List.not_mem_nil
  stored := fun _ member => absurd member List.not_mem_nil
  seen := fun _ _ member => absurd member List.not_mem_nil
  received := fun _ _ member => absurd member List.not_mem_nil

/-- A new number is greater than those issued before. -/
theorem fresh_of_lawful {value : ν} {ttlSeconds : Option ℚ} {eventId : String}
    {event : ScopedEvent ν}
    (lawful : Lawful keying system (.appendEvent scope value stream ttlSeconds now eventId))
    (done : system.state.appendEvent keying scope value stream ttlSeconds now eventId =
      .ok (event, next)) :
    ∀ issue ∈ system.issued, issue.Of keying scope stream →
      issue.event.sequence < event.sequence := by
  intro issue member of
  obtain ⟨row, among, le⟩ := lawful issue member of
  rw [(ScopedState.appendEvent_eq_ok done).1]
  exact Nat.lt_succ_of_le
    (List.le_max_of_le' 0 (List.mem_map_of_mem (f := (·.event.sequence)) among) le)

theorem Sound.append {value : ν} {ttlSeconds : Option ℚ} {eventId : String} {event : ScopedEvent ν}
    (sound : Sound keying system)
    (fresh : ∀ issue ∈ system.issued, issue.Of keying scope stream →
      issue.event.sequence < event.sequence)
    (done : system.state.appendEvent keying scope value stream ttlSeconds now eventId =
      .ok (event, next)) :
    Sound keying { system with
      state := next
      issued := system.issued ++ [⟨scope, stream, event⟩]
      clock := max system.clock now } := by
  obtain ⟨numbered, free, rfl⟩ := ScopedState.appendEvent_eq_ok done
  have alive {issue : Issue ν} (alive : ¬Expired issue.event.expiresAt (max system.clock now)) :
      ¬Expired issue.event.expiresAt system.clock :=
    fun expired => alive (expired.mono (le_max_left _ _))
  refine ⟨fun row member row' member' same => ?_, fun issue member unexpired => ?_,
    fun row member => ?_, fun reader event' member => ?_, fun reader issue member of unexpired le => ?_⟩
  · rcases List.mem_append.mp member with old | new
    · rcases List.mem_append.mp member' with old' | new'
      · exact sound.placed row old row' old' same
      · obtain rfl := List.mem_singleton.mp new'
        exact absurd same (free row old)
    · obtain rfl := List.mem_singleton.mp new
      rcases List.mem_append.mp member' with old' | new'
      · exact absurd same.symm (free row' old')
      · exact (List.mem_singleton.mp new').symm
  · rcases List.mem_append.mp member with old | new
    · exact List.mem_append_left _ (sound.kept issue old (alive unexpired))
    · obtain rfl := List.mem_singleton.mp new
      exact List.mem_append_right _ List.mem_cons_self
  · rcases List.mem_append.mp member with old | new
    · obtain ⟨issue, among, same⟩ := sound.stored row old
      exact ⟨issue, List.mem_append_left _ among, same⟩
    · exact ⟨⟨scope, stream, event⟩, List.mem_append_right _ List.mem_cons_self,
        List.mem_singleton.mp new⟩
  · obtain ⟨issue, among, of, same⟩ := sound.seen reader event' member
    exact ⟨issue, List.mem_append_left _ among, of, same⟩
  · rcases List.mem_append.mp member with old | new
    · exact sound.received reader issue old of (alive unexpired) le
    · obtain rfl := List.mem_singleton.mp new
      -- The cursor is below the new number, since all that was seen was issued before.
      have below : system.cursor reader < event.sequence := by
        refine (foldr_max_lt (numbered ▸ Nat.succ_pos _)).mpr fun number among => ?_
        obtain ⟨seen, member, rfl⟩ := List.mem_map.mp among
        obtain ⟨issue, issued, of', rfl⟩ := sound.seen reader seen member
        exact fresh issue issued ⟨of'.1.trans of.1.symm, of'.2.trans of.2.symm⟩
      exact absurd le (Nat.not_le_of_lt below)

/-- A page holds what the reader has yet to get, or is full before it. -/
theorem Sound.delivers {reader : Reader} {limit : Nat} {page : List (ScopedEvent ν)}
    {issue : Issue ν} (sound : Sound keying system)
    (done : system.state.listEvents keying reader.scope reader.stream (system.cursor reader) limit
      now = .ok page) (member : issue ∈ system.issued)
    (of : issue.Of keying reader.scope reader.stream)
    (alive : ¬Expired issue.event.expiresAt (max system.clock now)) :
    issue.event ∈ system.seen reader ++ page ∨ page.length = limit ∧
      ((system.seen reader ++ page).map (·.sequence)).foldr max 0 < issue.event.sequence := by
  obtain rfl := ScopedState.listEvents_eq_ok done
  have alive' : ¬Expired issue.event.expiresAt system.clock :=
    fun expired => alive (expired.mono (le_max_left _ _))
  by_cases old : issue.event.sequence ≤ system.cursor reader
  · exact .inl (List.mem_append_left _ (sound.received reader issue member of alive' old))
  have new : system.cursor reader < issue.event.sequence := Nat.lt_of_not_le old
  have row := sound.kept issue member alive'
  rw [of.1, of.2] at row
  have among : (⟨keying.scope reader.scope, reader.stream, issue.event⟩ : EventRow ν) ∈
      (system.state.stream (keying.scope reader.scope) reader.stream).filter fun row =>
        system.cursor reader < row.event.sequence ∧ ¬Expired row.event.expiresAt now :=
    List.mem_filter.mpr ⟨ScopedState.mem_stream.mpr ⟨row, rfl, rfl⟩,
      decide_eq_true ⟨new, fun expired => alive (expired.mono (le_max_right _ _))⟩⟩
  rcases mem_take_sortedBy (fun row : EventRow ν => row.event.sequence) among with inside | left
  · exact .inl (List.mem_append_right _ (List.mem_map_of_mem (f := (·.event)) inside))
  obtain ⟨full, before⟩ := left
  by_cases inside : issue.event ∈ ((system.state.selected (keying.scope reader.scope) reader.stream
      (system.cursor reader) now).take limit).map (·.event)
  · exact .inl (List.mem_append_right _ inside)
  refine .inr ⟨(List.length_map _).trans full, ?_⟩
  have positive := Nat.lt_of_le_of_lt (Nat.zero_le _) new
  refine (foldr_max_lt positive).mpr fun number numbered => ?_
  rw [List.map_append] at numbered
  rcases List.mem_append.mp numbered with seen | listed
  · exact Nat.lt_of_le_of_lt (List.le_max_of_le' 0 seen (le_refl number)) new
  · obtain ⟨event, among', rfl⟩ := List.mem_map.mp listed
    obtain ⟨other, onPage, rfl⟩ := List.mem_map.mp among'
    refine Nat.lt_of_le_of_ne (before other onPage) fun same => inside ?_
    -- Two rows of one number are one row.
    obtain ⟨stored, here, named⟩ := ScopedState.mem_stream.mp
      (List.mem_filter.mp ((mem_sortedBy _).mp (List.mem_of_mem_take onPage))).1
    have equal := sound.placed other stored _ row (by
      rw [EventRow.place, EventRow.place, here, named, same])
    exact List.mem_map.mpr ⟨other, onPage, congrArg EventRow.event equal⟩

theorem Sound.list {reader : Reader} {limit : Nat} {page : List (ScopedEvent ν)}
    (sound : Sound keying system)
    (done : system.state.listEvents keying reader.scope reader.stream (system.cursor reader) limit
      now = .ok page) :
    Sound keying { system with
      clock := max system.clock now
      seen := Function.update system.seen reader (system.seen reader ++ page) } := by
  refine ⟨sound.placed, fun issue member alive => sound.kept issue member fun expired =>
    alive (expired.mono (le_max_left _ _)), sound.stored, fun other event member => ?_,
    fun other issue member of alive le => ?_⟩
  · by_cases same : other = reader
    · subst same
      dsimp only at member
      rw [Function.update_self] at member
      rcases List.mem_append.mp member with old | listed
      · exact sound.seen other event old
      · rw [ScopedState.listEvents_eq_ok done] at listed
        obtain ⟨row, onPage, rfl⟩ := List.mem_map.mp listed
        obtain ⟨inside, here, named⟩ := ScopedState.mem_stream.mp
          (List.mem_filter.mp ((mem_sortedBy _).mp (List.mem_of_mem_take onPage))).1
        obtain ⟨issue, issued, rfl⟩ := sound.stored row inside
        exact ⟨issue, issued, ⟨here, named⟩, rfl⟩
    · dsimp only at member
      rw [Function.update_of_ne same] at member
      exact sound.seen other event member
  · unfold System.cursor at le
    by_cases same : other = reader
    · subst same
      dsimp only at le ⊢
      rw [Function.update_self] at le ⊢
      rcases sound.delivers done member of alive with got | ahead
      · exact got
      · exact absurd le (Nat.not_le_of_lt ahead.2)
    · dsimp only at le ⊢
      rw [Function.update_of_ne same] at le ⊢
      exact sound.received other issue member of
        (fun expired => alive (expired.mono (le_max_left _ _))) le

theorem Sound.cleanup {limit : Nat} {entryOrder : VisitOrder (String × String × String)}
    {eventOrder : VisitOrder (String × String × Nat)} {result : CleanupResult}
    (sound : Sound keying system)
    (done : system.state.cleanupExpired keying scope now limit entryOrder eventOrder =
      .ok (result, next)) :
    Sound keying { system with state := next, clock := max system.clock now } := by
  obtain ⟨fewer, gone⟩ := ScopedState.cleanupExpired_eq_ok done
  refine ⟨fun row member row' member' => sound.placed row (fewer row member) row'
    (fewer row' member'), fun issue member alive => ?_,
    fun row member => sound.stored row (fewer row member), sound.seen,
    fun reader issue member of alive => sound.received reader issue member of fun expired =>
      alive (expired.mono (le_max_left _ _))⟩
  have row := sound.kept issue member fun expired => alive (expired.mono (le_max_left _ _))
  rcases gone _ row with stays | ⟨other, among, same, expired⟩
  · exact stays
  · have equal := sound.placed other among _ row same
    rw [equal] at expired
    exact absurd (expired.mono (le_max_right _ _)) alive

theorem Sound.setEntry {key namespaceName : String} {value : ν} {ttlSeconds : Option ℚ}
    (sound : Sound keying system)
    (done : system.state.setEntry keying scope key value namespaceName ttlSeconds now = .ok next) :
    Sound keying { system with state := next, clock := max system.clock now } := by
  obtain ⟨_, _, done⟩ := bind_eq_ok.mp done
  obtain ⟨_, _, done⟩ := bind_eq_ok.mp done
  obtain ⟨_, _, done⟩ := bind_eq_ok.mp done
  obtain ⟨_, _, done⟩ := bind_eq_ok.mp done
  cases done
  exact ⟨sound.placed, fun issue member alive => sound.kept issue member fun expired =>
    alive (expired.mono (le_max_left _ _)), sound.stored, sound.seen,
    fun reader issue member of alive => sound.received reader issue member of fun expired =>
      alive (expired.mono (le_max_left _ _))⟩

theorem Sound.step (sound : Sound keying system) (lawful : Lawful keying system action) :
    Sound keying (step keying system action) := by
  cases action with
  | setEntry scope key value namespaceName ttlSeconds now =>
      unfold Tenancy.step
      dsimp only
      split
      · exact sound
      next done => exact sound.setEntry done
  | appendEvent scope value stream ttlSeconds now eventId =>
      unfold Tenancy.step
      dsimp only
      split
      · exact sound
      next done => exact sound.append (fresh_of_lawful lawful done) done
  | listEvents reader limit now =>
      unfold Tenancy.step
      dsimp only
      split
      · exact sound
      next done => exact sound.list done
  | cleanupExpired scope now limit entryOrder eventOrder =>
      unfold Tenancy.step
      dsimp only
      split
      · exact sound
      next done => exact sound.cleanup done

theorem Sound.follows (sound : Sound keying system) (lawful : Lawful keying system action) :
    Follows keying system action where
  fresh := fun scope value stream ttlSeconds now eventId event next is done =>
    fresh_of_lawful (is ▸ lawful) done
  delivers := fun reader limit now page is done issue member of alive => by
    subst is
    have got := sound.delivers done member of alive
    unfold System.cursor Tenancy.step
    dsimp only
    rw [done]
    dsimp only
    rw [Function.update_self]
    exact got

/-- No reader misses an event that has not expired, as long as the numbers of the streams are
taken while their greatest event is stored. -/
theorem follows_along {actions : List (Action ν)}
    (lawful : Along (step keying) (Lawful keying) {} actions) :
    Along (step keying) (Follows keying) {} actions :=
  lawful.imp sound_initial (fun _ _ lawful sound => sound.step lawful)
    fun _ _ sound lawful => sound.follows lawful

/-- A keying for texts of ASCII characters, with digests that say what they are of. -/
def plainKeying : Keying where
  scope := fun scope => scope.tenant
  key := fun _ _ key => key
  alnum := Char.isAlphanum
  control := fun character => character.toNat < 32

def oldestFirst (α : Type) : VisitOrder α := ⟨id, fun _ => .refl _⟩

def one : TenantScope := ⟨"t", "p", "s", "k"⟩

/-- An event is read, expires and is deleted while a later one is stored. -/
def deletedRun : List (Action Nat) :=
  [.appendEvent one 10 "audit" (some 2) 0 "a", .listEvents ⟨0, one, "audit"⟩ 100 1,
    .appendEvent one 11 "audit" none 1 "b",
    .cleanupExpired one 3 1000 (oldestFirst _) (oldestFirst _),
    .appendEvent one 12 "audit" none 3 "c", .listEvents ⟨0, one, "audit"⟩ 100 4]

theorem follows_along_deletedRun :
    Along (step plainKeying) (Follows plainKeying) {} deletedRun :=
  follows_along (by decide +kernel)

/-- The last event expires and is deleted, and its number is given again: the reader has seen it
and never gets the new event. -/
theorem number_given_again : ¬∀ actions : List (Action Nat),
    Along (step plainKeying) (Follows plainKeying) {} actions := by
  intro always
  have last := (always ([.appendEvent one 10 "audit" (some 2) 0 "a",
    .listEvents ⟨0, one, "audit"⟩ 100 1,
    .cleanupExpired one 3 1000 (oldestFirst _) (oldestFirst _),
    .appendEvent one 11 "audit" none 3 "b"] ++ [.listEvents ⟨0, one, "audit"⟩ 100 4])).last
  have got := last.delivers ⟨0, one, "audit"⟩ 100 4 [] rfl (by decide +kernel)
    ⟨one, "audit", ⟨"b", 1, 11, 3, none⟩⟩ (by decide +kernel) ⟨rfl, rfl⟩ (by decide +kernel)
  exact absurd got (by decide +kernel)

end CapabilityHub.Tenancy
