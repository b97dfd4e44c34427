import CapabilityHub.Data.Checks
import Mathlib.Data.List.Basic

/-! # Transactions

Statements of one transaction read and write a database one after the other. A statement
that raises ends the transaction, and what the earlier ones wrote is still there: it is
`CapabilityHub.Transaction.atomically` that takes it back.
-/

namespace CapabilityHub

/-- Statements over the database `σ` that may raise `ε`. -/
abbrev Transaction (σ ε α : Type) : Type := EStateM ε σ α

namespace Transaction

variable {σ ε α β κ : Type} {state final : σ} {value : α} {error : ε}

/-- What a caller sees of a transaction. -/
def outcome (work : Transaction σ ε α) (state : σ) : Except ε α :=
  match work state with
  | .ok value _ => .ok value
  | .error error _ => .error error

/-- The database after a transaction, successful or not. -/
def stateAfter (work : Transaction σ ε α) (state : σ) : σ :=
  match work state with
  | .ok _ final => final
  | .error _ final => final

/-- Look at the database without writing to it. -/
def query (read : σ → Except ε α) : Transaction σ ε α := fun state =>
  match read state with
  | .ok value => .ok value state
  | .error error => .error error state

/-- A statement that writes and does not raise. -/
def write (update : σ → σ) : Transaction σ ε Unit := fun state => .ok () (update state)

/-- `BEGIN IMMEDIATE`, then `commit` at the end of the body or `rollback` when it raises. -/
def atomically (body : Transaction σ ε α) : Transaction σ ε α := fun state =>
  match body state with
  | .ok value final => .ok value final
  | .error error _ => .error error state

theorem bind_eq_ok {first : Transaction σ ε α} {next : α → Transaction σ ε β} {result : β} :
    (first >>= next) state = .ok result final ↔
      ∃ value middle, first state = .ok value middle ∧ next value middle = .ok result final := by
  simp only [bind, EStateM.bind]
  cases first state with
  | ok value middle => simp
  | error error middle => simp

theorem pure_eq_ok {result : α} :
    (pure value : Transaction σ ε α) state = .ok result final ↔ value = result ∧ state = final := by
  simp [pure, EStateM.pure]

@[simp] theorem query_eq_ok {read : σ → Except ε α} :
    query read state = .ok value final ↔ read state = .ok value ∧ state = final := by
  rw [query]
  cases read state <;> simp

@[simp] theorem write_eq_ok {update : σ → σ} {result : Unit} :
    (write update : Transaction σ ε Unit) state = .ok result final ↔ update state = final := by
  simp [write]

@[simp] theorem atomically_eq_ok {body : Transaction σ ε α} :
    atomically body state = .ok value final ↔ body state = .ok value final := by
  rw [atomically]
  cases body state <;> simp

/-- A transaction that raises leaves the database as it was. -/
theorem state_of_atomically_error {body : Transaction σ ε α}
    (raised : atomically body state = .error error final) : final = state := by
  rw [atomically] at raised
  cases result : body state with
  | ok value middle => simp [result] at raised
  | error error middle =>
      rw [result] at raised
      exact (EStateM.Result.error.inj raised).2.symm

theorem bind_of_ok {first : Transaction σ ε α} {next : α → Transaction σ ε β} {middle : σ}
    (done : first state = .ok value middle) : (first >>= next) state = next value middle := by
  simp only [bind, EStateM.bind, done]

theorem bind_of_error {first : Transaction σ ε α} {next : α → Transaction σ ε β} {middle : σ}
    (raised : first state = .error error middle) :
    (first >>= next) state = .error error middle := by
  simp only [bind, EStateM.bind, raised]

theorem query_bind {read : σ → Except ε α} {next : α → Transaction σ ε β} :
    (query read >>= next) state =
      match read state with
      | .ok value => next value state
      | .error error => .error error state := by
  simp only [bind, EStateM.bind, query]
  cases read state <;> rfl

theorem write_bind {update : σ → σ} {next : Unit → Transaction σ ε β} :
    (write update >>= next) state = next () (update state) := rfl

/-- A loop of writes. -/
theorem forM_write (update : κ → σ → σ) (keys : List κ) :
    (forM keys fun key => (write (update key) : Transaction σ ε Unit)) state =
      .ok () (keys.foldl (fun state key => update key state) state) := by
  induction keys generalizing state with
  | nil => rfl
  | cons first keys ih => rw [List.forM_cons, write_bind, ih, List.foldl_cons]

/-- A loop of statements, each of which succeeds on a condition and then writes. Where no
statement decides for another key, the loop succeeds when all conditions hold at first. -/
theorem forM_eq_ok {admits : κ → σ → Prop} {update : κ → σ → σ}
    {statement : κ → Transaction σ ε Unit}
    (spec : ∀ key state final, statement key state = .ok () final ↔
      admits key state ∧ update key state = final)
    (stable : ∀ key other state, key ≠ other → (admits key (update other state) ↔ admits key state))
    {keys : List κ} (nodup : keys.Nodup) :
    forM keys statement state = .ok () final ↔
      (∀ key ∈ keys, admits key state) ∧
        keys.foldl (fun state key => update key state) state = final := by
  induction keys generalizing state with
  | nil => simp [pure_eq_ok]
  | cons first keys ih =>
      obtain ⟨fresh, nodup⟩ := List.nodup_cons.mp nodup
      have later : (∀ key ∈ keys, admits key (update first state)) ↔
          ∀ key ∈ keys, admits key state :=
        forall₂_congr fun key member =>
          stable key first state fun same => fresh (same ▸ member)
      rw [List.forM_cons, bind_eq_ok, List.foldl_cons, List.forall_mem_cons, and_assoc]
      constructor
      · rintro ⟨⟨⟩, middle, done, rest⟩
        obtain ⟨admitted, rfl⟩ := (spec first state middle).mp done
        obtain ⟨others, written⟩ := (ih nodup).mp rest
        exact ⟨admitted, later.mp others, written⟩
      · rintro ⟨admitted, others, written⟩
        exact ⟨(), update first state, (spec first state _).mpr ⟨admitted, rfl⟩,
          (ih nodup).mpr ⟨later.mpr others, written⟩⟩

/-- A loop in a loop is one loop over the pairs. -/
theorem forM_flatMap {μ : Type} (outer : List κ) (inner : κ → List μ)
    (statement : μ → Transaction σ ε Unit) :
    forM (outer.flatMap inner) statement = forM outer fun key => forM (inner key) statement := by
  induction outer with
  | nil => rfl
  | cons first outer ih => rw [List.flatMap_cons, List.forM_append, List.forM_cons, ih]

/-! ## Work that raises before it writes -/

/-- Work that raises leaves the state as it was. -/
def Atomic (work : Transaction σ ε α) : Prop :=
  ∀ state error final, work state = .error error final → final = state

/-- Work that never raises. -/
def Total (work : Transaction σ ε α) : Prop :=
  ∀ state, ∃ value final, work state = .ok value final

theorem Total.atomic {work : Transaction σ ε α} (total : Total work) : Atomic work := by
  intro state error final raised
  obtain ⟨value, final, done⟩ := total state
  rw [done] at raised
  cases raised

theorem total_pure : Total (pure value : Transaction σ ε α) := fun state => ⟨value, state, rfl⟩

theorem Total.write_bind {update : σ → σ} {next : Unit → Transaction σ ε β}
    (total : Total (next ())) : Total (write update >>= next) :=
  fun state => total (update state)

theorem Atomic.query_bind {read : σ → Except ε α} {next : α → Transaction σ ε β}
    (rest : ∀ value, Atomic (next value)) : Atomic (query read >>= next) := by
  intro state error final raised
  rw [Transaction.query_bind] at raised
  cases seen : read state with
  | ok value =>
      rw [seen] at raised
      exact rest value state error final raised
  | error error =>
      rw [seen] at raised
      cases raised
      rfl

theorem Atomic.bind_pure {work : Transaction σ ε α} {f : α → β} (atomic : Atomic work) :
    Atomic (work >>= fun value => pure (f value)) := by
  intro state error final raised
  cases done : work state with
  | ok value middle =>
      rw [bind_of_ok done] at raised
      cases raised
  | error error middle =>
      rw [bind_of_error done] at raised
      cases raised
      exact atomic state _ _ done

/-! ## What work may do to the database, returning or raising -/

/-- The database before the work and the one after it are related. -/
def Relates (related : σ → σ → Prop) (work : Transaction σ ε α) : Prop :=
  ∀ state, related state (stateAfter work state)

section Relates

variable {related related' : σ → σ → Prop}

theorem Relates.mono {work : Transaction σ ε α} (relates : Relates related work)
    (weaker : ∀ state final, related state final → related' state final) : Relates related' work :=
  fun state => weaker state _ (relates state)

theorem relates_query (refl : ∀ state, related state state) (read : σ → Except ε α) :
    Relates related (query read) := by
  intro state
  rw [stateAfter, query]
  cases read state <;> exact refl state

theorem relates_pure (refl : ∀ state, related state state) (value : α) :
    Relates related (pure value : Transaction σ ε α) := fun state => refl state

theorem relates_write {update : σ → σ} (each : ∀ state, related state (update state)) :
    Relates related (write update : Transaction σ ε Unit) := each

theorem Relates.bind (trans : ∀ first second third, related first second → related second third →
      related first third) {first : Transaction σ ε α} {next : α → Transaction σ ε β}
    (relates : Relates related first) (rest : ∀ value, Relates related (next value)) :
    Relates related (first >>= next) := by
  intro state
  have start := relates state
  rw [stateAfter] at start ⊢
  cases done : first state with
  | ok value middle =>
      rw [done] at start
      rw [bind_of_ok done]
      exact trans _ _ _ start (rest value middle)
  | error error middle =>
      rw [done] at start
      rw [bind_of_error done]
      exact start

/-- What comes after a read may rely on what it read. -/
theorem Relates.query_bind (refl : ∀ state, related state state) {read : σ → Except ε α}
    {next : α → Transaction σ ε β}
    (rest : ∀ value, (∃ state, read state = .ok value) → Relates related (next value)) :
    Relates related (query read >>= next) := by
  intro state
  rw [stateAfter, Transaction.query_bind]
  cases seen : read state with
  | ok value => exact rest value ⟨state, seen⟩ state
  | error error => exact refl state

theorem Relates.map {work : Transaction σ ε α} (relates : Relates related work) (f : α → β) :
    Relates related (f <$> work) := by
  intro state
  have start := relates state
  rw [stateAfter] at start ⊢
  simp only [Functor.map, EStateM.map]
  cases done : work state <;> rw [done] at start <;> exact start

theorem Relates.atomically (refl : ∀ state, related state state) {work : Transaction σ ε α}
    (relates : Relates related work) : Relates related (atomically work) := by
  intro state
  have start := relates state
  rw [stateAfter] at start ⊢
  rw [Transaction.atomically]
  cases done : work state with
  | ok value final =>
      rw [done] at start
      exact start
  | error error final => exact refl state

end Relates

end Transaction

end CapabilityHub
