import CapabilityHub.Database.Transaction

/-! # What work ensures

A postcondition speaks of what the caller sees and of the state that is left, whether the work returns
or raises.
-/

namespace CapabilityHub.Transaction

variable {σ τ ε ε' α β : Type} {state : σ} {post post' : Except ε α → σ → Prop}

/-- `try: body` with a handler of everything it raises. -/
def recover (body : Transaction σ ε α) (handler : ε → Transaction σ ε α) : Transaction σ ε α :=
  fun state =>
    match body state with
    | .ok value final => .ok value final
    | .error error final => handler error final

/-- From the state, the work ends as the postcondition says. -/
def Ensures (work : Transaction σ ε α) (state : σ) (post : Except ε α → σ → Prop) : Prop :=
  post (outcome work state) (stateAfter work state)

theorem ensures_iff {work : Transaction σ ε α} : Ensures work state post ↔
    (∀ value final, work state = .ok value final → post (.ok value) final) ∧
      ∀ error final, work state = .error error final → post (.error error) final := by
  rw [Ensures, outcome, stateAfter]
  cases work state with
  | ok value final => simp
  | error error final => simp

theorem ensures_of_ok {work : Transaction σ ε α} {value : α} {final : σ}
    (done : work state = .ok value final) (holds : post (.ok value) final) :
    Ensures work state post := by
  rw [Ensures, outcome, stateAfter, done]
  exact holds

theorem ensures_pure {value : α} (holds : post (.ok value) state) :
    Ensures (pure value) state post := holds

theorem ensures_query {read : σ → Except ε α} (holds : post (read state) state) :
    Ensures (query read) state post := by
  rw [Ensures, outcome, stateAfter, query]
  cases done : read state with
  | ok value =>
      rw [done] at holds
      exact holds
  | error error =>
      rw [done] at holds
      exact holds

theorem ensures_write {update : σ → σ} {post : Except ε Unit → σ → Prop}
    (holds : post (.ok ()) (update state)) : Ensures (write update) state post := holds

theorem Ensures.mono {work : Transaction σ ε α} (ensures : Ensures work state post)
    (weaker : ∀ result final, post result final → post' result final) :
    Ensures work state post' := weaker _ _ ensures

theorem Ensures.bind {first : Transaction σ ε α} {next : α → Transaction σ ε β}
    {post : Except ε β → σ → Prop}
    (ensures : Ensures first state fun result middle =>
      match result with
      | .ok value => Ensures (next value) middle post
      | .error error => post (.error error) middle) :
    Ensures (first >>= next) state post := by
  rw [ensures_iff] at ensures
  cases done : first state with
  | ok value middle =>
      rw [Ensures, outcome, stateAfter, bind_of_ok done]
      exact ensures.1 value middle done
  | error error middle =>
      rw [Ensures, outcome, stateAfter, bind_of_error done]
      exact ensures.2 error middle done

theorem Ensures.recover {body : Transaction σ ε α} {handler : ε → Transaction σ ε α}
    (ensures : Ensures body state fun result middle =>
      match result with
      | .ok value => post (.ok value) middle
      | .error error => Ensures (handler error) middle post) :
    Ensures (Transaction.recover body handler) state post := by
  rw [ensures_iff] at ensures
  rw [Ensures, outcome, stateAfter, Transaction.recover]
  cases done : body state with
  | ok value middle => exact ensures.1 value middle done
  | error error middle => exact ensures.2 error middle done

end CapabilityHub.Transaction
