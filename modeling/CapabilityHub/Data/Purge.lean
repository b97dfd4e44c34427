import CapabilityHub.Data.Runs

/-! # Runs without hidden actions

An observer sees the answers to some of the actions of a run. Where the part of the state that these
depend on follows the other actions or ignores them, the observer sees the same in the run from which the
ignored actions are removed (`CapabilityHub.answers_purge`).
-/

namespace CapabilityHub

variable {σ α β : Type} {step : σ → α → σ × β} {view : σ → σ} {kept seen : α → Prop}
  [DecidablePred kept] [DecidablePred seen] {state : σ} {actions : List α}

/-- The actions of a run with the answers to them. -/
def answers (step : σ → α → σ × β) : σ → List α → List (α × β)
  | _, [] => []
  | state, action :: rest => (action, (step state action).2) :: answers step (step state action).1 rest

/-- What an action does to the part of a state that is in view. -/
structure Unwinds (step : σ → α → σ × β) (view : σ → σ) (kept seen : α → Prop) (state : σ) (action : α) :
    Prop where
  hidden : ¬kept action → view (step state action).1 = view state
  follows : kept action → (step (view state) action).1 = view (step state action).1
  agrees : kept action → seen action → (step (view state) action).2 = (step state action).2

/-- **Purging.** The answers in view are those of the run of the kept actions alone. -/
theorem answers_purge
    (along : Along (fun state action => (step state action).1) (Unwinds step view kept seen) state actions) :
    (answers step (view state) (actions.filter kept)).filter (fun answer => seen answer.1) =
      (answers step state actions).filter fun answer => kept answer.1 ∧ seen answer.1 := by
  induction actions generalizing state with
  | nil => rfl
  | cons action rest ih =>
      obtain ⟨unwinds, along⟩ := along
      have below := ih along
      rw [answers]
      by_cases keeps : kept action
      · rw [List.filter_cons_of_pos (p := fun action => kept action) (decide_eq_true keeps), answers,
          unwinds.follows keeps]
        by_cases sees : seen action
        · rw [List.filter_cons_of_pos (p := fun answer : α × β => seen answer.1) (decide_eq_true sees),
            List.filter_cons_of_pos (p := fun answer : α × β => kept answer.1 ∧ seen answer.1)
              (decide_eq_true ⟨keeps, sees⟩), below, unwinds.agrees keeps sees]
        · rw [List.filter_cons_of_neg (p := fun answer : α × β => seen answer.1) (by simpa using sees),
            List.filter_cons_of_neg (p := fun answer : α × β => kept answer.1 ∧ seen answer.1)
              (by simp [sees]), below]
      · rw [List.filter_cons_of_neg (p := fun action => kept action) (by simpa using keeps),
          List.filter_cons_of_neg (p := fun answer : α × β => kept answer.1 ∧ seen answer.1)
            (by simp [keeps]), ← below, unwinds.hidden keeps]

end CapabilityHub
