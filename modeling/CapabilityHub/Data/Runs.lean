import Mathlib.Data.List.Basic

/-! # Runs of a step function

What a step preserves, a run preserves, as long as each of its steps is an allowed one in the
state that it meets.
-/

namespace CapabilityHub

variable {σ α : Type} {step : σ → α → σ} {allowed allowed' : σ → α → Prop} {state : σ}
  {actions : List α}

/-- The state after the actions. -/
def run (step : σ → α → σ) (state : σ) (actions : List α) : σ := actions.foldl step state

theorem run_append {more : List α} :
    run step state (actions ++ more) = run step (run step state actions) more :=
  List.foldl_append

/-- Each action of the run is allowed in the state that it meets. -/
def Along (step : σ → α → σ) (allowed : σ → α → Prop) : σ → List α → Prop
  | _, [] => True
  | state, action :: rest => allowed state action ∧ Along step allowed (step state action) rest

variable (step allowed) in
instance decidableAlong [∀ state action, Decidable (allowed state action)] :
    ∀ state actions, Decidable (Along step allowed state actions)
  | _, [] => .isTrue trivial
  | state, action :: rest =>
      have := decidableAlong (step state action) rest
      inferInstanceAs (Decidable (allowed state action ∧ Along step allowed (step state action) rest))

theorem Along.invariant {holds : σ → Prop} (along : Along step allowed state actions)
    (start : holds state)
    (preserved : ∀ state action, allowed state action → holds state → holds (step state action)) :
    holds (run step state actions) := by
  induction actions generalizing state with
  | nil => exact start
  | cons action rest ih => exact ih along.2 (preserved state action along.1 start)

theorem Along.mono (along : Along step allowed state actions)
    (weaker : ∀ state action, allowed state action → allowed' state action) :
    Along step allowed' state actions := by
  induction actions generalizing state with
  | nil => trivial
  | cons action rest ih => exact ⟨weaker state action along.1, ih along.2⟩

theorem Along.and (along : Along step allowed state actions)
    (along' : Along step allowed' state actions) :
    Along step (fun state action => allowed state action ∧ allowed' state action) state actions := by
  induction actions generalizing state with
  | nil => trivial
  | cons action rest ih => exact ⟨⟨along.1, along'.1⟩, ih along.2 along'.2⟩

/-- What an allowed step satisfies where the invariant holds, every step of the run satisfies. -/
theorem Along.imp {holds : σ → Prop} (along : Along step allowed state actions)
    (start : holds state)
    (preserved : ∀ state action, allowed state action → holds state → holds (step state action))
    (each : ∀ state action, holds state → allowed state action → allowed' state action) :
    Along step allowed' state actions := by
  induction actions generalizing state with
  | nil => trivial
  | cons action rest ih =>
      exact ⟨each state action start along.1, ih along.2 (preserved state action along.1 start)⟩

theorem along_append {more : List α} :
    Along step allowed state (actions ++ more) ↔
      Along step allowed state actions ∧ Along step allowed (run step state actions) more := by
  induction actions generalizing state with
  | nil => exact (and_iff_right trivial).symm
  | cons action rest ih => exact (and_congr_right fun _ => ih).trans and_assoc.symm

theorem Along.last {action : α} (along : Along step allowed state (actions ++ [action])) :
    allowed (run step state actions) action := by
  induction actions generalizing state with
  | nil => exact along.1
  | cons first rest ih => exact ih along.2

theorem along_of_forall {legal : α → Prop} (each : ∀ action ∈ actions, legal action) :
    Along step (fun _ => legal) state actions := by
  induction actions generalizing state with
  | nil => trivial
  | cons action rest ih =>
      exact ⟨each action List.mem_cons_self,
        ih fun other member => each other (List.mem_cons_of_mem _ member)⟩

theorem along_true : Along step (fun _ _ => True) state actions := by
  induction actions generalizing state with
  | nil => trivial
  | cons action rest ih => exact ⟨trivial, ih⟩

/-- What every step preserves, every run preserves. -/
theorem run_invariant {holds : σ → Prop} (start : holds state)
    (preserved : ∀ state action, holds state → holds (step state action)) :
    holds (run step state actions) :=
  along_true.invariant start fun state action _ => preserved state action

/-! ## A value and its changes -/

/-- The changes, each with the value before and after, lead to the value; the last one is
first. -/
def Leads (value : σ) : List (σ × σ) → Prop
  | [] => True
  | change :: earlier => change.2 = value ∧ Leads change.1 earlier

variable {value : σ} {change : σ × σ} {later middle earlier : List (σ × σ)}

theorem Leads.before (leads : Leads value (later ++ change :: earlier)) : Leads change.1 earlier := by
  induction later generalizing value with
  | nil => exact leads.2
  | cons last later ih => exact ih leads.2

/-- A value that was left is there again only after a change back to it. -/
theorem Leads.returns (leads : Leads value (middle ++ change :: earlier)) (left : change.2 ≠ value) :
    ∃ back ∈ middle, back.1 ≠ back.2 ∧ back.2 = value := by
  induction middle with
  | nil => exact absurd leads.1 left
  | cons last middle ih =>
      obtain ⟨rfl, leads⟩ := leads
      by_cases kept : last.1 = last.2
      · rw [kept] at leads
        obtain ⟨back, member, changed, same⟩ := ih leads
        exact ⟨back, List.mem_cons_of_mem _ member, changed, same⟩
      · exact ⟨last, List.mem_cons_self, kept, rfl⟩

end CapabilityHub
