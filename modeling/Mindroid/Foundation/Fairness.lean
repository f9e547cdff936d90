import Mathlib.Order.WellFounded
import Mindroid.Foundation.Transition

/-!
# Fair executions

An execution goes on forever.  It is fair when no duty stays possible forever without being done.
A goal is reached in every fair execution if what is owed on the way to it stays the same until
something of a lower rank is owed.
-/

set_option autoImplicit false

namespace Foundation

variable {σ α δ ρ : Type} {step : σ → α → Option σ}

/-- What follows an action, or the absence of one. -/
def Follows (step : σ → α → Option σ) (st : σ) (action : Option α) (st' : σ) : Prop :=
  match action with
  | none => st' = st
  | some action => step st action = some st'

/-- An infinite run.  At every time an action is taken, or nothing happens. -/
structure Execution (step : σ → α → Option σ) where
  states : Nat → σ
  actions : Nat → Option α
  follows : ∀ time, Follows step (states time) (actions time) (states (time + 1))

namespace Execution

variable (execution : Execution step)

/-- Some action that does the duty is possible. -/
def Able (step : σ → α → Option σ) (duty : α → Option δ) (due : δ) (st : σ) : Prop :=
  ∃ action, duty action = some due ∧ (step st action).isSome

/-- A duty that is possible from some time on is done at some later time. -/
def Fair (duty : α → Option δ) : Prop :=
  ∀ due start, (∀ time, start ≤ time → Able step duty due (execution.states time)) →
    ∃ time, start ≤ time ∧
      ∃ action, execution.actions time = some action ∧ duty action = some due

variable {execution}

theorem idle {time : Nat} (nothing : execution.actions time = none) :
    execution.states time = execution.states (time + 1) := by
  have follows := execution.follows time
  rw [nothing] at follows
  exact Eq.symm follows

theorem acts {time : Nat} {action : α} (taken : execution.actions time = some action) :
    step (execution.states time) action = some (execution.states (time + 1)) := by
  have follows := execution.follows time
  rw [taken] at follows
  exact follows

/-- What every step keeps holds forever. -/
theorem stays (inv : σ → Prop)
    (keeps : ∀ st action next, inv st → step st action = some next → inv next) {start : Nat}
    (holds : inv (execution.states start)) {time : Nat} (later : start ≤ time) :
    inv (execution.states time) := by
  induction time, later using Nat.le_induction with
  | base => exact holds
  | succ time _ ih =>
      cases taken : execution.actions time with
      | none => exact execution.idle taken ▸ ih
      | some action => exact keeps _ action _ ih (execution.acts taken)

/-- What is owed is possible.  Every step reaches the goal, owes something of a lower rank, or is
not the duty and still owes it. -/
structure Progress (step : σ → α → Option σ) (duty : α → Option δ) (owes : δ → ρ → σ → Prop)
    (goal : σ → Prop) [LT ρ] : Prop where
  able : ∀ due rank st, owes due rank st → Able step duty due st
  proceeds : ∀ due rank st action next, owes due rank st → step st action = some next →
    goal next ∨ (∃ due' rank', rank' < rank ∧ owes due' rank' next) ∨
      owes due rank next ∧ duty action ≠ some due

/-- A fair execution reaches the goal. -/
theorem Progress.eventually [LT ρ] [WellFoundedLT ρ] {duty : α → Option δ}
    {owes : δ → ρ → σ → Prop} {goal : σ → Prop} (progress : Progress step duty owes goal)
    (fair : execution.Fair duty) {due : δ} {rank : ρ} {start : Nat}
    (owed : owes due rank (execution.states start)) :
    ∃ time, start ≤ time ∧ goal (execution.states time) := by
  induction rank using WellFoundedLT.induction generalizing due start with
  | ind rank ih =>
      by_contra never
      have missed : ∀ time, start ≤ time → ¬goal (execution.states time) :=
        fun time later reached => never ⟨time, later, reached⟩
      -- Nothing of a lower rank is ever owed, or the goal would be reached from there.
      have lowest : ∀ time due' rank', start ≤ time → rank' < rank →
          ¬owes due' rank' (execution.states time) := by
        intro time due' rank' later lower owedThen
        rcases ih rank' lower owedThen with ⟨last, after, reached⟩
        exact missed last (later.trans after) reached
      have next : ∀ time action, start ≤ time → owes due rank (execution.states time) →
          execution.actions time = some action →
          owes due rank (execution.states (time + 1)) ∧ duty action ≠ some due := by
        intro time action later owedThen taken
        rcases progress.proceeds _ _ _ _ _ owedThen (execution.acts taken) with
          reached | ⟨due', rank', lower, owedNext⟩ | same
        · exact absurd reached (missed (time + 1) (Nat.le_succ_of_le later))
        · exact absurd owedNext (lowest (time + 1) _ _ (Nat.le_succ_of_le later) lower)
        · exact same
      have always : ∀ time, start ≤ time → owes due rank (execution.states time) := by
        intro time later
        induction time, later using Nat.le_induction with
        | base => exact owed
        | succ time later still =>
            cases taken : execution.actions time with
            | none => exact execution.idle taken ▸ still
            | some action => exact (next time action later still taken).1
      rcases fair due start fun time later => progress.able _ _ _ (always time later) with
        ⟨time, later, action, taken, does⟩
      exact (next time action later (always time later) taken).2 does

/-! ## Executions that come to rest -/

section Script

/-- The state after some actions of a list, those that are not possible left out. -/
def reached (step : σ → α → Option σ) (start : σ) (actions : List α) : σ :=
  actions.foldl (fun st action => (step st action).getD st) start

theorem reached_append (step : σ → α → Option σ) (start : σ) (actions : List α) (action : α) :
    reached step start (actions ++ [action]) =
      (step (reached step start actions) action).getD (reached step start actions) := by
  rw [reached, List.foldl_append]
  rfl

/-- Take the actions of a list, and then rest. -/
def script (step : σ → α → Option σ) (start : σ) (actions : List α) : Execution step where
  states := fun time => reached step start (actions.take time)
  actions := fun time => actions[time]?.filter fun action =>
    (step (reached step start (actions.take time)) action).isSome
  follows := by
    intro time
    cases at_ : actions[time]? with
    | none =>
        have short := List.getElem?_eq_none_iff.mp at_
        rw [Option.filter_none, Follows, List.take_of_length_le (Nat.le_succ_of_le short),
          List.take_of_length_le short]
    | some action =>
        have next : reached step start (actions.take (time + 1)) =
            (step (reached step start (actions.take time)) action).getD
              (reached step start (actions.take time)) := by
          rw [List.take_add_one, at_]
          exact reached_append ..
        cases taken : step (reached step start (actions.take time)) action with
        | none =>
            rw [Option.filter_some_neg (by simp [taken]), Follows, next, taken]
            rfl
        | some st =>
            rw [Option.filter_some_pos (by simp [taken]), Follows, next, taken]
            rfl

/-- At rest no duty is possible. -/
theorem script_fair {duty : α → Option δ} {start : σ} {actions : List α}
    (rests : ∀ due, ¬Able step duty due (reached step start actions)) :
    (script step start actions).Fair duty := by
  intro due time able
  refine absurd (able (max time actions.length) (le_max_left ..)) ?_
  rw [show (script step start actions).states (max time actions.length) =
    reached step start actions by
      exact congrArg _ (List.take_of_length_le (le_max_right ..))]
  exact rests due

end Script

end Execution

end Foundation
