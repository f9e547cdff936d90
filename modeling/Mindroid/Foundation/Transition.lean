import Mathlib.Init

/-!
# Reachable states

A transition system is given by its initial states and its step relation.
-/

set_option autoImplicit false

namespace Foundation

variable {σ : Type}

/-- States reached from an initial one by finitely many steps. -/
inductive Reachable (initial : σ → Prop) (step : σ → σ → Prop) : σ → Prop where
  | initial {st : σ} (starts : initial st) : Reachable initial step st
  | step {st st' : σ} (reachable : Reachable initial step st) (taken : step st st') :
      Reachable initial step st'

namespace Reachable

variable {initial : σ → Prop} {step : σ → σ → Prop} {inv : σ → Prop}

/-- What holds initially and is preserved by every step from a reachable state
holds in every reachable state. -/
theorem invariant (starts : ∀ st, initial st → inv st)
    (preserved : ∀ st st', Reachable initial step st → inv st → step st st' → inv st')
    {st : σ} (reachable : Reachable initial step st) : inv st := by
  induction reachable with
  | initial start => exact starts _ start
  | step before taken ih => exact preserved _ _ before ih taken

/-- A run all of whose possible steps meet a condition is one with the condition. -/
theorem restrict {condition : σ → σ → Prop}
    (meets : ∀ st st', Reachable initial step st → step st st' → condition st st') {st : σ}
    (reachable : Reachable initial step st) :
    Reachable initial (fun st st' => step st st' ∧ condition st st') st := by
  induction reachable with
  | initial start => exact .initial start
  | step before taken ih => exact .step ih ⟨taken, meets _ _ before taken⟩

end Reachable

variable {α : Type}

/-- The state after a list of actions, if all of them are possible. -/
def runAll (step : σ → α → Option σ) : σ → List α → Option σ
  | st, [] => some st
  | st, action :: actions =>
      match step st action with
      | none => none
      | some next => runAll step next actions

/-- A list of actions leads from a reachable state to a reachable one. -/
theorem Reachable.runAll {initial : σ → Prop} {step : σ → α → Option σ} {st st' : σ}
    {actions : List α}
    (reachable : Reachable initial (fun st st' => ∃ action, step st action = some st') st)
    (runs : runAll step st actions = some st') :
    Reachable initial (fun st st' => ∃ action, step st action = some st') st' := by
  induction actions generalizing st with
  | nil =>
      cases runs
      exact reachable
  | cons action actions ih =>
      rw [Foundation.runAll] at runs
      cases taken : step st action with
      | none =>
          rw [taken] at runs
          cases runs
      | some next =>
          rw [taken] at runs
          exact ih (reachable.step ⟨action, taken⟩) runs

/-- A property holds before, between and after the actions of a list, as far as they are
possible. -/
def Always (step : σ → α → Option σ) (prop : σ → Prop) : σ → List α → Prop
  | st, [] => prop st
  | st, action :: actions =>
      prop st ∧ ∀ next, step st action = some next → Always step prop next actions

/-- Every possible action of a list meets a condition in the state it is taken in. -/
def Meets (step : σ → α → Option σ) (condition : σ → α → Prop) : σ → List α → Prop
  | _, [] => True
  | st, action :: actions =>
      ∀ next, step st action = some next → condition st action ∧ Meets step condition next actions

/-- Every possible action of a list is related to the states before and after it. -/
def Relates (step : σ → α → Option σ) (relation : σ → α → σ → Prop) : σ → List α → Prop
  | _, [] => True
  | st, action :: actions =>
      ∀ next, step st action = some next →
        relation st action next ∧ Relates step relation next actions

section Exact

variable {step : σ → α → Option σ} {inv prop : σ → Prop} {condition : σ → α → Prop}

theorem Always.cons {st next : σ} {action : α} {actions : List α} (here : prop st)
    (taken : step st action = some next) (later : Always step prop next actions) :
    Always step prop st (action :: actions) := by
  refine ⟨here, fun other takenToo => ?_⟩
  cases taken.symm.trans takenToo
  exact later

theorem Meets.cons {st next : σ} {action : α} {actions : List α} (met : condition st action)
    (taken : step st action = some next) (later : Meets step condition next actions) :
    Meets step condition st (action :: actions) := by
  intro other takenToo
  cases taken.symm.trans takenToo
  exact ⟨met, later⟩

/-- A list of actions that meet a condition leads from a state of a run with the condition to
another one. -/
theorem Meets.reachable {initial : σ → Prop} {st st' : σ} {actions : List α}
    (meets : Meets step condition st actions)
    (reachable : Reachable initial
      (fun st st' => ∃ action, step st action = some st' ∧ condition st action) st)
    (runs : runAll step st actions = some st') :
    Reachable initial
      (fun st st' => ∃ action, step st action = some st' ∧ condition st action) st' := by
  induction actions generalizing st with
  | nil =>
      cases runs
      exact reachable
  | cons action actions ih =>
      rw [Foundation.runAll] at runs
      cases taken : step st action with
      | none =>
          rw [taken] at runs
          cases runs
      | some next =>
          rw [taken] at runs
          rcases meets next taken with ⟨met, later⟩
          exact ih later (reachable.step ⟨action, taken, met⟩) runs

theorem Always.start {st : σ} {actions : List α} (always : Always step prop st actions) :
    prop st := by
  cases actions with
  | nil => exact always
  | cons action actions => exact always.1

/-- An invariant that the condition of each action keeps, and that gives a property which is
lost where the condition fails, makes the condition exact for the property. -/
theorem always_iff_meets (holds : ∀ st, inv st → prop st)
    (keeps : ∀ st action next, inv st → condition st action → step st action = some next →
      inv next)
    (exact : ∀ st action next, inv st → step st action = some next → prop next →
      condition st action)
    {st : σ} (starts : inv st) (actions : List α) :
    Always step prop st actions ↔ Meets step condition st actions := by
  induction actions generalizing st with
  | nil => exact ⟨fun _ => trivial, fun _ => holds st starts⟩
  | cons action actions ih =>
      constructor
      · intro always next taken
        have later := always.2 next taken
        have met := exact st action next starts taken later.start
        exact ⟨met, (ih (keeps st action next starts met taken)).mp later⟩
      · intro meets
        refine ⟨holds st starts, fun next taken => ?_⟩
        have met := meets next taken
        exact (ih (keeps st action next starts met.1 taken)).mpr met.2

/-- A condition that is exact for single actions under an invariant, and that keeps it, is exact
for lists. -/
theorem relates_iff_meets_of_keeping {relation : σ → α → σ → Prop}
    (keeps : ∀ st action next, inv st → condition st action → step st action = some next →
      inv next)
    (exact : ∀ st action next, inv st → step st action = some next →
      (relation st action next ↔ condition st action))
    {st : σ} (starts : inv st) (actions : List α) :
    Relates step relation st actions ↔ Meets step condition st actions := by
  induction actions generalizing st with
  | nil => exact Iff.rfl
  | cons action actions ih =>
      apply forall_congr'
      intro next
      apply forall_congr'
      intro taken
      rw [exact st action next starts taken]
      exact and_congr_right fun met => ih (keeps st action next starts met taken)

/-- A condition that is exact for single actions under an invariant is exact for lists. -/
theorem relates_iff_meets {relation : σ → α → σ → Prop}
    (keeps : ∀ st action next, inv st → step st action = some next → inv next)
    (exact : ∀ st action next, inv st → step st action = some next →
      (relation st action next ↔ condition st action))
    {st : σ} (starts : inv st) (actions : List α) :
    Relates step relation st actions ↔ Meets step condition st actions :=
  relates_iff_meets_of_keeping (fun st action next invariant _ => keeps st action next invariant)
    exact starts actions

/-- Actions that meet the condition are related to the states around them where the invariant
relates them. -/
theorem Meets.relates {relation : σ → α → σ → Prop}
    (keeps : ∀ st action next, inv st → condition st action → step st action = some next →
      inv next)
    (related : ∀ st action next, inv st → condition st action → step st action = some next →
      relation st action next)
    {st : σ} (starts : inv st) {actions : List α} (meets : Meets step condition st actions) :
    Relates step relation st actions := by
  induction actions generalizing st with
  | nil => exact trivial
  | cons action actions ih =>
      intro next taken
      rcases meets next taken with ⟨met, later⟩
      exact ⟨related st action next starts met taken,
        ih (keeps st action next starts met taken) later⟩

end Exact

end Foundation
