import Mathlib.Algebra.GroupWithZero.Nat
import Mindroid.Util.LinkedList

/-!
# Running the actions of a promise

A completed promise visits its actions while it holds its own lock.  The lock is
reentrant, so an action that is executed synchronously may come back to the same
promise.  A script lists what one run of an action does to that promise, in order;
what it does elsewhere leaves the list of actions alone.
-/

set_option autoImplicit false

namespace Mindroid

/-- The identity of an action object. -/
abbrev ActionId := Nat

inductive Script where
  | done
  /-- The promise is completed once more: `setResult` or `setException` by an action
  whose consumer it is, then `onComplete`. -/
  | onComplete (next : Script)
  | removeAction (action : ActionId) (next : Script)
  /-- A new action with its own script is registered. -/
  | addAction (body next : Script)
  deriving DecidableEq

/-- A registered action.  `suppliersDone` is what `BiRelayAction::tryRun` finds out when
the action is visited; the other classes do not ask. -/
structure Action where
  id : ActionId
  suppliersDone : Bool
  script : Script
  deriving DecidableEq

/-- The fields of `Thenable` around its list of actions, with the claim flags of all
actions.  `removed` records what `removeAction` takes out of the list. -/
structure Dependents where
  mIsDone : Bool
  mActions : LinkedList Action
  claimed : List ActionId
  nextAction : ActionId
  removed : List ActionId

namespace Dependents

/-- `setResult` or `setException`; of the outcome only that there is one matters. -/
def setResult (promise : Dependents) : Dependents :=
  if !promise.mIsDone then { promise with mIsDone := true } else promise

/-- `mClaim.compareAndSet(false, true)`. -/
def claim (promise : Dependents) (action : ActionId) : Bool × Dependents :=
  if action ∈ promise.claimed then
    (false, promise)
  else
    (true, { promise with claimed := action :: promise.claimed })

def removeAction (promise : Dependents) (action : ActionId) : Dependents where
  mIsDone := promise.mIsDone
  mActions := promise.mActions.remove fun other => other.id == action
  claimed := promise.claimed
  nextAction := promise.nextAction
  removed :=
    if promise.mActions.values.any fun other => other.id == action then
      action :: promise.removed
    else
      promise.removed

/-- Create an action object. -/
def newAction (promise : Dependents) (script : Script) : Action × Dependents :=
  (⟨promise.nextAction, true, script⟩, { promise with nextAction := promise.nextAction + 1 })

mutual

/-- The loop of `runActions`. -/
def runActionsFrom : Nat → LinkedList.Iterator → Dependents → Except Fault Dependents
  | 0, _, _ => .error .outOfFuel
  | fuel + 1, itr, promise => do
      if ← itr.hasNext promise.mActions then
        let (action, itr) ← itr.next promise.mActions
        let (itr, actions) ← itr.remove promise.mActions
        let promise ← tryRun fuel action { promise with mActions := actions }
        runActionsFrom fuel itr promise
      else
        return promise

def tryRun : Nat → Action → Dependents → Except Fault Dependents
  | 0, _, _ => .error .outOfFuel
  | fuel + 1, action, promise =>
      if action.suppliersDone then
        match promise.claim action.id with
        | (true, promise) => run fuel action.script promise
        | (false, promise) => .ok promise
      else
        .ok promise

def run : Nat → Script → Dependents → Except Fault Dependents
  | 0, _, _ => .error .outOfFuel
  | _ + 1, .done, promise => .ok promise
  | fuel + 1, .onComplete next, promise => do
      let promise := promise.setResult
      let promise ← runActionsFrom fuel promise.mActions.iterator promise
      run fuel next promise
  | fuel + 1, .removeAction action next, promise => run fuel next (promise.removeAction action)
  | fuel + 1, .addAction body next, promise => do
      let (action, promise) := promise.newAction body
      let promise ← addAction fuel action promise
      run fuel next promise

def addAction : Nat → Action → Dependents → Except Fault Dependents
  | 0, _, _ => .error .outOfFuel
  | fuel + 1, action, promise =>
      let promise := { promise with mActions := promise.mActions.add action }
      if promise.mIsDone then
        tryRun fuel action
          { promise with mActions := promise.mActions.remove fun other => other.id == action.id }
      else
        .ok promise

end

def runActions (fuel : Nat) (promise : Dependents) : Except Fault Dependents :=
  runActionsFrom fuel promise.mActions.iterator promise

/-- What an action does to its consumer: the outcome is set, and `onComplete` is called.
So does the `complete` that finds the promise not done. -/
def finish (fuel : Nat) (promise : Dependents) : Except Fault Dependents :=
  runActions fuel promise.setResult

end Dependents

/-! ## What a script does to the list -/

namespace Script

/-- Whether the script completes the promise again. -/
def completes : Script → Bool
  | done => false
  | onComplete _ => true
  | removeAction _ next => next.completes
  | addAction body next => body.completes || next.completes

/-- The actions that the script removes. -/
def removals : Script → List ActionId
  | done => []
  | onComplete next => next.removals
  | removeAction action next => action :: next.removals
  | addAction body next => body.removals ++ next.removals

def size : Script → Nat
  | done => 1
  | onComplete next => next.size + 1
  | removeAction _ next => next.size + 1
  | addAction body next => body.size + next.size + 3

/-- The script takes the action away at which the loop that runs it goes on. -/
def Disturbs (script : Script) (behind : List Action) : Prop :=
  ∃ next ∈ behind.head?, script.completes = true ∨ next.id ∈ script.removals

end Script

/-- Remove the first action of every given identity in turn. -/
def removeEach (removals : List ActionId) (actions : List Action) : List Action :=
  removals.foldl (fun actions action => actions.eraseP fun other => other.id == action) actions

theorem Script.size_pos (script : Script) : 0 < script.size := by
  cases script <;> exact Nat.succ_pos _

section RemoveEach

variable {removals : List ActionId} {actions : List Action}

@[simp] theorem removeEach_nil : removeEach [] actions = actions := rfl

theorem removeEach_append (more : List ActionId) :
    removeEach (removals ++ more) actions = removeEach more (removeEach removals actions) :=
  List.foldl_append

theorem removeEach_of_nil (removals : List ActionId) : removeEach removals [] = [] := by
  induction removals with
  | nil => rfl
  | cons removed removals ih => exact ih

theorem removeEach_sublist (removals : List ActionId) (actions : List Action) :
    (removeEach removals actions).Sublist actions := by
  induction removals generalizing actions with
  | nil => exact List.Sublist.refl _
  | cons removed removals ih => exact (ih _).trans List.eraseP_sublist

/-- The first action stays first unless it is removed. -/
theorem head?_eraseP {α : Type} {removed : α → Bool} {list : List α}
    (kept : ∀ first ∈ list.head?, removed first = false) :
    (list.eraseP removed).head? = list.head? := by
  cases list with
  | nil => rfl
  | cons first behind =>
      rw [List.eraseP_cons_of_neg (by simp [kept first rfl])]
      rfl

end RemoveEach

/-- Some action that the loop over the list executes takes the action away at which the
loop goes on. -/
inductive Disturbed : List ActionId → List Action → Prop where
  | here {claimed : List ActionId} {action : Action} {behind : List Action}
      (suppliersDone : action.suppliersDone = true) (unclaimed : action.id ∉ claimed)
      (disturbs : action.script.Disturbs behind) : Disturbed claimed (action :: behind)
  | later {claimed : List ActionId} {action : Action} {behind : List Action}
      (suppliersDone : action.suppliersDone = true) (unclaimed : action.id ∉ claimed)
      (disturbed : Disturbed (action.id :: claimed) (removeEach action.script.removals behind)) :
      Disturbed claimed (action :: behind)
  | skip {claimed : List ActionId} {action : Action} {behind : List Action}
      (idle : action.suppliersDone = true → action.id ∈ claimed)
      (disturbed : Disturbed claimed behind) : Disturbed claimed (action :: behind)

/-- Only the claims of the actions in the list matter. -/
theorem Disturbed.congr {claimed claimed' : List ActionId} {actions : List Action}
    (disturbed : Disturbed claimed actions)
    (agree : ∀ action ∈ actions, action.id ∈ claimed ↔ action.id ∈ claimed') :
    Disturbed claimed' actions := by
  induction disturbed generalizing claimed' with
  | here suppliersDone unclaimed disturbs =>
      exact .here suppliersDone (fun member => unclaimed ((agree _ List.mem_cons_self).mpr member))
        disturbs
  | later suppliersDone unclaimed _ ih =>
      refine .later suppliersDone
        (fun member => unclaimed ((agree _ List.mem_cons_self).mpr member)) (ih ?_)
      intro other member
      have inBehind := (removeEach_sublist _ _).subset member
      rw [List.mem_cons, List.mem_cons, agree other (List.mem_cons_of_mem _ inBehind)]
  | skip idle _ ih =>
      refine .skip (fun suppliersDone => (agree _ List.mem_cons_self).mp (idle suppliersDone))
        (ih fun other member => agree other (List.mem_cons_of_mem _ member))

theorem not_disturbed_nil (claimed : List ActionId) : ¬Disturbed claimed [] := by
  rintro ⟨⟩

theorem disturbed_idle {claimed : List ActionId} {action : Action} {behind : List Action}
    (idle : action.suppliersDone = true → action.id ∈ claimed) :
    Disturbed claimed (action :: behind) ↔ Disturbed claimed behind := by
  constructor
  · rintro (⟨suppliersDone, unclaimed, -⟩ | ⟨suppliersDone, unclaimed, -⟩ | ⟨-, disturbed⟩)
    · exact absurd (idle suppliersDone) unclaimed
    · exact absurd (idle suppliersDone) unclaimed
    · exact disturbed
  · exact .skip idle

theorem disturbed_runs {claimed : List ActionId} {action : Action} {behind : List Action}
    (suppliersDone : action.suppliersDone = true) (unclaimed : action.id ∉ claimed)
    (quiet : ¬action.script.Disturbs behind) :
    Disturbed claimed (action :: behind) ↔
      Disturbed (action.id :: claimed) (removeEach action.script.removals behind) := by
  constructor
  · rintro (⟨-, -, disturbs⟩ | ⟨-, -, disturbed⟩ | ⟨idle, -⟩)
    · exact absurd disturbs quiet
    · exact disturbed
    · exact absurd (idle suppliersDone) unclaimed
  · exact .later suppliersDone unclaimed

/-- The last action of the list may do what it likes. -/
theorem not_disturbed_singleton (claimed : List ActionId) (action : Action) :
    ¬Disturbed claimed [action] := by
  rintro (⟨-, -, next, isNext, -⟩ | ⟨-, -, disturbed⟩ | ⟨-, disturbed⟩)
  · cases isNext
  · rw [removeEach_of_nil] at disturbed
    exact not_disturbed_nil _ disturbed
  · exact not_disturbed_nil _ disturbed

namespace Dependents

/-- Fuel that suffices to run all actions. -/
def weight (promise : Dependents) : Nat :=
  (promise.mActions.values.map fun action => action.script.size + 2).sum + 1

/-- Identities are taken from the counter, and no action has been claimed twice. -/
structure WellFormed (promise : Dependents) : Prop where
  registered : ∀ action ∈ promise.mActions.values, action.id < promise.nextAction
  claimed : ∀ action ∈ promise.claimed, action < promise.nextAction
  once : promise.claimed.Nodup

/-- Every action of the list has been run once by now, unless it was removed or one of
its suppliers is not done.  So have the actions that were registered meanwhile. -/
structure RunsEach (promise finished : Dependents) : Prop where
  isDone : finished.mIsDone = true
  empty : finished.mActions.values = []
  once : finished.claimed.Nodup
  each : ∃ removed, finished.removed = removed ++ promise.removed ∧
    ∀ action ∈ promise.mActions.values, action.suppliersDone = true →
      action.id ∈ finished.claimed ∨ action.id ∈ removed
  registered : ∀ action, promise.nextAction ≤ action → action < finished.nextAction →
    action ∈ finished.claimed

end Dependents

end Mindroid
