import Mindroid.Util.Concurrent.TimeoutDelays

/-!
# What the methods for timeouts do

Each method is followed to the state that it leaves, part by part.
-/

set_option autoImplicit false

namespace Mindroid

open Foundation Throwing

/-- The promise that an action waits for. -/
def TimedAction.supplier : TimedAction → Nat
  | .biConsumer _ supplier _ _ => supplier
  | .delay supplier _ _ => supplier

/-- What a command completes its promise with. -/
def Timeout.Command.outcome {V : Type} : Timeout.Command V → Outcome V
  | .completion _ value => .ok value
  | .exception _ message cause => .error (Timeouts.timeoutException message cause)

namespace Timeouts

variable {V : Type}

/-! ## States after the parts of a method -/

/-- After `newPromise`. -/
def withPromise [Inhabited V] (st : Timeouts V) (executor : Option Nat) : Timeouts V :=
  { st with
    promise := Function.update st.promise st.promisesMade
      { mIsDone := false, mResult := default, mException := none, mActions := [] }
    mExecutor := Function.update st.mExecutor st.promisesMade executor
    promisesMade := st.promisesMade + 1 }

/-- After `addAction` of a promise that is not done. -/
def withAction (st : Timeouts V) (promise : Nat) (action : TimedAction) : Timeouts V :=
  { st with
    promise := Function.update st.promise promise
      { st.promise promise with mActions := (st.promise promise).mActions ++ [action] } }

/-- After `setOutcome`. -/
def withOutcome (st : Timeouts V) (promise : Nat) (outcome : Outcome V)
    (completer : TimedCompleter) : Timeouts V :=
  if (st.promise promise).mIsDone then
    st
  else
    { st with
      promise := Function.update st.promise promise ((st.promise promise).settled outcome)
      completer := Function.update st.completer promise (some completer)
      completedAt := Function.update st.completedAt promise st.loopers.uptimeMillis.toNat }

/-- After `setOutcome` and `onComplete`. -/
def finished (st : Timeouts V) (promise : Nat) (outcome : Outcome V)
    (completer : TimedCompleter) : Timeouts V :=
  let settled := st.withOutcome promise outcome completer
  { settled with
    promise := Function.update settled.promise promise
      { settled.promise promise with mActions := [] }
    tried := settled.tried ++ (settled.promise promise).mActions }

section Outcomes

variable {st : Timeouts V} {returns : PUnit → Timeouts V → Prop}
  {throws : MethodThrow → Timeouts V → Prop}

theorem leads_setOutcome (promise : Nat) (outcome : Outcome V) (completer : TimedCompleter) :
    Leads (setOutcome promise outcome completer) returns throws st ↔
      returns ⟨⟩ (st.withOutcome promise outcome completer) := by
  rw [setOutcome, leads_bind, isDone, leads_bind, leads_get, leads_pure, withOutcome]
  cases (st.promise promise).mIsDone with
  | true => exact Iff.rfl
  | false => exact Iff.rfl

theorem leads_complete_done {returns : Bool → Timeouts V → Prop} {promise : Nat}
    (done : (st.promise promise).mIsDone = true) (outcome : Outcome V)
    (completer : TimedCompleter) :
    Leads (complete promise outcome completer) returns throws st ↔ returns false st := by
  rw [complete, leads_bind, isDone, leads_bind, leads_get, leads_pure, done]
  exact Iff.rfl

theorem leads_complete_pending {returns : Bool → Timeouts V → Prop} {promise : Nat}
    (pending : (st.promise promise).mIsDone = false) (outcome : Outcome V)
    (completer : TimedCompleter) :
    Leads (complete promise outcome completer) returns throws st ↔
      returns true (st.finished promise outcome completer) := by
  rw [complete, leads_bind, isDone, leads_bind, leads_get, leads_pure, pending]
  simp only [Bool.not_false, if_true]
  rw [leads_bind, leads_setOutcome]
  exact Iff.rfl

/-- A null executor. -/
theorem leads_thenAccept_none [Inhabited V] {returns : Nat → Timeouts V → Prop}
    (promise : Nat) (command : ObjectId) :
    Leads (thenAccept promise none command) returns throws st ↔
      throws (.user (.exception (.root .nullPointerException "Executor must not be null"))) st :=
  Iff.rfl

theorem leads_thenAccept_pending [Inhabited V] {returns : Nat → Timeouts V → Prop}
    {promise : Nat} (made : promise < st.promisesMade)
    (pending : (st.promise promise).mIsDone = false) (executor : Nat) (command : ObjectId) :
    Leads (thenAccept promise (some executor) command) returns throws st ↔
      returns st.promisesMade ((st.withPromise (st.mExecutor promise)).withAction promise
        (.biConsumer executor promise st.promisesMade command)) := by
  have same : (st.withPromise (st.mExecutor promise)).promise promise = st.promise promise :=
    Function.update_of_ne (Nat.ne_of_lt made) _ _
  have stillPending :
      ((st.withPromise (st.mExecutor promise)).promise promise).mIsDone = false := by
    rw [same, pending]
  rw [thenAccept, leads_bind, leads_get, leads_bind, newPromise, leads_bind, leads_get,
    leads_bind, leads_modify, leads_pure, leads_bind, isDone, leads_bind, leads_get, leads_pure]
  change Leads (if ((st.withPromise (st.mExecutor promise)).promise promise).mIsDone = true then _
    else _) returns throws (st.withPromise (st.mExecutor promise)) ↔ _
  rw [stillPending, if_neg Bool.false_ne_true, leads_bind, addAction, leads_modify,
    leads_pure, stillPending, if_neg Bool.false_ne_true]
  exact Iff.rfl

theorem leads_failDelay (consumer : Nat) (thrown : UserThrow) :
    Leads (failDelay consumer (.user thrown)) returns throws st ↔
      returns ⟨⟩ (st.finished consumer (.error (caught thrown)) .action) := by
  rw [failDelay, leads_bind, leads_setOutcome]
  exact Iff.rfl

end Outcomes

/-! ## Fields after the end of a promise -/

section Fields

variable {st : Timeouts V} {promise other : Nat} {outcome : Outcome V}
  {completer : TimedCompleter}

theorem finished_rest (st : Timeouts V) (promise : Nat) (outcome : Outcome V)
    (completer : TimedCompleter) :
    (st.finished promise outcome completer).loopers = st.loopers ∧
      (st.finished promise outcome completer).promisesMade = st.promisesMade ∧
      (st.finished promise outcome completer).command = st.command ∧
      (st.finished promise outcome completer).commandsMade = st.commandsMade ∧
      (st.finished promise outcome completer).submitted = st.submitted ∧
      (st.finished promise outcome completer).delayed = st.delayed ∧
      (st.finished promise outcome completer).scheduled = st.scheduled := by
  rw [finished, withOutcome]
  cases (st.promise promise).mIsDone with
  | true => exact ⟨rfl, rfl, rfl, rfl, rfl, rfl, rfl⟩
  | false => exact ⟨rfl, rfl, rfl, rfl, rfl, rfl, rfl⟩

theorem promise_finished_of_ne (apart : other ≠ promise) :
    (st.finished promise outcome completer).promise other = st.promise other := by
  rw [finished, withOutcome]
  refine (Function.update_of_ne apart _ _).trans ?_
  cases (st.promise promise).mIsDone with
  | true => rfl
  | false => exact Function.update_of_ne apart _ _

theorem completer_finished_of_ne (apart : other ≠ promise) :
    (st.finished promise outcome completer).completer other = st.completer other ∧
      (st.finished promise outcome completer).completedAt other = st.completedAt other := by
  rw [finished, withOutcome]
  cases (st.promise promise).mIsDone with
  | true => exact ⟨rfl, rfl⟩
  | false => exact ⟨Function.update_of_ne apart _ _, Function.update_of_ne apart _ _⟩

/-- The promise is done, and all its actions are about to be tried. -/
theorem finished_self (st : Timeouts V) (promise : Nat) (outcome : Outcome V)
    (completer : TimedCompleter) :
    ((st.finished promise outcome completer).promise promise).mIsDone = true ∧
      ((st.finished promise outcome completer).promise promise).mActions = [] ∧
      (st.finished promise outcome completer).tried =
        st.tried ++ (st.promise promise).mActions := by
  have updated : ∀ settled : Promise TimedAction V, ∀ promises : Nat → Promise TimedAction V,
      Function.update promises promise settled promise = settled :=
    fun _ _ => Function.update_self _ _ _
  rw [finished, withOutcome]
  cases done : (st.promise promise).mIsDone with
  | true =>
      simp only [if_true, updated]
      exact ⟨done, trivial, trivial⟩
  | false =>
      simp only [Bool.false_eq_true, if_false, updated]
      cases outcome with
      | ok result => exact ⟨rfl, trivial, rfl⟩
      | error exception => exact ⟨rfl, trivial, rfl⟩

/-- A promise that was done keeps its outcome. -/
theorem finished_done (done : (st.promise promise).mIsDone = true) :
    st.finished promise outcome completer =
      { st with
        promise := Function.update st.promise promise
          { st.promise promise with mActions := [] }
        tried := st.tried ++ (st.promise promise).mActions } := by
  rw [finished, withOutcome, done]
  rfl

/-- A promise that was pending gets the outcome. -/
theorem finished_pending (pending : (st.promise promise).mIsDone = false)
    (fresh : (st.promise promise).mException = none) :
    ((st.finished promise outcome completer).promise promise).outcome = outcome ∧
      (st.finished promise outcome completer).completer promise = some completer ∧
      (st.finished promise outcome completer).completedAt promise =
        st.loopers.uptimeMillis.toNat := by
  have updated : ∀ settled : Promise TimedAction V, ∀ promises : Nat → Promise TimedAction V,
      Function.update promises promise settled promise = settled :=
    fun _ _ => Function.update_self _ _ _
  rw [finished, withOutcome, pending]
  simp only [Bool.false_eq_true, if_false, updated]
  refine ⟨?_, Function.update_self _ _ _, Function.update_self _ _ _⟩
  cases outcome with
  | ok result =>
      rw [Promise.outcome, Promise.settled, fresh]
  | error exception => rfl

theorem finished_core (done : (st.promise other).mIsDone = true) :
    ((st.finished promise outcome completer).promise other).mIsDone = true ∧
      ((st.finished promise outcome completer).promise other).mResult =
        (st.promise other).mResult ∧
      ((st.finished promise outcome completer).promise other).mException =
        (st.promise other).mException := by
  by_cases same : other = promise
  · subst same
    have updated : ((st.finished other outcome completer).promise other) =
        { st.promise other with mActions := [] } := by
      rw [finished_done done]
      exact Function.update_self _ _ _
    rw [updated]
    exact ⟨done, rfl, rfl⟩
  · rw [promise_finished_of_ne same]
    exact ⟨done, rfl, rfl⟩

theorem completer_finished_of_done (done : (st.promise other).mIsDone = true) :
    (st.finished promise outcome completer).completer other = st.completer other ∧
      (st.finished promise outcome completer).completedAt other = st.completedAt other := by
  by_cases same : other = promise
  · subst same
    rw [finished_done done]
    exact ⟨rfl, rfl⟩
  · exact completer_finished_of_ne same

/-- The outcome of no promise changes. -/
theorem withAction_core (st : Timeouts V) (promise : Nat) (action : TimedAction) (other : Nat) :
    ((st.withAction promise action).promise other).mIsDone = (st.promise other).mIsDone ∧
      ((st.withAction promise action).promise other).mResult = (st.promise other).mResult ∧
      ((st.withAction promise action).promise other).mException =
        (st.promise other).mException := by
  by_cases same : other = promise
  · subst same
    have updated : (st.withAction other action).promise other =
        { st.promise other with mActions := (st.promise other).mActions ++ [action] } :=
      Function.update_self _ _ _
    rw [updated]
    exact ⟨rfl, rfl, rfl⟩
  · have kept : (st.withAction promise action).promise other = st.promise other :=
      Function.update_of_ne same _ _
    rw [kept]
    exact ⟨rfl, rfl, rfl⟩

theorem mem_withAction_iff (st : Timeouts V) (promise : Nat) (action : TimedAction) (other : Nat)
    (member : TimedAction) :
    member ∈ ((st.withAction promise action).promise other).mActions ↔
      member ∈ (st.promise other).mActions ∨ (other = promise ∧ member = action) := by
  by_cases same : other = promise
  · subst same
    have updated : (st.withAction other action).promise other =
        { st.promise other with mActions := (st.promise other).mActions ++ [action] } :=
      Function.update_self _ _ _
    rw [updated, List.mem_append, List.mem_singleton]
    exact or_congr_right (and_iff_right rfl).symm
  · have kept : (st.withAction promise action).promise other = st.promise other :=
      Function.update_of_ne same _ _
    rw [kept]
    exact (or_iff_left fun both => same both.1).symm

end Fields

end Timeouts

end Mindroid
