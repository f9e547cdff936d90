import Mathlib.Data.List.Count
import Mathlib.Data.Prod.Lex
import Mathlib.Order.WellFounded
import Mindroid.Foundation.Fairness
import Mindroid.Os.AsyncTask

/-!
# The result of a task

The duty to post and to deliver the result of a task is at one place at any time.  It goes from
the thread that executes the task to the queue of the executor, to a worker or to the `cancel`
that removed the task from that queue, to the messages of the handler, and to `finish`.
-/

set_option autoImplicit false

namespace Mindroid

open Foundation

namespace AsyncTask

variable {Params Progress Result : Type}

/-! ## The place of the result -/

/-- Who has to care for the result. -/
inductive Place where
  | unexecuted
  | queued
  | working (worker : Nat)
  | cancelling (caller : Nat)
  | posted
  | finishing
  | done
  deriving DecidableEq

def Message.isResult : Message Progress Result → Bool
  | .postResult _ => true
  | .postProgress _ _ => false

def Event.isPost : Event Params Progress Result → Bool
  | .postedResult _ => true
  | _ => false

/-- `onPostExecute` or `onCancelled` is called. -/
def Event.isFinish : Event Params Progress Result → Bool
  | .onPostExecute _ => true
  | .onCancelled _ => true
  | _ => false

def Event.isStart : Event Params Progress Result → Bool
  | .doInBackground _ => true
  | _ => false

section Counts

variable (event : Event Params Progress Result) (events : List (Event Params Progress Result))

/-- The number of results that were posted. -/
def posts : Nat :=
  events.countP Event.isPost

/-- The number of calls of `onPostExecute` and of `onCancelled`. -/
def finishes : Nat :=
  events.countP Event.isFinish

/-- The number of calls of `doInBackground`. -/
def starts : Nat :=
  events.countP Event.isStart

@[simp] theorem posts_cons :
    posts (event :: events) = posts events + if event.isPost then 1 else 0 :=
  List.countP_cons

@[simp] theorem finishes_cons :
    finishes (event :: events) = finishes events + if event.isFinish then 1 else 0 :=
  List.countP_cons

@[simp] theorem starts_cons :
    starts (event :: events) = starts events + if event.isStart then 1 else 0 :=
  List.countP_cons

end Counts

/-- Whether `finish` has called `onPostExecute` or `onCancelled`. -/
def Finish.called : Finish Result → Nat
  | .setStatus => 1
  | .clear => 1
  | _ => 0

/-- Whether a result was posted. -/
def Place.posts : Place → Nat
  | .posted => 1
  | .finishing => 1
  | .done => 1
  | _ => 0

/-- Whether `onPostExecute` or `onCancelled` was called. -/
def Place.finishes (finishing : Finish Result) : Place → Nat
  | .finishing => finishing.called
  | .done => 1
  | _ => 0

/-- Whether `doInBackground` may still be called. -/
def Place.startable (workers : Nat → Work Result) : Place → Nat
  | .unexecuted => 1
  | .queued => 1
  | .working worker =>
      match workers worker with
      | .taken => 1
      | _ => 0
  | _ => 0

/-- The result is at a place and nowhere else. -/
structure Holds (task : AsyncTask Params Progress Result) (place : Place) : Prop where
  runnable : task.mRunnable = none ∨ task.mRunnable = some .task
  called : task.mStatus = .PENDING ↔ task.stage = .notCalled
  executed : task.stage = .returned ↔ place ≠ .unexecuted
  queued : task.queue.count .task = if place = .queued then 1 else 0
  working : ∀ worker, task.workers worker ≠ .idle ↔ place = .working worker
  cancelling : ∀ caller, task.cancels caller = .post ↔ place = .cancelling caller
  posted : task.messages.countP Message.isResult = if place = .posted then 1 else 0
  finishing : task.finishing ≠ .idle ↔ place = .finishing
  posts : posts task.events = place.posts
  finishes : finishes task.events = place.finishes task.finishing
  starts : starts task.events + place.startable task.workers ≤ 1

/-- The result is nowhere: it was taken from its place and is to be posted. -/
structure Away (task : AsyncTask Params Progress Result) : Prop where
  runnable : task.mRunnable = none ∨ task.mRunnable = some .task
  called : task.mStatus = .PENDING ↔ task.stage = .notCalled
  executed : task.stage = .returned
  queued : task.queue.count .task = 0
  working : ∀ worker, task.workers worker = .idle
  cancelling : ∀ caller, task.cancels caller ≠ .post
  posted : task.messages.countP Message.isResult = 0
  finishing : task.finishing = .idle
  posts : posts task.events = 0
  finishes : finishes task.events = 0
  starts : starts task.events ≤ 1

theorem Away.postResult {task : AsyncTask Params Progress Result} (away : Away task)
    (result : Result) : Holds (task.postResult result) .posted where
  runnable := away.runnable
  called := away.called
  executed := by simpa using away.executed
  queued := by simpa using away.queued
  working := by simpa using away.working
  cancelling := by simpa using away.cancelling
  posted := by simp [away.posted, Message.isResult]
  finishing := by simpa using away.finishing
  posts := by simp [away.posts, Event.isPost, Place.posts]
  finishes := by simp [away.finishes, Event.isFinish, Place.finishes]
  starts := by simpa [Event.isStart, Place.startable] using away.starts

/-! ## The way of the result -/

/-- Who gets the result on its way. -/
inductive Duty where
  | execute
  | take
  | work (worker : Nat)
  | handle
  | cancel (caller : Nat)

def Action.duty : Action Params Progress Result → Option Duty
  | .executeNext => some .execute
  | .take _ => some .take
  | .runNext worker _ => some (.work worker)
  | .handleMessage => some .handle
  | .finishNext => some .handle
  | .cancelNext caller => some (.cancel caller)
  | _ => none

def Place.duty : Place → Option Duty
  | .unexecuted => some .execute
  | .queued => some .take
  | .working worker => some (.work worker)
  | .cancelling caller => some (.cancel caller)
  | .posted => some .handle
  | .finishing => some .handle
  | .done => none

def Stage.left : Stage Params → Nat
  | .notCalled => 2
  | .onPreExecute _ => 1
  | _ => 0

def Work.left : Work Result → Nat
  | .taken => 2
  | .doInBackground => 1
  | _ => 0

def Finish.left : Finish Result → Nat
  | .isCancelled _ => 3
  | .onCancelled _ => 2
  | .onPostExecute _ => 2
  | .setStatus => 1
  | _ => 0

/-- How far it is to the end. -/
def Place.distance (task : AsyncTask Params Progress Result) : Place → Nat ×ₗ Nat
  | .unexecuted => toLex (5, task.stage.left)
  | .queued => toLex (4, task.queue.idxOf .task)
  | .working worker => toLex (3, (task.workers worker).left)
  | .cancelling _ => toLex (3, 0)
  | .posted => toLex (2, task.messages.findIdx Message.isResult)
  | .finishing => toLex (1, task.finishing.left)
  | .done => toLex (0, 0)

/-- The result gets on, or the action is not the duty at its place. -/
def Advances (action : Action Params Progress Result) (task : AsyncTask Params Progress Result)
    (place : Place) (next : AsyncTask Params Progress Result) : Prop :=
  ∃ place', Holds next place' ∧ (place'.distance next < place.distance task ∨
    place' = place ∧ place.distance next = place.distance task ∧
      ∀ due, place.duty = some due → action.duty ≠ some due)

section Steps

variable {task next : AsyncTask Params Progress Result} {place : Place}
  {action : Action Params Progress Result}

theorem Advances.stays (holds : Holds next place)
    (same : place.distance next = place.distance task)
    (other : ∀ due, place.duty = some due → action.duty ≠ some due) :
    Advances action task place next :=
  ⟨place, holds, .inr ⟨rfl, same, other⟩⟩

/-- The result gets to another place. -/
theorem Advances.moves (place' : Place) (holds : Holds next place')
    (less : (ofLex (place'.distance next)).1 < (ofLex (place.distance task)).1) :
    Advances action task place next :=
  ⟨place', holds, .inl (Prod.Lex.lt_iff.mpr (.inl less))⟩

/-- The result gets on at its place. -/
theorem Advances.proceeds (holds : Holds next place)
    (same : (ofLex (place.distance next)).1 = (ofLex (place.distance task)).1)
    (less : (ofLex (place.distance next)).2 < (ofLex (place.distance task)).2) :
    Advances action task place next :=
  ⟨place, holds, .inl (Prod.Lex.lt_iff.mpr (.inr ⟨same, less⟩))⟩

/-- Most events have nothing to do with the result. -/
theorem Holds.record (holds : Holds task place) (event : Event Params Progress Result)
    (noPost : event.isPost = false) (noFinish : event.isFinish = false)
    (noStart : event.isStart = false) : Holds (task.record event) place :=
  { holds with
    posts := by simpa [noPost] using holds.posts
    finishes := by simpa [noFinish] using holds.finishes
    starts := by simpa [noStart] using holds.starts }

theorem Holds.unexecuted (holds : Holds task place) (running : task.stage ≠ .returned) :
    place = .unexecuted := by
  by_contra other
  exact running (holds.executed.mpr other)

theorem Holds.executeOnExecutor (holds : Holds task place) (params : Params) :
    Advances (.executeOnExecutor params) task place (task.executeOnExecutor params) := by
  cases status : task.mStatus with
  | PENDING =>
      have notCalled := holds.called.mp status
      obtain rfl := holds.unexecuted (by simp [notCalled])
      have called : Holds { task with mStatus := .RUNNING, stage := .onPreExecute params }
          .unexecuted := { holds with called := by simp, executed := by simp }
      simp only [AsyncTask.executeOnExecutor, status]
      refine .proceeds (called.record _ rfl rfl rfl) rfl ?_
      simp [Place.distance, AsyncTask.record, notCalled, Stage.left]
  | RUNNING =>
      simp only [AsyncTask.executeOnExecutor, status]
      exact .stays (holds.record _ rfl rfl rfl) (by cases place <;> rfl) (by simp [Action.duty])
  | FINISHED =>
      simp only [AsyncTask.executeOnExecutor, status]
      exact .stays (holds.record _ rfl rfl rfl) (by cases place <;> rfl) (by simp [Action.duty])

theorem Holds.executeNext (holds : Holds task place) (taken : task.executeNext = some next) :
    Advances .executeNext task place next := by
  unfold AsyncTask.executeNext at taken
  split at taken
  · rename_i params stage
    cases taken
    obtain rfl := holds.unexecuted (by simp [stage])
    refine .proceeds { holds with called := ?_, executed := by simp } rfl ?_
    · simpa [stage] using holds.called
    · simp [Place.distance, stage, Stage.left]
  · rename_i params stage
    cases taken
    obtain rfl := holds.unexecuted (by simp [stage])
    have empty : task.queue.count .task = 0 := holds.queued
    refine .moves .queued { holds with
      called := by simpa [stage] using holds.called
      executed := by simp
      queued := by simp [Executor.execute, empty]
      working := by simpa using holds.working
      cancelling := by simpa using holds.cancelling
      posted := by simpa using holds.posted
      finishing := by simpa using holds.finishing } ?_
    simp [Place.distance]
  · cases taken

/-- What others have in the queue makes no difference. -/
theorem Holds.queue (holds : Holds task place) (queue : List Runnable)
    (same : queue.count .task = task.queue.count .task) :
    Holds { task with queue := queue } place :=
  { holds with queued := same.trans holds.queued }

/-- A worker is the only one that is not idle. -/
theorem working_update {workers : Nat → Work Result} {worker : Nat} {work : Work Result}
    (others : ∀ other, other ≠ worker → workers other = .idle) (busy : work ≠ .idle)
    (other : Nat) :
    Function.update workers worker work other ≠ .idle ↔
      Place.working worker = .working other := by
  by_cases same : other = worker
  · simp [same, busy]
  · simp [Function.update_of_ne same, others other same, Ne.symm same]

theorem Holds.others (holds : Holds task place) {worker : Nat} (at_ : place = .working worker)
    (other : Nat) (different : other ≠ worker) : task.workers other = .idle := by
  by_contra busy
  have same := at_.symm.trans ((holds.working other).mp busy)
  injection same with same
  exact different same.symm

theorem Holds.take {worker : Nat} (holds : Holds task place)
    (taken : task.take worker = some next) : Advances (.take worker) task place next := by
  unfold AsyncTask.take at taken
  split at taken
  · rename_i idle first
    cases taken
    obtain rfl : place = .queued := by
      by_contra other
      simpa [first, other] using holds.queued
    refine .moves (.working worker) { holds with
      executed := by simpa using holds.executed
      queued := by simpa [first] using holds.queued
      working := working_update (fun other _ => by simpa using holds.working other) (by simp)
      cancelling := by simpa using holds.cancelling
      posted := by simpa using holds.posted
      finishing := by simpa using holds.finishing
      starts := by simpa [Place.startable] using holds.starts } ?_
    simp [Place.distance]
  · rename_i id queue idle first
    cases taken
    have moved := holds.queue queue (by simp [first])
    by_cases queued : place = .queued
    · subst queued
      refine .proceeds moved rfl ?_
      simp [Place.distance, first, List.idxOf_cons_ne]
    · refine .stays moved ?_ ?_
      · cases place with
        | queued => exact absurd rfl queued
        | _ => rfl
      · cases place with
        | queued => exact absurd rfl queued
        | _ => simp [Place.duty, Action.duty]
  · cases taken

theorem Holds.runNext {worker : Nat} {result : Result} (holds : Holds task place)
    (taken : task.runNext worker result = some next) :
    Advances (.runNext worker result) task place next := by
  unfold AsyncTask.runNext at taken
  split at taken
  · cases taken
  · rename_i work
    cases taken
    obtain rfl := (holds.working worker).mp (by simp [work])
    have none : AsyncTask.starts task.events = 0 := by
      simpa [Place.startable, work] using holds.starts
    refine .proceeds { holds with
      working := working_update (holds.others rfl) (by simp)
      starts := ?_ } rfl ?_
    · simp [none, Event.isStart, Place.startable]
    · simp [Place.distance, work, Work.left]
  · rename_i work
    cases taken
    obtain rfl := (holds.working worker).mp (by simp [work])
    refine .proceeds { holds with
      working := working_update (holds.others rfl) (by simp)
      starts := by simpa [Place.startable, work] using holds.starts } rfl ?_
    simp [Place.distance, work, Work.left]
  · rename_i posted work
    cases taken
    obtain rfl := (holds.working worker).mp (by simp [work])
    have away : Away { task with workers := Function.update task.workers worker .idle } := {
      runnable := holds.runnable
      called := holds.called
      executed := by simpa using holds.executed
      queued := by simpa using holds.queued
      working := by
        intro other
        by_cases same : other = worker
        · simp [same]
        · simp [Function.update_of_ne same, holds.others rfl other same]
      cancelling := by simpa using holds.cancelling
      posted := by simpa using holds.posted
      finishing := by simpa using holds.finishing
      posts := holds.posts
      finishes := holds.finishes
      starts := Nat.le_of_add_right_le holds.starts }
    refine .moves .posted (away.postResult posted) ?_
    simp [Place.distance]

theorem Holds.handleMessage (holds : Holds task place)
    (taken : task.handleMessage = some next) : Advances .handleMessage task place next := by
  unfold AsyncTask.handleMessage at taken
  split at taken
  · rename_i result messages idle first
    cases taken
    obtain rfl : place = .posted := by
      by_contra other
      simpa [first, Message.isResult, other] using holds.posted
    refine .moves .finishing { holds with
      executed := by simpa using holds.executed
      queued := by simpa using holds.queued
      working := by simpa using holds.working
      cancelling := by simpa using holds.cancelling
      posted := by
        have one := holds.posted
        rw [first, List.countP_cons_of_pos rfl] at one
        exact Nat.succ.inj one
      finishing := by simp
      finishes := by simpa [Place.finishes, Finish.called] using holds.finishes } ?_
    simp [Place.distance]
  · rename_i id progress messages idle first
    cases taken
    have fewer : Holds { task with messages := messages } place :=
      { holds with posted := by simpa [first, Message.isResult] using holds.posted }
    have delivered := fewer.record (.onProgressUpdate id progress) rfl rfl rfl
    have notFinishing : place ≠ .finishing := fun at_ => holds.finishing.mpr at_ idle
    by_cases posted : place = .posted
    · subst posted
      refine .proceeds delivered rfl ?_
      simp [Place.distance, first, List.findIdx_cons, Message.isResult]
    · refine .stays delivered ?_ ?_
      · cases place with
        | posted => exact absurd rfl posted
        | _ => rfl
      · cases place with
        | posted => exact absurd rfl posted
        | finishing => exact absurd rfl notFinishing
        | _ => simp [Place.duty, Action.duty]
  · cases taken

/-- The result is delivered. -/
theorem Holds.deliver (holds : Holds task .finishing) (before : task.finishing.called = 0)
    {event : Event Params Progress Result} (noPost : event.isPost = false)
    (finish : event.isFinish = true) (noStart : event.isStart = false) :
    Holds ({ task with finishing := .setStatus }.record event) .finishing := by
  have none : AsyncTask.finishes task.events = 0 := holds.finishes.trans before
  exact { holds with
    finishing := by simp
    posts := by simpa [noPost] using holds.posts
    finishes := by simp [none, finish, Place.finishes, Finish.called]
    starts := by simpa [noStart] using holds.starts }

theorem Holds.finishNext (holds : Holds task place) (taken : task.finishNext = some next) :
    Advances .finishNext task place next := by
  have at_ : task.finishing ≠ .idle → place = .finishing := holds.finishing.mp
  unfold AsyncTask.finishNext at taken
  split at taken
  · cases taken
  · rename_i result finishing
    cases taken
    obtain rfl := at_ (by simp [finishing])
    have none := holds.finishes
    rw [finishing] at none
    cases cancelled : task.mCancelled with
    | true =>
        exact .proceeds { holds with finishing := by simp, finishes := none } rfl
          (by simp [Place.distance, finishing, Finish.left])
    | false =>
        exact .proceeds { holds with finishing := by simp, finishes := none } rfl
          (by simp [Place.distance, finishing, Finish.left])
  · rename_i result finishing
    cases taken
    obtain rfl := at_ (by simp [finishing])
    refine .proceeds (holds.deliver (by rw [finishing]; rfl) rfl rfl rfl) rfl ?_
    simp [Place.distance, finishing, Finish.left]
  · rename_i result finishing
    cases taken
    obtain rfl := at_ (by simp [finishing])
    refine .proceeds (holds.deliver (by rw [finishing]; rfl) rfl rfl rfl) rfl ?_
    simp [Place.distance, finishing, Finish.left]
  · rename_i finishing
    cases taken
    obtain rfl := at_ (by simp [finishing])
    have one := holds.finishes
    rw [finishing] at one
    have returned : task.stage = .returned := by simpa using holds.executed
    refine .proceeds { holds with
      called := by simp [returned]
      finishing := by simp
      finishes := one } rfl ?_
    simp [Place.distance, finishing, Finish.left]
  · rename_i finishing
    cases taken
    obtain rfl := at_ (by simp [finishing])
    have one := holds.finishes
    rw [finishing] at one
    refine .moves .done { holds with
      runnable := .inl rfl
      executed := by simpa using holds.executed
      queued := by simpa using holds.queued
      working := by simpa using holds.working
      cancelling := by simpa using holds.cancelling
      posted := by simpa using holds.posted
      finishing := by simp
      finishes := one } ?_
    simp [Place.distance]

/-- A call of `cancel` gets on that has no result to post. -/
theorem Holds.cancels (holds : Holds task place) {caller : Nat} {call : Cancel}
    (was : task.cancels caller ≠ .post) (becomes : call ≠ .post) :
    Holds { task with cancels := Function.update task.cancels caller call } place := by
  refine { holds with cancelling := ?_ }
  intro other
  rw [← holds.cancelling]
  by_cases same : other = caller
  · simp [same, was, becomes]
  · simp [Function.update_of_ne same]

theorem Holds.callCancel {caller : Nat} (holds : Holds task place)
    (taken : task.callCancel caller = some next) :
    Advances (.callCancel caller) task place next := by
  unfold AsyncTask.callCancel at taken
  split at taken
  · rename_i calls
    cases taken
    refine .stays (holds.cancels (by simp [calls.2]) (by simp)) ?_ (by simp [Action.duty])
    cases place <;> rfl
  · cases taken

/-- The duty is that of another call. -/
theorem Holds.cancel_other (holds : Holds task place) {caller : Nat}
    (was : task.cancels caller ≠ .post) (due : Duty) (owed : place.duty = some due) :
    (Action.cancelNext caller : Action Params Progress Result).duty ≠ some due := by
  rintro same
  cases same
  cases place with
  | cancelling other =>
      injection owed with owed
      injection owed with owed
      exact was ((holds.cancelling caller).mpr (by rw [owed]))
  | _ => cases owed

/-- The executor removes nothing, or the task that waits in its queue. -/
theorem Holds.cancelled (holds : Holds task place) :
    Executor.cancel task.queue task.mRunnable = (false, task.queue) ∨
      place = .queued ∧ Executor.cancel task.queue task.mRunnable =
        (true, task.queue.filter (· ≠ .task)) := by
  rcases holds.runnable with none | some
  · exact .inl (by rw [none]; rfl)
  · rw [some]
    by_cases queued : place = .queued
    · have member : Runnable.task ∈ task.queue := by
        rw [← List.count_pos_iff, holds.queued, if_pos queued]
        exact Nat.one_pos
      exact .inr ⟨queued, by simp [Executor.cancel, member]⟩
    · have absent : Runnable.task ∉ task.queue := by
        rw [← List.count_eq_zero, holds.queued, if_neg queued]
      refine .inl ?_
      rw [Executor.cancel, decide_eq_false absent, List.filter_eq_self.mpr]
      intro runnable member
      exact decide_eq_true fun same => absent (same ▸ member)

theorem Holds.cancelGoesOn (holds : Holds task place) {caller : Nat} {call : Cancel}
    (was : task.cancels caller ≠ .post) (becomes : call ≠ .post) :
    Advances (.cancelNext caller) task place
      { task with cancels := Function.update task.cancels caller call } :=
  .stays (holds.cancels was becomes) (by cases place <;> rfl) (holds.cancel_other was)

theorem Holds.cancelReturns (holds : Holds task place) {caller : Nat}
    (was : task.cancels caller ≠ .post) (returned : Bool) :
    Advances (.cancelNext caller) task place
      ({ task with cancels := Function.update task.cancels caller .idle }.record
        (.cancel caller returned)) :=
  .stays ((holds.cancels was (by simp)).record _ rfl rfl rfl) (by cases place <;> rfl)
    (holds.cancel_other was)

theorem Holds.cancelNext {nullptr : Result} {caller : Nat} (holds : Holds task place)
    (taken : task.cancelNext nullptr caller = some next) :
    Advances (.cancelNext caller) task place next := by
  unfold AsyncTask.cancelNext at taken
  split at taken
  · cases taken
  · rename_i call
    have was : task.cancels caller ≠ .post := by simp [call]
    split at taken
    · cases taken
      exact holds.cancelReturns was false
    · cases taken
      exact holds.cancelGoesOn was (by simp)
  · rename_i call
    have was : task.cancels caller ≠ .post := by simp [call]
    split at taken
    · cases taken
      exact holds.cancelGoesOn was (by simp)
    · cases taken
      exact holds.cancelReturns was false
  · rename_i call
    cases taken
    have was : task.cancels caller ≠ .post := by simp [call]
    exact .stays { holds.cancels was (by simp) with } (by cases place <;> rfl)
      (holds.cancel_other was)
  · rename_i call
    have was : task.cancels caller ≠ .post := by simp [call]
    cases holds.cancelled with
    | inl nothing =>
        rw [nothing] at taken
        cases taken
        exact holds.cancelGoesOn was (by simp)
    | inr removed =>
        obtain ⟨rfl, removed⟩ := removed
        rw [removed] at taken
        cases taken
        refine .moves (.cancelling caller) { holds with
          executed := by simpa using holds.executed
          queued := by simp [List.count_eq_zero]
          working := by simpa using holds.working
          cancelling := ?_
          posted := by simpa using holds.posted
          finishing := by simpa using holds.finishing
          starts := Nat.le_of_add_right_le holds.starts } ?_
        · intro other
          by_cases same : other = caller
          · simp [same]
          · have notPost : task.cancels other ≠ .post := by simp [holds.cancelling]
            simp [Function.update_of_ne same, notPost, Ne.symm same]
        · simp [Place.distance]
  · rename_i call
    cases taken
    obtain rfl := (holds.cancelling caller).mp call
    have away : Away { task with
        cancels := Function.update task.cancels caller .returnTrue } := {
      runnable := holds.runnable
      called := holds.called
      executed := by simpa using holds.executed
      queued := by simpa using holds.queued
      working := by simpa using holds.working
      cancelling := by
        intro other
        by_cases same : other = caller
        · simp [same]
        · simp [Function.update_of_ne same, holds.cancelling, Ne.symm same]
      posted := by simpa using holds.posted
      finishing := by simpa using holds.finishing
      posts := holds.posts
      finishes := holds.finishes
      starts := Nat.le_of_add_right_le holds.starts }
    refine .moves .posted (away.postResult nullptr) ?_
    simp [Place.distance]
  · rename_i call
    cases taken
    have was : task.cancels caller ≠ .post := by simp [call]
    exact holds.cancelReturns was true

theorem Holds.callPublishProgress {caller : Nat} {progress : Progress}
    (holds : Holds task place) (taken : task.callPublishProgress caller progress = some next) :
    Advances (.callPublishProgress caller progress) task place next := by
  unfold AsyncTask.callPublishProgress at taken
  split at taken
  · cases taken
    exact .stays { holds with } (by cases place <;> rfl) (by simp [Action.duty])
  · cases taken

theorem Holds.publishNext {caller : Nat} (holds : Holds task place)
    (taken : task.publishNext caller = some next) :
    Advances (.publishNext caller) task place next := by
  unfold AsyncTask.publishNext at taken
  split at taken
  · cases taken
  · cases taken
    exact .stays { holds with } (by cases place <;> rfl) (by simp [Action.duty])
  · rename_i progress _
    cases taken
    refine .stays { holds with
      posted := by simpa [Message.isResult] using holds.posted
      posts := by simpa [Event.isPost] using holds.posts
      finishes := by simpa [Event.isFinish] using holds.finishes
      starts := by simpa [Event.isStart] using holds.starts } ?_ (by simp [Action.duty])
    cases place with
    | posted =>
        have some : 0 < task.messages.countP Message.isResult := by simp [holds.posted]
        have inside : task.messages.findIdx Message.isResult < task.messages.length :=
          List.findIdx_lt_length.mpr (List.countP_pos_iff.mp some)
        simp [Place.distance, List.findIdx_append, inside]
    | _ => rfl

theorem Holds.executeOther (holds : Holds task place) (id : Nat) :
    Advances (.executeOther id) task place
      { task with queue := Executor.execute task.queue (.other id) } := by
  refine .stays (holds.queue _ (by simp [Executor.execute])) ?_ (by simp [Action.duty])
  cases place with
  | queued =>
      have member : Runnable.task ∈ task.queue := by
        rw [← List.count_pos_iff, holds.queued]
        exact Nat.one_pos
      simp [Place.distance, Executor.execute, List.idxOf_append_of_mem member]
  | _ => rfl

/-- What is removed from a queue brings the others closer to its front. -/
theorem idxOf_filter_le (keeps : Runnable → Bool) (kept : keeps .task = true)
    (queue : List Runnable) :
    (queue.filter keeps).idxOf .task ≤ queue.idxOf .task := by
  induction queue with
  | nil => exact Nat.le_refl _
  | cons first queue ih =>
      by_cases same : first = .task
      · simp [same, kept]
      · rw [List.idxOf_cons_ne _ same]
        cases stays : keeps first with
        | true =>
            rw [List.filter_cons_of_pos stays, List.idxOf_cons_ne _ same]
            exact Nat.succ_le_succ ih
        | false =>
            rw [List.filter_cons_of_neg (by simp [stays])]
            exact Nat.le_succ_of_le ih

theorem Holds.cancelOther (holds : Holds task place) (id : Nat) :
    Advances (.cancelOther id) task place
      { task with queue := (Executor.cancel task.queue (some (.other id))).2 } := by
  have fewer := holds.queue (Executor.cancel task.queue (some (.other id))).2
    (List.count_filter (by simp))
  by_cases closer : place = .queued ∧
      (Executor.cancel task.queue (some (.other id))).2.idxOf .task < task.queue.idxOf .task
  · obtain ⟨rfl, closer⟩ := closer
    exact .proceeds fewer rfl closer
  · refine .stays fewer ?_ (by simp [Action.duty])
    cases place with
    | queued =>
        have same := (idxOf_filter_le (· ≠ .other id) (by simp) task.queue).antisymm
          (Nat.le_of_not_lt fun less => closer ⟨rfl, less⟩)
        exact congrArg (fun index => toLex (4, index)) same
    | _ => rfl

/-- Whatever is done, the result is at one place, and gets on if it is the duty there. -/
theorem Holds.step {nullptr : Result} (holds : Holds task place)
    (taken : step nullptr task action = some next) : Advances action task place next := by
  cases action with
  | executeOnExecutor params =>
      cases taken
      exact holds.executeOnExecutor params
  | executeNext => exact holds.executeNext taken
  | executeOther id =>
      cases taken
      exact holds.executeOther id
  | cancelOther id =>
      cases taken
      exact holds.cancelOther id
  | take worker => exact holds.take taken
  | runNext worker result => exact holds.runNext taken
  | handleMessage => exact holds.handleMessage taken
  | finishNext => exact holds.finishNext taken
  | callCancel caller => exact holds.callCancel taken
  | cancelNext caller => exact holds.cancelNext taken
  | callPublishProgress caller progress => exact holds.callPublishProgress taken
  | publishNext caller => exact holds.publishNext taken

end Steps

/-! ## Runs -/

section Runs

variable {task : AsyncTask Params Progress Result} {nullptr : Result}
  {queue : List Runnable}

theorem holds_pending (others : Runnable.task ∉ queue) :
    Holds (pending queue : AsyncTask Params Progress Result) .unexecuted where
  runnable := .inr rfl
  called := by simp [pending]
  executed := by simp [pending]
  queued := List.count_eq_zero.mpr others
  working := by simp [pending]
  cancelling := by simp [pending]
  posted := rfl
  finishing := by simp [pending]
  posts := rfl
  finishes := rfl
  starts := Nat.le_refl _

/-- No result is posted twice, none is delivered twice, and `doInBackground` is called once. -/
theorem holds_once {place : Place} (holds : Holds task place) :
    posts task.events ≤ 1 ∧ finishes task.events ≤ 1 ∧ starts task.events ≤ 1 := by
  refine ⟨?_, ?_, Nat.le_of_add_right_le holds.starts⟩
  · rw [holds.posts]
    cases place <;> simp [Place.posts]
  · rw [holds.finishes]
    cases place with
    | finishing => cases task.finishing <;> simp [Place.finishes, Finish.called]
    | _ => simp [Place.finishes]

/-- The result of a task that was executed is still on its way. -/
def Owes (due : Duty) (distance : Nat ×ₗ Nat) (task : AsyncTask Params Progress Result) : Prop :=
  ∃ place, Holds task place ∧ place.duty = some due ∧ place.distance task = distance ∧
    distance < toLex (5, 2)

theorem distance_executed {place : Place} (holds : Holds task place)
    (executed : task.mStatus ≠ .PENDING) : place.distance task < toLex (5, 2) := by
  rw [Ne, holds.called] at executed
  cases place with
  | unexecuted =>
      refine Prod.Lex.lt_iff.mpr (.inr ⟨rfl, ?_⟩)
      cases stage : task.stage with
      | notCalled => exact absurd stage executed
      | _ => simp [Place.distance, stage, Stage.left]
  | _ => exact Prod.Lex.lt_iff.mpr (.inl (by simp [Place.distance]))

/-- Whose duty it is can get on. -/
theorem able {due : Duty} {distance : Nat ×ₗ Nat} (owes : Owes due distance task) :
    Execution.Able (step nullptr) Action.duty due task := by
  rcases owes with ⟨place, holds, duty, rfl, near⟩
  cases place with
  | unexecuted =>
      cases duty
      refine ⟨.executeNext, rfl, ?_⟩
      have running : task.stage ≠ .returned := by simp [holds.executed]
      cases stage : task.stage with
      | notCalled => simp [Place.distance, stage, Stage.left] at near
      | onPreExecute params => simp [step, executeNext, stage]
      | execute params => simp [step, executeNext, stage]
      | returned => exact absurd stage running
  | queued =>
      cases duty
      refine ⟨.take 0, rfl, ?_⟩
      have idle : task.workers 0 = .idle := by simpa using holds.working 0
      cases queue : task.queue with
      | nil => simpa [queue] using holds.queued
      | cons first queue' => cases first <;> simp [step, take, idle, queue]
  | working worker =>
      cases duty
      refine ⟨.runNext worker nullptr, rfl, ?_⟩
      have busy := (holds.working worker).mpr rfl
      cases work : task.workers worker with
      | idle => exact absurd work busy
      | _ => simp [step, runNext, work]
  | cancelling caller =>
      cases duty
      have call := (holds.cancelling caller).mpr rfl
      exact ⟨.cancelNext caller, rfl, by simp [step, cancelNext, call]⟩
  | posted =>
      cases duty
      refine ⟨.handleMessage, rfl, ?_⟩
      have idle : task.finishing = .idle := by simpa using holds.finishing
      cases messages : task.messages with
      | nil => simpa [messages] using holds.posted
      | cons first messages' => cases first <;> simp [step, handleMessage, idle, messages]
  | finishing =>
      cases duty
      refine ⟨.finishNext, rfl, ?_⟩
      have busy := holds.finishing.mpr rfl
      cases finishing : task.finishing with
      | idle => exact absurd finishing busy
      | _ => simp [step, finishNext, finishing]
  | done => cases duty

/-- What is owed gets on until the result is delivered. -/
theorem progress : Execution.Progress (step nullptr) Action.duty
    (Owes : _ → _ → AsyncTask Params Progress Result → Prop) (Holds · .done) where
  able := fun _ _ _ owes => able owes
  proceeds := by
    rintro due distance task action next ⟨place, holds, duty, rfl, near⟩ taken
    rcases holds.step taken with ⟨place', holds', less | ⟨rfl, same, other⟩⟩
    · cases duty' : place'.duty with
      | none =>
          cases place' with
          | done => exact .inl holds'
          | _ => cases duty'
      | some due' =>
          exact .inr (.inl ⟨due', _, less, place', holds', duty', rfl, less.trans near⟩)
    · exact .inr (.inr ⟨⟨place', holds', duty, same, near⟩, other due duty⟩)

/-- Nothing happens to a result that was delivered. -/
theorem done_stays {action : Action Params Progress Result}
    {next : AsyncTask Params Progress Result} (holds : Holds task .done)
    (taken : step nullptr task action = some next) : Holds next .done := by
  rcases holds.step taken with ⟨place, holds', less | ⟨rfl, _⟩⟩
  · rcases Prod.Lex.lt_iff.mp less with lower | ⟨_, lower⟩
    · exact absurd lower (Nat.not_lt_zero _)
    · exact absurd lower (Nat.not_lt_zero _)
  · exact holds'

/-- No interleaving posts or delivers more than one result, and every fair one posts the result of a
task that is executed and delivers it, to `onPostExecute` or to `onCancelled`. -/
theorem exactly_one_result
    {execution : Execution (step nullptr : AsyncTask Params Progress Result → _ → _)}
    (others : Runnable.task ∉ queue) (start : execution.states 0 = pending queue) :
    (∀ time, posts (execution.states time).events ≤ 1 ∧
      finishes (execution.states time).events ≤ 1 ∧
      starts (execution.states time).events ≤ 1) ∧
    (execution.Fair Action.duty → ∀ time, (execution.states time).mStatus ≠ .PENDING →
      ∃ delivered, time ≤ delivered ∧ ∀ later, delivered ≤ later →
        posts (execution.states later).events = 1 ∧
        finishes (execution.states later).events = 1) := by
  have holds : ∀ time, ∃ place, Holds (execution.states time) place := by
    intro time
    refine Execution.stays (fun task => ∃ place, Holds task place) ?_ ?_ (Nat.zero_le time)
    · rintro task action next ⟨place, holds⟩ taken
      rcases holds.step taken with ⟨place', holds', _⟩
      exact ⟨place', holds'⟩
    · exact ⟨.unexecuted, start ▸ holds_pending others⟩
  refine ⟨fun time => ?_, fun fair time executed => ?_⟩
  · rcases holds time with ⟨place, holds⟩
    exact holds_once holds
  · rcases holds time with ⟨place, holds⟩
    have near := distance_executed holds executed
    have delivered :
        ∃ delivered, time ≤ delivered ∧ Holds (execution.states delivered) .done := by
      cases duty : place.duty with
      | none =>
          cases place with
          | done => exact ⟨time, le_rfl, holds⟩
          | _ => cases duty
      | some due => exact progress.eventually fair ⟨place, holds, duty, rfl, near⟩
    rcases delivered with ⟨delivered, after, done⟩
    refine ⟨delivered, after, fun later further => ?_⟩
    have still := Execution.stays (fun task => Holds task .done)
      (fun _ _ _ holds taken => done_stays holds taken) done further
    exact ⟨still.posts, still.finishes⟩

/-- Nobody has the duty when nothing is left to do. -/
theorem not_able (returned : task.stage = .returned) (queue : task.queue = [])
    (workers : ∀ worker, task.workers worker = .idle) (messages : task.messages = [])
    (finishing : task.finishing = .idle) (cancels : ∀ caller, task.cancels caller = .idle)
    (due : Duty) : ¬Execution.Able (step nullptr) Action.duty due task := by
  rintro ⟨action, duty, possible⟩
  cases action with
  | executeNext => simp [step, executeNext, returned] at possible
  | take worker => simp [step, take, queue] at possible
  | runNext worker result => simp [step, runNext, workers] at possible
  | handleMessage => simp [step, handleMessage, messages] at possible
  | finishNext => simp [step, finishNext, finishing] at possible
  | cancelNext caller => simp [step, cancelNext, cancels] at possible
  | _ => cases duty

/-- A task is cancelled while it waits in the queue of its executor. -/
def cancelledInQueue : List (Action Nat Nat Nat) :=
  [.executeOnExecutor 7, .callCancel 0, .executeNext, .cancelNext 0, .executeNext, .cancelNext 0,
    .cancelNext 0, .cancelNext 0, .cancelNext 0, .cancelNext 0, .handleMessage, .finishNext,
    .finishNext, .finishNext, .finishNext]

theorem exactly_one_result_instance :
    let execution := Execution.script (step 0) (pending []) cancelledInQueue
    ∃ delivered, 1 ≤ delivered ∧ ∀ later, delivered ≤ later →
      posts (execution.states later).events = 1 ∧
      finishes (execution.states later).events = 1 := by
  refine (exactly_one_result (List.not_mem_nil) rfl).2 (Execution.script_fair ?_) 1 (by decide)
  refine not_able rfl rfl (fun _ => rfl) rfl rfl fun caller => ?_
  cases caller with
  | zero => rfl
  | succ other => rfl

end Runs

end AsyncTask

end Mindroid
