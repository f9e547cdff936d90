import Mathlib.Data.List.Basic
import Mathlib.Logic.Function.Basic
import Mindroid.Foundation.Transition

/-!
# Asynchronous tasks

A task is executed by the thread of a handler, run by a worker thread of an executor, and finished
on the thread of the handler again.  Any thread may cancel it meanwhile.  Every access to the flags
of the task, every operation of the executor and every message that is sent is a step of its own.
-/

set_option autoImplicit false

namespace Mindroid

open Foundation

/-- What the queue of an executor contains: the `mRunnable` of the task, or that of another. -/
inductive Runnable where
  | task
  | other (id : Nat)
  deriving DecidableEq

namespace Executor

/-- `execute` puts a runnable at the end of the queue. -/
def execute (queue : List Runnable) (runnable : Runnable) : List Runnable :=
  queue ++ [runnable]

/-- `cancel` removes a runnable that no worker has taken yet.  It does nothing without one. -/
def cancel (queue : List Runnable) : Option Runnable → Bool × List Runnable
  | none => (false, queue)
  | some runnable => (decide (runnable ∈ queue), queue.filter (· ≠ runnable))

end Executor

namespace AsyncTask

inductive Status where
  | PENDING
  | RUNNING
  | FINISHED
  deriving DecidableEq

variable (Params Progress Result : Type)

/-- `executeOnExecutor` calls `onPreExecute`, and then `mExecutor->execute`. -/
inductive Stage where
  | notCalled
  | onPreExecute (params : Params)
  | execute (params : Params)
  | returned

/-- `WorkerRunnable::run` calls `doInBackground`, and then posts the result. -/
inductive Work where
  | idle
  | taken
  | doInBackground
  | post (result : Result)

/-- The messages of the handler of the task. -/
inductive Message where
  | postResult (result : Result)
  | postProgress (id : Nat) (progress : Progress)

/-- `finish` looks at the flag, calls `onCancelled` or `onPostExecute`, and then sets `mStatus` and
clears `mRunnable`. -/
inductive Finish where
  | idle
  | isCancelled (result : Result)
  | onCancelled (result : Result)
  | onPostExecute (result : Result)
  | setStatus
  | clear

/-- The next thing that a call of `cancel` does. -/
inductive Cancel where
  | idle
  | isCancelled
  | status
  | set
  | cancel
  | post
  | returnTrue
  deriving DecidableEq

/-- The next thing that a call of `publishProgress` does. -/
inductive Publish where
  | idle
  | isCancelled (progress : Progress)
  | post (progress : Progress)

/-- What can be seen from outside: the calls of the methods of a subclass, the messages that are
posted, and what `cancel` and a second `executeOnExecutor` do. -/
inductive Event where
  | thrown (message : String)
  | onPreExecute
  | doInBackground (params : Option Params)
  | onProgressUpdate (id : Nat) (progress : Progress)
  | onPostExecute (result : Result)
  | onCancelled (result : Result)
  | postedResult (result : Result)
  | postedProgress (id : Nat) (progress : Progress)
  | cancel (caller : Nat) (returned : Bool)

end AsyncTask

open AsyncTask in
/-- A task with the threads that work on it.  `mRunnable` is none after it was cleared, `events`
has the latest event first, and `progresses` counts the progress messages. -/
structure AsyncTask (Params Progress Result : Type) where
  mStatus : Status
  mCancelled : Bool
  mRunnable : Option Runnable
  mParams : Option Params
  stage : Stage Params
  queue : List Runnable
  workers : Nat → Work Result
  messages : List (Message Progress Result)
  finishing : Finish Result
  cancels : Nat → Cancel
  publishes : Nat → Publish Progress
  progresses : Nat
  events : List (Event Params Progress Result)

namespace AsyncTask

variable {Params Progress Result : Type}

/-- A task that was not executed yet.  The executor may have other work. -/
def pending (queue : List Runnable) : AsyncTask Params Progress Result where
  mStatus := .PENDING
  mCancelled := false
  mRunnable := some .task
  mParams := none
  stage := .notCalled
  queue := queue
  workers := fun _ => .idle
  messages := []
  finishing := .idle
  cancels := fun _ => .idle
  publishes := fun _ => .idle
  progresses := 0
  events := []

/-- Something happens that can be seen from outside. -/
@[simps -fullyApplied]
def record (task : AsyncTask Params Progress Result) (event : Event Params Progress Result) :
    AsyncTask Params Progress Result :=
  { task with events := event :: task.events }

/-- A `MESSAGE_POST_RESULT` is sent. -/
@[simps -fullyApplied]
def postResult (task : AsyncTask Params Progress Result) (result : Result) :
    AsyncTask Params Progress Result :=
  { task with
    messages := task.messages ++ [.postResult result]
    events := .postedResult result :: task.events }

/-- A `MESSAGE_POST_PROGRESS` is sent. -/
@[simps -fullyApplied]
def postProgress (task : AsyncTask Params Progress Result) (progress : Progress) :
    AsyncTask Params Progress Result :=
  { task with
    messages := task.messages ++ [.postProgress task.progresses progress]
    progresses := task.progresses + 1
    events := .postedProgress task.progresses progress :: task.events }

/-! ## The thread that executes the task -/

/-- The beginning of `executeOnExecutor`, as far as the call of `onPreExecute`. -/
def executeOnExecutor (task : AsyncTask Params Progress Result) (params : Params) :
    AsyncTask Params Progress Result :=
  match task.mStatus with
  | .PENDING =>
      { task with mStatus := .RUNNING, stage := .onPreExecute params }.record .onPreExecute
  | .RUNNING =>
      task.record (.thrown "Cannot execute task: the task is already running")
  | .FINISHED =>
      task.record (.thrown ("Cannot execute task: the task has already been executed " ++
        "(a task can be executed only once)"))

/-- The rest of `executeOnExecutor`. -/
def executeNext (task : AsyncTask Params Progress Result) :
    Option (AsyncTask Params Progress Result) :=
  match task.stage with
  | .onPreExecute params => some { task with stage := .execute params }
  | .execute params =>
      some { task with
        mParams := some params
        queue := Executor.execute task.queue .task
        stage := .returned }
  | _ => none

/-! ## The workers of the executor -/

/-- A worker takes the first runnable of the queue. -/
def take (task : AsyncTask Params Progress Result) (worker : Nat) :
    Option (AsyncTask Params Progress Result) :=
  match task.workers worker, task.queue with
  | .idle, .task :: queue =>
      some { task with queue := queue, workers := Function.update task.workers worker .taken }
  | .idle, .other _ :: queue => some { task with queue := queue }
  | _, _ => none

/-- The next step of `WorkerRunnable::run`.  The result is that of `doInBackground`. -/
def runNext (task : AsyncTask Params Progress Result) (worker : Nat) (result : Result) :
    Option (AsyncTask Params Progress Result) :=
  match task.workers worker with
  | .idle => none
  | .taken =>
      some ({ task with workers := Function.update task.workers worker .doInBackground }.record
        (.doInBackground task.mParams))
  | .doInBackground =>
      some { task with workers := Function.update task.workers worker (.post result) }
  | .post result =>
      some ({ task with workers := Function.update task.workers worker .idle }.postResult result)

/-! ## The thread of the handler -/

/-- `handleMessage` gets the first message. -/
def handleMessage (task : AsyncTask Params Progress Result) :
    Option (AsyncTask Params Progress Result) :=
  match task.finishing, task.messages with
  | .idle, .postResult result :: messages =>
      some { task with messages := messages, finishing := .isCancelled result }
  | .idle, .postProgress id progress :: messages =>
      some ({ task with messages := messages }.record (.onProgressUpdate id progress))
  | _, _ => none

/-- The next step of `finish`. -/
def finishNext (task : AsyncTask Params Progress Result) :
    Option (AsyncTask Params Progress Result) :=
  match task.finishing with
  | .idle => none
  | .isCancelled result =>
      some { task with
        finishing := if task.mCancelled then .onCancelled result else .onPostExecute result }
  | .onCancelled result => some ({ task with finishing := .setStatus }.record (.onCancelled result))
  | .onPostExecute result =>
      some ({ task with finishing := .setStatus }.record (.onPostExecute result))
  | .setStatus => some { task with mStatus := .FINISHED, finishing := .clear }
  | .clear => some { task with mRunnable := none, finishing := .idle }

/-! ## Calls from anywhere -/

/-- Somebody calls `cancel`, from `onPreExecute` on. -/
def callCancel (task : AsyncTask Params Progress Result) (caller : Nat) :
    Option (AsyncTask Params Progress Result) :=
  if task.mStatus ≠ .PENDING ∧ task.cancels caller = .idle then
    some { task with cancels := Function.update task.cancels caller .isCancelled }
  else
    none

/-- The next step of `cancel`.  The `nullptr` of the source is the result of a task that is
removed from the queue of the executor. -/
def cancelNext (nullptr : Result) (task : AsyncTask Params Progress Result) (caller : Nat) :
    Option (AsyncTask Params Progress Result) :=
  match task.cancels caller with
  | .idle => none
  | .isCancelled =>
      if task.mCancelled then
        some ({ task with cancels := Function.update task.cancels caller .idle }.record
          (.cancel caller false))
      else
        some { task with cancels := Function.update task.cancels caller .status }
  | .status =>
      if task.mStatus = .RUNNING then
        some { task with cancels := Function.update task.cancels caller .set }
      else
        some ({ task with cancels := Function.update task.cancels caller .idle }.record
          (.cancel caller false))
  | .set =>
      some { task with
        mCancelled := true
        cancels := Function.update task.cancels caller .cancel }
  | .cancel =>
      let (cancelled, queue) := Executor.cancel task.queue task.mRunnable
      some { task with
        queue := queue
        cancels := Function.update task.cancels caller
          (if cancelled then .post else .returnTrue) }
  | .post =>
      some ({ task with cancels := Function.update task.cancels caller .returnTrue }.postResult
        nullptr)
  | .returnTrue =>
      some ({ task with cancels := Function.update task.cancels caller .idle }.record
        (.cancel caller true))

/-- Somebody calls `publishProgress`. -/
def callPublishProgress (task : AsyncTask Params Progress Result) (caller : Nat)
    (progress : Progress) : Option (AsyncTask Params Progress Result) :=
  match task.publishes caller with
  | .idle =>
      some { task with
        publishes := Function.update task.publishes caller (.isCancelled progress) }
  | _ => none

/-- The next step of `publishProgress`. -/
def publishNext (task : AsyncTask Params Progress Result) (caller : Nat) :
    Option (AsyncTask Params Progress Result) :=
  match task.publishes caller with
  | .idle => none
  | .isCancelled progress =>
      some { task with
        publishes := Function.update task.publishes caller
          (if task.mCancelled then .idle else .post progress) }
  | .post progress =>
      some ({ task with publishes := Function.update task.publishes caller .idle }.postProgress
        progress)

/-! ## Steps -/

/-- Who does something next.  Other users of the executor execute and cancel runnables of their
own. -/
inductive Action (Params Progress Result : Type) where
  | executeOnExecutor (params : Params)
  | executeNext
  | executeOther (id : Nat)
  | cancelOther (id : Nat)
  | take (worker : Nat)
  | runNext (worker : Nat) (result : Result)
  | handleMessage
  | finishNext
  | callCancel (caller : Nat)
  | cancelNext (caller : Nat)
  | callPublishProgress (caller : Nat) (progress : Progress)
  | publishNext (caller : Nat)

def step (nullptr : Result) (task : AsyncTask Params Progress Result) :
    Action Params Progress Result → Option (AsyncTask Params Progress Result)
  | .executeOnExecutor params => some (task.executeOnExecutor params)
  | .executeNext => task.executeNext
  | .executeOther id => some { task with queue := Executor.execute task.queue (.other id) }
  | .cancelOther id =>
      some { task with queue := (Executor.cancel task.queue (some (.other id))).2 }
  | .take worker => task.take worker
  | .runNext worker result => task.runNext worker result
  | .handleMessage => task.handleMessage
  | .finishNext => task.finishNext
  | .callCancel caller => task.callCancel caller
  | .cancelNext caller => task.cancelNext nullptr caller
  | .callPublishProgress caller progress => task.callPublishProgress caller progress
  | .publishNext caller => task.publishNext caller

end AsyncTask

end Mindroid
