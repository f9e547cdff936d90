import Mindroid.Os.AsyncTaskRuns

/-!
# What a cancelled task still does

After `cancel` has returned true, `doInBackground` should not be started, `onPostExecute` not be
called, and no progress be delivered that is still in the queue.  This depends on what is under
way when `cancel` returns.
-/

set_option autoImplicit false

namespace Mindroid

open Foundation

namespace AsyncTask

variable {Params Progress Result : Type}

/-! ## The promise of cancel -/

/-- Some `cancel` has returned true. -/
def Cancelled (events : List (Event Params Progress Result)) : Prop :=
  ∃ caller, .cancel caller true ∈ events

/-- A progress message was posted before some `cancel` returned true. -/
def Overtaken (id : Nat) : List (Event Params Progress Result) → Prop
  | [] => False
  | event :: events =>
      (∃ caller, event = .cancel caller true) ∧
          (∃ progress, .postedProgress id progress ∈ events) ∨
        Overtaken id events

/-- What may happen after the events so far. -/
def Allowed (events : List (Event Params Progress Result)) : Event Params Progress Result → Prop
  | .doInBackground _ => ¬Cancelled events
  | .onPostExecute _ => ¬Cancelled events
  | .onProgressUpdate id _ => ¬Overtaken id events
  | _ => True

/-- Every event was allowed when it happened. -/
def Honored : List (Event Params Progress Result) → Prop
  | [] => True
  | event :: events => Allowed events event ∧ Honored events

/-- The runnable of the task can still be started. -/
def Startable (task : AsyncTask Params Progress Result) : Prop :=
  task.stage ≠ .returned ∨ .task ∈ task.queue ∨ ∃ worker, task.workers worker = .taken

/-- When `cancel` returns true, `doInBackground` was started or never will be, `finish` is not about
to call `onPostExecute`, and no progress is in the queue. -/
def Timely (task : AsyncTask Params Progress Result) : Action Params Progress Result → Prop
  | .cancelNext caller =>
      task.cancels caller = .returnTrue →
        ¬Startable task ∧ (∀ result, task.finishing ≠ .onPostExecute result) ∧
          ∀ id progress, .postProgress id progress ∉ task.messages
  | _ => True

/-! ## What is kept -/

theorem not_overtaken {id : Nat} {events : List (Event Params Progress Result)}
    (unposted : ∀ progress, .postedProgress id progress ∉ events) : ¬Overtaken id events := by
  induction events with
  | nil => exact not_false
  | cons event events ih =>
      rintro (⟨_, progress, posted⟩ | overtaken)
      · exact unposted progress (List.mem_cons_of_mem _ posted)
      · exact ih (fun progress posted =>
          unposted progress (List.mem_cons_of_mem _ posted)) overtaken

/-- What holds as long as every `cancel` returns in time. -/
structure Keeps (task : AsyncTask Params Progress Result) : Prop where
  honored : Honored task.events
  flag : Cancelled task.events → task.mCancelled = true
  calls : ∀ caller, task.cancels caller = .cancel ∨ task.cancels caller = .post ∨
    task.cancels caller = .returnTrue → task.mCancelled = true
  started : Cancelled task.events → ¬Startable task
  finish : Cancelled task.events → ∀ result, task.finishing ≠ .onPostExecute result
  fresh : ∀ id progress, .postedProgress id progress ∈ task.events → id < task.progresses
  waiting : ∀ id progress, .postProgress id progress ∈ task.messages → ¬Overtaken id task.events

section Steps

variable {task next : AsyncTask Params Progress Result}

/-- An event other than the return of `cancel`. -/
theorem cancelled_cons {event : Event Params Progress Result}
    {events : List (Event Params Progress Result)} (other : ∀ caller, event ≠ .cancel caller true) :
    Cancelled (event :: events) ↔ Cancelled events := by
  refine exists_congr fun caller => ?_
  rw [List.mem_cons, or_iff_right (Ne.symm (other caller))]

theorem overtaken_cons {event : Event Params Progress Result} {id : Nat}
    {events : List (Event Params Progress Result)} (other : ∀ caller, event ≠ .cancel caller true) :
    Overtaken id (event :: events) ↔ Overtaken id events :=
  or_iff_right fun ⟨⟨caller, same⟩, _⟩ => other caller same

theorem Keeps.record (keeps : Keeps task) (event : Event Params Progress Result)
    (other : ∀ caller, event ≠ .cancel caller true)
    (unposted : ∀ id progress, event ≠ .postedProgress id progress)
    (allowed : Allowed task.events event) : Keeps (task.record event) where
  honored := ⟨allowed, keeps.honored⟩
  flag := fun cancelled => keeps.flag ((cancelled_cons other).mp cancelled)
  calls := keeps.calls
  started := fun cancelled => keeps.started ((cancelled_cons other).mp cancelled)
  finish := fun cancelled => keeps.finish ((cancelled_cons other).mp cancelled)
  fresh := by
    intro id progress posted
    cases posted with
    | head => exact absurd rfl (unposted id progress)
    | tail _ posted => exact keeps.fresh id progress posted
  waiting := fun id progress waits overtaken =>
    keeps.waiting id progress waits ((overtaken_cons other).mp overtaken)

theorem Keeps.postResult (keeps : Keeps task) (result : Result) :
    Keeps (task.postResult result) :=
  have posted := keeps.record (.postedResult result) (by simp) (by simp) trivial
  { posted with
    waiting := by
      intro id progress waits
      refine posted.waiting id progress ?_
      simpa using waits }

/-- Only steps of the task itself make it startable. -/
theorem Keeps.unstarted (keeps : Keeps task) (startable : Startable task) :
    ¬Cancelled task.events :=
  fun cancelled => keeps.started cancelled startable

theorem Keeps.executeOnExecutor {place : Place} (holds : Holds task place) (keeps : Keeps task)
    (params : Params) : Keeps (task.executeOnExecutor params) := by
  cases status : task.mStatus with
  | PENDING =>
      have notCalled := holds.called.mp status
      have uncancelled := keeps.unstarted (.inl (by simp [notCalled]))
      simp only [AsyncTask.executeOnExecutor, status]
      have called : Keeps { task with mStatus := .RUNNING, stage := .onPreExecute params } :=
        { keeps with started := fun cancelled => absurd cancelled uncancelled }
      exact called.record _ (by simp) (by simp) trivial
  | RUNNING =>
      simp only [AsyncTask.executeOnExecutor, status]
      exact keeps.record _ (by simp) (by simp) trivial
  | FINISHED =>
      simp only [AsyncTask.executeOnExecutor, status]
      exact keeps.record _ (by simp) (by simp) trivial

theorem Keeps.executeNext (keeps : Keeps task) (taken : task.executeNext = some next) :
    Keeps next := by
  unfold AsyncTask.executeNext at taken
  split at taken
  · rename_i params stage
    cases taken
    have uncancelled := keeps.unstarted (.inl (by simp [stage]))
    exact { keeps with started := fun cancelled => absurd cancelled uncancelled }
  · rename_i params stage
    cases taken
    have uncancelled := keeps.unstarted (.inl (by simp [stage]))
    exact { keeps with started := fun cancelled => absurd cancelled uncancelled }
  · cases taken

theorem Keeps.queue {queue : List Runnable} (keeps : Keeps task)
    (fewer : .task ∈ queue → .task ∈ task.queue) : Keeps { task with queue := queue } :=
  { keeps with
    started := fun cancelled startable =>
      keeps.started cancelled (startable.imp_right (Or.imp_left fewer)) }

theorem Keeps.take {worker : Nat} (keeps : Keeps task) (taken : task.take worker = some next) :
    Keeps next := by
  unfold AsyncTask.take at taken
  split at taken
  · rename_i idle first
    cases taken
    have uncancelled := keeps.unstarted (.inr (.inl (by simp [first])))
    exact { keeps with started := fun cancelled => absurd cancelled uncancelled }
  · rename_i id queue idle first
    cases taken
    exact keeps.queue fun member => by simp [first, member]
  · cases taken

theorem Keeps.runNext {worker : Nat} {result : Result} (keeps : Keeps task)
    (taken : task.runNext worker result = some next) : Keeps next := by
  have fewer (work : Work Result) (notTaken : work ≠ .taken)
      (startable : Startable { task with
        workers := Function.update task.workers worker work }) : Startable task := by
    refine startable.imp_right (Or.imp_right ?_)
    rintro ⟨other, isTaken⟩
    by_cases same : other = worker
    · subst same
      exact absurd (by simpa using isTaken) notTaken
    · exact ⟨other, by simpa [Function.update_of_ne same] using isTaken⟩
  have quieter (work : Work Result) (notTaken : work ≠ .taken) :
      Keeps { task with workers := Function.update task.workers worker work } :=
    { keeps with
      started := fun cancelled startable =>
        keeps.started cancelled (fewer work notTaken startable) }
  unfold AsyncTask.runNext at taken
  split at taken
  · cases taken
  · rename_i work
    cases taken
    have uncancelled := keeps.unstarted (.inr (.inr ⟨worker, work⟩))
    exact (quieter .doInBackground (by simp)).record _ (by simp) (by simp) uncancelled
  · cases taken
    exact quieter _ (by simp)
  · cases taken
    exact (quieter .idle (by simp)).postResult _

theorem Keeps.handleMessage (keeps : Keeps task) (taken : task.handleMessage = some next) :
    Keeps next := by
  unfold AsyncTask.handleMessage at taken
  split at taken
  · rename_i result messages idle first
    cases taken
    exact { keeps with
      finish := by simp
      waiting := fun id progress waits =>
        keeps.waiting id progress (by simp [first, waits]) }
  · rename_i id progress messages idle first
    cases taken
    have fewer : Keeps { task with messages := messages } :=
      { keeps with
        waiting := fun id progress waits =>
          keeps.waiting id progress (by simp [first, waits]) }
    exact fewer.record _ (by simp) (by simp) (keeps.waiting id progress (by simp [first]))
  · cases taken

theorem Keeps.finishNext (keeps : Keeps task) (taken : task.finishNext = some next) :
    Keeps next := by
  unfold AsyncTask.finishNext at taken
  split at taken
  · cases taken
  · rename_i result finishing
    cases taken
    refine { keeps with finish := fun cancelled => ?_ }
    simp [keeps.flag cancelled]
  · rename_i result finishing
    cases taken
    have called : Keeps { task with finishing := .setStatus } := { keeps with finish := by simp }
    exact called.record _ (by simp) (by simp) trivial
  · rename_i result finishing
    cases taken
    have uncancelled : ¬Cancelled task.events :=
      fun cancelled => keeps.finish cancelled result finishing
    have called : Keeps { task with finishing := .setStatus } := { keeps with finish := by simp }
    exact called.record _ (by simp) (by simp) uncancelled
  · cases taken
    exact { keeps with finish := by simp }
  · cases taken
    exact { keeps with finish := by simp }

/-- A call of `cancel` gets to a place after the flag was set only with the flag set. -/
theorem Keeps.cancels (keeps : Keeps task) {caller : Nat} {call : Cancel}
    (flag : call = .cancel ∨ call = .post ∨ call = .returnTrue → task.mCancelled = true) :
    Keeps { task with cancels := Function.update task.cancels caller call } := by
  refine { keeps with calls := fun other => ?_ }
  by_cases same : other = caller
  · simpa [same] using flag
  · simpa [Function.update_of_ne same] using keeps.calls other

theorem Keeps.callCancel {caller : Nat} (keeps : Keeps task)
    (taken : task.callCancel caller = some next) : Keeps next := by
  unfold AsyncTask.callCancel at taken
  split at taken
  · cases taken
    exact keeps.cancels (by simp)
  · cases taken

theorem Keeps.cancelNext {nullptr : Result} {caller : Nat} (keeps : Keeps task)
    {place : Place} (holds : Holds task place)
    (timely : Timely task (.cancelNext caller))
    (taken : task.cancelNext nullptr caller = some next) : Keeps next := by
  unfold AsyncTask.cancelNext at taken
  split at taken
  · cases taken
  · split at taken
    · cases taken
      exact (keeps.cancels (by simp)).record _ (by simp) (by simp) trivial
    · cases taken
      exact keeps.cancels (by simp)
  · split at taken
    · cases taken
      exact keeps.cancels (by simp)
    · cases taken
      exact (keeps.cancels (by simp)).record _ (by simp) (by simp) trivial
  · cases taken
    have set : Keeps { task with mCancelled := true } :=
      { keeps with flag := fun _ => rfl, calls := fun _ _ => rfl }
    exact set.cancels fun _ => rfl
  · rename_i call
    have flag := keeps.calls caller (.inl call)
    cases holds.cancelled with
    | inl nothing =>
        rw [nothing] at taken
        cases taken
        exact keeps.cancels fun _ => flag
    | inr removed =>
        rw [removed.2] at taken
        cases taken
        exact (keeps.queue List.mem_of_mem_filter).cancels fun _ => flag
  · rename_i call
    cases taken
    exact (keeps.cancels fun _ => keeps.calls caller (.inr (.inl call))).postResult _
  · rename_i call
    cases taken
    have flag := keeps.calls caller (.inr (.inr call))
    obtain ⟨unstartable, notFinishing, nothing⟩ := timely call
    have called : Keeps { task with cancels := Function.update task.cancels caller .idle } :=
      keeps.cancels (by simp)
    exact { called with
      honored := ⟨trivial, keeps.honored⟩
      flag := fun _ => flag
      started := fun _ => unstartable
      finish := fun _ => notFinishing
      fresh := by
        intro id progress posted
        cases posted with
        | tail _ posted => exact keeps.fresh id progress posted
      waiting := fun id progress waits => absurd waits (nothing id progress) }

theorem Keeps.callPublishProgress {caller : Nat} {progress : Progress} (keeps : Keeps task)
    (taken : task.callPublishProgress caller progress = some next) : Keeps next := by
  unfold AsyncTask.callPublishProgress at taken
  split at taken
  · cases taken
    exact { keeps with }
  · cases taken

theorem Keeps.publishNext {caller : Nat} (keeps : Keeps task)
    (taken : task.publishNext caller = some next) : Keeps next := by
  unfold AsyncTask.publishNext at taken
  split at taken
  · cases taken
  · cases taken
    exact { keeps with }
  · rename_i progress _
    cases taken
    have other : ∀ canceller, (Event.postedProgress task.progresses progress :
        Event Params Progress Result) ≠ .cancel canceller true := by simp
    exact {
      honored := ⟨trivial, keeps.honored⟩
      flag := fun cancelled => keeps.flag ((cancelled_cons other).mp cancelled)
      calls := keeps.calls
      started := fun cancelled => keeps.started ((cancelled_cons other).mp cancelled)
      finish := fun cancelled => keeps.finish ((cancelled_cons other).mp cancelled)
      fresh := by
        intro id value posted
        cases posted with
        | head => exact Nat.lt_succ_self _
        | tail _ posted => exact Nat.lt_succ_of_lt (keeps.fresh id value posted)
      waiting := by
        intro id value waits overtaken
        have before := (overtaken_cons other).mp overtaken
        rcases List.mem_append.mp waits with waits | new
        · exact keeps.waiting id value waits before
        · obtain ⟨rfl, rfl⟩ : id = task.progresses ∧ value = progress := by simpa using new
          exact not_overtaken
            (fun _ posted => Nat.lt_irrefl _ (keeps.fresh _ _ posted)) before }

/-- Whatever is done, the promise is kept if every `cancel` returns in time. -/
theorem Keeps.step {nullptr : Result} {action : Action Params Progress Result} {place : Place}
    (holds : Holds task place) (keeps : Keeps task) (timely : Timely task action)
    (taken : step nullptr task action = some next) : Keeps next := by
  cases action with
  | executeOnExecutor params =>
      cases taken
      exact keeps.executeOnExecutor holds params
  | executeNext => exact keeps.executeNext taken
  | executeOther id =>
      cases taken
      exact keeps.queue (by simp [Executor.execute])
  | cancelOther id =>
      cases taken
      exact keeps.queue List.mem_of_mem_filter
  | take worker => exact keeps.take taken
  | runNext worker result => exact keeps.runNext taken
  | handleMessage => exact keeps.handleMessage taken
  | finishNext => exact keeps.finishNext taken
  | callCancel caller => exact keeps.callCancel taken
  | cancelNext caller => exact keeps.cancelNext holds timely taken
  | callPublishProgress caller progress => exact keeps.callPublishProgress taken
  | publishNext caller => exact keeps.publishNext taken

end Steps

/-! ## Runs -/

section Runs

variable {nullptr : Result}

/-- The steps of a run in which every `cancel` returns true in time. -/
def TimelyStep (nullptr : Result) (task next : AsyncTask Params Progress Result) : Prop :=
  ∃ action, Timely task action ∧ step nullptr task action = some next

/-- A task that nobody has executed yet. -/
def Pending (task : AsyncTask Params Progress Result) : Prop :=
  ∃ queue, .task ∉ queue ∧ task = pending queue

theorem keeps_pending {task : AsyncTask Params Progress Result} (start : Pending task) :
    (∃ place, Holds task place) ∧ Keeps task := by
  rcases start with ⟨queue, others, rfl⟩
  refine ⟨⟨.unexecuted, holds_pending others⟩, ?_⟩
  have uncancelled : ¬Cancelled (pending queue : AsyncTask Params Progress Result).events := by
    rintro ⟨caller, member⟩
    cases member
  exact {
    honored := trivial
    flag := fun cancelled => absurd cancelled uncancelled
    calls := by simp [pending]
    started := fun cancelled => absurd cancelled uncancelled
    finish := fun cancelled => absurd cancelled uncancelled
    fresh := by simp [pending]
    waiting := by simp [pending] }

/-- In every run in which each `cancel` returns true in time, its promise is kept. -/
theorem cancel_honored {task : AsyncTask Params Progress Result}
    (run : Reachable Pending (TimelyStep nullptr) task) : Honored task.events := by
  have kept : (∃ place, Holds task place) ∧ Keeps task := by
    refine run.invariant (fun _ => keeps_pending) ?_
    rintro task next _ ⟨⟨place, holds⟩, keeps⟩ ⟨action, timely, taken⟩
    rcases holds.step taken with ⟨place', holds', _⟩
    exact ⟨⟨place', holds'⟩, keeps.step holds timely taken⟩
  exact kept.2.honored

end Runs

/-! ## Broken promises -/

/-- `onPreExecute` cancels the task. -/
def startedLate : List (Action Nat Nat Nat) :=
  [.executeOnExecutor 7, .callCancel 0, .cancelNext 0, .cancelNext 0, .cancelNext 0, .cancelNext 0,
    .cancelNext 0, .executeNext, .executeNext, .take 0, .runNext 0 0]

/-- The task is cancelled when `finish` has looked at the flag. -/
def finishedLate : List (Action Nat Nat Nat) :=
  [.executeOnExecutor 7, .executeNext, .executeNext, .take 0, .runNext 0 0, .runNext 0 42,
    .runNext 0 0, .handleMessage, .finishNext, .callCancel 0, .cancelNext 0, .cancelNext 0,
    .cancelNext 0, .cancelNext 0, .cancelNext 0, .finishNext]

/-- The task is cancelled while progress is in the queue. -/
def deliveredLate : List (Action Nat Nat Nat) :=
  [.executeOnExecutor 7, .executeNext, .executeNext, .take 0, .runNext 0 0,
    .callPublishProgress 0 5, .publishNext 0, .publishNext 0, .callCancel 0, .cancelNext 0,
    .cancelNext 0, .cancelNext 0, .cancelNext 0, .cancelNext 0, .handleMessage]

/-- Some actions of a run break no promise. -/
def Promised (actions : List (Action Nat Nat Nat)) : Prop :=
  ∀ task, runAll (step 0) (pending []) actions = some task → Honored task.events

/-- Nothing stops what was under way when `cancel` returned true. -/
theorem cancel_not_honored :
    ¬Promised startedLate ∧ ¬Promised finishedLate ∧ ¬Promised deliveredLate := by
  refine ⟨fun promised => ?_, fun promised => ?_, fun promised => ?_⟩
  · exact (promised _ rfl).1 ⟨0, .head _⟩
  · exact (promised _ rfl).1 ⟨0, .head _⟩
  · exact (promised _ rfl).1 (.inl ⟨⟨0, rfl⟩, 5, .head _⟩)

/-- A task that is removed from the queue of its executor is cancelled in time. -/
theorem cancelled_in_time : ∃ task : AsyncTask Nat Nat Nat,
    Reachable Pending (TimelyStep 0) task ∧
      task.events = [.onCancelled 0, .cancel 0 true, .postedResult 0, .onPreExecute] := by
  have start : Reachable Pending (TimelyStep 0) (pending [] : AsyncTask Nat Nat Nat) :=
    .initial ⟨[], List.not_mem_nil, rfl⟩
  have queued := ((start.step ⟨.executeOnExecutor 7, trivial, rfl⟩).step
    ⟨.executeNext, trivial, rfl⟩).step ⟨.executeNext, trivial, rfl⟩
  have called := queued.step ⟨.callCancel 0, trivial, rfl⟩
  have early {task next : AsyncTask Nat Nat Nat} (run : Reachable Pending (TimelyStep 0) task)
      (notReturning : task.cancels 0 ≠ .returnTrue)
      (taken : step 0 task (.cancelNext 0) = some next) : Reachable Pending (TimelyStep 0) next :=
    run.step ⟨.cancelNext 0, fun returns => absurd returns notReturning, taken⟩
  have removed := early (early (early (early called (by decide) rfl) (by decide) rfl)
    (by decide) rfl) (by decide) rfl
  have posted := early removed (by decide) rfl
  have returned := posted.step ⟨.cancelNext 0, fun _ => ⟨?_, ?_, ?_⟩, rfl⟩
  · exact ⟨_, ((returned.step ⟨.handleMessage, trivial, rfl⟩).step
      ⟨.finishNext, trivial, rfl⟩).step ⟨.finishNext, trivial, rfl⟩, rfl⟩
  · rintro (running | queued | ⟨worker, taken⟩)
    · exact running rfl
    · exact absurd queued (by decide)
    · cases taken
  · rintro result finishing
    cases finishing
  · rintro id progress (_ | ⟨_, ⟨⟩⟩)

theorem cancel_honored_instance :
    Honored ([.onCancelled 0, .cancel 0 true, .postedResult 0, .onPreExecute] :
      List (Event Nat Nat Nat)) := by
  rcases cancelled_in_time with ⟨task, run, events⟩
  exact events ▸ cancel_honored run

end AsyncTask

end Mindroid
