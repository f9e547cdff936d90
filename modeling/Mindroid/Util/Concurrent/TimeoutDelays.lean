import Mindroid.Os.DelayedMessages
import Mindroid.Util.Concurrent.Timeouts

/-!
# Delays of messages and timeouts

All delayed calls of a handler, and the methods of a promise that post a timeout, end in
`sendMessageDelayed`, whose parameter has 32 bits.
-/

set_option autoImplicit false

namespace Mindroid

open Foundation Throwing

/-- A call that is given a delay.  `Promise::delay` posts its timeout in `DelayAction::run`. -/
inductive DelayedCall (V : Type) where
  | postDelayed (handler : ObjectId) (runnable : Option ObjectId)
  | sendEmptyMessageDelayed (handler : ObjectId) (what : Int32)
  | orTimeout (promise : Nat) (message : String) (cause : Option Exception)
  | completeOnTimeout (promise : Nat) (value : V)
  | runDelay (supplier consumer : Nat)

namespace DelayedCall

variable {V : Type} [Inhabited V]

def handler : DelayedCall V → ObjectId
  | postDelayed handler _ => handler
  | sendEmptyMessageDelayed handler _ => handler
  | _ => Timeouts.sHandler

/-- Make the call. -/
def run (onCancel : Loopers.OnCancel) (delay : UInt64) : DelayedCall V → Timing V Unit
  | postDelayed handler runnable =>
      discard (Timeouts.onLoopers (Handler.postDelayed onCancel handler runnable delay))
  | sendEmptyMessageDelayed handler what =>
      discard (Timeouts.onLoopers (Handler.sendEmptyMessageDelayed onCancel handler what delay))
  | orTimeout promise message cause => discard (Timeouts.orTimeout promise delay message cause)
  | completeOnTimeout promise value => discard (Timeouts.completeOnTimeout promise value delay)
  | runDelay supplier consumer => Timeouts.runDelay supplier consumer delay

/-- The queue is not quitting, and a promise has something to wait for. -/
def Posts (st : Timeouts V) (call : DelayedCall V) : Prop :=
  (st.loopers.queues (st.loopers.mMessageQueue call.handler)).mQuitting = false ∧
    match call with
    | orTimeout promise _ _ => (st.promise promise).mIsDone = false
    | completeOnTimeout promise _ => (st.promise promise).mIsDone = false
    | runDelay supplier consumer =>
        (st.promise supplier).mException = none ∧ (st.promise consumer).mIsDone = false
    | _ => True

/-- If the call posts at all, what it posts is not delivered before the delay is over. -/
def Waits (onCancel : Loopers.OnCancel) (st : Timeouts V) (delay : UInt64)
    (call : DelayedCall V) : Prop :=
  call.Posts st → Leaves (call.run onCancel delay)
    (fun st' => st.loopers.Delays call.handler (st.loopers.uptimeMillis.toNat + delay.toNat)
      st'.loopers) st

end DelayedCall

namespace Timeouts

section Frames

variable {V : Type} {st : Timeouts V}

theorem leads_onLoopers {α : Type} {call : Sending α} {returns : α → Timeouts V → Prop}
    {throws : MethodThrow → Timeouts V → Prop} :
    Leads (onLoopers call) returns throws st ↔
      Leads call (fun result loopers => returns result { st with loopers })
        (fun raised loopers => throws raised.thrown { st with loopers }) st.loopers := by
  rw [onLoopers, leads_bind, leads_get]
  unfold Leads
  rcases outcome call st.loopers with ⟨raised | result, loopers⟩
  · exact Iff.rfl
  · exact Iff.rfl

/-- Nor has what a `DelayAction` does when it catches an exception. -/
theorem leaves_failDelay_iff (consumer : Nat) (thrown : MethodThrow) (post : Loopers → Prop) :
    Leaves (failDelay consumer thrown) (fun st' => post st'.loopers) st ↔ post st.loopers := by
  cases thrown with
  | crash raised => exact Iff.rfl
  | user thrown =>
      rw [Leaves, failDelay, leads_bind, setOutcome, leads_bind, isDone, leads_bind, leads_get,
        leads_pure]
      cases (st.promise consumer).mIsDone with
      | true => exact Iff.rfl
      | false => exact Iff.rfl

/-- The thread for timeouts has an open queue, so that it gets the command. -/
theorem add_returns {nodes pooled : List MessageId}
    (isOpen : st.loopers.Open (st.loopers.mMessageQueue sHandler) nodes pooled)
    (command : ObjectId) (delay : UInt64) :
    ∃ message loopers nodes' pooled',
      outcome (add command delay) st = (.ok ⟨⟩, { st with sThread := true, loopers }) ∧
      st.loopers.Sent (st.loopers.mMessageQueue sHandler) nodes
        (Loopers.sent { callback := some command } sHandler
          (st.loopers.uptimeMillis + delay.toUInt32.toUInt64)) message loopers nodes' pooled' := by
  rcases isOpen.postDelayed rfl (fun _ st => st) (some command) delay with
    ⟨message, loopers, nodes', pooled', returned, sends⟩
  refine ⟨message, loopers, nodes', pooled', ?_, sends⟩
  rw [outcome_eq_iff, add, leads_bind, leads_modify, leads_discard, leads_onLoopers,
    leads_returned returned]
  exact ⟨rfl, rfl⟩

variable [Inhabited V]

/-- Registering the clean-up has nothing to do with the queues. -/
theorem loopers_thenAccept (promise : Nat) (executor : Option Nat) (command : ObjectId) :
    Leaves (thenAccept promise executor command) (fun st' => st'.loopers = st.loopers) st := by
  cases executor with
  | none => exact rfl
  | some executor =>
      rw [Leaves, thenAccept, leads_bind, leads_get, leads_bind, newPromise, leads_bind, leads_get,
        leads_bind, leads_modify, leads_pure, leads_bind, isDone, leads_bind, leads_get, leads_pure,
        leads_ite]
      refine ⟨fun _ => ?_, fun _ => ?_⟩
      · rw [leads_bind, execute, leads_modify, leads_pure]
      · rw [leads_bind, addAction, leads_modify, leads_pure]
        split
        · exact rfl
        · exact rfl

theorem leaves_thenAccept_iff (promise : Nat) (executor : Option Nat) (command : ObjectId)
    (post : Loopers → Prop) :
    Leaves (thenAccept promise executor command) (fun st' => post st'.loopers) st ↔
      post st.loopers := by
  have kept := @loopers_thenAccept V st _ promise executor command
  constructor
  · intro leaves
    rw [← kept.after]
    exact leaves.after
  · intro holds
    exact kept.mono fun _ same => same ▸ holds

/-- The state with one more command. -/
def created (st : Timeouts V) (command : Timeout.Command V) : Timeouts V :=
  { st with
    command := Function.update st.command st.commandsMade command
    commandsMade := st.commandsMade + 1 }

theorem leads_addTimeout_pending {promise : Nat} (pending : (st.promise promise).mIsDone = false)
    {command : Timeout.Command V} {timeout : UInt64} {returns : Nat → Timeouts V → Prop}
    {throws : MethodThrow → Timeouts V → Prop} :
    Leads (addTimeout promise command timeout) returns throws st ↔
      Leads (add st.commandsMade timeout)
        (fun _ st' => Leads (thenAccept promise (st'.mExecutor promise) st.commandsMade)
          (fun _ => returns promise) throws st') throws (st.created command) := by
  rw [addTimeout, leads_bind, isDone, leads_bind, leads_get, leads_pure, pending]
  simp only [Bool.not_false, if_true]
  rw [leads_bind, newCommand, leads_bind, leads_get, leads_bind, leads_modify, leads_pure,
    leads_bind]
  refine iff_of_eq (congrArg (fun after => Leads (add st.commandsMade timeout) after throws
    (st.created command)) ?_)
  funext _ after
  rw [leads_bind, leads_get, leads_bind, leads_discard]
  rfl

theorem leads_addTimeout_done {promise : Nat} (done : (st.promise promise).mIsDone = true)
    {command : Timeout.Command V} {timeout : UInt64} {returns : Nat → Timeouts V → Prop}
    {throws : MethodThrow → Timeouts V → Prop} :
    Leads (addTimeout promise command timeout) returns throws st ↔ returns promise st := by
  rw [addTimeout, leads_bind, isDone, leads_bind, leads_get, leads_pure, done]
  exact Iff.rfl

theorem leaves_addTimeout_iff {nodes pooled : List MessageId}
    (isOpen : st.loopers.Open (st.loopers.mMessageQueue sHandler) nodes pooled) {promise : Nat}
    (pending : (st.promise promise).mIsDone = false) (command : Timeout.Command V)
    (timeout : UInt64) (due : Nat) :
    Leaves (addTimeout promise command timeout)
        (fun st' => st.loopers.Delays sHandler due st'.loopers) st ↔
      (st.loopers.uptimeMillis + timeout.toUInt32.toUInt64).toNat = due := by
  have isOpen' : (st.created command).loopers.Open
      ((st.created command).loopers.mMessageQueue sHandler) nodes pooled := isOpen
  rcases add_returns isOpen' st.commandsMade timeout with
    ⟨message, loopers, nodes', pooled', returned, sends⟩
  rw [Leaves, leads_addTimeout_pending pending, leads_returned returned]
  exact (leaves_thenAccept_iff promise _ st.commandsMade
    (st.loopers.Delays sHandler due)).trans (sends.delays_iff isOpen due)

theorem leaves_runDelay_iff {nodes pooled : List MessageId}
    (isOpen : st.loopers.Open (st.loopers.mMessageQueue sHandler) nodes pooled)
    {supplier consumer : Nat} (succeeded : (st.promise supplier).mException = none)
    (pending : (st.promise consumer).mIsDone = false) (delay : UInt64) (due : Nat) :
    Leaves (runDelay supplier consumer delay)
        (fun st' => st.loopers.Delays sHandler due st'.loopers) st ↔
      (st.loopers.uptimeMillis + delay.toUInt32.toUInt64).toNat = due := by
  rw [Leaves, runDelay, leads_bind, leads_get, succeeded]
  simp only
  rw [leads_tryCatch, leads_bind, schedule, leads_modify, pending, if_neg Bool.false_ne_true,
    leads_bind, leads_get, leads_discard, completeOnTimeout]
  have sameThrows : (fun thrown => Leaves (failDelay consumer thrown)
        (fun st' => st.loopers.Delays sHandler due st'.loopers)) =
      fun (_ : MethodThrow) (st' : Timeouts V) =>
        st.loopers.Delays sHandler due st'.loopers := by
    funext thrown st'
    exact propext (leaves_failDelay_iff consumer thrown _)
  unfold Leaves at sameThrows
  rw [sameThrows]
  have isOpen' : ({ st with
      scheduled := Function.update st.scheduled st.commandsMade
        (some st.loopers.uptimeMillis.toNat) } : Timeouts V).loopers.Open
      (st.loopers.mMessageQueue sHandler) nodes pooled := isOpen
  exact leaves_addTimeout_iff isOpen' pending _ delay due

end Frames

end Timeouts

namespace DelayedCall

variable {V : Type} [Inhabited V]

theorem leaves_run_iff {onCancel : Loopers.OnCancel} {st : Timeouts V} {call : DelayedCall V}
    {nodes pooled : List MessageId}
    (holds : (st.loopers.queueState (st.loopers.mMessageQueue call.handler)).Holds nodes pooled)
    (posts : call.Posts st) (delay : UInt64) (due : Nat) :
    Leaves (call.run onCancel delay)
        (fun st' => st.loopers.Delays call.handler due st'.loopers) st ↔
      (st.loopers.uptimeMillis + delay.toUInt32.toUInt64).toNat = due := by
  cases call with
  | postDelayed handler runnable =>
      have isOpen : st.loopers.Open (st.loopers.mMessageQueue handler) nodes pooled :=
        ⟨holds, posts.1⟩
      rcases isOpen.postDelayed rfl onCancel runnable delay with ⟨_, _, _, _, returned, sends⟩
      rw [run, Leaves, leads_discard, Timeouts.leads_onLoopers, leads_returned returned]
      exact sends.delays_iff isOpen due
  | sendEmptyMessageDelayed handler what =>
      have isOpen : st.loopers.Open (st.loopers.mMessageQueue handler) nodes pooled :=
        ⟨holds, posts.1⟩
      rcases isOpen.sendEmptyMessageDelayed rfl onCancel what delay with
        ⟨_, _, _, _, returned, sends⟩
      rw [run, Leaves, leads_discard, Timeouts.leads_onLoopers, leads_returned returned]
      exact sends.delays_iff isOpen due
  | orTimeout promise message cause =>
      rw [run, Leaves, leads_discard]
      exact Timeouts.leaves_addTimeout_iff ⟨holds, posts.1⟩ posts.2 _ delay due
  | completeOnTimeout promise value =>
      rw [run, Leaves, leads_discard]
      exact Timeouts.leaves_addTimeout_iff ⟨holds, posts.1⟩ posts.2 _ delay due
  | runDelay supplier consumer =>
      exact Timeouts.leaves_runDelay_iff ⟨holds, posts.1⟩ posts.2.1 posts.2.2 delay due

/-- What a call posts waits for the whole delay exactly if the delay has 32 bits. -/
theorem waits_iff (onCancel : Loopers.OnCancel) {st : Timeouts V} {call : DelayedCall V}
    {nodes pooled : List MessageId}
    (holds : (st.loopers.queueState (st.loopers.mMessageQueue call.handler)).Holds nodes pooled)
    {delay : UInt64} (fits : st.loopers.uptimeMillis.toNat + delay.toNat < 2 ^ 64) :
    call.Waits onCancel st delay ↔ (call.Posts st → delay.toNat < 2 ^ 32) := by
  refine forall_congr' fun posts => ?_
  rw [leaves_run_iff holds posts]
  exact Loopers.delay_eq_iff fits

/-- Nothing has been posted yet. -/
def untimed : Timeouts Nat where
  loopers := {}
  sThread := false
  promise := fun _ => { mIsDone := false, mResult := 0, mException := none, mActions := [] }
  mExecutor := fun _ => none
  promisesMade := 0
  command := fun _ => .completion 0 0
  commandsMade := 0
  tried := []
  submitted := []
  completer := fun _ => none
  completedAt := fun _ => 0
  delayed := fun _ => none
  scheduled := fun _ => none

theorem untimed_holds (queue : Nat) : (untimed.loopers.queueState queue).Holds [] [] where
  represents := ⟨Linked.empty, List.Pairwise.nil, fun _ member => absurd member List.not_mem_nil,
    fun _ member => absurd member List.not_mem_nil⟩
  pool := Store.Pooled.initial
  apart := fun _ member => absurd member List.not_mem_nil

/-- A runnable that is posted for five milliseconds later waits for five milliseconds. -/
theorem waits_iff_untimed : (postDelayed 0 (some 1)).Waits (fun _ st => st) untimed 5 :=
  (waits_iff (fun _ st => st) (untimed_holds 0) (by decide)).mpr fun _ => by decide

/-- A delay of 2^32 milliseconds is none. -/
theorem waits_not_at_all :
    ¬(postDelayed 0 (some 1)).Waits (fun _ st => st) untimed 0x100000000 := by
  intro waits
  have posts : (postDelayed 0 (some 1) : DelayedCall Nat).Posts untimed := ⟨rfl, trivial⟩
  have same := (leaves_run_iff (untimed_holds 0) posts _ _).mp (waits posts)
  exact absurd same (by decide)

end DelayedCall

end Mindroid
