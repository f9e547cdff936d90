import Mindroid.Os.PostedCommands
import Mindroid.Util.Concurrent.PromiseMachine

/-!
# Timeouts of promises

`Timeout::add` posts a command to the handler of a thread that only waits for timeouts, and returns
the clean-up that removes the command again.  `orTimeout` and `completeOnTimeout` hand this clean-up
to `then`, and `delay` does the same for a promise of its own.

A call of a method is one step.  The actions of a promise that completes are tried after that step,
and executors run what was submitted to them at any time.
-/

set_option autoImplicit false

namespace Mindroid

open Foundation

/-- What a timeout does: a `Timeout::Completion` or a `Timeout::Exception`.  A null message is
written as the empty one. -/
inductive Timeout.Command (V : Type) where
  | completion (consumer : Nat) (value : V)
  | exception (consumer : Nat) (message : String) (cause : Option Exception)

/-- The promise that a timeout completes. -/
def Timeout.Command.consumer {V : Type} : Timeout.Command V → Nat
  | .completion consumer _ => consumer
  | .exception consumer _ _ => consumer

/-- A `BiConsumerAction` with the clean-up of a command, or a `DelayAction`. -/
inductive TimedAction where
  | biConsumer (executor supplier consumer : Nat) (command : ObjectId)
  | delay (supplier consumer : Nat) (delay : UInt64)
  deriving DecidableEq

/-- Who has completed a promise: a call, a timeout, or the action that it depends on. -/
inductive TimedCompleter where
  | call
  | timeout (command : ObjectId)
  | action
  deriving DecidableEq

/-- The promises of one type with the thread for their timeouts.  The last fields record who
completed a promise and when, for which promise and delay `delay` has made a promise, and when a
command was posted for that. -/
structure Timeouts (V : Type) where
  loopers : Loopers
  sThread : Bool
  promise : Nat → Promise TimedAction V
  mExecutor : Nat → Option Nat
  promisesMade : Nat
  command : ObjectId → Timeout.Command V
  commandsMade : Nat
  tried : List TimedAction
  submitted : List TimedAction
  completer : Nat → Option TimedCompleter
  completedAt : Nat → Nat
  delayed : Nat → Option (Nat × UInt64)
  scheduled : ObjectId → Option Nat

/-- What ends a method early. -/
inductive MethodThrow where
  | user (thrown : UserThrow)
  | crash (raised : Raised)
  deriving DecidableEq

/-- What an operation of a queue throws. -/
def Raised.thrown : Raised → MethodThrow
  | .illegalArgumentException message =>
      .user (.exception (.root { name := "IllegalArgumentException" } message))
  | .illegalStateException message =>
      .user (.exception (.root { name := "IllegalStateException" } message))
  | .nullPointer => .crash .nullPointer
  | .outOfFuel => .crash .outOfFuel

/-- A method of a promise. -/
abbrev Timing (V α : Type) : Type :=
  Throwing MethodThrow (Timeouts V) α

namespace Timeouts

/-- `Timeout::sHandler`. -/
def sHandler : ObjectId := 0

section Methods

variable {V : Type} [Inhabited V]

/-- Call a method of a handler. -/
def onLoopers {α : Type} (call : Sending α) : Timing V α := do
  match Throwing.outcome call (← get).loopers with
  | (.ok result, loopers) =>
      modify fun st => { st with loopers }
      return result
  | (.error raised, loopers) =>
      modify fun st => { st with loopers }
      throw raised.thrown

/-! ## Promises -/

/-- `new Promise(executor)`. -/
def newPromise (executor : Option Nat) : Timing V Nat := do
  let promise := (← get).promisesMade
  modify fun st =>
    { st with
      promise := Function.update st.promise promise
        { mIsDone := false, mResult := default, mException := none, mActions := [] }
      mExecutor := Function.update st.mExecutor promise executor
      promisesMade := promise + 1 }
  return promise

def onExecutor (promise executor : Nat) : Timing V Unit :=
  modify fun st => { st with mExecutor := Function.update st.mExecutor promise (some executor) }

def isDone (promise : Nat) : Timing V Bool := do
  return ((← get).promise promise).mIsDone

/-- `setResult` and `setException`. -/
def setOutcome (promise : Nat) (outcome : Outcome V) (completer : TimedCompleter) :
    Timing V Unit := do
  if !(← isDone promise) then
    modify fun st =>
      { st with
        promise := Function.update st.promise promise ((st.promise promise).settled outcome)
        completer := Function.update st.completer promise (some completer)
        completedAt := Function.update st.completedAt promise st.loopers.uptimeMillis.toNat }

/-- `onComplete`: all actions of the promise are tried. -/
def onComplete (promise : Nat) : Timing V Unit :=
  modify fun st =>
    { st with
      promise := Function.update st.promise promise { st.promise promise with mActions := [] }
      tried := st.tried ++ (st.promise promise).mActions }

/-- `complete` and `completeWith`. -/
def complete (promise : Nat) (outcome : Outcome V) (completer : TimedCompleter) :
    Timing V Bool := do
  if !(← isDone promise) then
    setOutcome promise outcome completer
    onComplete promise
    return true
  else
    return false

def addAction (promise : Nat) (action : TimedAction) : Timing V Unit :=
  modify fun st =>
    if (st.promise promise).mIsDone then
      { st with tried := st.tried ++ [action] }
    else
      { st with
        promise := Function.update st.promise promise
          { st.promise promise with mActions := (st.promise promise).mActions ++ [action] } }

/-- `mExecutor->execute(action)`. -/
def execute (action : TimedAction) : Timing V Unit :=
  modify fun st => { st with submitted := st.submitted ++ [action] }

/-- `thenAccept` with the clean-up of a command. -/
def thenAccept (promise : Nat) (executor : Option Nat) (command : ObjectId) : Timing V Nat := do
  match executor with
  | none =>
      throw (.user (.exception (.root .nullPointerException "Executor must not be null")))
  | some executor =>
      let consumer ← newPromise ((← get).mExecutor promise)
      let action := TimedAction.biConsumer executor promise consumer command
      if ← isDone promise then
        execute action
      else
        addAction promise action
      return consumer

/-! ## Timeouts -/

/-- A new `Timeout::Completion` or `Timeout::Exception`. -/
def newCommand (command : Timeout.Command V) : Timing V ObjectId := do
  let id := (← get).commandsMade
  modify fun st =>
    { st with
      command := Function.update st.command id command
      commandsMade := id + 1 }
  return id

/-- `Timeout::add`, without the clean-up that it returns. -/
def add (command : ObjectId) (delay : UInt64) : Timing V Unit := do
  modify fun st => { st with sThread := true }
  discard (onLoopers (Handler.postDelayed (fun _ st => st) sHandler (some command) delay))

/-- What `orTimeout` and `completeOnTimeout` do with their commands. -/
def addTimeout (promise : Nat) (command : Timeout.Command V) (timeout : UInt64) :
    Timing V Nat := do
  if !(← isDone promise) then
    let command ← newCommand command
    add command timeout
    discard (thenAccept promise ((← get).mExecutor promise) command)
  return promise

def orTimeout (promise : Nat) (timeout : UInt64) (message : String) (cause : Option Exception) :
    Timing V Nat :=
  addTimeout promise (.exception promise message cause) timeout

def completeOnTimeout (promise : Nat) (value : V) (timeout : UInt64) : Timing V Nat :=
  addTimeout promise (.completion promise value) timeout

/-- Record that the next command belongs to a `DelayAction`. -/
def schedule (consumer : Nat) : Timing V Unit :=
  modify fun st =>
    if (st.promise consumer).mIsDone then
      st
    else
      { st with
        scheduled := Function.update st.scheduled st.commandsMade
          (some st.loopers.uptimeMillis.toNat) }

/-- The `catch` clauses of `DelayAction::run`, and what follows them. -/
def failDelay (consumer : Nat) : MethodThrow → Timing V Unit
  | .user thrown => do
      setOutcome consumer (.error (caught thrown)) .action
      onComplete consumer
  | .crash raised => throw (.crash raised)

/-- `DelayAction::run`. -/
def runDelay (supplier consumer : Nat) (delay : UInt64) : Timing V Unit := do
  match ((← get).promise supplier).mException with
  | none =>
      try
        schedule consumer
        discard (completeOnTimeout consumer ((← get).promise supplier).mResult delay)
      catch thrown =>
        failDelay consumer thrown
  | some exception =>
      setOutcome consumer (.error (toCompletionException exception)) .action
      onComplete consumer

def delay (promise : Nat) (delay : UInt64) : Timing V Nat := do
  let consumer ← newPromise ((← get).mExecutor promise)
  modify fun st =>
    { st with delayed := Function.update st.delayed consumer (some (promise, delay)) }
  if ← isDone promise then
    runDelay promise consumer delay
  else
    addAction promise (.delay promise consumer delay)
  return consumer

/-- `new TimeoutException(message, cause)`. -/
def timeoutException (message : String) : Option Exception → Exception
  | none => .root { name := "TimeoutException" } message
  | some cause => .causedBy { name := "TimeoutException" } message cause

/-- `run` of a `Timeout::Completion` or a `Timeout::Exception`. -/
def runCommand (command : ObjectId) : Timing V Unit := do
  match (← get).command command with
  | .completion consumer value =>
      if !(← isDone consumer) then
        discard (complete consumer (.ok value) (.timeout command))
  | .exception consumer message cause =>
      if !(← isDone consumer) then
        discard (complete consumer (.error (timeoutException message cause)) (.timeout command))

/-- The `catch` clauses of `BiConsumerAction::run`. -/
def failBiConsumer (consumer : Nat) : MethodThrow → Timing V Unit
  | .user thrown => setOutcome consumer (.error (caught thrown)) .action
  | .crash raised => throw (.crash raised)

/-- `BiConsumerAction::run` with the clean-up of a command. -/
def runBiConsumer (supplier consumer : Nat) (command : ObjectId) : Timing V Unit := do
  try
    discard (onLoopers (Handler.removeCallbacks sHandler (some command)))
    match ((← get).promise supplier).mException with
    | none => setOutcome consumer (.ok ((← get).promise supplier).mResult) .action
    | some exception => setOutcome consumer (.error exception) .action
  catch thrown =>
    failBiConsumer consumer thrown
  onComplete consumer

/-- `tryRun` of an action. -/
def tryRun : TimedAction → Timing V Unit
  | .biConsumer executor supplier consumer command =>
      execute (.biConsumer executor supplier consumer command)
  | .delay supplier consumer delay => runDelay supplier consumer delay

/-- `run` of an action. -/
def run : TimedAction → Timing V Unit
  | .biConsumer _ supplier consumer command => runBiConsumer supplier consumer command
  | .delay supplier consumer delay => runDelay supplier consumer delay

/-- The state after a call. -/
def after {α : Type} (st : Timeouts V) (call : Timing V α) : Timeouts V :=
  (Throwing.outcome call st).2

/-- One round of the thread for timeouts: a command that is due is run, and its message is
recycled. -/
def fire (st : Timeouts V) : Option (Timeouts V) :=
  let queue := st.loopers.mMessageQueue sHandler
  match (st.loopers.queueState queue).dequeueMessage st.loopers.uptimeMillis.toNat with
  | (dequeued, .message message) =>
      let st := { st with loopers := st.loopers.update queue dequeued }
      let st := match (dequeued.store.messages message).callback with
        | some command => st.after (runCommand command)
        | none => st
      some { st with loopers := st.loopers.recycle (fun _ st => st) message }
  | _ => none

end Methods

end Timeouts

/-- Anything that anybody does. -/
inductive TimedStep (V : Type) where
  | makes (executor : Option Nat)
  | onExecutor (promise executor : Nat)
  /-- `complete`, `completeWith` or `cancel`. -/
  | completes (promise : Nat) (outcome : Outcome V)
  | orTimeout (promise : Nat) (timeout : UInt64) (message : String) (cause : Option Exception)
  | completeOnTimeout (promise : Nat) (value : V) (timeout : UInt64)
  | delay (promise : Nat) (delay : UInt64)
  | tries (action : TimedAction)
  /-- An executor runs an action that was submitted to it. -/
  | executes (action : TimedAction)
  | fires
  | ticks (millis : UInt64)

namespace Timeouts

variable {V : Type} [Inhabited V]

/-- Nothing is done to a promise before it is made, and the clock does not overflow. -/
def step (st : Timeouts V) : TimedStep V → Option (Timeouts V)
  | .makes executor => some (st.after (newPromise executor))
  | .onExecutor promise executor =>
      if promise < st.promisesMade then
        some (st.after (onExecutor promise executor))
      else
        none
  | .completes promise outcome =>
      if promise < st.promisesMade then
        some (st.after (complete promise outcome .call))
      else
        none
  | .orTimeout promise timeout message cause =>
      if promise < st.promisesMade then
        some (st.after (orTimeout promise timeout message cause))
      else
        none
  | .completeOnTimeout promise value timeout =>
      if promise < st.promisesMade then
        some (st.after (completeOnTimeout promise value timeout))
      else
        none
  | .delay promise delay =>
      if promise < st.promisesMade then
        some (st.after (Timeouts.delay promise delay))
      else
        none
  | .tries action =>
      if action ∈ st.tried then
        some ({ st with tried := st.tried.erase action }.after (tryRun action))
      else
        none
  | .executes action =>
      if action ∈ st.submitted then
        some ({ st with submitted := st.submitted.erase action }.after (run action))
      else
        none
  | .fires => if st.sThread then st.fire else none
  | .ticks millis =>
      if st.loopers.uptimeMillis.toNat + millis.toNat < 2 ^ 64 then
        some { st with
          loopers := { st.loopers with uptimeMillis := st.loopers.uptimeMillis + millis } }
      else
        none

/-- No promise has been made. -/
def initial (loopers : Loopers) : Timeouts V where
  loopers
  sThread := false
  promise := fun _ =>
    { mIsDone := false, mResult := default, mException := none, mActions := [] }
  mExecutor := fun _ => none
  promisesMade := 0
  command := fun _ => .completion 0 default
  commandsMade := 0
  tried := []
  submitted := []
  completer := fun _ => none
  completedAt := fun _ => 0
  delayed := fun _ => none
  scheduled := fun _ => none

/-! ## What is expected -/

/-- The clean-up of the command is registered, about to be tried, or submitted. -/
def Tied (st : Timeouts V) (command : ObjectId) : Prop :=
  ∃ executor consumer,
    let promise := (st.command command).consumer
    let action := TimedAction.biConsumer executor promise consumer command
    ((st.promise promise).mIsDone = false ∧ action ∈ (st.promise promise).mActions) ∨
      action ∈ st.tried ∨ action ∈ st.submitted

/-- Unless somebody else has completed it, the promise that `delay` has made has the value of the
supplier, not before the delay is over, or the exception of the supplier. -/
def Delivers (st : Timeouts V) (consumer supplier : Nat) (delay : UInt64) : Prop :=
  (st.promise consumer).mIsDone = true →
    (st.completer consumer = some .action → (st.promise supplier).mIsDone = true ∧
      ∃ exception, (st.promise supplier).mException = some exception ∧
        (st.promise consumer).outcome = .error (toCompletionException exception)) ∧
    ∀ command time, st.completer consumer = some (.timeout command) →
      st.scheduled command = some time → (st.promise supplier).mIsDone = true ∧
        (st.promise supplier).mException = none ∧
        (st.promise consumer).outcome = .ok (st.promise supplier).mResult ∧
        time + delay.toNat ≤ st.completedAt consumer

/-- Every timeout that waits is tied to its clean-up, and every delayed promise gets its outcome
once the supplier is done. -/
structure Timely (st : Timeouts V) : Prop where
  tied : ∀ command due, st.loopers.Waits sHandler command due → st.Tied command
  late : ∀ command due time supplier delay, st.loopers.Waits sHandler command due →
    st.scheduled command = some time →
      st.delayed (st.command command).consumer = some (supplier, delay) →
        time + delay.toNat ≤ due
  ready : ∀ consumer supplier delay, st.delayed consumer = some (supplier, delay) →
    (st.promise supplier).mIsDone = true → (st.promise consumer).mIsDone = true ∨
      .delay supplier consumer delay ∈ st.tried ∨
      ∃ command due, st.loopers.Waits sHandler command due ∧
        st.scheduled command ≠ none ∧ (st.command command).consumer = consumer
  delivers : ∀ consumer supplier delay, st.delayed consumer = some (supplier, delay) →
    st.Delivers consumer supplier delay

/-- One timeout of the promise has been added, and its clean-up is registered. -/
def OneMore (st : Timeouts V) (promise : Nat) (st' : Timeouts V) : Prop :=
  ∃ waiting waiting' due, st.loopers.HasPosts sHandler waiting ∧
    st'.loopers.HasPosts sHandler waiting' ∧
    waiting'.Perm ((st.commandsMade, due) :: waiting) ∧
    st.commandsMade ∉ waiting.map Prod.fst ∧
    (st'.command st.commandsMade).consumer = promise ∧ st'.Tied st.commandsMade

/-- A call either returns with one more timeout, unless the promise is done, or throws and leaves
the timeouts and the promise alone. -/
def Settles (st : Timeouts V) (promise : Nat) (call : Timing V Nat) : Prop :=
  Throwing.Leads call
    (fun _ st' =>
      ((st.promise promise).mIsDone = true ∧ st' = st) ∨
        ((st.promise promise).mIsDone = false ∧ st.OneMore promise st'))
    (fun _ st' =>
      (∀ command due, st'.loopers.Waits sHandler command due ↔
        st.loopers.Waits sHandler command due) ∧ st'.promise promise = st.promise promise) st

/-- Each call of `orTimeout` and `completeOnTimeout` settles, and a clean-up removes its timeout. -/
def CallSettles (st : Timeouts V) : TimedStep V → Timeouts V → Prop
  | .orTimeout promise timeout message cause, _ =>
      st.Settles promise (orTimeout promise timeout message cause)
  | .completeOnTimeout promise value timeout, _ =>
      st.Settles promise (completeOnTimeout promise value timeout)
  | .executes (.biConsumer _ _ _ command), st' =>
      ∀ due, ¬st'.loopers.Waits sHandler command due
  | _, _ => True

/-! ## When it is so -/

/-- There is an executor for the clean-up, and the due time is not cut. -/
def InTime (st : Timeouts V) (executor : Option Nat) (delay : UInt64) : Prop :=
  executor.isSome = true ∧ delay.toNat < 2 ^ 32 ∧
    st.loopers.uptimeMillis.toNat + delay.toNat < 2 ^ 64

/-- A timeout is added only where there is an executor for its clean-up, and for a delayed promise
only in time. -/
def Allowed (st : Timeouts V) : TimedStep V → Prop
  | .orTimeout promise _ _ _ =>
      (st.promise promise).mIsDone = true ∨ (st.mExecutor promise).isSome = true
  | .completeOnTimeout promise _ _ =>
      (st.promise promise).mIsDone = true ∨ (st.mExecutor promise).isSome = true
  | .delay promise delay =>
      (st.promise promise).mIsDone = false ∨ (st.promise promise).mException ≠ none ∨
        st.InTime (st.mExecutor promise) delay
  | .tries (.delay supplier consumer delay) | .executes (.delay supplier consumer delay) =>
      (st.promise supplier).mException ≠ none ∨ (st.promise consumer).mIsDone = true ∨
        st.InTime (st.mExecutor consumer) delay
  | _ => True

end Timeouts

end Mindroid
