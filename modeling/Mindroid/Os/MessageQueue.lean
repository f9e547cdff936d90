import Mindroid.Os.Message

/-!
# The message queue of a looper

The operations of `MessageQueue` on one queue and the message store, each under
the queue lock.  Recycling a message cancels its `result` promise, and completing
a promise runs its continuations synchronously while the reentrant queue lock is
held; the operations therefore take that effect as a parameter `onCancel`.

A loop that follows links gets one unit of fuel for every allocated message.
Running out of fuel, like dereferencing a null pointer, is an explicit result.
-/

set_option autoImplicit false

namespace Mindroid

structure MessageQueue where
  mHeadMessage : Option MessageId := none
  mTailMessage : Option MessageId := none
  mQuitAllowed : Bool := true
  mQuitting : Bool := false
  deriving DecidableEq

/-- What an operation of one queue reads and writes. -/
structure QueueState where
  store : Store := {}
  queue : MessageQueue := {}

/-- How an operation ends when it does not return. -/
inductive Raised where
  | illegalArgumentException (message : String)
  | illegalStateException (message : String)
  | nullPointer
  | outOfFuel
  deriving DecidableEq

/-- The synchronous effect of completing a result promise. -/
abbrev OnCancel := ObjectId → QueueState → QueueState

namespace QueueState

/-- `result->cancel()`: complete the promise unless it is already done. -/
def cancel (onCancel : OnCancel) (st : QueueState) (result : ObjectId) : QueueState :=
  if st.store.isDone result then
    st
  else
    onCancel result
      { st with store := { st.store with isDone := Function.update st.store.isDone result true } }

/-- `Message::recycle()`. -/
def recycle (onCancel : OnCancel) (st : QueueState) (id : MessageId) : QueueState :=
  let st := match (st.store.messages id).result with
    | some result => st.cancel onCancel result
    | none => st
  { st with store := st.store.reclaim id }

/-! ## Insertion -/

/-- The test `mHeadMessage == nullptr || when == 0 || when < mHeadMessage->when`. -/
def insertsAtHead (st : QueueState) (when : Nat) : Bool :=
  match st.queue.mHeadMessage with
  | none => true
  | some head => when == 0 || decide (when < (st.store.messages head).when)

/-- First branch of `enqueueMessage`. -/
def linkHead (st : QueueState) (message : MessageId) : QueueState :=
  let oldHeadMessage := st.queue.mHeadMessage
  let st := { st with queue := { st.queue with mHeadMessage := some message } }
  let st := match oldHeadMessage with
    | some old => { st with store := st.store.setPrev old (some message) }
    | none => { st with queue := { st.queue with mTailMessage := some message } }
  { st with store := st.store.setNext message oldHeadMessage }

/-- Second branch of `enqueueMessage`. -/
def linkTail (st : QueueState) (message tail : MessageId) : QueueState :=
  { store := (st.store.setPrev message (some tail)).setNext tail (some message)
    queue := { st.queue with mTailMessage := some message } }

/-- The loop of the third branch: walk back from `curMessage` until a message is
due no later than `when`.  Returns `nextMessage` and `curMessage`. -/
def walkBack (messages : MessageId → Message) (when : Nat) :
    Nat → MessageId → Except Raised (MessageId × MessageId)
  | 0, _ => .error .outOfFuel
  | fuel + 1, nextMessage =>
      match (messages nextMessage).prevMessage with
      | none => .error .nullPointer
      | some curMessage =>
          if (messages curMessage).when ≤ when then
            .ok (nextMessage, curMessage)
          else
            walkBack messages when fuel curMessage

/-- Link writes of the third branch. -/
def linkBetween (st : QueueState) (message nextMessage curMessage : MessageId) : QueueState :=
  let store := st.store.setNext message (some nextMessage)
  let store := store.setPrev message (some curMessage)
  let store := store.setPrev nextMessage (some message)
  { st with store := store.setNext curMessage (some message) }

/-- The three linking branches of `enqueueMessage`. -/
def link (st : QueueState) (message : MessageId) (when : Nat) : Except Raised QueueState :=
  if st.insertsAtHead when then
    .ok (st.linkHead message)
  else
    match st.queue.mTailMessage with
    | none => .error .nullPointer
    | some tail =>
        if (st.store.messages tail).when ≤ when then
          .ok (st.linkTail message tail)
        else
          match walkBack st.store.messages when st.store.allocated tail with
          | .error raised => .error raised
          | .ok (nextMessage, curMessage) => .ok (st.linkBetween message nextMessage curMessage)

/-- `enqueueMessage` once the message is accepted. -/
def insertMessage (st : QueueState) (message : MessageId) (when : Nat) :
    Except Raised QueueState :=
  link { st with store := st.store.stamp message when } message when

/-- `MessageQueue::enqueueMessage`. -/
def enqueueMessage (onCancel : OnCancel) (st : QueueState) (message : MessageId) (when : Nat) :
    Except Raised (QueueState × Bool) :=
  if (st.store.messages message).target = none then
    .error (.illegalArgumentException "Message must have a target")
  else if (st.store.messages message).isInUse then
    .error (.illegalStateException "Message is already in use")
  else if st.queue.mQuitting then
    .ok (st.recycle onCancel message, false)
  else
    (st.insertMessage message when).map fun st => (st, true)

/-! ## Delivery -/

/-- What one round of `dequeueMessage` does: return null, wait for a signal (at
most the given number of milliseconds), or return a message. -/
inductive Dequeued where
  | quitting
  | await (timeout : Option Nat)
  | message (id : MessageId)
  deriving DecidableEq

/-- `Integer::MAX_VALUE`. -/
def integerMaxValue : Nat := 0x7FFFFFFF

/-- Unlink the head message, whose successor is `nextMessage`. -/
def unlinkHead (st : QueueState) (nextMessage : Option MessageId) : QueueState :=
  let st := { st with queue := { st.queue with mHeadMessage := nextMessage } }
  match nextMessage with
  | some next => { st with store := st.store.setPrev next none }
  | none => { st with queue := { st.queue with mTailMessage := none } }

/-- One round of the loop of `MessageQueue::dequeueMessage` at the clock value `now`. -/
def dequeueMessage (st : QueueState) (now : Nat) : QueueState × Dequeued :=
  if st.queue.mQuitting then
    (st, .quitting)
  else
    match st.queue.mHeadMessage with
    | none => (st, .await none)
    | some message =>
        if now < (st.store.messages message).when then
          (st, .await (some (min ((st.store.messages message).when - now) integerMaxValue)))
        else
          let st := st.unlinkHead (st.store.messages message).nextMessage
          ({ st with store := (st.store.setPrev message none).setNext message none },
            .message message)

/-! ## Removal -/

/-- Unlink `nextMessage`, the successor of `curMessage`. -/
def unlinkAfter (st : QueueState) (curMessage nextMessage : MessageId) : QueueState :=
  let nextButOneMessage := (st.store.messages nextMessage).nextMessage
  let st := match nextButOneMessage with
    | some nextButOne => { st with store := st.store.setPrev nextButOne (some curMessage) }
    | none => { st with queue := { st.queue with mTailMessage := some curMessage } }
  { st with store := st.store.setNext curMessage nextButOneMessage }

/-- First loop of the removals: matching messages at the front of the queue.
Returns the cursor `curMessage` and whether a message was found. -/
def removeFront (onCancel : OnCancel) (accepts : Message → Bool) :
    Nat → QueueState → Option MessageId → Bool →
      Except Raised (QueueState × Option MessageId × Bool)
  | 0, _, _, _ => .error .outOfFuel
  | _ + 1, st, none, foundMessage => .ok (st, none, foundMessage)
  | fuel + 1, st, some curMessage, foundMessage =>
      if accepts (st.store.messages curMessage) then
        let nextMessage := (st.store.messages curMessage).nextMessage
        let st := (st.unlinkHead nextMessage).recycle onCancel curMessage
        removeFront onCancel accepts fuel st nextMessage true
      else
        .ok (st, some curMessage, foundMessage)

/-- Second loop of the removals: matching messages after the front. -/
def removeRest (onCancel : OnCancel) (accepts : Message → Bool) :
    Nat → QueueState → Option MessageId → Bool → Except Raised (QueueState × Bool)
  | 0, _, _, _ => .error .outOfFuel
  | _ + 1, st, none, foundMessage => .ok (st, foundMessage)
  | fuel + 1, st, some curMessage, foundMessage =>
      match (st.store.messages curMessage).nextMessage with
      | none => removeRest onCancel accepts fuel st none foundMessage
      | some nextMessage =>
          if accepts (st.store.messages nextMessage) then
            let st := (st.unlinkAfter curMessage nextMessage).recycle onCancel nextMessage
            removeRest onCancel accepts fuel st (some curMessage) true
          else
            removeRest onCancel accepts fuel st (some nextMessage) foundMessage

/-- The part the three removals share: both loops, started at the head. -/
def removeMatching (onCancel : OnCancel) (accepts : Message → Bool) (st : QueueState) :
    Except Raised (QueueState × Bool) :=
  match removeFront onCancel accepts (st.store.allocated + 2) st st.queue.mHeadMessage false with
  | .error raised => .error raised
  | .ok (st, curMessage, foundMessage) =>
      removeRest onCancel accepts (st.store.allocated + 2) st curMessage foundMessage

/-- `target == handler && what == what && (object == nullptr || obj == object)`. -/
def matchesWhat (handler : ObjectId) (what : Int32) (object : Option ObjectId)
    (message : Message) : Bool :=
  message.target == some handler && message.what == what &&
    (object == none || message.obj == object)

/-- `target == handler && callback == runnable && (object == nullptr || obj == object)`. -/
def matchesCallback (handler runnable : ObjectId) (object : Option ObjectId)
    (message : Message) : Bool :=
  message.target == some handler && message.callback == some runnable &&
    (object == none || message.obj == object)

/-- `target == handler && (object == nullptr || obj == object)`. -/
def matchesTarget (handler : ObjectId) (object : Option ObjectId) (message : Message) : Bool :=
  message.target == some handler && (object == none || message.obj == object)

/-- The test of `hasMessages` for a runnable, which may be null. -/
def matchesRunnable (handler : ObjectId) (runnable object : Option ObjectId)
    (message : Message) : Bool :=
  message.target == some handler && message.callback == runnable &&
    (object == none || message.obj == object)

/-- The loop of `hasMessages`. -/
def findMatching (accepts : Message → Bool) (messages : MessageId → Message) :
    Nat → Option MessageId → Except Raised Bool
  | 0, _ => .error .outOfFuel
  | _ + 1, none => .ok false
  | fuel + 1, some curMessage =>
      if accepts (messages curMessage) then
        .ok true
      else
        findMatching accepts messages fuel (messages curMessage).nextMessage

/-- `MessageQueue::hasMessages` with a code. -/
def hasMessages (st : QueueState) (handler : Option ObjectId) (what : Int32)
    (object : Option ObjectId) : Except Raised Bool :=
  match handler with
  | none => .ok false
  | some handler =>
      findMatching (matchesWhat handler what object) st.store.messages (st.store.allocated + 1)
        st.queue.mHeadMessage

/-- `MessageQueue::hasMessages` with a runnable. -/
def hasRunnable (st : QueueState) (handler runnable object : Option ObjectId) :
    Except Raised Bool :=
  match handler with
  | none => .ok false
  | some handler =>
      findMatching (matchesRunnable handler runnable object) st.store.messages
        (st.store.allocated + 1) st.queue.mHeadMessage

/-- `MessageQueue::removeMessages`. -/
def removeMessages (onCancel : OnCancel) (st : QueueState) (handler : Option ObjectId)
    (what : Int32) (object : Option ObjectId) : Except Raised (QueueState × Bool) :=
  match handler with
  | none => .ok (st, false)
  | some handler => st.removeMatching onCancel (matchesWhat handler what object)

/-- `MessageQueue::removeCallbacks`. -/
def removeCallbacks (onCancel : OnCancel) (st : QueueState) (handler runnable : Option ObjectId)
    (object : Option ObjectId) : Except Raised (QueueState × Bool) :=
  match handler, runnable with
  | some handler, some runnable =>
      st.removeMatching onCancel (matchesCallback handler runnable object)
  | _, _ => .ok (st, false)

/-- `MessageQueue::removeCallbacksAndMessages`. -/
def removeCallbacksAndMessages (onCancel : OnCancel) (st : QueueState)
    (handler : Option ObjectId) (object : Option ObjectId) :
    Except Raised (QueueState × Bool) :=
  match handler with
  | none => .ok (st, false)
  | some handler => st.removeMatching onCancel (matchesTarget handler object)

end QueueState

/-- A call of one of the three removals. -/
inductive Removal where
  | messages (handler : Option ObjectId) (what : Int32) (object : Option ObjectId)
  | callbacks (handler runnable object : Option ObjectId)
  | callbacksAndMessages (handler object : Option ObjectId)
  deriving DecidableEq

namespace Removal

/-- Whether the removal matches a message.  Without a handler (or a runnable to
look for) it matches none. -/
def accepts : Removal → Message → Bool
  | messages (some handler) what object, message =>
      QueueState.matchesWhat handler what object message
  | callbacks (some handler) (some runnable) object, message =>
      QueueState.matchesCallback handler runnable object message
  | callbacksAndMessages (some handler) object, message =>
      QueueState.matchesTarget handler object message
  | _, _ => false

end Removal

namespace QueueState

/-- Call a removal. -/
def remove (onCancel : OnCancel) (st : QueueState) : Removal → Except Raised (QueueState × Bool)
  | .messages handler what object => st.removeMessages onCancel handler what object
  | .callbacks handler runnable object => st.removeCallbacks onCancel handler runnable object
  | .callbacksAndMessages handler object => st.removeCallbacksAndMessages onCancel handler object

/-! ## Quitting -/

/-- The loop of `quit`: recycle every message from `curMessage` on. -/
def recycleAll (onCancel : OnCancel) : Nat → QueueState → Option MessageId →
    Except Raised QueueState
  | 0, _, _ => .error .outOfFuel
  | _ + 1, st, none => .ok st
  | fuel + 1, st, some curMessage =>
      let nextMessage := (st.store.messages curMessage).nextMessage
      recycleAll onCancel fuel (st.recycle onCancel curMessage) nextMessage

/-- `MessageQueue::quit`. -/
def quit (onCancel : OnCancel) (st : QueueState) : Except Raised (QueueState × Bool) :=
  if !st.queue.mQuitAllowed then
    .ok (st, false)
  else if st.queue.mQuitting then
    .ok (st, true)
  else
    let st := { st with queue := { st.queue with mQuitting := true } }
    match recycleAll onCancel (st.store.allocated + 1) st st.queue.mHeadMessage with
    | .error raised => .error raised
    | .ok st =>
        .ok ({ st with queue := { st.queue with mHeadMessage := none, mTailMessage := none } },
          true)

/-! ## Continuations that enqueue -/

/-- The synchronous effect of a continuation that only enqueues: one call of
`enqueueMessage` after the other until one throws. -/
def enqueueEach (time : MessageId → Nat) : List MessageId → QueueState → QueueState
  | [], st => st
  | message :: rest, st =>
      match st.enqueueMessage (fun _ st => st) message (time message) with
      | .ok (st, _) => enqueueEach time rest st
      | .error _ => st

end QueueState

/-- What the synchronous continuations of the result promises enqueue, and for
which time. -/
structure Reentry where
  sends : ObjectId → List MessageId
  time : MessageId → Nat

/-- Completing a result runs its continuation on the queue. -/
def Reentry.onCancel (reentry : Reentry) : OnCancel := fun result st =>
  QueueState.enqueueEach reentry.time (reentry.sends result) st

end Mindroid
