import Mindroid.Foundation.Throwing
import Mindroid.Os.QueueEffects

/-!
# Handlers

A handler sends to the message queue of its looper.  It writes itself into the message before the
queue looks at the message, and what it has written stays when the queue throws.
-/

set_option autoImplicit false

namespace Mindroid

open Foundation

/-- The message queues of all loopers over one store, the queue of each handler, and the clock. -/
structure Loopers where
  store : Store := {}
  queues : Nat → MessageQueue := fun _ => {}
  mMessageQueue : ObjectId → Nat := fun _ => 0
  uptimeMillis : UInt64 := 0

namespace Loopers

/-- One of the queues with the store. -/
def queueState (st : Loopers) (queue : Nat) : QueueState where
  store := st.store
  queue := st.queues queue

/-- Put one of the queues and the store back. -/
def update (st : Loopers) (queue : Nat) (changed : QueueState) : Loopers :=
  { st with
    store := changed.store
    queues := Function.update st.queues queue changed.queue }

@[simp] theorem queueState_update (st : Loopers) (queue : Nat) (changed : QueueState) :
    (st.update queue changed).queueState queue = changed := by
  change QueueState.mk changed.store (Function.update st.queues queue changed.queue queue) = changed
  rw [Function.update_self]

/-- Assign fields of a message. -/
def assign (st : Loopers) (message : MessageId) (change : Message → Message) : Loopers :=
  { st with store := st.store.modify message change }

/-- The synchronous effect of completing a result promise, on all queues. -/
abbrev OnCancel := ObjectId → Loopers → Loopers

/-- `result->cancel()`. -/
def cancel (onCancel : OnCancel) (st : Loopers) (result : ObjectId) : Loopers :=
  if st.store.isDone result then
    st
  else
    onCancel result
      { st with store := { st.store with isDone := Function.update st.store.isDone result true } }

/-- `Message::recycle()`. -/
def recycle (onCancel : OnCancel) (st : Loopers) (message : MessageId) : Loopers :=
  let st := match (st.store.messages message).result with
    | some result => st.cancel onCancel result
    | none => st
  { st with store := st.store.reclaim message }

/-- On each of the queues, recycling is what it is for a queue alone. -/
theorem queueState_recycle (st : Loopers) (queue : Nat) (message : MessageId) :
    (st.recycle (fun _ st => st) message).queueState queue =
      (st.queueState queue).recycle Reentry.quiet.onCancel message := by
  have sameResult : ((st.queueState queue).store.messages message).result =
      (st.store.messages message).result := rfl
  rw [recycle, QueueState.recycle, sameResult]
  cases (st.store.messages message).result with
  | none => rfl
  | some result =>
      have sameDone : (st.queueState queue).store.isDone result = st.store.isDone result := rfl
      simp only [cancel, QueueState.cancel, sameDone]
      cases st.store.isDone result with
      | true => rfl
      | false => rfl

/-- Without continuations, recycling changes the store only. -/
theorem recycle_quiet (st : Loopers) (message : MessageId) :
    ∃ store, st.recycle (fun _ st => st) message = { st with store } := by
  rw [recycle]
  cases (st.store.messages message).result with
  | none => exact ⟨_, rfl⟩
  | some result =>
      simp only [cancel]
      cases st.store.isDone result with
      | true => exact ⟨_, rfl⟩
      | false => exact ⟨_, rfl⟩

end Loopers

/-- A call that sends. -/
abbrev Sending (α : Type) : Type :=
  Throwing Raised Loopers α

namespace Handler

section Sends

variable (onCancel : Loopers.OnCancel)

/-- `MessageQueue::enqueueMessage` of one of the queues. -/
def enqueueMessage (queue : Nat) (message : MessageId) (when : UInt64) : Sending Bool := do
  let st ← get
  if (st.store.messages message).target = none then
    throw (.illegalArgumentException "Message must have a target")
  else if (st.store.messages message).isInUse then
    throw (.illegalStateException "Message is already in use")
  else if (st.queues queue).mQuitting then
    set (st.recycle onCancel message)
    return false
  else
    match (st.queueState queue).insertMessage message when.toNat with
    | .error raised => throw raised
    | .ok inserted =>
        set (st.update queue inserted)
        return true

def sendMessageAtTime (handler : ObjectId) (message : MessageId) (uptimeMillis : UInt64) :
    Sending Bool := do
  modify fun st => st.assign message fun m => { m with target := some handler }
  enqueueMessage onCancel ((← get).mMessageQueue handler) message uptimeMillis

def sendMessageDelayed (handler : ObjectId) (message : MessageId) (delayMillis : UInt32) :
    Sending Bool := do
  sendMessageAtTime onCancel handler message ((← get).uptimeMillis + delayMillis.toUInt64)

def sendMessage (handler : ObjectId) (message : MessageId) : Sending Bool :=
  sendMessageDelayed onCancel handler message 0

/-- `Message::obtain()`. -/
def obtain : Sending MessageId := do
  let (store, message) := (← get).store.obtain
  modify fun st => { st with store }
  return message

/-- Obtain a message and assign fields of it. -/
def getMessage (change : Message → Message) : Sending MessageId := do
  let message ← obtain
  modify fun st => st.assign message change
  return message

/-- The message that the `sendEmptyMessage` methods send. -/
def getEmptyMessage (what : Int32) : Sending MessageId :=
  getMessage fun m => { m with what }

def sendEmptyMessageAtTime (handler : ObjectId) (what : Int32) (uptimeMillis : UInt64) :
    Sending Bool := do
  sendMessageAtTime onCancel handler (← getEmptyMessage what) uptimeMillis

/-- The delay is converted to the type of the parameter of `sendMessageDelayed`. -/
def sendEmptyMessageDelayed (handler : ObjectId) (what : Int32) (delayMillis : UInt64) :
    Sending Bool := do
  sendMessageDelayed onCancel handler (← getEmptyMessage what) delayMillis.toUInt32

def sendEmptyMessage (handler : ObjectId) (what : Int32) : Sending Bool :=
  sendEmptyMessageDelayed onCancel handler what 0

def getPostMessage (runnable : Option ObjectId) : Sending MessageId :=
  getMessage fun m => { m with callback := runnable }

/-- `getPostMessage` with a token. -/
def getTokenMessage (runnable token : Option ObjectId) : Sending MessageId :=
  getMessage fun m => { m with obj := token, callback := runnable }

/-- What the `post` methods return. -/
def posted (runnable : Option ObjectId) (sent : Bool) : Option ObjectId :=
  if sent then runnable else none

def post (handler : ObjectId) (runnable : Option ObjectId) : Sending (Option ObjectId) := do
  return posted runnable (← sendMessageDelayed onCancel handler (← getPostMessage runnable) 0)

def postAtTime (handler : ObjectId) (runnable : Option ObjectId) (uptimeMillis : UInt64) :
    Sending (Option ObjectId) := do
  return posted runnable
    (← sendMessageAtTime onCancel handler (← getPostMessage runnable) uptimeMillis)

/-- `postAtTime` with a token. -/
def postTokenAtTime (handler : ObjectId) (runnable token : Option ObjectId)
    (uptimeMillis : UInt64) : Sending (Option ObjectId) := do
  return posted runnable
    (← sendMessageAtTime onCancel handler (← getTokenMessage runnable token) uptimeMillis)

/-- The delay is converted to the type of the parameter of `sendMessageDelayed`. -/
def postDelayed (handler : ObjectId) (runnable : Option ObjectId) (delayMillis : UInt64) :
    Sending (Option ObjectId) := do
  return posted runnable
    (← sendMessageDelayed onCancel handler (← getPostMessage runnable) delayMillis.toUInt32)

/-- `Message::sendToTarget()`. -/
def sendToTarget (message : MessageId) : Sending Bool := do
  match ((← get).store.messages message).target with
  | none => throw .nullPointer
  | some handler => sendMessage onCancel handler message

end Sends

/-- `Handler::removeCallbacks` with a runnable.  The results of the removed messages are taken to
have no effect on other queues. -/
def removeCallbacks (handler : ObjectId) (runnable : Option ObjectId) : Sending Bool := do
  let st ← get
  let queue := st.mMessageQueue handler
  match (st.queueState queue).removeCallbacks Reentry.quiet.onCancel (some handler) runnable
      none with
  | .error raised => throw raised
  | .ok (removed, found) =>
      set (st.update queue removed)
      return found

end Handler

/-- A call that sends, with its arguments. -/
inductive Send where
  | enqueueMessage (queue : Nat) (message : MessageId) (when : UInt64)
  | sendMessageAtTime (handler : ObjectId) (message : MessageId) (uptimeMillis : UInt64)
  | sendMessageDelayed (handler : ObjectId) (message : MessageId) (delayMillis : UInt32)
  | sendMessage (handler : ObjectId) (message : MessageId)
  | sendToTarget (message : MessageId)
  | sendEmptyMessageAtTime (handler : ObjectId) (what : Int32) (uptimeMillis : UInt64)
  | sendEmptyMessageDelayed (handler : ObjectId) (what : Int32) (delayMillis : UInt64)
  | sendEmptyMessage (handler : ObjectId) (what : Int32)
  | post (handler : ObjectId) (runnable : Option ObjectId)
  | postAtTime (handler : ObjectId) (runnable : Option ObjectId) (uptimeMillis : UInt64)
  | postTokenAtTime (handler : ObjectId) (runnable token : Option ObjectId)
      (uptimeMillis : UInt64)
  | postDelayed (handler : ObjectId) (runnable : Option ObjectId) (delayMillis : UInt64)
  deriving DecidableEq

/-- Make the call. -/
def Send.call (onCancel : Loopers.OnCancel) : Send → Sending Unit
  | .enqueueMessage queue message when =>
      discard (Handler.enqueueMessage onCancel queue message when)
  | .sendMessageAtTime handler message uptimeMillis =>
      discard (Handler.sendMessageAtTime onCancel handler message uptimeMillis)
  | .sendMessageDelayed handler message delayMillis =>
      discard (Handler.sendMessageDelayed onCancel handler message delayMillis)
  | .sendMessage handler message => discard (Handler.sendMessage onCancel handler message)
  | .sendToTarget message => discard (Handler.sendToTarget onCancel message)
  | .sendEmptyMessageAtTime handler what uptimeMillis =>
      discard (Handler.sendEmptyMessageAtTime onCancel handler what uptimeMillis)
  | .sendEmptyMessageDelayed handler what delayMillis =>
      discard (Handler.sendEmptyMessageDelayed onCancel handler what delayMillis)
  | .sendEmptyMessage handler what => discard (Handler.sendEmptyMessage onCancel handler what)
  | .post handler runnable => discard (Handler.post onCancel handler runnable)
  | .postAtTime handler runnable uptimeMillis =>
      discard (Handler.postAtTime onCancel handler runnable uptimeMillis)
  | .postTokenAtTime handler runnable token uptimeMillis =>
      discard (Handler.postTokenAtTime onCancel handler runnable token uptimeMillis)
  | .postDelayed handler runnable delayMillis =>
      discard (Handler.postDelayed onCancel handler runnable delayMillis)

end Mindroid
