import Mindroid.Foundation.Mailbox
import Mindroid.Os.QueueEffects

/-!
# A looper and its senders

One looper with its message queue, and everybody who obtains, sends and removes messages, in any
order.  Messages that other loopers have come from and go to the same global pool.  Every message
that the queue takes gets a number, and the log tells what became of it.
-/

set_option autoImplicit false

namespace Mindroid

open Foundation

namespace Looper

/-- Where the thread of a looper is in `Looper::loop`. -/
inductive Phase where
  | dequeueing
  | dequeued (message : MessageId)
  | dispatching (message : MessageId)
  | returned
  deriving DecidableEq

/-- Who has a message that neither the looper nor the pool has. -/
inductive Owner where
  | nobody
  | sender
  | elsewhere
  deriving DecidableEq

end Looper

/-- A looper thread, its `mMessageQueue`, and the messages of all others. -/
structure Looper where
  state : QueueState
  uptimeMillis : Nat
  phase : Looper.Phase
  owner : MessageId → Looper.Owner
  number : MessageId → Nat
  sends : Nat
  log : List Mailbox.Event
  raised : Option Raised

namespace Looper

inductive Action where
  /-- `Message::obtain()`. -/
  | obtains
  /-- A sender, or a handler that the message is dispatched to, assigns fields. -/
  | fills (message : MessageId) (payload : Message)
  /-- `Handler::sendMessageAtTime`, which all other ways to send or post come to. -/
  | sends (message : MessageId) (handler : ObjectId) (when : Nat)
  /-- A message is sent to another looper. -/
  | lends (message : MessageId)
  /-- Another looper does something with its message. -/
  | changes (message : MessageId) (changed : Message)
  /-- Another looper recycles its message. -/
  | returns (message : MessageId)
  | ticks (millis : Nat)
  | dequeues
  | dispatches
  | recycles
  | removes (removal : Removal)
  | quits

/-- Follow the links of a queue. -/
def walk (messages : MessageId → Message) : Nat → Option MessageId → List MessageId
  | 0, _ => []
  | _ + 1, none => []
  | fuel + 1, some message =>
      message :: walk messages fuel (messages message).nextMessage

variable (looper : Looper)

/-- The messages in the queue. -/
def queued : List MessageId :=
  walk looper.state.store.messages looper.state.store.allocated looper.state.queue.mHeadMessage

/-- Assign all fields of a message but those of the queue. -/
def fill (payload message : Message) : Message :=
  { payload with
    flags := message.flags, when := message.when,
    prevMessage := message.prevMessage, nextMessage := message.nextMessage }

def obtain : Looper :=
  let (store, message) := looper.state.store.obtain
  { looper with
    state := { looper.state with store }
    owner := Function.update looper.owner message .sender }

/-- `message->target = this; return mMessageQueue->enqueueMessage(message, uptimeMillis)`. -/
def sendMessageAtTime (message : MessageId) (handler : ObjectId) (when : Nat) : Looper :=
  let store := looper.state.store.modify message fun m => { m with target := some handler }
  let owner := Function.update looper.owner message .nobody
  match { looper.state with store }.enqueueMessage Reentry.quiet.onCancel message when with
  | .error raised => { looper with raised := some raised }
  | .ok (state, true) =>
      { looper with
        state, owner
        number := Function.update looper.number message looper.sends
        sends := looper.sends + 1
        log := .sent looper.sends when :: looper.log }
  | .ok (state, false) => { looper with state, owner }

/-- `mq->dequeueMessage()`. -/
def dequeue : Looper :=
  match looper.state.dequeueMessage looper.uptimeMillis with
  | (state, .quitting) => { looper with state, phase := .returned }
  | (state, .await _) => { looper with state }
  | (state, .message message) =>
      { looper with
        state
        phase := .dequeued message
        log := .dequeued (looper.number message) :: looper.log }

/-- `message->target->dispatchMessage(message)`. -/
def dispatch (message : MessageId) : Looper :=
  match (looper.state.store.messages message).target with
  | none => { looper with raised := some .nullPointer }
  | some _ =>
      { looper with
        phase := .dispatching message
        log := .dispatched (looper.number message) looper.uptimeMillis :: looper.log }

/-- `message->recycle()`. -/
def recycle (message : MessageId) : Looper :=
  { looper with
    state := looper.state.recycle Reentry.quiet.onCancel message
    phase := .dequeueing
    log := .finished (looper.number message) :: looper.log }

def remove (removal : Removal) : Looper :=
  match looper.state.remove Reentry.quiet.onCancel removal with
  | .error raised => { looper with raised := some raised }
  | .ok (state, _) =>
      { looper with
        state
        log := ((looper.queued.filter (removal.removes looper.state)).map
          fun message => .removed (looper.number message)) ++ looper.log }

/-- What leaves the queue while it quits is dropped. -/
def quit : Looper :=
  match looper.state.quit Reentry.quiet.onCancel with
  | .error raised => { looper with raised := some raised }
  | .ok (state, done) =>
      let after := { looper with state }
      let dropped := looper.queued.filter fun message => !after.queued.contains message
      { after with
        log := .quit done ::
          (dropped.map fun message => .dropped (looper.number message)) ++ looper.log }

/-- One atomic step. -/
def step : Action → Option Looper
  | .obtains => some looper.obtain
  | .fills message payload =>
      if looper.owner message = .sender ∨ looper.phase = .dispatching message then
        some { looper with
          state := { looper.state with
            store := looper.state.store.modify message (fill payload) } }
      else
        none
  | .sends message handler when =>
      if looper.owner message = .sender then
        some (looper.sendMessageAtTime message handler when)
      else
        none
  | .lends message =>
      if looper.owner message = .sender then
        some { looper with owner := Function.update looper.owner message .elsewhere }
      else
        none
  | .changes message changed =>
      if looper.owner message = .elsewhere then
        some { looper with
          state := { looper.state with
            store := looper.state.store.modify message fun _ => changed } }
      else
        none
  | .returns message =>
      if looper.owner message = .elsewhere then
        some { looper with
          state := looper.state.recycle Reentry.quiet.onCancel message
          owner := Function.update looper.owner message .nobody }
      else
        none
  | .ticks millis => some { looper with uptimeMillis := looper.uptimeMillis + millis }
  | .dequeues =>
      match looper.phase with
      | .dequeueing => some looper.dequeue
      | _ => none
  | .dispatches =>
      match looper.phase with
      | .dequeued message => some (looper.dispatch message)
      | _ => none
  | .recycles =>
      match looper.phase with
      | .dispatching message => some (looper.recycle message)
      | _ => none
  | .removes removal => some (looper.remove removal)
  | .quits => some looper.quit

/-- `Looper::prepare(quitAllowed)`. -/
def initial (quitAllowed : Bool) : Looper where
  state := { queue := { mQuitAllowed := quitAllowed } }
  uptimeMillis := 0
  phase := .dequeueing
  owner := fun _ => .nobody
  number := fun _ => 0
  sends := 0
  log := []
  raised := none

end Looper

end Mindroid
