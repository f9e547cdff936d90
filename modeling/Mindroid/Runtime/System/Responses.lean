import Mindroid.Foundation.Transition
import Mindroid.Foundation.Wire
import Mindroid.Os.Parcel
import Mindroid.Runtime.System.Server

/-!
# The responses of a server

A binder that returns a promise is answered by the function that `onTransact` passes to `then`.
It runs on some thread after the promise has been completed, and writes to the socket while it
holds the lock of the server.  A step is what another thread can observe; `send` may take any
part of what it is given.
-/

set_option autoImplicit false

namespace Mindroid

open Foundation

namespace Plugin

/-- What a promise is completed with.  The parcel is not null. -/
inductive Outcome where
  | value (parcel : Parcel)
  | exception

/-- How far the answer to a request is. -/
inductive Stage where
  /-- `then` has not been called. -/
  | returned
  | registered
  /-- The function that writes runs, and has not got the lock. -/
  | runs
  /-- It has the lock and these bytes left. -/
  | writes (rest : List UInt8)
  | answered
  /-- `write` has thrown. -/
  | failed

/-- A request that is answered.  Without a promise it is `onTransact` that writes the response. -/
structure Request where
  connection : Nat
  message : Message
  promised : Bool
  outcome : Option Outcome
  stage : Stage

/-- A connection.  Each byte on its socket is labelled with the request that it answers. -/
structure Channel (σ : Type) where
  input : DataInputStream σ
  wire : List (Nat × UInt8)
  closed : Bool

structure Responses (σ : Type) where
  mLock : Option Nat
  connections : Nat → Channel σ
  requests : Nat → Request
  made : Nat

namespace Responses

/-- The message that answers a request. -/
def answer (message : Message) : Outcome → Message
  | .value parcel =>
      let bytes := parcel.mDataOutputStream.mOutputStream.bytes
      { type := Message.MESSAGE_TYPE_TRANSACTION
        uri := message.uri
        transactionId := message.transactionId
        what := message.what
        data := bytes
        size := bytes.length }
  | .exception => Server.exceptionMessage message

/-- What `onTransact` does with a transaction. -/
inductive Turn where
  /-- The binder has returned null. -/
  | returns
  | promises
  | responds
  /-- What has been thrown is not caught. -/
  | escapes

section Turns

variable {β : Type} (runtime : Runtime β) (message : Message)

def turnOf (failure : Failure) : Turn :=
  if Server.isCaught failure then .responds else .escapes

/-- The inner `try` of `onTransact`, up to its response. -/
def turn : Turn :=
  match Server.findBinder runtime message.uri with
  | .error failure => turnOf failure
  | .ok (none, _) => .responds
  | .ok (some binder, runtime) =>
      match runtime.transactWith binder message.what message.data with
      | .error failure => turnOf failure
      | .ok promise => if promise then .promises else .returns

end Turns

variable {σ β : Type} (source : InputStream σ) (server : Responses σ)

def close (index : Nat) : Responses σ :=
  { server with
    connections := Function.update server.connections index
      { server.connections index with closed := true } }

def setInput (index : Nat) (input : DataInputStream σ) : Responses σ :=
  { server with
    connections := Function.update server.connections index
      { server.connections index with input := input } }

def add (request : Request) : Responses σ :=
  { server with
    requests := Function.update server.requests server.made request
    made := server.made + 1 }

def setStage (index : Nat) (stage : Stage) : Responses σ :=
  { server with
    requests := Function.update server.requests index
      { server.requests index with stage := stage } }

/-- One round of `Connection::run`. -/
def reads (index : Nat) (runtime : Runtime β) : Option (Responses σ) :=
  if (server.connections index).closed then
    none
  else
    match Message.newMessage source (server.connections index).input with
    | .error _ => some (server.close index)
    | .ok (message, input) =>
        let server := server.setInput index input
        if message.type = Message.MESSAGE_TYPE_TRANSACTION then
          match turn runtime message with
          | .returns => some server
          | .promises => some (server.add ⟨index, message, true, none, .returned⟩)
          | .responds => some (server.add ⟨index, message, false, some .exception, .runs⟩)
          | .escapes => none
        else
          some server

def completes (index : Nat) (outcome : Outcome) : Option (Responses σ) :=
  if index < server.made ∧ (server.requests index).outcome.isNone then
    some { server with
      requests := Function.update server.requests index
        { server.requests index with outcome := some outcome } }
  else
    none

def registers (index : Nat) : Option (Responses σ) :=
  if index < server.made then
    match (server.requests index).stage with
    | .returned => some (server.setStage index .registered)
    | _ => none
  else
    none

/-- A completed promise has its actions executed. -/
def runs (index : Nat) : Option (Responses σ) :=
  if index < server.made ∧ (server.requests index).outcome.isSome then
    match (server.requests index).stage with
    | .registered => some (server.setStage index .runs)
    | _ => none
  else
    none

/-- `write` has thrown an `IOException`.  `BiConsumerAction::run` keeps it in a promise that
nobody has; from `onTransact` it gets to `Connection::run`, which closes the connection. -/
def fail (index : Nat) : Responses σ :=
  let request := server.requests index
  let failed := { server with mLock := none }.setStage index .failed
  if request.promised then failed else failed.close request.connection

/-- The lock is taken and `write` is called, which checks the size first. -/
def locks (index : Nat) : Option (Responses σ) :=
  if index < server.made ∧ server.mLock.isNone then
    match (server.requests index).stage, (server.requests index).outcome with
    | .runs, some outcome =>
        let response := answer (server.requests index).message outcome
        match response.write (DataOutputStream.new ⟨[], false⟩) with
        | .error _ => some (server.fail index)
        | .ok (_, output) =>
            some ({ server with mLock := some index }.setStage index
              (.writes output.mOutputStream.bytes))
    | _, _ => none
  else
    none

/-- Bytes of a response are on the socket. -/
def push (index : Nat) (sent : List UInt8) : Responses σ :=
  let connection := (server.requests index).connection
  let channel := server.connections connection
  { server with
    connections := Function.update server.connections connection
      { channel with wire := channel.wire ++ sent.map (Prod.mk index) } }

/-- `send` takes some of the bytes. -/
def sends (index count : Nat) : Option (Responses σ) :=
  if index < server.made ∧
      (server.connections (server.requests index).connection).closed = false then
    match (server.requests index).stage with
    | .writes rest =>
        if 0 < count ∧ count ≤ rest.length then
          some ((server.push index (rest.take count)).setStage index (.writes (rest.drop count)))
        else
          none
    | _ => none
  else
    none

/-- `write` returns and the lock is released. -/
def returns (index : Nat) : Option (Responses σ) :=
  if index < server.made then
    match (server.requests index).stage with
    | .writes [] => some ({ server with mLock := none }.setStage index .answered)
    | _ => none
  else
    none

/-- `send` fails, or the socket has been closed. -/
def throws (index : Nat) : Option (Responses σ) :=
  let request := server.requests index
  if index < server.made then
    match request.stage with
    | .writes rest =>
        if rest ≠ [] ∨ (server.connections request.connection).closed = true then
          some (server.fail index)
        else
          none
    | _ => none
  else
    none

/-- No request has been read from the connections. -/
def initial (streams : Nat → σ) : Responses σ where
  mLock := none
  connections := fun index => ⟨DataInputStream.new (streams index), [], false⟩
  requests := fun _ => ⟨0, ⟨0, [], 0, 0, [], 0⟩, false, none, .returned⟩
  made := 0

end Responses

/-- The steps of the threads of connections, of those that complete promises, of those that run
the functions, and of those that close connections. -/
inductive ResponseAction (β : Type) where
  | reads (index : Nat) (runtime : Runtime β)
  | completes (index : Nat) (outcome : Outcome)
  | registers (index : Nat)
  | runs (index : Nat)
  | locks (index : Nat)
  | sends (index count : Nat)
  | returns (index : Nat)
  | throws (index : Nat)
  | closes (index : Nat)

namespace Responses

variable {σ β : Type} (source : InputStream σ) (server : Responses σ)

def step : ResponseAction β → Option (Responses σ)
  | .reads index runtime => server.reads source index runtime
  | .completes index outcome => server.completes index outcome
  | .registers index => server.registers index
  | .runs index => server.runs index
  | .locks index => server.locks index
  | .sends index count => server.sends index count
  | .returns index => server.returns index
  | .throws index => server.throws index
  | .closes index => some (server.close index)

end Responses

end Plugin

end Mindroid
