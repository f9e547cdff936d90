import Mathlib.Logic.Function.Basic
import Mathlib.Logic.Relation
import Mindroid.Foundation.Transition

/-!
# The connections of a server

The threads of an `AbstractServer` are the loop that `start` begins, the threads of the
connections and a thread that calls `shutdown`.  One step is one statement of one thread that
the other threads can observe; `mConnections` changes atomically.  Closing the streams and the
socket of a connection is left out: what it does to `onTransact` is part of the outcome of
`onTransact`, which a step chooses.
-/

set_option autoImplicit false

namespace Mindroid

namespace AbstractServer

inductive ThreadId where
  | acceptor
  | shutdown
  | connection (index : Nat)
  deriving DecidableEq

/-- What `Connection::close` does next. -/
inductive CloseStage where
  | interrupts
  | joins
  | removes
  | reports
  | clears
  deriving DecidableEq

/-- Where a call of `Connection::close` stands after one of its statements. -/
inductive Closing where
  | stage (stage : CloseStage)
  | returned
  /-- A null `mServer` was used. -/
  | crashed

/-- The thread of a connection: `Connection::run`. -/
inductive Run where
  /-- `mThread` is 0. -/
  | unstarted
  | checks
  | transacts
  | closes (stage : CloseStage)
  | crashed
  | returned
  deriving DecidableEq

/-- Whether `join` returns. -/
def Run.ended : Run → Bool
  | .unstarted | .returned => true
  | _ => false

/-- A connection, with the numbers of the calls of `onDisconnected` for it and of its calls
of `close` that returned. -/
structure Connection where
  mInterrupted : Bool := false
  mServer : Bool := true
  run : Run := .unstarted
  disconnected : Nat := 0
  closed : Nat := 0
  deriving DecidableEq

/-- The thread `mThread` of the server. -/
inductive Acceptor where
  /-- `mThread` is null, since `start` could not bind the socket. -/
  | absent
  | checks
  | accepts
  | adds (index : Nat)
  /-- The constructor of a connection without streams closes it. -/
  | closes (index : Nat) (stage : CloseStage)
  | crashed
  | returned
  deriving DecidableEq

/-- The thread that calls `shutdown`.  An iterator is the connection that it stands at, or
the end. -/
inductive Shutdown where
  | uncalled
  | closesSocket
  | begins
  | iterates (itr : Option Nat)
  | removes (index : Nat)
  | closes (index : Nat) (stage : CloseStage) (itr : Option Nat)
  | interrupts
  | joins
  | crashed
  | returned
  deriving DecidableEq

end AbstractServer

/-- A server with its threads.  `mConnections` is listed in the order of its iteration. -/
structure AbstractServer where
  mIsBound : Bool
  mInterrupted : Bool
  mConnections : List Nat
  connections : Nat → AbstractServer.Connection
  created : Nat
  acceptor : AbstractServer.Acceptor
  shutdown : AbstractServer.Shutdown

namespace AbstractServer

/-- What a step is told: whose statement is next, and the outcome of a call of the
environment. -/
inductive Action where
  | next (thread : ThreadId)
  /-- `accept` returns a socket, which has streams or not. -/
  | accepts (streams : Bool)
  /-- `accept` throws an `IOException`. -/
  | refuses
  /-- The hash decides where the connection stands in the iteration. -/
  | adds (position : Nat)
  | transacts (index : Nat)
  /-- `onTransact` throws an `IOException`. -/
  | throws (index : Nat)
  deriving DecidableEq

def modify (server : AbstractServer) (index : Nat) (change : Connection → Connection) :
    AbstractServer :=
  { server with
    connections := Function.update server.connections index (change (server.connections index)) }

/-- `mConnections->add`. -/
def add (server : AbstractServer) (index position : Nat) : AbstractServer :=
  if index ∈ server.mConnections then
    server
  else
    { server with
      mConnections :=
        server.mConnections.take position ++ index :: server.mConnections.drop position }

/-- `mConnections->remove`. -/
def remove (server : AbstractServer) (index : Nat) : AbstractServer :=
  { server with mConnections := server.mConnections.erase index }

/-- The connection behind one in the iteration. -/
def following (server : AbstractServer) (index : Nat) : Option Nat :=
  ((server.mConnections.dropWhile fun other => other != index).drop 1).head?

/-- One statement of `Connection::close`, or none while it waits in `join`. -/
def closeNext (server : AbstractServer) (index : Nat) :
    CloseStage → Option (AbstractServer × Closing)
  | .interrupts =>
      some (server.modify index fun connection => { connection with mInterrupted := true },
        .stage .joins)
  | .joins =>
      if (server.connections index).run.ended then some (server, .stage .removes) else none
  | .removes =>
      if (server.connections index).mServer then
        some (server.remove index, .stage .reports)
      else
        some (server, .crashed)
  | .reports =>
      if (server.connections index).mServer then
        some (server.modify index fun connection =>
          { connection with disconnected := connection.disconnected + 1 }, .stage .clears)
      else
        some (server, .crashed)
  | .clears =>
      some (server.modify index fun connection =>
        { connection with mServer := false, closed := connection.closed + 1 }, .returned)

def stepAcceptor (server : AbstractServer) : Option AbstractServer :=
  match server.acceptor with
  | .checks =>
      some { server with acceptor := if server.mInterrupted then .returned else .accepts }
  | .closes index stage =>
      match server.closeNext index stage with
      | none => none
      | some (server, .stage stage) => some { server with acceptor := .closes index stage }
      | some (server, .returned) => some { server with acceptor := .checks }
      | some (server, .crashed) => some { server with acceptor := .crashed }
  | _ => none

/-- A socket from `accept` and the constructor of its connection up to `Thread::start`. -/
def accept (server : AbstractServer) (streams : Bool) : Option AbstractServer :=
  if server.acceptor = .accepts ∧ server.mIsBound = true then
    let index := server.created
    if streams then
      some { server.modify index fun _ => { run := .checks } with
        created := index + 1
        acceptor := .adds index }
    else
      some { server.modify index fun _ => {} with
        created := index + 1
        acceptor := .closes index .interrupts }
  else
    none

def stepShutdown (server : AbstractServer) : Option AbstractServer :=
  match server.shutdown with
  | .uncalled => some { server with shutdown := .closesSocket }
  | .closesSocket => some { server with mIsBound := false, shutdown := .begins }
  | .begins => some { server with shutdown := .iterates server.mConnections.head? }
  | .iterates none => some { server with shutdown := .interrupts }
  | .iterates (some index) =>
      some { server with
        shutdown := if index ∈ server.mConnections then .removes index else .crashed }
  | .removes index =>
      if index ∈ server.mConnections then
        some { server.remove index with
          shutdown := .closes index .interrupts (server.following index) }
      else
        some { server with shutdown := .crashed }
  | .closes index stage itr =>
      match server.closeNext index stage with
      | none => none
      | some (server, .stage stage) => some { server with shutdown := .closes index stage itr }
      | some (server, .returned) => some { server with shutdown := .iterates itr }
      | some (server, .crashed) => some { server with shutdown := .crashed }
  | .interrupts =>
      if server.acceptor = .absent then
        some { server with shutdown := .crashed }
      else
        some { server with mInterrupted := true, shutdown := .joins }
  | .joins =>
      if server.acceptor = .returned then some { server with shutdown := .returned } else none
  | .crashed | .returned => none

def setRun (server : AbstractServer) (index : Nat) (run : Run) : AbstractServer :=
  server.modify index fun connection => { connection with run := run }

def stepConnection (server : AbstractServer) (index : Nat) : Option AbstractServer :=
  let connection := server.connections index
  match connection.run with
  | .checks =>
      if connection.mInterrupted then
        some (server.setRun index .returned)
      else if connection.mServer then
        some (server.setRun index .transacts)
      else
        some (server.setRun index .crashed)
  | .closes stage =>
      match server.closeNext index stage with
      | none => none
      | some (server, .stage stage) => some (server.setRun index (.closes stage))
      | some (server, .returned) => some (server.setRun index .returned)
      | some (server, .crashed) => some (server.setRun index .crashed)
  | _ => none

def step (server : AbstractServer) : Action → Option AbstractServer
  | .next .acceptor => server.stepAcceptor
  | .next .shutdown => server.stepShutdown
  | .next (.connection index) => server.stepConnection index
  | .accepts streams => server.accept streams
  | .refuses =>
      if server.acceptor = .accepts then some { server with acceptor := .checks } else none
  | .adds position =>
      match server.acceptor with
      | .adds index => some { server.add index position with acceptor := .checks }
      | _ => none
  | .transacts index =>
      if (server.connections index).run = .transacts then
        some (server.setRun index .checks)
      else
        none
  | .throws index =>
      if (server.connections index).run = .transacts then
        some (server.setRun index (.closes .interrupts))
      else
        none

/-- A server after `start`. -/
structure Initial (server : AbstractServer) : Prop where
  interrupted : server.mInterrupted = false
  connections : server.mConnections = []
  created : server.created = 0
  fresh : ∀ index, server.connections index = {}
  acceptor : server.acceptor = .absent ∨ server.acceptor = .checks
  shutdown : server.shutdown = .uncalled

/-! ## Waiting for each other -/

/-- A thread stands in the `join` of a thread that has not returned. -/
inductive WaitsFor (server : AbstractServer) : ThreadId → ThreadId → Prop where
  | setUp {index : Nat} (joins : server.acceptor = .closes index .joins)
      (runs : (server.connections index).run.ended = false) :
      WaitsFor server .acceptor (.connection index)
  | shutDown {index : Nat} {itr : Option Nat}
      (joins : server.shutdown = .closes index .joins itr)
      (runs : (server.connections index).run.ended = false) :
      WaitsFor server .shutdown (.connection index)
  | acceptor (joins : server.shutdown = .joins) (runs : server.acceptor ≠ .returned) :
      WaitsFor server .shutdown .acceptor
  | failed {index : Nat} (joins : (server.connections index).run = .closes .joins) :
      WaitsFor server (.connection index) (.connection index)

/-- No thread waits for itself, directly or through other threads. -/
def WaitsEnd (server : AbstractServer) : Prop :=
  ∀ thread, ¬Relation.TransGen server.WaitsFor thread thread

/-- A closing call that has returned has removed its connection and reported it, and no
connection is reported twice. -/
def ClosedOnce (server : AbstractServer) : Prop :=
  ∀ index, (server.connections index).disconnected ≤ 1 ∧
    ((server.connections index).closed ≠ 0 →
      index ∉ server.mConnections ∧ (server.connections index).disconnected = 1)

/-- A step in which no `onTransact` throws. -/
def stepServing (server : AbstractServer) (action : Action) : Option AbstractServer :=
  match action with
  | .throws _ => none
  | action => server.step action

end AbstractServer

end Mindroid
