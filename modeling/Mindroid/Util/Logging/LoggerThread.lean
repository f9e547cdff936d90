import Mathlib.Logic.Function.Basic
import Mindroid.Util.Logging.LogDelivery

/-!
# The logger thread

`LoggerThread::run` collects the promises of the log buffers that have handlers, waits until one of
them is done, and publishes the records of those that are.  Producers, and those who start logging
or quit the thread, act between its steps: a put holds no lock but that of its log buffer, while
the collecting loop and the publishing of a record hold the lock of the service.
-/

set_option autoImplicit false

namespace Mindroid

/-- The ids of the log buffers of `Log::getLogBuffer`. -/
inductive LogId where
  | LOG_ID_MAIN
  | LOG_ID_EVENTS
  | LOG_ID_TEST
  deriving DecidableEq

/-- All of them. -/
def LogId.all : List LogId := [LOG_ID_MAIN, LOG_ID_EVENTS, LOG_ID_TEST]

namespace LoggerThread

/-- Where the thread is in `run`: at the test of the loop, in the loop over the handlers, before the
second test, waiting, in the loop over the promises, or behind the loop.  The two inner loops know
the keys that they have visited. -/
inductive Place where
  | head
  | collecting (visited : List LogId)
  | collected
  | waiting
  | scanning (visited : List LogId)
  | ended
  deriving DecidableEq

/-- The log buffers, the members of the service and of its thread, and the local variables of
`run`.  A handler is the records that have been published to it, and a log buffer without an entry
in `mLogHandlers` has none; the service adds no empty lists.  Of the promise `mWaitForLogs` there is
whether `reset` has completed it. -/
structure State where
  logs : LogId → LogRun
  mLogHandlers : LogId → List (List LogRecord)
  mInterrupted : Bool := false
  mWaitForLogs : Bool := false
  loggers : LogId → Option Nat := fun _ => none
  place : Place := .head

/-- The steps of the others (`clear` is the `reset` of a log buffer, `interrupt` and `reset` are
those of `quit`), and those of the thread. -/
inductive Action where
  | put (id : LogId) (timestamp threadId : BitVec 64) (priority : BitVec 32)
      (tag message : Option (List UInt8))
  | clear (id : LogId)
  | startLogging (id : LogId) (handlers : Nat)
  | interrupt
  | reset
  | test
  | collect (id : LogId)
  | waitFor
  | wake
  | scan (id : LogId)
  | scanned
  deriving DecidableEq

/-- The value of a promise of a log buffer, if it is done. -/
def valueOf (run : LogRun) (promise : Nat) : Option (Option LogRecord) :=
  run.buffer.promises[promise]?.join

namespace State

/-- The collecting loop has the lock of the service. -/
def locked (st : State) : Bool :=
  match st.place with
  | .collecting _ => true
  | _ => false

/-- Some promise of `loggers` is done. -/
def anyDone (st : State) : Bool :=
  LogId.all.any fun id => (st.loggers id).any fun promise => (valueOf (st.logs id) promise).isSome

/-- An operation on a log buffer. -/
def onLog (st : State) (id : LogId) (op : LogOp) : State :=
  { st with logs := Function.update st.logs id ((st.logs id).step op) }

/-- `startLogging`, with the number of handlers that the arguments ask for. -/
def startLogging (st : State) (id : LogId) (handlers : Nat) : Option State :=
  if st.locked then
    none
  else if st.mLogHandlers id ≠ [] ∨ handlers = 0 then
    some st
  else
    some { st with
      mLogHandlers := Function.update st.mLogHandlers id (List.replicate handlers [])
      mWaitForLogs := true }

/-- `LoggerThread::reset`. -/
def reset (st : State) : Option State :=
  if st.locked then
    none
  else
    some { st with mWaitForLogs := true }

/-- `isInterrupted()`, in the loop's condition and before the wait. -/
def test (st : State) : Option State :=
  match st.place with
  | .head => some { st with place := if st.mInterrupted then .ended else .collecting [] }
  | .collected => some { st with place := if st.mInterrupted then .ended else .waiting }
  | _ => none

/-- One round of the loop over the handlers. -/
def collect (st : State) (id : LogId) : Option State :=
  match st.place with
  | .collecting visited =>
      if st.mLogHandlers id = [] ∨ id ∈ visited then
        none
      else
        match st.loggers id with
        | some _ => some { st with place := .collecting (id :: visited) }
        | none =>
            match LogBuffer.get (st.logs id).buffer with
            | .ok promise buffer =>
                some { st with
                  logs := Function.update st.logs id { st.logs id with buffer := buffer }
                  loggers := Function.update st.loggers id (some promise)
                  place := .collecting (id :: visited) }
            | .error _ _ => none
  | _ => none

/-- The end of that loop, and `anyOf`. -/
def waitFor (st : State) : Option State :=
  match st.place with
  | .collecting visited =>
      if ∀ id ∈ LogId.all, st.mLogHandlers id ≠ [] → id ∈ visited then
        some { st with mWaitForLogs := false, place := .collected }
      else
        none
  | _ => none

/-- `mWaitForLogs->get()` returns. -/
def wake (st : State) : Option State :=
  if st.place = .waiting ∧ (st.mWaitForLogs || st.anyDone) then
    some { st with place := .scanning [] }
  else
    none

/-- One round of the loop over the promises. -/
def scan (st : State) (id : LogId) : Option State :=
  match st.place, st.loggers id with
  | .scanning visited, some promise =>
      if id ∈ visited then
        none
      else
        match valueOf (st.logs id) promise with
        | none => some { st with place := .scanning (id :: visited) }
        | some logRecord =>
            some { st with
              mLogHandlers := Function.update st.mLogHandlers id
                ((st.mLogHandlers id).map fun log => log ++ logRecord.toList)
              loggers := Function.update st.loggers id none
              place := .scanning (id :: visited) }
  | _, _ => none

/-- The end of that loop. -/
def scanned (st : State) : Option State :=
  match st.place with
  | .scanning visited =>
      if ∀ id ∈ LogId.all, st.loggers id ≠ none → id ∈ visited then
        some { st with place := .head }
      else
        none
  | _ => none

end State

def step (st : State) : Action → Option State
  | .put id timestamp threadId priority tag message =>
      some (st.onLog id (.put timestamp threadId priority tag message))
  | .clear id => some (st.onLog id .reset)
  | .startLogging id handlers => st.startLogging id handlers
  | .interrupt => some { st with mInterrupted := true }
  | .reset => st.reset
  | .test => st.test
  | .collect id => st.collect id
  | .waitFor => st.waitFor
  | .wake => st.wake
  | .scan id => st.scan id
  | .scanned => st.scanned

end LoggerThread

end Mindroid
