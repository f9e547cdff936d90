import Mathlib.Logic.Function.Basic
import Mindroid.Foundation.Transition
import Mindroid.Runtime.System.Message

/-!
# The transactions of a client

Calls of `Client::transact`, the thread that reads from the connection and the thread of
the timeouts share the table of the transactions.  Every operation on the table and every
completion of a promise is one step.  A transaction stands for the call and for its
promise; ids do not wrap around.  What `shutdown` does with the transactions is not part
of these steps.
-/

set_option autoImplicit false

namespace Mindroid

open Foundation

namespace Plugin

/-- What completes the promise of a transaction. -/
inductive Completion where
  | message (message : Message)
  | timeout
  deriving DecidableEq

inductive Failure where
  | remoteException
  | timeoutException
  deriving DecidableEq, Repr

/-- What the promise is completed with. -/
def Completion.result : Completion → Except Failure (List UInt8)
  | .message received =>
      if received.type = Message.MESSAGE_TYPE_TRANSACTION then .ok received.data
      else .error .remoteException
  | .timeout => .error .timeoutException

/-- What a call of `Client::transact` has to do next. -/
inductive Phase where
  | addsTimeout
  | addsContinuation
  /-- Run the continuation, since the promise is done already. -/
  | runsContinuation
  | puts
  | writes
  /-- Remove the entry after an `IOException`. -/
  | withdraws
  | returned
  deriving DecidableEq, Repr

/-- A call of `Client::transact` and its promise.  The last five fields are history. -/
structure Transaction where
  transactionId : Int32 := 0
  phase : Phase := .returned
  result : Option (Except Failure (List UInt8)) := none
  /-- The continuation that removes the entry waits for the promise. -/
  hasContinuation : Bool := false
  /-- The timeout has been posted and has neither run nor been removed. -/
  hasTimeout : Bool := false
  completedBy : Option Completion := none
  continued : Bool := false
  stored : Bool := false
  withdrawn : Bool := false
  /-- The first message with the transaction's id that is looked up after the entry has been
  put into the table. -/
  first : Option Message := none

/-- The thread of the connection, in `Client::onTransact`. -/
inductive Reader where
  | idle
  | gets (message : Message)
  | removes (transaction : Nat) (message : Message)
  | completes (transaction : Nat) (message : Message)
  | runsContinuation (transaction : Nat)
  deriving DecidableEq

/-- The thread of the timeouts. -/
inductive Timer where
  | idle
  | completes (transaction : Nat)
  | runsContinuation (transaction : Nat)
  deriving DecidableEq

structure Transactions where
  mTransactionIdGenerator : Int32
  mTransactions : Int32 → Option Nat
  /-- The transactions in the order of their ids. -/
  transactions : Nat → Transaction
  created : Nat
  reader : Reader
  timer : Timer

inductive TransactionAction where
  | getAndIncrement (oneway : Bool)
  | orTimeout (transaction : Nat)
  | addContinuation (transaction : Nat)
  | runContinuation (transaction : Nat)
  | put (transaction : Nat)
  | write (transaction : Nat) (written : Bool)
  | withdraw (transaction : Nat)
  | receive (message : Message)
  | get
  | remove
  | complete
  | runReadersContinuation
  | fire (transaction : Nat)
  | expire
  | runTimersContinuation
  deriving DecidableEq

namespace Transaction

/-- `complete` and `completeWith`. -/
def complete (transaction : Transaction) (completion : Completion) : Transaction :=
  if transaction.result.isSome then
    transaction
  else
    { transaction with
      result := some completion.result
      hasTimeout := false
      completedBy := some completion }

/-- Whether the completion runs the continuation. -/
def continues (transaction : Transaction) : Bool :=
  transaction.result.isNone && transaction.hasContinuation

/-- A message is looked up. -/
def look (transaction : Transaction) (message : Message) : Transaction :=
  if transaction.transactionId = message.transactionId ∧ transaction.stored = true ∧
      transaction.first = none then
    { transaction with first := some message }
  else
    transaction

end Transaction

namespace Transactions

def initial : Transactions where
  mTransactionIdGenerator := 1
  mTransactions _ := none
  transactions _ := {}
  created := 0
  reader := .idle
  timer := .idle

def modify (state : Transactions) (index : Nat) (transaction : Transaction) : Transactions :=
  { state with transactions := Function.update state.transactions index transaction }

/-- `mTransactions->remove(transactionId)`. -/
def erase (state : Transactions) (transactionId : Int32) : Transactions :=
  { state with mTransactions := Function.update state.mTransactions transactionId none }

/-- The continuation, which removes the entry of the transaction. -/
def continuation (state : Transactions) (index : Nat) : Transactions :=
  let transaction := state.transactions index
  (state.erase transaction.transactionId).modify index { transaction with continued := true }

/-- `mTransactions->put(transactionId, promise)`. -/
def store (state : Transactions) (index : Nat) : Transactions :=
  let transaction := state.transactions index
  { state.modify index { transaction with phase := .writes, stored := true } with
    mTransactions := Function.update state.mTransactions transaction.transactionId (some index) }

/-- `mTransactions->get(transactionId)`, with the id of a message. -/
def look (state : Transactions) (message : Message) : Transactions :=
  { state with
    transactions := fun index => (state.transactions index).look message
    reader :=
      match state.mTransactions message.transactionId with
      | some index => .removes index message
      | none => .idle }

/-- The start of a call, whose id no other transaction has. -/
def start (state : Transactions) (oneway : Bool) : Transactions :=
  { state with
    mTransactionIdGenerator := state.mTransactionIdGenerator + 1
    transactions := Function.update state.transactions state.created
      { transactionId := state.mTransactionIdGenerator
        phase := if oneway then .writes else .addsTimeout }
    created := state.created + 1 }

/-- The step of a call of `Client::transact`. -/
def transact (state : Transactions) (index : Nat) : TransactionAction → Option Transactions
  | .orTimeout _ =>
      let transaction := state.transactions index
      if transaction.phase = .addsTimeout then
        some (state.modify index
          { transaction with phase := .addsContinuation, hasTimeout := true })
      else
        none
  | .addContinuation _ =>
      let transaction := state.transactions index
      if transaction.phase = .addsContinuation then
        some (state.modify index
          (if transaction.result.isSome then { transaction with phase := .runsContinuation }
          else { transaction with phase := .puts, hasContinuation := true }))
      else
        none
  | .runContinuation _ =>
      let transaction := state.transactions index
      if transaction.phase = .runsContinuation then
        some ((state.modify index { transaction with phase := .puts }).continuation index)
      else
        none
  | .put _ =>
      let transaction := state.transactions index
      if transaction.phase = .puts then
        some (state.store index)
      else
        none
  | .write _ written =>
      let transaction := state.transactions index
      if transaction.phase = .writes then
        some (state.modify index
          { transaction with phase := if written then .returned else .withdraws })
      else
        none
  | .withdraw _ =>
      let transaction := state.transactions index
      if transaction.phase = .withdraws then
        some ((state.erase transaction.transactionId).modify index
          { transaction with phase := .returned, withdrawn := true })
      else
        none
  | _ => none

/-- The step of an action, if it is possible. -/
def step (state : Transactions) (action : TransactionAction) : Option Transactions :=
  match action with
  | .getAndIncrement oneway =>
      if ∀ index < state.created,
          (state.transactions index).transactionId ≠ state.mTransactionIdGenerator then
        some (state.start oneway)
      else
        none
  | .orTimeout index | .addContinuation index | .runContinuation index | .put index
  | .write index _ | .withdraw index => state.transact index action
  | .receive message =>
      if state.reader = .idle then some { state with reader := .gets message } else none
  | .get =>
      match state.reader with
      | .gets message =>
          some (state.look message)
      | _ => none
  | .remove =>
      match state.reader with
      | .removes index message =>
          some
            { state.erase message.transactionId with reader := .completes index message }
      | _ => none
  | .complete =>
      match state.reader with
      | .completes index message =>
          let transaction := state.transactions index
          some
            { state.modify index (transaction.complete (.message message)) with
              reader := if transaction.continues then .runsContinuation index else .idle }
      | _ => none
  | .runReadersContinuation =>
      match state.reader with
      | .runsContinuation index => some { state.continuation index with reader := .idle }
      | _ => none
  | .fire index =>
      let transaction := state.transactions index
      if transaction.hasTimeout = true ∧ state.timer = .idle then
        some
          { state.modify index { transaction with hasTimeout := false } with
            timer := .completes index }
      else
        none
  | .expire =>
      match state.timer with
      | .completes index =>
          let transaction := state.transactions index
          some
            { state.modify index (transaction.complete .timeout) with
              timer := if transaction.continues then .runsContinuation index else .idle }
      | _ => none
  | .runTimersContinuation =>
      match state.timer with
      | .runsContinuation index => some { state.continuation index with timer := .idle }
      | _ => none

end Transactions

end Plugin

end Mindroid
