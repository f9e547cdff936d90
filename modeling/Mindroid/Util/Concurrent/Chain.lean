import Mindroid.Lang.Exception

/-!
# Exceptions along a chain of promises

A chain is a promise together with everything it depends on.  Once all suppliers
are done, every action has run exactly once, so the outcome of a promise is a
function of its chain.  The `run` methods of the action classes are given as
functions from the outcome of the supplier to the outcome of the consumer.
-/

set_option autoImplicit false

namespace Mindroid

/-- What user code may throw. -/
inductive UserThrow where
  | exception (exception : Exception)
  | stdException (what : String)
  | unknown
  deriving DecidableEq

/-- How a promise is completed: `mResult` or `mException`. -/
abbrev Outcome (V : Type) := Except Exception V

/-- `Promise::toCompletionException` on a shared pointer. -/
def toCompletionException (exception : Exception) : Exception :=
  if exception.isCompletion then
    exception
  else
    .causedBy .completionException exception.getMessage exception

/-- The three `catch` branches of the `run` methods. -/
def caught : UserThrow → Exception
  | .exception exception => toCompletionException exception.clone
  | .stdException what => .root .completionException what
  | .unknown => .root .completionException "Unknown exception"

/-- `throw NullPointerException("Supplier must not be null")` in `completeWith`. -/
def supplierIsNull : UserThrow :=
  .exception (.root .nullPointerException "Supplier must not be null")

/-- `Promise::get` on a promise that is done.  A thrown reference is written as its object. -/
def Outcome.get {V : Type} : Outcome V → Except Exception V
  | .ok result => .ok result
  | .error exception =>
      if exception.isCancellation then
        .error exception
      else
        .error (.causedBy .executionException exception.unwrapped.getMessage exception.unwrapped)

section Actions

variable {V : Type}

/-- Run user code inside `try`. -/
def tryCall {α : Type} : Except UserThrow α → Except Exception α
  | .ok result => .ok result
  | .error thrown => .error (caught thrown)

namespace RelayAction

def run : Outcome V → Outcome V
  | .ok result => .ok result
  | .error exception => .error (toCompletionException exception)

end RelayAction

namespace FunctionAction

def run (function : V → Except UserThrow V) : Outcome V → Outcome V
  | .ok result => tryCall (function result)
  | .error exception => .error (toCompletionException exception)

end FunctionAction

namespace BiFunctionAction

variable [Inhabited V]

def run (function : V → Option Exception → Except UserThrow V) : Outcome V → Outcome V
  | .ok result => tryCall (function result none)
  | .error exception => tryCall (function default (some exception))

end BiFunctionAction

/-- `completeWith` on the promise a function has returned, once that is done. -/
def composed : Except UserThrow (Option (Outcome V)) → Outcome V
  | .error thrown => .error (caught thrown)
  | .ok none => .error (caught supplierIsNull)
  | .ok (some supplier) => RelayAction.run supplier

namespace CompositionFunctionAction

def run (function : V → Except UserThrow (Option (Outcome V))) : Outcome V → Outcome V
  | .ok result => composed (function result)
  | .error exception => .error (toCompletionException exception)

end CompositionFunctionAction

namespace BiCompositionFunctionAction

variable [Inhabited V]

def run (function : V → Option Exception → Except UserThrow (Option (Outcome V))) :
    Outcome V → Outcome V
  | .ok result => composed (function result none)
  | .error exception => composed (function default (some exception))

end BiCompositionFunctionAction

namespace ConsumerAction

def run (function : V → Except UserThrow Unit) : Outcome V → Outcome V
  | .ok result => tryCall (function result) >>= fun _ => .ok result
  | .error exception => .error (toCompletionException exception)

end ConsumerAction

namespace BiConsumerAction

variable [Inhabited V]

def run (function : V → Option Exception → Except UserThrow Unit) : Outcome V → Outcome V
  | .ok result => tryCall (function result none) >>= fun _ => .ok result
  | .error exception =>
      tryCall (function default (some exception)) >>= fun _ => .error exception

end BiConsumerAction

namespace RunAction

def run (action : Except UserThrow Unit) : Outcome V → Outcome V
  | .ok result => tryCall action >>= fun _ => .ok result
  | .error exception => .error (toCompletionException exception)

end RunAction

namespace ErrorFunctionAction

def run (function : Exception → Except UserThrow V) : Outcome V → Outcome V
  | .ok result => .ok result
  | .error exception => tryCall (function exception)

end ErrorFunctionAction

namespace ErrorConsumerAction

def run (function : Exception → Except UserThrow Unit) : Outcome V → Outcome V
  | .ok result => .ok result
  | .error exception => tryCall (function exception) >>= fun _ => .error exception

end ErrorConsumerAction

end Actions

/-- A promise and what it depends on.  The source is completed by the program; a
function given to `thenCompose` tells whether it returns a promise (or null), and
which one. -/
inductive Chain (V : Type) where
  | complete (result : V)
  | completeWith (exception : Exception)
  | completeWithReference (exception : Exception)
  | thenApply (supplier : Chain V) (function : V → Except UserThrow V)
  | thenApplyBoth (supplier : Chain V) (function : V → Option Exception → Except UserThrow V)
  | thenCompose (supplier : Chain V) (function : V → Except UserThrow Bool)
      (returned : V → Chain V)
  | thenComposeBoth (supplier : Chain V) (function : V → Option Exception → Except UserThrow Bool)
      (returned : V → Option Exception → Chain V)
  | thenAccept (supplier : Chain V) (function : V → Except UserThrow Unit)
  | thenAcceptBoth (supplier : Chain V) (function : V → Option Exception → Except UserThrow Unit)
  | thenRun (supplier : Chain V) (action : Except UserThrow Unit)
  | catchException (supplier : Chain V) (function : Exception → Except UserThrow V)
  | catchAndKeep (supplier : Chain V) (function : Exception → Except UserThrow Unit)

namespace Chain

variable {V : Type} [Inhabited V]

/-- How the promise is completed. -/
def outcome : Chain V → Outcome V
  | complete result => .ok result
  | completeWith exception => .error exception
  | completeWithReference exception => .error exception.clone
  | thenApply supplier function => FunctionAction.run function supplier.outcome
  | thenApplyBoth supplier function => BiFunctionAction.run function supplier.outcome
  | thenCompose supplier function returned =>
      CompositionFunctionAction.run
        (fun result => (function result).map fun notNull =>
          if notNull then some (returned result).outcome else none)
        supplier.outcome
  | thenComposeBoth supplier function returned =>
      BiCompositionFunctionAction.run
        (fun result exception => (function result exception).map fun notNull =>
          if notNull then some (returned result exception).outcome else none)
        supplier.outcome
  | thenAccept supplier function => ConsumerAction.run function supplier.outcome
  | thenAcceptBoth supplier function => BiConsumerAction.run function supplier.outcome
  | thenRun supplier action => RunAction.run action supplier.outcome
  | catchException supplier function => ErrorFunctionAction.run function supplier.outcome
  | catchAndKeep supplier function => ErrorConsumerAction.run function supplier.outcome

/-! ## Where a failure comes from -/

/-- The first exception of a failure, and how it got into the chain. -/
inductive Origin where
  | thrown (thrown : UserThrow)
  | set (exception : Exception)
  | setReference (exception : Exception)
  deriving DecidableEq

/-- The failure of user code itself. -/
def thrownBy {α : Type} : Except UserThrow α → Option Origin
  | .ok _ => none
  | .error thrown => some (.thrown thrown)

/-- The failure of a composed promise: user code throws, returns null, or returns a
promise that fails. -/
def composedOrigin (function : Except UserThrow Bool) (returned : Option Origin) :
    Option Origin :=
  match function with
  | .error thrown => some (.thrown thrown)
  | .ok false => some (.thrown supplierIsNull)
  | .ok true => returned

/-- The origin of the failure of a promise, if it fails. -/
def origin : Chain V → Option Origin
  | complete _ => none
  | completeWith exception => some (.set exception)
  | completeWithReference exception => some (.setReference exception)
  | thenApply supplier function =>
      match supplier.outcome with
      | .ok result => thrownBy (function result)
      | .error _ => supplier.origin
  | thenApplyBoth supplier function =>
      match supplier.outcome with
      | .ok result => thrownBy (function result none)
      | .error exception => thrownBy (function default (some exception))
  | thenCompose supplier function returned =>
      match supplier.outcome with
      | .ok result => composedOrigin (function result) (returned result).origin
      | .error _ => supplier.origin
  | thenComposeBoth supplier function returned =>
      match supplier.outcome with
      | .ok result => composedOrigin (function result none) (returned result none).origin
      | .error exception =>
          composedOrigin (function default (some exception))
            (returned default (some exception)).origin
  | thenAccept supplier function =>
      match supplier.outcome with
      | .ok result => thrownBy (function result)
      | .error _ => supplier.origin
  | thenAcceptBoth supplier function =>
      match supplier.outcome with
      | .ok result => thrownBy (function result none)
      | .error exception => (thrownBy (function default (some exception))).or supplier.origin
  | thenRun supplier action =>
      match supplier.outcome with
      | .ok _ => thrownBy action
      | .error _ => supplier.origin
  | catchException supplier function =>
      match supplier.outcome with
      | .ok _ => none
      | .error exception => thrownBy (function exception)
  | catchAndKeep supplier function =>
      match supplier.outcome with
      | .ok _ => none
      | .error exception => (thrownBy (function exception)).or supplier.origin

end Chain

end Mindroid
