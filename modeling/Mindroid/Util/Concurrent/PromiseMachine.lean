import Mindroid.Foundation.Threads
import Mindroid.Util.Concurrent.Chain

/-!
# Promises shared by threads

Every section that a thread executes under the lock of a promise is one instruction;
a section that goes on while it runs actions ends with an instruction that releases the
lock.  Promises and actions are known by their identities, and `ActionClass` tells what
an action object is.  An action is created by the call that registers it.
-/

set_option autoImplicit false

namespace Mindroid

open Foundation

/-- A call that a thread makes.  `complete` with an exception is `completeWith`, and
`register` stands for `completeWith` with a supplier, for `then*`, `catchException` and
for the error relays of `allOf`, which all register in the same way.  `andTree` is the
part of that function below the creation of its action, and `anyOf` is given the
consumer and the actions that it creates. -/
inductive Call (P A V : Type) where
  | complete (promise : P) (outcome : Outcome V)
  | cancel (promise : P)
  | register (action : A)
  | andTree (action : A)
  | anyOf (consumer : P) (actions : List A)

/-- What the user function of an action leads to: an outcome for the consumer, or a
promise with which the consumer is completed by the given relay. -/
inductive Produced (A V : Type) where
  | outcome (outcome : Outcome V)
  | completeWith (relay : A)

/-- The classes of actions.  A `function` action is handed to its executor (which may
execute it at once), calls user code, and completes its consumer; `FunctionAction.run`
and the like give what it produces.  `RelayAction` and `AnyOfAction` are the same
class here. -/
inductive ActionClass (P A V : Type) where
  | function (synchronous : Bool) (supplier consumer : P)
      (calls : Outcome V → List (Call P A V)) (produces : Outcome V → Produced A V)
  | relay (supplier consumer : P)
  | biRelay (supplier1 supplier2 consumer : P)
  | errorRelay (supplier consumer : P)

namespace ActionClass

variable {P A V : Type}

/-- The supplier that is asked first. -/
def supplier : ActionClass P A V → P
  | function _ supplier _ _ _ => supplier
  | relay supplier _ => supplier
  | biRelay supplier _ _ => supplier
  | errorRelay supplier _ => supplier

/-- The other supplier of an action that has two. -/
def supplier2 : ActionClass P A V → P
  | biRelay _ supplier2 _ => supplier2
  | other => other.supplier

def consumer : ActionClass P A V → P
  | function _ _ consumer _ _ => consumer
  | relay _ consumer => consumer
  | biRelay _ _ consumer => consumer
  | errorRelay _ consumer => consumer

def isBiRelay : ActionClass P A V → Bool
  | biRelay _ _ _ => true
  | _ => false

def isRelay : ActionClass P A V → Bool
  | relay _ _ => true
  | _ => false

def isFunction : ActionClass P A V → Bool
  | function _ _ _ _ _ => true
  | _ => false

/-- Whether the action is executed by some thread later on. -/
def isDeferred : ActionClass P A V → Bool
  | function synchronous _ _ _ _ => !synchronous
  | _ => false

def suppliers (type : ActionClass P A V) : List P :=
  if type.isBiRelay then [type.supplier, type.supplier2] else [type.supplier]

end ActionClass

/-- The fields of a promise.  The lock is part of the threads' stacks. -/
structure Promise (A V : Type) where
  mIsDone : Bool
  mResult : V
  mException : Option Exception
  mActions : List A

namespace Promise

variable {A V : Type}

/-- How the promise has been completed. -/
def outcome (promise : Promise A V) : Outcome V :=
  match promise.mException with
  | some exception => .error exception
  | none => .ok promise.mResult

/-- `mResult = result` or `mException = exception`, and `mIsDone = true`. -/
def settled (promise : Promise A V) (outcome : Outcome V) : Promise A V :=
  match outcome with
  | .ok result => { promise with mResult := result, mIsDone := true }
  | .error exception => { promise with mException := some exception, mIsDone := true }

end Promise

/-- Who has completed a promise: a call, or an action. -/
inductive Completer where
  | call (number : Nat)
  | action
  deriving DecidableEq

/-- All promises, the claim flags of the actions and the actions that executors were
given.  The other fields record what has happened. -/
structure Promises (P A V : Type) where
  promise : P → Promise A V
  claimed : A → Bool
  submitted : List A
  nextCall : Nat
  completedBy : P → Option Completer
  returned : List (Nat × P × Bool)
  triggered : List A
  visited : A → P → Bool
  removed : A → P → Bool
  registered : A → Bool
  combined : A → Bool

/-- What follows after the consumer of an action has been set: `onComplete`, or the end
of the `andTree` or `anyOf` that has created it. -/
inductive Ending (A : Type) where
  | onComplete
  | returns (actions : List A)

inductive Instr (P A V : Type) where
  | call (call : Call P A V)
  | onComplete (promise : P)
  | runActions (promise : P)
  | unlock (promise : P)
  | returnTrue (number : Nat) (promise : P)
  | isCancelled (promise : P)
  | tryRun (action : A)
  | isSecondDone (action : A)
  | claim (action : A)
  | run (action : A) (ending : Ending A)
  | runSecond (action : A) (ending : Ending A)
  | passResult (action : A) (ending : Ending A)
  | passException (action : A) (supplier : P) (ending : Ending A)
  | apply (action : A) (outcome : Outcome V)
  | setOutcome (action : A) (outcome : Outcome V) (ending : Ending A)
  | registerAt (action : A) (suppliers : List P)
  | addAction (action : A) (supplier : P) (suppliers : List P)
  | linkSecond (action : A)
  | linkException (action : A)
  | linkExceptionSecond (action : A)
  | scan (consumer : P) (actions all : List A)
  | addAll (consumer : P) (actions all : List A)
  | cleanUp (consumer : P) (all : List A)
  | removeAll (actions all : List A)

namespace Promises

variable {P A V : Type} [DecidableEq P] [DecidableEq A]

/-- `if (!mIsDone)`, the promise is completed. -/
def settle (promises : Promises P A V) (promise : P) (outcome : Outcome V) (completer : Completer) :
    Promises P A V :=
  if (promises.promise promise).mIsDone then
    promises
  else
    { promises with
      promise :=
        Function.update promises.promise promise ((promises.promise promise).settled outcome)
      completedBy := Function.update promises.completedBy promise (some completer) }

/-- Replace the list of actions. -/
def setActions (promises : Promises P A V) (promise : P) (actions : List A) : Promises P A V :=
  { promises with
    promise := Function.update promises.promise promise
      { promises.promise promise with mActions := actions } }

/-- The action is tried because the supplier is done. -/
def visit (promises : Promises P A V) (action : A) (supplier : P) : Promises P A V :=
  { promises with
    visited := Function.update promises.visited action
      (Function.update (promises.visited action) supplier true) }

def remove (promises : Promises P A V) (action : A) (supplier : P) : Promises P A V :=
  { promises.setActions supplier ((promises.promise supplier).mActions.erase action) with
    removed := Function.update promises.removed action
      (Function.update (promises.removed action) supplier true) }

/-- `mClaim.compareAndSet(false, true)` succeeds. -/
def claim (promises : Promises P A V) (action : A) : Promises P A V :=
  { promises with
    claimed := Function.update promises.claimed action true
    triggered := action :: promises.triggered }

def returns (promises : Promises P A V) (number : Nat) (promise : P) (result : Bool) :
    Promises P A V :=
  { promises with returned := (number, promise, result) :: promises.returned }

def register (promises : Promises P A V) (actions : List A) : Promises P A V :=
  { promises with registered := fun action => promises.registered action || actions.contains action }

def combine (promises : Promises P A V) (actions : List A) : Promises P A V :=
  { promises with combined := fun action => promises.combined action || actions.contains action }

end Promises

namespace PromiseMachine

section Semantics

variable {P A V : Type} [DecidableEq P] [DecidableEq A] [Inhabited V]
variable (classOf : A → ActionClass P A V)

/-- `CancellationException("Cancellation exception")`. -/
def cancellation : Exception :=
  .root { name := "CancellationException", isCancellation := true } "Cancellation exception"

/-- The promise whose lock an instruction acquires. -/
def acquires : Instr P A V → Option P
  | .call (.complete promise _) => some promise
  | .call (.andTree action) => some (classOf action).supplier
  | .call _ => none
  | .onComplete promise => some promise
  | .runActions _ => none
  | .unlock _ => none
  | .returnTrue _ _ => none
  | .isCancelled promise => some promise
  | .tryRun action => if (classOf action).isBiRelay then some (classOf action).supplier else none
  | .isSecondDone action => some (classOf action).supplier2
  | .claim _ => none
  | .run action _ => some (classOf action).supplier
  | .runSecond action _ => some (classOf action).supplier2
  | .passResult action _ => some (classOf action).supplier
  | .passException _ supplier _ => some supplier
  | .apply _ _ => none
  | .setOutcome action _ _ => some (classOf action).consumer
  | .registerAt _ suppliers => suppliers.head?
  | .addAction _ supplier _ => some supplier
  | .linkSecond action => some (classOf action).supplier2
  | .linkException action => some (classOf action).supplier
  | .linkExceptionSecond action => some (classOf action).supplier2
  | .scan _ actions _ => actions.head?.map fun action => (classOf action).supplier
  | .addAll _ actions _ => actions.head?.map fun action => (classOf action).supplier
  | .cleanUp consumer _ => some consumer
  | .removeAll actions _ => actions.head?.map fun action => (classOf action).supplier

def releases : Instr P A V → Option P
  | .unlock promise => some promise
  | _ => none

/-- Whether an instruction is the loop of `runActions` on the promise. -/
def isRunning (promise : P) : Instr P A V → Bool
  | .runActions other => other = promise
  | _ => false

/-- A call, executed by a thread. -/
def executeCall (promises : Promises P A V) :
    Call P A V → Option (Promises P A V × List (Instr P A V))
  | .complete promise outcome =>
      let number := promises.nextCall
      let counted := { promises with nextCall := number + 1 }
      if (promises.promise promise).mIsDone then
        some (counted.returns number promise false, [])
      else
        some (counted.settle promise outcome (.call number),
          [.runActions promise, .unlock promise, .returnTrue number promise])
  | .cancel promise =>
      some (promises, [.call (.complete promise (.error cancellation)), .isCancelled promise])
  | .register action =>
      if (classOf action).isBiRelay then
        none
      else
        some (promises, [.registerAt action [(classOf action).supplier]])
  | .andTree action =>
      if !(classOf action).isBiRelay then
        none
      else if (promises.promise (classOf action).supplier).mIsDone then
        some (promises, [.linkSecond action])
      else
        some (promises, [.registerAt action (classOf action).suppliers])
  | .anyOf _ [] => some (promises, [])
  | .anyOf consumer (action :: actions) =>
      let all := action :: actions
      if all.all fun action => (classOf action).isRelay && (classOf action).consumer = consumer then
        some (promises, [.scan consumer all all])
      else
        none

/-- An instruction, given the rest of the thread's stack.  There is no step where the
source has no defined behaviour: a thread that is running the actions of a promise must
not take the action away at which its loop goes on. -/
def execute (promises : Promises P A V) (rest : List (Instr P A V)) :
    Instr P A V → Option (Promises P A V × List (Instr P A V))
  | .call call => executeCall classOf promises call
  | .onComplete promise =>
      if rest.any (isRunning promise) && !(promises.promise promise).mActions.isEmpty then
        none
      else
        some (promises, [.runActions promise, .unlock promise])
  | .runActions promise =>
      match (promises.promise promise).mActions with
      | [] => some (promises, [])
      | action :: behind =>
          some ((promises.setActions promise behind).visit action promise,
            [.tryRun action, .runActions promise])
  | .unlock _ => some (promises, [])
  | .returnTrue number promise => some (promises.returns number promise true, [])
  | .isCancelled _ => some (promises, [])
  | .tryRun action =>
      if (classOf action).isBiRelay then
        if (promises.promise (classOf action).supplier).mIsDone then
          some (promises, [.isSecondDone action])
        else
          some (promises, [])
      else
        some (promises, [.claim action])
  | .isSecondDone action =>
      if (promises.promise (classOf action).supplier2).mIsDone then
        some (promises, [.claim action])
      else
        some (promises, [])
  | .claim action =>
      if promises.claimed action then
        some (promises, [])
      else
        match classOf action with
        | .function false _ _ _ _ =>
            let promises := promises.claim action
            some ({ promises with submitted := action :: promises.submitted }, [])
        | _ => some (promises.claim action, [.run action .onComplete])
  | .run action ending =>
      match (promises.promise (classOf action).supplier).mException with
      | some _ => some (promises, [.passException action (classOf action).supplier ending])
      | none =>
          match classOf action with
          | .biRelay _ _ _ => some (promises, [.runSecond action ending])
          | .errorRelay _ _ => some (promises, [])
          | _ => some (promises, [.passResult action ending])
  | .runSecond action ending =>
      match (promises.promise (classOf action).supplier2).mException with
      | some _ => some (promises, [.passException action (classOf action).supplier2 ending])
      | none => some (promises, [.setOutcome action (.ok default) ending])
  | .passResult action ending =>
      let result := (promises.promise (classOf action).supplier).mResult
      match classOf action with
      | .function _ _ _ _ _ => some (promises, [.apply action (.ok result)])
      | _ => some (promises, [.setOutcome action (.ok result) ending])
  | .passException action supplier ending =>
      match (promises.promise supplier).mException with
      | none => none
      | some exception =>
          match classOf action with
          | .function _ _ _ _ _ => some (promises, [.apply action (.error exception)])
          | _ =>
              some (promises, [.setOutcome action (.error (toCompletionException exception)) ending])
  | .apply action outcome =>
      match classOf action with
      | .function _ _ _ calls produces =>
          match produces outcome with
          | .outcome produced =>
              some (promises, (calls outcome).map .call ++ [.setOutcome action produced .onComplete])
          | .completeWith relay =>
              some (promises, (calls outcome).map .call ++ [.call (.register relay)])
      | _ => none
  | .setOutcome action outcome .onComplete =>
      some (promises.settle (classOf action).consumer outcome .action,
        [.onComplete (classOf action).consumer])
  | .setOutcome action outcome (.returns actions) =>
      -- the consumer has just been created, so nobody has registered with it
      if (promises.promise (classOf action).consumer).mActions.isEmpty then
        some ((promises.settle (classOf action).consumer outcome .action).combine actions, [])
      else
        none
  | .registerAt action [] =>
      some ((promises.register [action]).combine [action], [])
  | .registerAt action (supplier :: suppliers) =>
      if (promises.promise supplier).mIsDone then
        some (promises.visit action supplier, [.tryRun action, .registerAt action suppliers])
      else
        some (promises, [.addAction action supplier suppliers])
  | .addAction action supplier suppliers =>
      let actions := (promises.promise supplier).mActions ++ [action]
      if (promises.promise supplier).mIsDone then
        some ((promises.setActions supplier (actions.erase action)).visit action supplier,
          [.tryRun action, .unlock supplier, .registerAt action suppliers])
      else
        some (promises.setActions supplier actions, [.registerAt action suppliers])
  | .linkSecond action =>
      if (promises.promise (classOf action).supplier2).mIsDone then
        some (promises, [.linkException action])
      else
        some (promises, [.registerAt action (classOf action).suppliers])
  | .linkException action =>
      match (promises.promise (classOf action).supplier).mException with
      | some exception =>
          some (promises,
            [.setOutcome action (.error (toCompletionException exception)) (.returns [action])])
      | none => some (promises, [.linkExceptionSecond action])
  | .linkExceptionSecond action =>
      match (promises.promise (classOf action).supplier2).mException with
      | some exception =>
          some (promises,
            [.setOutcome action (.error (toCompletionException exception)) (.returns [action])])
      | none => some (promises, [.setOutcome action (.ok default) (.returns [action])])
  | .scan consumer [] all => some (promises, [.addAll consumer all all])
  | .scan consumer (action :: actions) all =>
      if (promises.promise (classOf action).supplier).mIsDone then
        some (promises, [.run action (.returns all)])
      else
        some (promises, [.scan consumer actions all])
  | .addAll consumer [] all => some (promises.register all, [.cleanUp consumer all])
  | .addAll consumer (action :: actions) all =>
      let supplier := (classOf action).supplier
      let registered := (promises.promise supplier).mActions ++ [action]
      if (promises.promise supplier).mIsDone then
        some ((promises.setActions supplier (registered.erase action)).visit action supplier,
          [.tryRun action, .unlock supplier, .addAll consumer actions all])
      else
        some (promises.setActions supplier registered, [.addAll consumer actions all])
  | .cleanUp consumer all =>
      if (promises.promise consumer).mIsDone then
        some (promises, [.removeAll all all])
      else
        some (promises.combine all, [])
  | .removeAll [] all => some (promises.combine all, [])
  | .removeAll (action :: actions) all =>
      let supplier := (classOf action).supplier
      if rest.any (isRunning supplier) &&
          (promises.promise supplier).mActions.head? = some action then
        none
      else
        some (promises.remove action supplier, [.removeAll actions all])

/-- Threads that work with promises.  A thread that has nothing to do may execute an action
that was handed to an executor. -/
def machine : Machine (Promises P A V) (Instr P A V) P where
  acquires := acquires classOf
  releases := releases
  exec promises rest instr promises' pushed :=
    execute classOf promises rest instr = some (promises', pushed)
  take promises promises' pushed :=
    ∃ action ∈ promises.submitted,
      promises' = { promises with submitted := promises.submitted.erase action } ∧
        pushed = [.run action .onComplete]

end Semantics

/-- No promise is done, and no action exists. -/
def fresh {P A V : Type} [Inhabited V] : Promises P A V where
  promise _ := ⟨false, default, none, []⟩
  claimed _ := false
  submitted := []
  nextCall := 0
  completedBy _ := none
  returned := []
  triggered := []
  visited _ _ := false
  removed _ _ := false
  registered _ := false
  combined _ := false

/-- Every thread has some calls to make. -/
structure Initial {P A V : Type} [Inhabited V]
    (config : Config (Promises P A V) (Instr P A V)) : Prop where
  shared : config.shared = fresh
  calls : ∀ thread, ∀ instr ∈ config.stack thread, ∃ call, instr = .call call

end PromiseMachine

end Mindroid
