import Mathlib.Init

/-!
# Exceptions

An exception object has a dynamic type, a message and possibly a cause.  Of its type
only what the promise code asks for matters: whether a cast to `CompletionException`
or `CancellationException` succeeds, and whether the class overrides `clone()`.
-/

set_option autoImplicit false

namespace Mindroid

/-- A class derived from `mindroid::Exception`. -/
structure ExceptionClass where
  name : String
  isCompletion : Bool := false
  isCancellation : Bool := false
  overridesClone : Bool := false
  deriving DecidableEq

namespace ExceptionClass

/-- `mindroid::Exception` itself. -/
def exception : ExceptionClass where
  name := "Exception"

def completionException : ExceptionClass where
  name := "CompletionException"
  isCompletion := true

def executionException : ExceptionClass where
  name := "ExecutionException"

def nullPointerException : ExceptionClass where
  name := "NullPointerException"

/-- The class of the object that `clone()` creates.  A class that does not override
it inherits `new Exception(mMessage, mCause)`. -/
def ofClone (type : ExceptionClass) : ExceptionClass :=
  if type.overridesClone then type else exception

end ExceptionClass

inductive Exception where
  | root (type : ExceptionClass) (message : String)
  | causedBy (type : ExceptionClass) (message : String) (cause : Exception)
  deriving DecidableEq

namespace Exception

def type : Exception → ExceptionClass
  | root type _ => type
  | causedBy type _ _ => type

def getMessage : Exception → String
  | root _ message => message
  | causedBy _ message _ => message

def getCause : Exception → Option Exception
  | root _ _ => none
  | causedBy _ _ cause => some cause

/-- `Exception::clone()`. -/
def clone : Exception → Exception
  | root type message => root type.ofClone message
  | causedBy type message cause => causedBy type.ofClone message cause

/-- Whether `Class<CompletionException>::isInstance` holds. -/
def isCompletion (exception : Exception) : Bool :=
  exception.type.isCompletion

/-- Whether `Class<CancellationException>::isInstance` holds. -/
def isCancellation (exception : Exception) : Bool :=
  exception.type.isCancellation

/-- The cause of a `CompletionException` that has one, else the exception itself. -/
def unwrapped (exception : Exception) : Exception :=
  if exception.isCompletion then
    exception.getCause.getD exception
  else
    exception

/-- The exception is what a clone of it is: its class is `Exception`, or it
overrides `clone()`. -/
def ClonesItself (exception : Exception) : Prop :=
  exception.type = .exception ∨ exception.type.overridesClone = true

/-- No `CompletionException` around a `CompletionException`. -/
def NotNested (exception : Exception) : Prop :=
  exception.isCompletion = true →
    ∀ cause, exception.getCause = some cause → cause.isCompletion = false

theorem clone_of_clonesItself {exception : Exception} (clones : exception.ClonesItself) :
    exception.clone = exception := by
  have kept : exception.type.ofClone = exception.type := by
    rw [ExceptionClass.ofClone]
    rcases clones with base | overrides
    · rw [base]
      rfl
    · rw [if_pos overrides]
  cases exception with
  | root type message => exact congrArg (root · message) kept
  | causedBy type message cause => exact congrArg (causedBy · message cause) kept

theorem type_clone_of_not {exception : Exception} (sliced : ¬exception.ClonesItself) :
    exception.clone.type = .exception := by
  have base : exception.type.ofClone = .exception :=
    if_neg fun overrides => sliced (.inr overrides)
  cases exception with
  | root => exact base
  | causedBy => exact base

@[simp] theorem getCause_clone (exception : Exception) :
    exception.clone.getCause = exception.getCause := by
  cases exception with
  | root => rfl
  | causedBy => rfl

theorem unwrapped_of_not_isCompletion {exception : Exception}
    (plain : exception.isCompletion = false) : exception.unwrapped = exception := by
  rw [unwrapped, plain]
  rfl

theorem unwrapped_of_getCause {exception cause : Exception}
    (completion : exception.isCompletion = true) (isCause : exception.getCause = some cause) :
    exception.unwrapped = cause := by
  rw [unwrapped, if_pos completion, isCause]
  rfl

theorem unwrapped_of_no_cause {exception : Exception} (noCause : exception.getCause = none) :
    exception.unwrapped = exception := by
  rw [unwrapped, noCause]
  split <;> rfl

/-- An exception is not its own cause. -/
theorem getCause_ne (exception : Exception) : exception.getCause ≠ some exception := by
  induction exception with
  | root => simp [getCause]
  | causedBy type message cause ih =>
      intro same
      rw [getCause, Option.some.injEq] at same
      rw [same, getCause] at ih
      exact ih (congrArg some same)

end Exception

end Mindroid
