import Mathlib.Algebra.Group.Nat.Defs
import Mindroid.Foundation.Transition
import Mindroid.Util.Concurrent.PromiseMachine

/-!
# Waiting for a promise

Threads call `get()` and `get(timeout)` while others complete the promise and time passes.  A round
of a waiting loop is one step, from the lock that the thread gets to the next `await` or to the end
of the call.  A thread may wake up from `await` at any time.
-/

set_option autoImplicit false

namespace Mindroid

open Foundation

/-- What `get` throws: an exception, or the reference to one that a cast returns. -/
inductive GetThrow where
  | exception (thrown : Exception)
  | reference (thrown : Exception)
  deriving DecidableEq

/-- Whether `catch (const CancellationException&)` takes it. -/
def GetThrow.isCancellation : GetThrow → Bool
  | .exception thrown => thrown.isCancellation
  | .reference _ => false

/-- The exception object behind what is thrown. -/
def GetThrow.object : GetThrow → Exception
  | .exception thrown => thrown
  | .reference thrown => thrown

/-- `ExecutionException(cause)`. -/
def executionException (cause : Exception) : Exception :=
  .causedBy .executionException cause.getMessage cause

/-- `TimeoutException("Promise timed out")`. -/
def timedOut : GetThrow :=
  .exception (.root { name := "TimeoutException" } "Promise timed out")

namespace Promise

variable {A V : Type}

def isCancelled (promise : Promise A V) : Bool :=
  match promise.mException with
  | some exception => exception.isCancellation
  | none => false

/-- How both `get` functions end once the promise is done. -/
def report (promise : Promise A V) : Except GetThrow V :=
  match promise.mException with
  | some exception =>
      if exception.isCancellation then
        .error (.reference exception)
      else
        .error (.exception (executionException exception.unwrapped))
  | none => .ok promise.mResult

/-- A round of `get()`: its result, unless it waits. -/
def get (promise : Promise A V) : Option (Except GetThrow V) :=
  if !promise.mIsDone then
    none
  else
    some promise.report

/-- A round of `get(timeout)`. -/
def getTimed (promise : Promise A V) (duration : Int64) : Option (Except GetThrow V) :=
  if !promise.mIsDone && decide (0 < duration) then
    none
  else if !promise.mIsDone then
    some (.error timedOut)
  else
    some promise.report

end Promise

/-- The variables of a thread that waits. -/
inductive Awaiting where
  | untimed
  | timed (start timeout : UInt64)
  deriving DecidableEq

/-- A promise and the threads that wait for it. -/
structure Awaited (A V : Type) where
  promise : Promise A V
  uptimeMillis : UInt64
  awaiting : Nat → Option Awaiting

inductive GetStep (V : Type) where
  | get (thread : Nat)
  | getTimed (thread : Nat) (timeout : UInt64)
  | wakes (thread : Nat)
  /-- `complete`, `completeWith` or `cancel`. -/
  | completes (outcome : Outcome V)
  | ticks (millis : UInt64)

namespace Awaited

variable {A V : Type}

/-- The result of the call, if the step ends it. -/
def ends (st : Awaited A V) : GetStep V → Option (Except GetThrow V)
  | .get _ => st.promise.get
  | .getTimed _ timeout => st.promise.getTimed timeout.toInt64
  | .wakes thread =>
      match st.awaiting thread with
      | none => none
      | some .untimed => st.promise.get
      | some (.timed start timeout) =>
          st.promise.getTimed (start + timeout - st.uptimeMillis).toInt64
  | .completes _ => none
  | .ticks _ => none

/-- The thread goes on waiting if its call has not ended. -/
def await (st : Awaited A V) (thread : Nat) (awaiting : Awaiting)
    (result : Option (Except GetThrow V)) : Awaited A V :=
  { st with
    awaiting := Function.update st.awaiting thread (if result.isSome then none else some awaiting) }

/-- A thread makes one call at a time, and the clock does not overflow. -/
def step (st : Awaited A V) (action : GetStep V) : Option (Awaited A V) :=
  match action with
  | .get thread =>
      if st.awaiting thread = none then
        some (st.await thread .untimed (st.ends action))
      else
        none
  | .getTimed thread timeout =>
      if st.awaiting thread = none then
        some (st.await thread (.timed st.uptimeMillis timeout) (st.ends action))
      else
        none
  | .wakes thread =>
      (st.awaiting thread).map fun awaiting => st.await thread awaiting (st.ends action)
  | .completes outcome =>
      if st.promise.mIsDone then
        none
      else
        some { st with promise := st.promise.settled outcome }
  | .ticks millis =>
      if st.uptimeMillis.toNat + millis.toNat < 2 ^ 64 then
        some { st with uptimeMillis := st.uptimeMillis + millis }
      else
        none

/-- Nobody waits. -/
def initial (promise : Promise A V) (uptimeMillis : UInt64) : Awaited A V where
  promise
  uptimeMillis
  awaiting := fun _ => none

/-! ## What is expected -/

/-- The result of a call tells how the promise was completed. -/
structure Reports (promise : Promise A V) (result : Except GetThrow V) : Prop where
  value : ∀ value, result = .ok value ↔ promise.outcome = .ok value
  cancelled : (∃ thrown, result = .error thrown ∧ thrown.isCancellation = true) ↔
    promise.isCancelled = true
  failed : ∀ exception, promise.outcome = .error exception → promise.isCancelled = false →
    result = .error (.exception (executionException exception.unwrapped))

/-- The thread that looks at the promise. -/
def Looks : GetStep V → Prop
  | .get _ => True
  | .getTimed _ _ => True
  | .wakes _ => True
  | _ => False

/-- When the thread may give up. -/
def deadline (st : Awaited A V) : GetStep V → Option Nat
  | .getTimed _ timeout => some (st.uptimeMillis.toNat + timeout.toNat)
  | .wakes thread =>
      match st.awaiting thread with
      | some (.timed start timeout) => some (start.toNat + timeout.toNat)
      | _ => none
  | _ => none

/-- Whoever looks at a promise that is done gets what both functions report, and a timeout needs a
promise that is not done and has lasted as long as the call says. -/
def GetsRight (st : Awaited A V) (action : GetStep V) (_ : Awaited A V) : Prop :=
  (st.promise.mIsDone = true → Looks action →
    ∃ result, st.ends action = some result ∧ st.promise.get = some result ∧
      Reports st.promise result) ∧
  (st.ends action = some (.error timedOut) → st.promise.mIsDone = false ∧
    ∃ deadline, st.deadline action = some deadline ∧ deadline ≤ st.uptimeMillis.toNat)

/-- Nobody looks at a promise that has been cancelled, and no call waits with a timeout that is
negative as a signed number. -/
def Gettable (st : Awaited A V) (action : GetStep V) : Prop :=
  (st.promise.mIsDone = true → Looks action → st.promise.isCancelled = false) ∧
  (st.promise.mIsDone = false → ∀ thread timeout, action = .getTimed thread timeout →
    timeout.toNat < 2 ^ 63)

/-! ## Rounds of the loops -/

section Rounds

theorem positive_toInt64_iff (duration : UInt64) :
    0 < duration.toInt64 ↔ 0 < duration.toNat ∧ duration.toNat < 2 ^ 63 := by
  rw [Int64.lt_iff_toInt_lt]
  change (0 : Int) < duration.toBitVec.toInt ↔ 0 < duration.toBitVec.toNat ∧ _
  rw [BitVec.toInt_eq_toNat_cond]
  have below := duration.toBitVec.isLt
  change _ ↔ _ ∧ duration.toBitVec.toNat < 2 ^ 63
  split <;> omega

variable {promise : Promise A V}

theorem get_done (done : promise.mIsDone = true) : promise.get = some promise.report := by
  rw [Promise.get, done]
  rfl

theorem getTimed_done (done : promise.mIsDone = true) (duration : Int64) :
    promise.getTimed duration = some promise.report := by
  rw [Promise.getTimed, done]
  rfl

theorem get_pending (pending : promise.mIsDone = false) : promise.get = none := by
  rw [Promise.get, pending]
  rfl

/-- A pending promise times out when the duration is not positive. -/
theorem getTimed_pending (pending : promise.mIsDone = false) (duration : Int64) :
    promise.getTimed duration = some (.error timedOut) ↔ ¬0 < duration := by
  rw [Promise.getTimed, pending]
  by_cases positive : 0 < duration
  · simp [positive]
  · simp [positive]

theorem positive_of_waits {duration : Int64} (waits : promise.getTimed duration = none) :
    0 < duration := by
  by_contra notPositive
  rw [Promise.getTimed, decide_eq_false notPositive, Bool.and_false, if_neg Bool.false_ne_true]
    at waits
  split at waits
  · cases waits
  · cases waits

theorem report_ne_timedOut (promise : Promise A V) : promise.report ≠ .error timedOut := by
  rw [Promise.report]
  cases promise.mException with
  | none => intro same; cases same
  | some exception =>
      simp only
      split
      · intro same; cases same
      · intro same; cases same

theorem of_no_exception (none : promise.mException = none) :
    promise.outcome = .ok promise.mResult ∧ promise.isCancelled = false ∧
      promise.report = .ok promise.mResult := by
  rw [Promise.outcome, Promise.isCancelled, Promise.report, none]
  exact ⟨rfl, rfl, rfl⟩

theorem of_exception {exception : Exception} (some : promise.mException = some exception) :
    promise.outcome = .error exception ∧ promise.isCancelled = exception.isCancellation ∧
      promise.report = if exception.isCancellation then .error (.reference exception) else
        .error (.exception (executionException exception.unwrapped)) := by
  rw [Promise.outcome, Promise.isCancelled, Promise.report, some]
  exact ⟨rfl, rfl, rfl⟩

/-- Along a chain, only the exception object counts. -/
theorem get_outcome (promise : Promise A V) :
    promise.outcome.get = promise.report.mapError GetThrow.object := by
  cases result : promise.mException with
  | none =>
      rcases of_no_exception result with ⟨outcome, _, reported⟩
      rw [outcome, reported]
      rfl
  | some exception =>
      rcases of_exception result with ⟨outcome, _, reported⟩
      rw [outcome, reported, Outcome.get]
      cases exception.isCancellation with
      | true => rfl
      | false => rfl

/-- What is thrown for a cancelled promise is not caught as a `CancellationException`. -/
theorem not_reports_of_cancelled (cancelled : promise.isCancelled = true) :
    ¬Reports promise promise.report := by
  intro reports
  rcases reports.cancelled.mpr cancelled with ⟨thrown, isThrown, caught⟩
  cases result : promise.mException with
  | none =>
      rw [(of_no_exception result).2.1] at cancelled
      cases cancelled
  | some exception =>
      rcases of_exception result with ⟨_, sameCancelled, reported⟩
      rw [reported, if_pos (sameCancelled.symm.trans cancelled)] at isThrown
      cases isThrown
      cases caught

theorem reports_of_not_cancelled (notCancelled : promise.isCancelled = false) :
    Reports promise promise.report := by
  have notTrue : ¬promise.isCancelled = true := Bool.eq_false_iff.mp notCancelled
  cases result : promise.mException with
  | none =>
      rcases of_no_exception result with ⟨outcome, _, reported⟩
      rw [reported]
      constructor
      case value =>
        intro value
        rw [outcome, Except.ok.injEq, Except.ok.injEq]
      case cancelled =>
        refine ⟨?_, fun is => absurd is notTrue⟩
        rintro ⟨thrown, isThrown, _⟩
        cases isThrown
      case failed =>
        intro exception failed
        rw [outcome] at failed
        cases failed
  | some exception =>
      rcases of_exception result with ⟨outcome, sameCancelled, reported⟩
      have plain : exception.isCancellation = false := sameCancelled.symm.trans notCancelled
      rw [if_neg (Bool.eq_false_iff.mp plain)] at reported
      rw [reported]
      constructor
      case value =>
        intro value
        rw [outcome]
        exact ⟨fun isOk => (by cases isOk), fun isOk => (by cases isOk)⟩
      case cancelled =>
        refine ⟨?_, fun is => absurd is notTrue⟩
        rintro ⟨thrown, isThrown, caught⟩
        cases isThrown
        cases caught
      case failed =>
        intro other failed _
        rw [outcome] at failed
        cases failed
        rfl

theorem reports_iff (promise : Promise A V) :
    Reports promise promise.report ↔ promise.isCancelled = false := by
  constructor
  · intro reports
    exact Bool.eq_false_iff.mpr fun cancelled => not_reports_of_cancelled cancelled reports
  · exact reports_of_not_cancelled

end Rounds

/-! ## Calls -/

/-- A thread waits with a timeout that is positive as a signed number, since it has called. -/
def Waits (st : Awaited A V) : Prop :=
  ∀ thread start timeout, st.awaiting thread = some (.timed start timeout) →
    timeout.toNat < 2 ^ 63 ∧ start ≤ st.uptimeMillis

section Calls

variable {st : Awaited A V}

/-- Before the deadline, what is left of the timeout is positive, whatever overflows. -/
theorem positive_left {start timeout now : UInt64} (began : start ≤ now)
    (short : timeout.toNat < 2 ^ 63) (early : now.toNat < start.toNat + timeout.toNat) :
    0 < (start + timeout - now).toInt64 := by
  have began' : start.toNat ≤ now.toNat := began
  have below := now.toNat_lt
  have left : (start + timeout - now).toNat = start.toNat + timeout.toNat - now.toNat := by
    rw [UInt64.toNat_sub, UInt64.toNat_add]
    omega
  rw [positive_toInt64_iff, left]
  omega

theorem ends_of_not_looks {action : GetStep V} (other : ¬Looks action) :
    st.ends action = none := by
  cases action with
  | get thread => exact absurd trivial other
  | getTimed thread timeout => exact absurd trivial other
  | wakes thread => exact absurd trivial other
  | completes outcome => rfl
  | ticks millis => rfl

theorem ends_done {action : GetStep V} {next : Awaited A V} (taken : st.step action = some next)
    (looks : Looks action) (done : st.promise.mIsDone = true) :
    st.ends action = some st.promise.report := by
  cases action with
  | get thread => exact get_done done
  | getTimed thread timeout => exact getTimed_done done timeout.toInt64
  | wakes thread =>
      rcases Option.map_eq_some_iff.mp taken with ⟨awaiting, awaits, _⟩
      rw [ends, awaits]
      cases awaiting with
      | untimed => exact get_done done
      | timed start timeout => exact getTimed_done done _
  | completes outcome => exact looks.elim
  | ticks millis => exact looks.elim

theorem getsRight_iff_done {action : GetStep V} {next : Awaited A V}
    (taken : st.step action = some next) (done : st.promise.mIsDone = true) :
    st.GetsRight action next ↔ st.Gettable action := by
  have gettable : st.Gettable action ↔ (Looks action → st.promise.isCancelled = false) := by
    rw [Gettable, done]
    exact ⟨fun both => both.1 rfl, fun looks => ⟨fun _ => looks, fun isFalse => by cases isFalse⟩⟩
  rw [gettable]
  constructor
  · intro right looks
    rcases right.1 done looks with ⟨result, _, got, reports⟩
    rw [get_done done] at got
    cases got
    exact (reports_iff st.promise).mp reports
  · intro notCancelled
    refine ⟨fun _ looks => ?_, fun timesOut => ?_⟩
    · exact ⟨st.promise.report, ends_done taken looks done, get_done done,
        (reports_iff st.promise).mpr (notCancelled looks)⟩
    · by_cases looks : Looks action
      · rw [ends_done taken looks done] at timesOut
        exact absurd (Option.some.inj timesOut) (report_ne_timedOut st.promise)
      · rw [ends_of_not_looks looks] at timesOut
        cases timesOut

/-- While the promise is pending, only the first round of `get(timeout)` can go wrong. -/
theorem getsRight_iff_pending (waits : st.Waits) {action : GetStep V} {next : Awaited A V}
    (pending : st.promise.mIsDone = false) :
    st.GetsRight action next ↔ st.Gettable action := by
  have right : st.GetsRight action next ↔ (st.ends action = some (.error timedOut) →
      ∃ deadline, st.deadline action = some deadline ∧ deadline ≤ st.uptimeMillis.toNat) := by
    rw [GetsRight, pending]
    exact ⟨fun both timesOut => (both.2 timesOut).2,
      fun late => ⟨fun isTrue => (by cases isTrue), fun timesOut => ⟨rfl, late timesOut⟩⟩⟩
  have gettable : st.Gettable action ↔ ∀ thread timeout, action = .getTimed thread timeout →
      timeout.toNat < 2 ^ 63 := by
    rw [Gettable, pending]
    exact ⟨fun both => both.2 rfl, fun short => ⟨fun isTrue => (by cases isTrue), fun _ => short⟩⟩
  rw [right, gettable]
  cases action with
  | get thread =>
      rw [ends, get_pending pending]
      exact ⟨fun _ _ _ isTimed => (by cases isTimed), fun _ isSome => (by cases isSome)⟩
  | getTimed thread timeout =>
      rw [ends, getTimed_pending pending, positive_toInt64_iff]
      constructor
      · rintro late _ _ ⟨⟩
        by_contra long
        rcases late fun positive => long positive.2 with ⟨deadline, isDeadline, passed⟩
        cases isDeadline
        omega
      · intro short notPositive
        have small := short thread timeout rfl
        exact ⟨_, rfl, by omega⟩
  | wakes thread =>
      refine ⟨fun _ _ _ isTimed => (by cases isTimed), fun _ timesOut => ?_⟩
      rw [ends] at timesOut
      cases awaits : st.awaiting thread with
      | none =>
          rw [awaits] at timesOut
          cases timesOut
      | some awaiting =>
          rw [awaits] at timesOut
          cases awaiting with
          | untimed =>
              simp only [get_pending pending] at timesOut
              cases timesOut
          | timed start timeout =>
              rcases waits thread start timeout awaits with ⟨short, began⟩
              refine ⟨start.toNat + timeout.toNat, by rw [deadline, awaits], ?_⟩
              by_contra early
              exact (getTimed_pending pending _).mp timesOut
                (positive_left began short (Nat.not_le.mp early))
  | completes outcome =>
      exact ⟨fun _ _ _ isTimed => (by cases isTimed), fun _ isSome => (by cases isSome)⟩
  | ticks millis =>
      exact ⟨fun _ _ _ isTimed => (by cases isTimed), fun _ isSome => (by cases isSome)⟩

/-- A call that waits with a timeout has found it positive. -/
theorem await_waits (waits : st.Waits) (thread : Nat) {awaiting : Awaiting}
    {result : Option (Except GetThrow V)}
    (stays : ∀ start timeout, awaiting = .timed start timeout → result = none →
      timeout.toNat < 2 ^ 63 ∧ start ≤ st.uptimeMillis) :
    (st.await thread awaiting result).Waits := by
  intro other start timeout awaits
  by_cases same : other = thread
  · subst same
    have updated : (st.await other awaiting result).awaiting other =
        if result.isSome then none else some awaiting := Function.update_self _ _ _
    rw [updated] at awaits
    cases result with
    | none =>
        exact stays start timeout (Option.some.inj awaits) rfl
    | some result => cases awaits
  · have kept : (st.await thread awaiting result).awaiting other = st.awaiting other :=
      Function.update_of_ne same _ _
    rw [kept] at awaits
    exact waits other start timeout awaits

theorem step_waits {action : GetStep V} {next : Awaited A V} (waits : st.Waits)
    (taken : st.step action = some next) : next.Waits := by
  cases action with
  | get thread =>
      rcases Option.ite_some_none_eq_some.mp taken with ⟨_, rfl⟩
      exact await_waits waits thread fun _ _ isTimed => by cases isTimed
  | getTimed thread timeout =>
      rcases Option.ite_some_none_eq_some.mp taken with ⟨_, rfl⟩
      refine await_waits waits thread fun start timeout isTimed stays => ?_
      cases isTimed
      exact ⟨((positive_toInt64_iff timeout).mp (positive_of_waits stays)).2,
        UInt64.le_refl st.uptimeMillis⟩
  | wakes thread =>
      rcases Option.map_eq_some_iff.mp taken with ⟨awaiting, awaits, rfl⟩
      exact await_waits waits thread fun start timeout isTimed _ =>
        waits thread start timeout (isTimed ▸ awaits)
  | completes outcome =>
      have settles := (Option.ite_none_left_eq_some.mp taken).2
      cases settles
      exact waits
  | ticks millis =>
      rcases Option.ite_some_none_eq_some.mp taken with ⟨fits, rfl⟩
      intro thread start timeout awaits
      rcases waits thread start timeout awaits with ⟨short, began⟩
      refine ⟨short, ?_⟩
      have began' : start.toNat ≤ st.uptimeMillis.toNat := began
      change start.toNat ≤ (st.uptimeMillis + millis).toNat
      rw [UInt64.toNat_add]
      omega

end Calls

/-- Calls get what they should in exactly the runs in which nobody looks at a cancelled promise
and no timeout is negative as a signed number. -/
theorem getsRight_iff (promise : Promise A V) (uptimeMillis : UInt64) (actions : List (GetStep V)) :
    Relates step GetsRight (initial promise uptimeMillis) actions ↔
      Meets step Gettable (initial promise uptimeMillis) actions :=
  relates_iff_meets (fun _ _ _ => step_waits)
    (fun st action next waits taken => by
      cases done : st.promise.mIsDone with
      | true => exact getsRight_iff_done taken done
      | false => exact getsRight_iff_pending waits done)
    (fun _ _ _ isNone => absurd isNone (Option.some_ne_none _).symm) actions

def pendingPromise : Promise Unit Nat where
  mIsDone := false
  mResult := 0
  mException := none
  mActions := []

/-- A cancelled promise throws a reference, and a timeout of 2^63 milliseconds is over at once. -/
theorem gets_after_cancel_and_at_once :
    ¬Relates step GetsRight (initial pendingPromise 0)
        [.completes (.error PromiseMachine.cancellation), .get 0] ∧
      ¬Relates step GetsRight (initial pendingPromise 0) [.getTimed 0 0x8000000000000000] := by
  constructor
  · intro relates
    rcases ((relates _ rfl).2 _ rfl).1.1 rfl trivial with ⟨result, isResult, _, reports⟩
    cases isResult
    exact not_reports_of_cancelled rfl reports
  · intro relates
    have timesOut : pendingPromise.getTimed (0x8000000000000000 : UInt64).toInt64 =
        some (.error timedOut) := (getTimed_pending rfl _).mpr (by decide)
    rcases (relates _ rfl).1.2 timesOut with ⟨_, deadline, isDeadline, passed⟩
    cases isDeadline
    exact absurd passed (by decide)

end Awaited

end Mindroid
