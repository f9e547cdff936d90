import Mindroid.Foundation.Transition
import Mindroid.Util.Logging.LogOrder
import Mindroid.Util.Logging.LoggerThread

/-!
# Which records the logger thread publishes

The thread ends where it finds itself interrupted, although the promises that it has collected may
be done by then, and leaves those that are not done to puts that come later.
-/

set_option autoImplicit false

namespace Mindroid

open Foundation

namespace LoggerThread

/-- The thread starts on log buffers with which anything has been done, as long as no earlier reader
waits for one.  The promises of earlier readers are not counted. -/
structure Initial (st : State) : Prop where
  logs : ∀ id, ∃ size < 2 ^ 31, ∃ ops run, LogRun.run size ops = .ok run ∧
    run.buffer.mPromise = none ∧
    st.logs id = { run with buffer := { run.buffer with promises := [] } }
  handlers : ∀ id, ∀ log ∈ st.mLogHandlers id, log = []
  loggers : ∀ id, st.loggers id = none
  place : st.place = .head

/-- The record that a promise of `loggers` holds, if there is one. -/
def recordOf (run : LogRun) (promise : Option Nat) : Option LogRecord :=
  promise.bind fun promise => (valueOf run promise).join

namespace State

/-- The records that have left a log buffer through `get`. -/
def left (st : State) (id : LogId) : List LogRecord :=
  LogSpec.delivered (st.logs id).buffer.promises

end State

/-- The records that have left a log buffer were put in this order, and are published in it to all of
its handlers, each record once, and none is missing when the thread ends. -/
structure Published (st : State) : Prop where
  inOrder : ∀ id, (st.left id).Sublist (st.logs id).accepted
  soFar : ∀ id, ∀ log ∈ st.mLogHandlers id, log <+: st.left id
  atEnd : st.place = .ended → ∀ id, ∀ log ∈ st.mLogHandlers id, log = st.left id

/-- No test that ends the thread leaves a record behind in a promise, and no record is put into a
promise that the thread has left behind. -/
def Spares (st : State) : Action → Prop
  | .test => st.mInterrupted = true → ∀ id, recordOf (st.logs id) (st.loggers id) = none
  | .put id timestamp threadId priority tag message =>
      st.place = .ended → (st.logs id).buffer.mPromise = none ∨
        (LogOp.put timestamp threadId priority tag message).acceptedBy
          (st.logs id).buffer.mSize = none
  | _ => True

/-! ## One log buffer -/

/-- The thread reads a log buffer: it has the last promise or none is waited for, and all handlers
have got what was delivered, up to the record that this promise holds. -/
structure Reads (run : LogRun) (handlers : List (List LogRecord)) (promise : Option Nat) :
    Prop where
  inOrder : run.InOrder
  last : ∀ place, promise = some place → place + 1 = run.buffer.promises.length
  free : promise = none → run.buffer.mPromise = none
  registered : handlers = [] → run.buffer.promises = []
  published : ∀ log ∈ handlers,
    LogSpec.delivered run.buffer.promises = log ++ (recordOf run promise).toList

section Reads

variable {run run' : LogRun} {handlers : List (List LogRecord)} {promise : Option Nat}

theorem recordOf_last {front : List (Option (Option LogRecord))}
    {value : Option (Option LogRecord)} (promises : run.buffer.promises = front ++ [value]) :
    recordOf run (some front.length) = value.join := by
  simp [recordOf, valueOf, promises]

theorem delivered_concat (front : List (Option (Option LogRecord)))
    (value : Option (Option LogRecord)) :
    LogSpec.delivered (front ++ [value]) = LogSpec.delivered front ++ value.join.toList := by
  rw [LogSpec.delivered_append]
  cases isRecord : value.join with
  | none => simp [LogSpec.delivered, isRecord]
  | some record => simp [LogSpec.delivered, isRecord]

/-- A promise that is waited for is the one that the thread has. -/
theorem Reads.waiting (reads : Reads run handlers promise) {waited : Nat}
    (waits : run.buffer.mPromise = some waited) :
    ∃ front, run.buffer.promises = front ++ [none] ∧ waited = front.length ∧
      promise = some front.length := by
  obtain ⟨front, promises, isLast⟩ := reads.inOrder.waiting waits
  refine ⟨front, promises, isLast, ?_⟩
  cases has : promise with
  | none => cases (reads.free has).symm.trans waits
  | some place =>
      have last := reads.last place has
      rw [promises, List.length_append, List.length_singleton] at last
      rw [Nat.add_right_cancel last]

/-- What changes no promise leaves the reader where it is. -/
theorem Reads.same_promises (reads : Reads run handlers promise) (inOrder : run'.InOrder)
    (free : run'.buffer.mPromise = none)
    (promises : run'.buffer.promises = run.buffer.promises) :
    Reads run' handlers promise ∧ recordOf run' promise = recordOf run promise := by
  have record : recordOf run' promise = recordOf run promise := by
    simp only [recordOf, valueOf, promises]
  refine ⟨⟨inOrder, ?_, fun _ => free, ?_, ?_⟩, record⟩
  · rw [promises]
    exact reads.last
  · rw [promises]
    exact reads.registered
  · rw [promises, record]
    exact reads.published

/-- Completing the promise that is waited for gives its value to the thread. -/
theorem Reads.complete (reads : Reads run handlers promise) {waited : Nat}
    (waits : run.buffer.mPromise = some waited) {value : Option LogRecord}
    (inOrder : run'.InOrder) (free : run'.buffer.mPromise = none)
    (promises : run'.buffer.promises = run.buffer.promises.set waited (some value)) :
    Reads run' handlers promise ∧ recordOf run' promise = value := by
  obtain ⟨front, before, isLast, has⟩ := reads.waiting waits
  rw [before, isLast, LogSpec.set_last] at promises
  have record := recordOf_last promises
  have empty := recordOf_last before
  rw [← has] at record empty
  refine ⟨⟨inOrder, ?_, fun _ => free, ?_, ?_⟩, record⟩
  · intro place hasPlace
    have last := reads.last place hasPlace
    rw [before, List.length_append, List.length_singleton] at last
    rw [promises, List.length_append, List.length_singleton]
    exact last
  · intro none_
    have nothing := reads.registered none_
    rw [before] at nothing
    exact absurd nothing (by simp)
  · intro log member
    have published := reads.published log member
    rw [before, delivered_concat, empty] at published
    rw [promises, delivered_concat, record]
    simpa using published

/-- A put gives its record to the thread if the thread waits for the log buffer. -/
theorem Reads.put (reads : Reads run handlers promise) (timestamp threadId : BitVec 64)
    (priority : BitVec 32) (tag message : Option (List UInt8)) :
    Reads (run.step (.put timestamp threadId priority tag message)) handlers promise ∧
      recordOf (run.step (.put timestamp threadId priority tag message)) promise =
        (if run.buffer.mPromise = none then
          recordOf run promise
        else
          (LogOp.put timestamp threadId priority tag message).acceptedBy run.buffer.mSize) := by
  cases accepted : (LogOp.put timestamp threadId priority tag message).acceptedBy
    run.buffer.mSize with
  | none =>
      rw [LogRun.step_rejected accepted]
      refine ⟨reads, ?_⟩
      split
      · rfl
      · next waits =>
        obtain ⟨waited, waits⟩ := Option.ne_none_iff_exists'.mp waits
        obtain ⟨front, before, _, has⟩ := reads.waiting waits
        rw [has, recordOf_last before]
        rfl
  | some record =>
      obtain ⟨inOrder, free, promises⟩ := reads.inOrder.step_accepted accepted
      cases waits : run.buffer.mPromise with
      | none =>
          rw [waits] at promises
          rw [if_pos rfl]
          exact reads.same_promises inOrder free promises
      | some waited =>
          rw [waits] at promises
          rw [if_neg (Option.some_ne_none _)]
          exact reads.complete waits inOrder free promises

/-- A reset gives the thread no record. -/
theorem Reads.reset (reads : Reads run handlers promise) :
    Reads (run.step .reset) handlers promise ∧
      recordOf (run.step .reset) promise = recordOf run promise := by
  obtain ⟨inOrder, free, promises⟩ := reads.inOrder.step_reset
  cases waits : run.buffer.mPromise with
  | none =>
      rw [waits] at promises
      exact reads.same_promises inOrder free promises
  | some waited =>
      rw [waits] at promises
      obtain ⟨front, before, _, has⟩ := reads.waiting waits
      have empty : recordOf run promise = none := by
        rw [has, recordOf_last before]
        rfl
      rw [empty]
      exact reads.complete waits inOrder free promises

/-- Collecting a promise. -/
theorem Reads.get (reads : Reads run handlers none) (registered : handlers ≠ []) :
    ∃ buffer, LogBuffer.get run.buffer = .ok run.buffer.promises.length buffer ∧
      Reads { run with buffer := buffer } handlers (some run.buffer.promises.length) := by
  have free := reads.free rfl
  obtain ⟨buffer, returned, inOrder, promises⟩ := reads.inOrder.get_eq
  obtain ⟨value, promises⟩ := promises free
  rw [free, Option.getD_none] at returned
  refine ⟨buffer, returned, inOrder, ?_, ?_, ?_, ?_⟩
  · intro place isLast
    simp [promises, Option.some.inj isLast]
  · intro none_
    cases none_
  · exact fun none_ => absurd none_ registered
  · intro log member
    have published := reads.published log member
    rw [recordOf_last promises]
    simp only [promises, delivered_concat, published]
    simp [recordOf]

/-- Publishing the value of a promise that is done. -/
theorem Reads.publish {place : Nat} {value : Option LogRecord}
    (reads : Reads run handlers (some place)) (done : valueOf run place = some value) :
    Reads run (handlers.map fun log => log ++ value.toList) none := by
  refine ⟨reads.inOrder, fun _ none_ => (by cases none_), ?_, ?_, ?_⟩
  · intro _
    cases waits : run.buffer.mPromise with
    | none => rfl
    | some waited =>
        obtain ⟨front, before, _, has⟩ := reads.waiting waits
        cases has
        simp [valueOf, before] at done
  · exact fun none_ => reads.registered (List.map_eq_nil_iff.mp none_)
  · intro log' member
    obtain ⟨log, isLog, isLog'⟩ := List.mem_map.mp member
    rw [reads.published log isLog, ← isLog']
    simp [recordOf, done]

/-- New handlers. -/
theorem Reads.register (reads : Reads run [] promise) (handlers : Nat) :
    Reads run (List.replicate handlers []) promise := by
  have nothing := reads.registered rfl
  refine ⟨reads.inOrder, reads.last, reads.free, fun _ => nothing, ?_⟩
  intro log member
  have has : promise = none := by
    cases has : promise with
    | none => rfl
    | some place =>
        have last := reads.last place has
        rw [nothing] at last
        cases last
  rw [nothing, has, List.eq_of_mem_replicate member]
  rfl

end Reads

/-! ## The service -/

/-- The thread reads every log buffer, and has ended without a record in its hands. -/
structure Inv (st : State) : Prop where
  reads : ∀ id, Reads (st.logs id) (st.mLogHandlers id) (st.loggers id)
  ended : st.place = .ended → ∀ id, recordOf (st.logs id) (st.loggers id) = none

section Steps

variable {st next : State} {id : LogId}

theorem Initial.inv (initial : Initial st) : Inv st := by
  constructor
  · intro id
    obtain ⟨size, bounded, ops, run, created, free, isRun⟩ := initial.logs id
    obtain ⟨run', created', bounded', records, stores, ordered⟩ := LogRun.run_inOrder bounded ops
    cases created.symm.trans created'
    have delivers := (List.sublist_append_right _ _).trans ordered.delivers
    rw [isRun, initial.loggers id]
    refine ⟨⟨bounded', records, ?_, ?_⟩, fun _ none_ => (by cases none_), fun _ => free,
      fun _ => rfl, ?_⟩
    · exact stores.with_promises _ _
    · refine ⟨?_, delivers⟩
      intro _ waits
      cases free.symm.trans waits
    · intro log member
      rw [initial.handlers id log member]
      rfl
  · intro ended
    cases initial.place.symm.trans ended

/-- A step on one log buffer leaves the others alone. -/
theorem Inv.reads_update (inv : Inv st) (id : LogId) {run : LogRun}
    {handlers : List (List LogRecord)} {promise : Option Nat} (reads : Reads run handlers promise) (other : LogId) :
    Reads (Function.update st.logs id run other)
      (Function.update st.mLogHandlers id handlers other)
      (Function.update st.loggers id promise other) := by
  by_cases same : other = id
  · subst same
    rw [Function.update_self, Function.update_self, Function.update_self]
    exact reads
  · rw [Function.update_of_ne same, Function.update_of_ne same, Function.update_of_ne same]
    exact inv.reads other

/-- An operation on a log buffer from which the thread gets nothing when it has ended. -/
theorem Inv.onLog (inv : Inv st) {op : LogOp}
    (reads : Reads ((st.logs id).step op) (st.mLogHandlers id) (st.loggers id))
    (ended : st.place = .ended → recordOf ((st.logs id).step op) (st.loggers id) = none) :
    Inv (st.onLog id op) := by
  constructor
  · have updated := inv.reads_update id reads
    simp only [Function.update_eq_self] at updated
    exact updated
  · intro isEnded other
    simp only [State.onLog]
    by_cases same : other = id
    · subst same
      rw [Function.update_self]
      exact ended isEnded
    · rw [Function.update_of_ne same]
      exact inv.ended isEnded other

theorem Inv.startLogging (inv : Inv st) {handlers : Nat}
    (taken : st.startLogging id handlers = some next) : Inv next := by
  rw [State.startLogging] at taken
  split at taken
  · cases taken
  · split at taken
    · cases taken
      exact inv
    · next some_ =>
      cases taken
      have none_ : st.mLogHandlers id = [] := by
        apply Classical.byContradiction
        exact fun registered => some_ (.inl registered)
      have reads := inv.reads id
      rw [none_] at reads
      refine ⟨?_, inv.ended⟩
      have updated := inv.reads_update id (reads.register handlers)
      simp only [Function.update_eq_self] at updated
      exact updated

/-- A test that does not end the thread moves it. -/
theorem Inv.tested (inv : Inv st)
    (spares : st.mInterrupted = true → ∀ id, recordOf (st.logs id) (st.loggers id) = none)
    {place : Place} (goesOn : place ≠ .ended) :
    Inv { st with place := if st.mInterrupted then .ended else place } := by
  refine ⟨inv.reads, fun ended => ?_⟩
  simp only at ended
  split at ended
  · next interrupted => exact spares interrupted
  · exact absurd ended goesOn

theorem Inv.test (inv : Inv st)
    (spares : st.mInterrupted = true → ∀ id, recordOf (st.logs id) (st.loggers id) = none)
    (taken : st.test = some next) : Inv next := by
  rw [State.test] at taken
  split at taken
  · cases taken
    exact inv.tested spares (by simp)
  · cases taken
    exact inv.tested spares (by simp)
  · cases taken

theorem Inv.collect (inv : Inv st) (taken : st.collect id = some next) : Inv next := by
  rw [State.collect] at taken
  split at taken
  · split at taken
    · cases taken
    · next fresh =>
      have reads := inv.reads id
      cases has : st.loggers id with
      | some promise =>
          simp only [has] at taken
          cases taken
          exact ⟨inv.reads, fun ended => (by cases ended)⟩
      | none =>
          rw [has] at reads
          obtain ⟨buffer, returned, reads'⟩ := reads.get fun none_ => fresh (.inl none_)
          simp only [has, returned] at taken
          cases taken
          refine ⟨?_, fun ended => (by cases ended)⟩
          have updated := inv.reads_update id reads'
          simp only [Function.update_eq_self] at updated
          exact updated
  · cases taken

theorem Inv.scan (inv : Inv st) (taken : st.scan id = some next) : Inv next := by
  rw [State.scan] at taken
  split at taken
  · next visited promise _ has =>
    have reads := inv.reads id
    rw [has] at reads
    split at taken
    · cases taken
    · split at taken
      · cases taken
        exact ⟨inv.reads, fun ended => (by cases ended)⟩
      · next logRecord done =>
        cases taken
        refine ⟨?_, fun ended => (by cases ended)⟩
        have updated := inv.reads_update id (reads.publish done)
        simp only [Function.update_eq_self] at updated
        exact updated
  · cases taken

theorem Inv.put (inv : Inv st) {timestamp threadId : BitVec 64} {priority : BitVec 32}
    {tag message : Option (List UInt8)}
    (spares : Spares st (.put id timestamp threadId priority tag message)) :
    Inv (st.onLog id (.put timestamp threadId priority tag message)) := by
  obtain ⟨reads, record⟩ := (inv.reads id).put timestamp threadId priority tag message
  refine inv.onLog reads fun ended => ?_
  rw [record]
  split
  · exact inv.ended ended id
  · next waits => exact (spares ended).resolve_left waits

/-- Steps that meet the condition keep the thread reading. -/
theorem Inv.keeps (inv : Inv st) {action : Action} (spares : Spares st action)
    (taken : step st action = some next) : Inv next := by
  cases action with
  | put id timestamp threadId priority tag message =>
      cases taken
      exact inv.put spares
  | clear id =>
      cases taken
      obtain ⟨reads, record⟩ := (inv.reads id).reset
      refine inv.onLog reads fun ended => ?_
      rw [record]
      exact inv.ended ended id
  | startLogging id handlers => exact inv.startLogging taken
  | interrupt =>
      cases taken
      exact ⟨inv.reads, inv.ended⟩
  | reset =>
      rw [step, State.reset] at taken
      split at taken
      · cases taken
      · cases taken
        exact ⟨inv.reads, inv.ended⟩
  | test => exact inv.test spares taken
  | collect id => exact inv.collect taken
  | waitFor =>
      rw [step, State.waitFor] at taken
      split at taken
      · split at taken
        · cases taken
          exact ⟨inv.reads, fun ended => (by cases ended)⟩
        · cases taken
      · cases taken
  | wake =>
      rw [step, State.wake] at taken
      split at taken
      · cases taken
        exact ⟨inv.reads, fun ended => (by cases ended)⟩
      · cases taken
  | scan id => exact inv.scan taken
  | scanned =>
      rw [step, State.scanned] at taken
      split at taken
      · split at taken
        · cases taken
          exact ⟨inv.reads, fun ended => (by cases ended)⟩
        · cases taken
      · cases taken

theorem Inv.published (inv : Inv st) : Published st := by
  constructor
  · exact fun id => (inv.reads id).inOrder.delivers
  · intro id log member
    exact ⟨_, ((inv.reads id).published log member).symm⟩
  · intro ended id log member
    have published := (inv.reads id).published log member
    rw [inv.ended ended id, Option.toList_none, List.append_nil] at published
    exact published.symm

/-- When the thread has ended and everything is published, it has left no record behind. -/
theorem Reads.recordOf_eq_none {run : LogRun} {handlers : List (List LogRecord)}
    {promise : Option Nat} (reads : Reads run handlers promise)
    (all : ∀ log ∈ handlers, log = LogSpec.delivered run.buffer.promises) :
    recordOf run promise = none := by
  cases handlers with
  | nil =>
      have nothing := reads.registered rfl
      cases has : promise with
      | none => rfl
      | some place =>
          have last := reads.last place has
          rw [nothing] at last
          cases last
  | cons log handlers =>
      have published := reads.published log List.mem_cons_self
      rw [← all log List.mem_cons_self, List.self_eq_append_right] at published
      exact Option.toList_eq_nil_iff.mp published

/-- A step after which everything is published meets the condition. -/
theorem Inv.spares (inv : Inv st) {action : Action} (taken : step st action = some next)
    (published : Published next) : Spares st action := by
  cases action with
  | put id timestamp threadId priority tag message =>
      cases taken
      intro ended
      obtain ⟨reads, record⟩ := (inv.reads id).put timestamp threadId priority tag message
      have all := published.atEnd ended id
      simp only [State.onLog, State.left, Function.update_self] at all
      have nothing := reads.recordOf_eq_none all
      rw [record] at nothing
      split at nothing
      · next free => exact .inl free
      · exact .inr nothing
  | test =>
      intro interrupted id
      rw [step, State.test] at taken
      split at taken
      · rw [if_pos interrupted] at taken
        cases taken
        exact (inv.reads id).recordOf_eq_none (published.atEnd rfl id)
      · rw [if_pos interrupted] at taken
        cases taken
        exact (inv.reads id).recordOf_eq_none (published.atEnd rfl id)
      · cases taken
  | clear => exact trivial
  | startLogging => exact trivial
  | interrupt => exact trivial
  | reset => exact trivial
  | collect => exact trivial
  | waitFor => exact trivial
  | wake => exact trivial
  | scan => exact trivial
  | scanned => exact trivial

/-- A round of the loop over the handlers does not fail. -/
theorem Inv.collect_possible (inv : Inv st) {visited : List LogId}
    (collecting : st.place = .collecting visited) (registered : st.mLogHandlers id ≠ [])
    (fresh : id ∉ visited) : (st.collect id).isSome := by
  rw [State.collect, collecting]
  simp only
  rw [if_neg (not_or.mpr ⟨registered, fresh⟩)]
  cases has : st.loggers id with
  | some promise => rfl
  | none =>
      have reads := inv.reads id
      rw [has] at reads
      obtain ⟨buffer, returned, _⟩ := reads.get registered
      simp only [returned, Option.isSome_some]

end Steps

/-- Whatever the order of the steps, all records that leave the log buffers are published, in order
and once, exactly if no record is left behind where the thread ends or put where it has ended. -/
theorem publishes_iff {st : State} (initial : Initial st) (actions : List Action) :
    Always step Published st actions ↔ Meets step Spares st actions :=
  always_iff_meets (fun _ inv => inv.published)
    (fun _ _ _ inv spares taken => inv.keeps spares taken)
    (fun _ _ _ inv taken published => inv.spares taken published) initial.inv actions

/-- A service that logs the main buffer to one handler. -/
def oneHandler : State where
  logs _ := { buffer := { mSize := 64, mBuffer := List.replicate 64 0 } }
  mLogHandlers id := if id = .LOG_ID_MAIN then [[]] else []

theorem oneHandler_initial : Initial oneHandler where
  logs _ := ⟨64, by decide, [], _, rfl, rfl, rfl⟩
  handlers id log member := by
    cases id with
    | LOG_ID_MAIN => exact List.mem_singleton.mp member
    | LOG_ID_EVENTS => cases member
    | LOG_ID_TEST => cases member
  loggers _ := rfl
  place := rfl

/-- The record is published when the thread is interrupted after it has read the promise. -/
theorem publishes_iff_oneHandler :
    Always step Published oneHandler
      [.test, .collect .LOG_ID_MAIN, .waitFor, .put .LOG_ID_MAIN 1 2 3 (some []) (some []), .test,
        .wake, .scan .LOG_ID_MAIN, .scanned, .interrupt, .test] := by
  apply (publishes_iff oneHandler_initial _).mpr
  apply Meets.cons (fun interrupted => (by cases interrupted)) rfl
  apply Meets.cons trivial rfl
  apply Meets.cons trivial rfl
  apply Meets.cons (fun ended => (by cases ended)) rfl
  apply Meets.cons (fun interrupted => (by cases interrupted)) rfl
  apply Meets.cons trivial rfl
  apply Meets.cons trivial rfl
  apply Meets.cons trivial rfl
  apply Meets.cons trivial rfl
  refine Meets.cons (fun _ id => ?_) rfl trivial
  cases id <;> rfl

/-- A thread that is interrupted before it waits keeps the record that it has been given. -/
theorem interrupted_keeps_record :
    ¬Always step Published oneHandler
      [.test, .collect .LOG_ID_MAIN, .waitFor, .put .LOG_ID_MAIN 1 2 3 (some []) (some []),
        .interrupt, .test] := by
  intro always
  have ended := (((((always.2 _ rfl).2 _ rfl).2 _ rfl).2 _ rfl).2 _ rfl).2 _ rfl
  have all := ended.start.atEnd rfl .LOG_ID_MAIN [] (by decide)
  exact absurd all (by decide)

end LoggerThread

end Mindroid
