import Mindroid.Util.Logging.LogDelivery

/-!
# The order of log records

Whatever is put into a log buffer of less than 2^31 bytes, its readers are handed records in the
order in which they were put.  A ring that is full to the last byte is taken for an empty one, which
loses its records but does not reorder them.
-/

set_option autoImplicit false

namespace Mindroid

open Foundation

/-- The record of a put, if a log buffer of the size accepts it. -/
def LogOp.acceptedBy (op : LogOp) (size : Nat) : Option LogRecord :=
  op.record.filter fun record => LogSpec.Accepts size record

namespace LogBuffer

variable {st : LogBuffer} {records : List LogRecord} {record : LogRecord}

/-- A frame that fills the ring to the last byte leaves it empty. -/
theorem Stores.copyIn_full (stores : Stores st records)
    (full : used records + record.needs = st.mSize) :
    ∃ st', LogBuffer.copyIn record.frame st = .ok ⟨⟩ st' ∧ Stores st' [] ∧
      st'.mSize = st.mSize ∧ st'.mPromise = st.mPromise ∧ st'.promises = st.promises := by
  have length : record.frame.length = record.needs := LogRecord.length_frame record
  have nonempty : 0 < st.mSize := by
    rw [LogRecord.needs] at full
    omega
  have placed := stores.placed nonempty
  refine ⟨_, copyIn_eq placed (by rw [length]; omega), ?_, rfl, rfl, rfl⟩
  constructor
  case length =>
    simp only
    rw [RingBuffer.length_write, stores.length]
    · rw [stores.length]
      exact placed.writeInside
    · rw [length, stores.length]
      omega
  case bounded => exact stores.bounded
  case inside => exact stores.inside
  case write =>
    simp only
    rw [stores.write, length, Nat.mod_add_mod, Nat.add_assoc, full, used_nil]
    exact Nat.add_mod_right _ _
  case holds => exact RingBuffer.Holds.empty _ _
  case notFull => exact fun some_ => absurd rfl some_
  case small => exact fun _ member => absurd member List.not_mem_nil

/-- The ring has records in the order in which they were written. -/
theorem writeByteArray_stores (stores : Stores st records) (fits : record.needs ≤ st.mSize)
    (small : record.encodedSize < 2 ^ 31) :
    ∃ st' records', writeByteArray record.frame st = .ok ⟨⟩ st' ∧ Stores st' records' ∧
      records'.Sublist (records ++ [record]) ∧
      st'.mSize = st.mSize ∧ st'.mPromise = st.mPromise ∧ st'.promises = st.promises := by
  by_cases spare : used (evict st.mSize record.needs records) + record.needs ≠ st.mSize
  · obtain ⟨st', written, stores', same⟩ := writeByteArray_eq stores fits small spare
    exact ⟨st', _, written, stores', (evict_sublist _ _ _).append (List.Sublist.refl _), same⟩
  · have length : record.frame.length = record.needs := LogRecord.length_frame record
    have enough : records.length < st.mSize + 1 :=
      Nat.lt_succ_of_le (Nat.le_trans (length_le_used records) stores.used_le)
    obtain ⟨index, evicted, evictedStores⟩ := stores.makeRoom fits enough
    obtain ⟨st', copied, stores', same⟩ := evictedStores.copyIn_full (not_not.mp spare)
    refine ⟨st', [], ?_, stores', List.nil_sublist _, same⟩
    rw [writeByteArray, LogM.bind_get, stores.remainingCapacity_eq, length, LogM.bind_ok evicted]
    exact copied

end LogBuffer

namespace LogRun

/-- What was handed out and what is in the ring are accepted records in the order in which they were
put. -/
def InOrder (run : LogRun) : Prop :=
  run.buffer.mSize < 2 ^ 31 ∧ ∃ records, run.buffer.Stores records ∧
    LogSpec.Ordered ⟨records, run.buffer.mPromise, run.buffer.promises, run.accepted⟩

section Steps

variable {run : LogRun} {op : LogOp} {record : LogRecord}

theorem InOrder.of_refines {log : LogSpec} (refines : run.buffer.Refines log)
    (ordered : log.Ordered) (accepted : log.accepted = run.accepted)
    (bounded : run.buffer.mSize < 2 ^ 31) : run.InOrder := by
  refine ⟨bounded, log.records, refines.stores, ?_⟩
  rw [refines.promise, refines.promises, ← accepted]
  exact ordered

/-- A reader that waits has the last promise. -/
theorem InOrder.waiting (inOrder : run.InOrder) {promise : Nat}
    (waits : run.buffer.mPromise = some promise) :
    ∃ front, run.buffer.promises = front ++ [none] ∧ promise = front.length := by
  obtain ⟨_, records, _, ordered⟩ := inOrder
  exact (ordered.waiting promise waits).2

theorem InOrder.delivers (inOrder : run.InOrder) :
    (LogSpec.delivered run.buffer.promises).Sublist run.accepted := by
  obtain ⟨_, records, _, ordered⟩ := inOrder
  exact (List.sublist_append_left _ _).trans ordered.delivers

theorem acceptedBy_eq_some_iff {size : Nat} : op.acceptedBy size = some record ↔
    op.record = some record ∧ LogSpec.Accepts size record := by
  rw [LogOp.acceptedBy, Option.filter_eq_some_iff, decide_eq_true_iff]

/-- A put that is not accepted changes nothing. -/
theorem step_rejected {timestamp threadId : BitVec 64} {priority : BitVec 32}
    {tag message : Option (List UInt8)}
    (rejected : (LogOp.put timestamp threadId priority tag message).acceptedBy
      run.buffer.mSize = none) :
    run.step (.put timestamp threadId priority tag message) = run := by
  cases tag with
  | none => rfl
  | some tag =>
      cases message with
      | none => rfl
      | some message =>
          have notAccepted : ¬LogSpec.Accepts run.buffer.mSize
              ⟨timestamp, threadId, priority, tag, message⟩ := by
            intro accepts
            cases rejected.symm.trans (acceptedBy_eq_some_iff.mpr ⟨rfl, accepts⟩)
          rw [LogRun.step]
          rcases LogBuffer.put_rejected rfl notAccepted with returned | ⟨thrown, returned⟩
          · simp only [returned]
          · simp only [returned]

/-- Completing the last promise. -/
theorem InOrder.complete_eq (inOrder : run.InOrder) {promise : Nat}
    (waits : run.buffer.mPromise = some promise) (value : Option LogRecord) :
    (run.buffer.complete promise value).promises =
      run.buffer.promises.set promise (some value) := by
  obtain ⟨front, outcomes, last⟩ := inOrder.waiting waits
  rw [last, LogBuffer.complete_waiting outcomes, outcomes, LogSpec.set_last]

/-- A put that is accepted gives its record to the reader that waits, or to the ring. -/
theorem InOrder.step_accepted (inOrder : run.InOrder) {timestamp threadId : BitVec 64}
    {priority : BitVec 32} {tag message : Option (List UInt8)}
    (accepted : (LogOp.put timestamp threadId priority tag message).acceptedBy
      run.buffer.mSize = some record) :
    (run.step (.put timestamp threadId priority tag message)).InOrder ∧
      (run.step (.put timestamp threadId priority tag message)).buffer.mPromise = none ∧
      (run.step (.put timestamp threadId priority tag message)).buffer.promises =
        (match run.buffer.mPromise with
          | none => run.buffer.promises
          | some promise => run.buffer.promises.set promise (some (some record))) := by
  obtain ⟨isRecord, accepts⟩ := acceptedBy_eq_some_iff.mp accepted
  cases tag with
  | none => cases isRecord
  | some tag =>
      cases message with
      | none => cases isRecord
      | some message =>
          have about := (Option.some.inj isRecord).symm
          have returned := LogBuffer.put_eq about accepts
          obtain ⟨bounded, records, stores, ordered⟩ := id inOrder
          rw [LogRun.step]
          cases pending : run.buffer.mPromise with
          | some promise =>
              rw [pending] at returned
              have completed := inOrder.complete_eq pending (some record)
              have inserted := ordered.insert run.buffer.mSize record
              simp only [LogSpec.insert, pending] at inserted
              simp only [returned, isRecord, Option.toList_some]
              refine ⟨⟨bounded, records, ?_, ?_⟩, trivial, completed⟩
              · exact stores.with_promises _ _
              · simpa only [completed] using inserted
          | none =>
              have small : record.encodedSize < 2 ^ 31 := by
                have fits := accepts.2
                rw [LogRecord.needs] at fits
                omega
              obtain ⟨st', records', written, stores', kept, size, promise, promises⟩ :=
                LogBuffer.writeByteArray_stores stores accepts.2 small
              rw [pending] at returned promise
              simp only [written] at returned
              simp only [returned, isRecord, Option.toList_some]
              refine ⟨⟨by rw [size]; exact bounded, records', stores', ?_, ?_⟩, promise, promises⟩
              · intro _ waits
                cases promise.symm.trans waits
              · have delivers := ordered.delivers
                simp only [promises]
                refine ((List.Sublist.refl _).append kept).trans ?_
                rw [← List.append_assoc]
                exact delivers.append (List.Sublist.refl _)

/-- A reader gets the promise that is waited for, or a new one. -/
theorem InOrder.get_eq (inOrder : run.InOrder) :
    ∃ st', LogBuffer.get run.buffer =
        .ok (run.buffer.mPromise.getD run.buffer.promises.length) st' ∧
      InOrder { run with buffer := st' } ∧
      (run.buffer.mPromise = none → ∃ value, st'.promises = run.buffer.promises ++ [value]) := by
  obtain ⟨bounded, records, stores, ordered⟩ := inOrder
  have refines : run.buffer.Refines
    ⟨records, run.buffer.mPromise, run.buffer.promises, run.accepted⟩ := ⟨stores, rfl, rfl⟩
  obtain ⟨st', returned, refines', size⟩ := LogBuffer.get_returns refines
  have kept : ∀ log : LogSpec, log.take.accepted = log.accepted := by
    intro log
    rw [LogSpec.take]
    split <;> rfl
  refine ⟨st', returned, ?_, ?_⟩
  · exact .of_refines refines' ordered.take (kept _) (by rw [size]; exact bounded)
  · intro free
    have promises := refines'.promises
    cases records with
    | nil =>
        simp only [LogSpec.take, free] at promises
        exact ⟨none, promises⟩
    | cons record records =>
        simp only [LogSpec.take, free] at promises
        exact ⟨some (some record), promises⟩

/-- A reset sends the reader that waits away with null. -/
theorem InOrder.step_reset (inOrder : run.InOrder) :
    (run.step .reset).InOrder ∧ (run.step .reset).buffer.mPromise = none ∧
      (run.step .reset).buffer.promises =
        (match run.buffer.mPromise with
          | none => run.buffer.promises
          | some promise => run.buffer.promises.set promise (some none)) := by
  obtain ⟨bounded, records, stores, ordered⟩ := inOrder
  have refines : run.buffer.Refines
    ⟨records, run.buffer.mPromise, run.buffer.promises, run.accepted⟩ := ⟨stores, rfl, rfl⟩
  obtain ⟨st', returned, refines', size⟩ := LogBuffer.reset_eq refines ordered
  have discarded := ordered.discard
  have promise := refines'.promise
  have promises := refines'.promises
  rw [LogRun.step]
  simp only [returned]
  cases pending : run.buffer.mPromise with
  | none =>
      simp only [LogSpec.discard, pending] at refines' discarded promise promises
      exact ⟨.of_refines refines' discarded rfl (by rw [size]; exact bounded), promise, promises⟩
  | some waited =>
      simp only [LogSpec.discard, pending] at refines' discarded promise promises
      exact ⟨.of_refines refines' discarded rfl (by rw [size]; exact bounded), promise, promises⟩

/-- Every operation keeps the records in order. -/
theorem InOrder.step (inOrder : run.InOrder) (op : LogOp) : (run.step op).InOrder := by
  cases op with
  | put timestamp threadId priority tag message =>
      cases about : (LogOp.put timestamp threadId priority tag message).acceptedBy
        run.buffer.mSize with
      | none =>
          rw [step_rejected about]
          exact inOrder
      | some record => exact (inOrder.step_accepted about).1
  | get =>
      obtain ⟨st', returned, inOrder', _⟩ := inOrder.get_eq
      rw [LogRun.step]
      simp only [returned]
      exact inOrder'
  | reset => exact inOrder.step_reset.1

end Steps

/-- Records are in order in a log buffer of less than 2^31 bytes, whatever is done with it. -/
theorem run_inOrder {size : Nat} (bounded : size < 2 ^ 31) (ops : List LogOp) :
    ∃ run, LogRun.run size ops = .ok run ∧ run.InOrder := by
  obtain ⟨st, created, follows⟩ := new_follows (Nat.lt_trans bounded (by decide : 2 ^ 31 < 2 ^ 63))
  have start : LogRun.InOrder { buffer := st } :=
    .of_refines follows.refines follows.ordered follows.accepted.symm
      (by rw [follows.size]; exact bounded)
  refine ⟨ops.foldl LogRun.step { buffer := st }, by rw [LogRun.run, created]; rfl, ?_⟩
  generalize ({ buffer := st } : LogRun) = run at start
  induction ops generalizing run with
  | nil => exact start
  | cons op ops ih => exact ih _ (start.step op)

end LogRun

end Mindroid
