import Mindroid.Foundation.Refinement
import Mindroid.Io.InputStream

/-!
# Buffered output streams

The sink of a `BufferedOutputStream` accepts every range of a buffer; a range that is not
in the buffer is rejected as `OutputStream::write` does it.
-/

set_option autoImplicit false

namespace Mindroid

open Foundation

/-- The bytes that the sink was given, and whether it has been closed. -/
structure OutputStream where
  bytes : List UInt8
  isClosed : Bool
  deriving DecidableEq

namespace OutputStream

def write (sink : OutputStream) (buffer : List UInt8) (offset count : Nat) :
    Except StreamThrown OutputStream :=
  if offset + count > buffer.length then
    .error (.array .indexOutOfBoundsException)
  else
    .ok { sink with bytes := sink.bytes ++ (buffer.drop offset).take count }

def close (sink : OutputStream) : OutputStream :=
  { sink with isClosed := true }

end OutputStream

/-- The fields of the stream.  The sink outlives the reference to it, `mOutputStream`
tells whether there still is one. -/
structure BufferedOutputStream where
  sink : OutputStream
  mOutputStream : Bool
  mBuffer : Option (List UInt8)
  mCount : Nat
  deriving DecidableEq

namespace BufferedOutputStream

/-- `new BufferedOutputStream(outputStream, size)`. -/
def new (sink : OutputStream) (size : Nat) : Except StreamThrown BufferedOutputStream :=
  if size = 0 then
    .error (.illegalArgumentException "size = 0")
  else do
    let buffer ← (newByteArray size).mapError StreamThrown.array
    pure { sink := sink, mOutputStream := true, mBuffer := some buffer, mCount := 0 }

/-- What a function throws leaves the stream as it is then. -/
abbrev Outcome (α : Type) := Except (StreamThrown × BufferedOutputStream) α

def throwing {α : Type} (stream : BufferedOutputStream) (result : Except StreamThrown α) :
    Outcome α :=
  result.mapError fun thrown => (thrown, stream)

/-- `checkValidity()`; returns the buffer. -/
def checkValidity (stream : BufferedOutputStream) : Except StreamThrown (List UInt8) :=
  match stream.mBuffer, stream.mOutputStream with
  | some buffer, true => .ok buffer
  | _, _ => .error (.ioException "Stream closed")

def flushBuffer (stream : BufferedOutputStream) (buffer : List UInt8) :
    Outcome BufferedOutputStream :=
  if stream.mCount > 0 then do
    let sink ← stream.throwing (stream.sink.write buffer 0 stream.mCount)
    pure { stream with sink := sink, mCount := 0 }
  else
    .ok stream

def close (stream : BufferedOutputStream) : BufferedOutputStream :=
  { stream with
    sink := if stream.mOutputStream then stream.sink.close else stream.sink
    mOutputStream := false
    mBuffer := none }

def flush (stream : BufferedOutputStream) : Outcome BufferedOutputStream := do
  let buffer ← stream.throwing stream.checkValidity
  stream.flushBuffer buffer

/-- `write(buffer, offset, count)`. -/
def write (stream : BufferedOutputStream) (buffer : List UInt8) (offset count : Nat) :
    Outcome BufferedOutputStream := do
  let localBuffer ← stream.throwing stream.checkValidity
  if count ≥ localBuffer.length then
    let stream ← stream.flushBuffer localBuffer
    let sink ← stream.throwing (stream.sink.write buffer offset count)
    pure { stream with sink := sink }
  else if offset > buffer.length ∨ buffer.length - offset < count then
    throw (.array .indexOutOfBoundsException, stream)
  else
    let stream ←
      if count > localBuffer.length - stream.mCount then stream.flushBuffer localBuffer
      else pure stream
    let localBuffer ← stream.throwing
      ((arraycopy buffer offset localBuffer stream.mCount count).mapError StreamThrown.array)
    pure { stream with mBuffer := some localBuffer, mCount := stream.mCount + count }

/-- `write(b)` stores the lowest byte of its argument. -/
def writeByte (stream : BufferedOutputStream) (b : BitVec 32) : Outcome BufferedOutputStream := do
  let buffer ← stream.throwing stream.checkValidity
  let stream ←
    if stream.mCount = buffer.length then do
      let sink ← stream.throwing (stream.sink.write buffer 0 stream.mCount)
      pure { stream with sink := sink, mCount := 0 }
    else
      pure stream
  if stream.mCount < buffer.length then
    pure
      { stream with
        mBuffer := some (buffer.set stream.mCount (UInt8.ofNat b.toNat))
        mCount := stream.mCount + 1 }
  else
    throw (.array .indexOutOfBoundsException, stream)

/-- The bytes that have not been given to the sink. -/
def buffered (stream : BufferedOutputStream) : List UInt8 :=
  (stream.mBuffer.getD []).take stream.mCount

end BufferedOutputStream

inductive WriteCall where
  | writeByte (b : BitVec 32)
  | write (buffer : List UInt8) (offset count : Nat)
  | flush

inductive WriteReply where
  | returned
  | thrown (thrown : StreamThrown)

namespace BufferedOutputStream

def call (stream : BufferedOutputStream) (next : WriteCall) : WriteReply × BufferedOutputStream :=
  let outcome :=
    match next with
    | .writeByte b => stream.writeByte b
    | .write buffer offset count => stream.write buffer offset count
    | .flush => stream.flush
  match outcome with
  | .ok stream => (.returned, stream)
  | .error (thrown, stream) => (.thrown thrown, stream)

/-- The replies that are allowed, and what has been written after them. -/
inductive Allows (written : List UInt8) : WriteCall → WriteReply → List UInt8 → Prop where
  | writeByte (b : BitVec 32) :
      Allows written (.writeByte b) .returned (written ++ [UInt8.ofNat b.toNat])
  | write {buffer : List UInt8} {offset count : Nat} (within : offset + count ≤ buffer.length) :
      Allows written (.write buffer offset count) .returned
        (written ++ (buffer.drop offset).take count)
  | outOfBounds {buffer : List UInt8} {offset count : Nat}
      (beyond : buffer.length < offset + count) :
      Allows written (.write buffer offset count) (.thrown (.array .indexOutOfBoundsException))
        written
  | flush : Allows written .flush .returned written

/-- The sink and the buffer hold what has been written. -/
structure Holds (buffer : List UInt8) (stream : BufferedOutputStream) (written : List UInt8) :
    Prop where
  valid : stream.mOutputStream = true
  mBuffer : stream.mBuffer = some buffer
  nonempty : 0 < buffer.length
  count : stream.mCount ≤ buffer.length
  content : stream.sink.bytes ++ buffer.take stream.mCount = written

section Steps

variable {stream : BufferedOutputStream} {written buffer localBuffer : List UInt8}
variable {offset count : Nat}

theorem Holds.checkValidity (holds : Holds localBuffer stream written) :
    stream.checkValidity = .ok localBuffer := by
  rw [BufferedOutputStream.checkValidity, holds.mBuffer, holds.valid]

/-- A range of a buffer, given to the sink. -/
theorem sink_write (sink : OutputStream) (within : offset + count ≤ buffer.length) :
    sink.write buffer offset count =
      .ok { sink with bytes := sink.bytes ++ (buffer.drop offset).take count } :=
  if_neg (Nat.not_lt_of_le within)

theorem Holds.flushBuffer (holds : Holds localBuffer stream written) :
    ∃ after, stream.flushBuffer localBuffer = .ok after ∧ Holds localBuffer after written ∧
      after.mCount = 0 ∧ after.sink.bytes = written := by
  unfold BufferedOutputStream.flushBuffer
  split
  · rw [sink_write _ (by rw [Nat.zero_add]; exact holds.count)]
    refine ⟨_, rfl, ?_, rfl, holds.content⟩
    exact
      { valid := holds.valid
        mBuffer := holds.mBuffer
        nonempty := holds.nonempty
        count := Nat.zero_le _
        content := by rw [List.take_zero, List.append_nil]; exact holds.content }
  · next empty =>
      have none : stream.mCount = 0 := by omega
      refine ⟨stream, rfl, holds, none, ?_⟩
      rw [← holds.content, none, List.take_zero, List.append_nil]

theorem Holds.flush (holds : Holds localBuffer stream written) :
    ∃ after, stream.flush = .ok after ∧ Holds localBuffer after written ∧
      after.sink.bytes = written := by
  obtain ⟨after, flushes, holds', -, same⟩ := holds.flushBuffer
  refine ⟨after, ?_, holds', same⟩
  rw [BufferedOutputStream.flush, holds.checkValidity]
  exact flushes

/-- Bytes are stored behind those that are buffered. -/
theorem Holds.store (holds : Holds localBuffer stream written) {data : List UInt8}
    (fits : stream.mCount + data.length ≤ localBuffer.length) :
    Holds (overwrite localBuffer stream.mCount data)
      { stream with
        mBuffer := some (overwrite localBuffer stream.mCount data)
        mCount := stream.mCount + data.length } (written ++ data) where
  valid := holds.valid
  mBuffer := rfl
  nonempty := by rw [length_overwrite fits]; exact holds.nonempty
  count := by rw [length_overwrite fits]; exact fits
  content := by
    show stream.sink.bytes ++ (overwrite localBuffer stream.mCount data).take
      (stream.mCount + data.length) = written ++ data
    rw [take_overwrite holds.count, ← List.append_assoc, holds.content]

theorem Holds.write (holds : Holds localBuffer stream written)
    (within : offset + count ≤ buffer.length) :
    ∃ after localBuffer', stream.write buffer offset count = .ok after ∧
      Holds localBuffer' after (written ++ (buffer.drop offset).take count) := by
  have size : ((buffer.drop offset).take count).length = count := by
    rw [List.length_take, List.length_drop]
    omega
  have copied : ∀ {before : BufferedOutputStream}, Holds localBuffer before written →
      before.mCount + count ≤ localBuffer.length →
        ∃ after localBuffer', (do
          let localBuffer ← before.throwing
            ((arraycopy buffer offset localBuffer before.mCount count).mapError StreamThrown.array)
          pure { before with mBuffer := some localBuffer, mCount := before.mCount + count }) =
            (.ok after : Outcome BufferedOutputStream) ∧
          Holds localBuffer' after (written ++ (buffer.drop offset).take count) := by
    intro before holds fits
    have stored := holds.store (by rwa [size] : before.mCount + _ ≤ localBuffer.length)
    rw [size] at stored
    rw [arraycopy_ok _ _ _ _ _ within fits]
    exact ⟨_, _, rfl, stored⟩
  rw [BufferedOutputStream.write, holds.checkValidity]
  simp only [throwing, Except.mapError, bind, Except.bind]
  obtain ⟨flushed, flushes, holds', none, same⟩ := holds.flushBuffer
  by_cases large : count ≥ localBuffer.length
  · rw [if_pos large, flushes]
    simp only [sink_write _ within]
    refine ⟨_, localBuffer, rfl, ?_⟩
    exact
      { valid := holds'.valid
        mBuffer := holds'.mBuffer
        nonempty := holds'.nonempty
        count := holds'.count
        content := by
          show flushed.sink.bytes ++ _ ++ localBuffer.take flushed.mCount = _
          rw [none, List.take_zero, List.append_nil, same] }
  · rw [if_neg large, if_neg (by omega)]
    by_cases full : count > localBuffer.length - stream.mCount
    · rw [if_pos full, flushes]
      exact copied holds' (by omega)
    · rw [if_neg full]
      have inside := holds.count
      exact copied holds (by omega)

theorem Holds.write_outOfBounds (holds : Holds localBuffer stream written)
    (beyond : buffer.length < offset + count) :
    ∃ after, stream.write buffer offset count =
        .error (.array .indexOutOfBoundsException, after) ∧ Holds localBuffer after written := by
  rw [BufferedOutputStream.write, holds.checkValidity]
  simp only [throwing, Except.mapError, bind, Except.bind]
  by_cases large : count ≥ localBuffer.length
  · obtain ⟨flushed, flushes, holds', -, -⟩ := holds.flushBuffer
    have rejected : flushed.sink.write buffer offset count =
        .error (.array .indexOutOfBoundsException) := if_pos beyond
    rw [if_pos large, flushes]
    simp only [rejected]
    exact ⟨_, rfl, holds'⟩
  · rw [if_neg large, if_pos (by omega)]
    exact ⟨_, rfl, holds⟩

theorem Holds.writeByte (holds : Holds localBuffer stream written) (b : BitVec 32) :
    ∃ after localBuffer', stream.writeByte b = .ok after ∧
      Holds localBuffer' after (written ++ [UInt8.ofNat b.toNat]) := by
  have stored : ∀ {before : BufferedOutputStream}, Holds localBuffer before written →
      before.mCount < localBuffer.length → Holds (localBuffer.set before.mCount (UInt8.ofNat b.toNat))
        { before with
          mBuffer := some (localBuffer.set before.mCount (UInt8.ofNat b.toNat))
          mCount := before.mCount + 1 } (written ++ [UInt8.ofNat b.toNat]) := by
    intro before holds room
    have stored := holds.store (show before.mCount + [UInt8.ofNat b.toNat].length ≤ _ from room)
    have same : overwrite localBuffer before.mCount [UInt8.ofNat b.toNat] =
        localBuffer.set before.mCount (UInt8.ofNat b.toNat) := by
      rw [overwrite, List.set_eq_take_append_cons_drop, if_pos room, List.append_assoc]
      rfl
    rw [same] at stored
    exact stored
  rw [BufferedOutputStream.writeByte, holds.checkValidity]
  simp only [throwing, Except.mapError, bind, Except.bind, pure, Except.pure]
  have inside := holds.count
  by_cases full : stream.mCount = localBuffer.length
  · rw [if_pos full, sink_write _ (by omega)]
    have emptied : Holds localBuffer
        { stream with
          sink := { stream.sink with
            bytes := stream.sink.bytes ++ (localBuffer.drop 0).take stream.mCount }
          mCount := 0 } written :=
      { valid := holds.valid
        mBuffer := holds.mBuffer
        nonempty := holds.nonempty
        count := Nat.zero_le _
        content := by rw [List.take_zero, List.append_nil]; exact holds.content }
    exact ⟨_, _, if_pos holds.nonempty, stored emptied holds.nonempty⟩
  · rw [if_neg full]
    have room : stream.mCount < localBuffer.length := by omega
    exact ⟨_, _, if_pos room, stored holds room⟩

/-- Every reply is one that is allowed. -/
theorem Holds.call (holds : Holds localBuffer stream written) (next : WriteCall) :
    ∃ written' localBuffer', Allows written next (stream.call next).1 written' ∧
      Holds localBuffer' (stream.call next).2 written' := by
  cases next with
  | writeByte b =>
      obtain ⟨after, localBuffer', writes, holds'⟩ := holds.writeByte b
      simp only [BufferedOutputStream.call, writes]
      exact ⟨_, _, .writeByte b, holds'⟩
  | write buffer offset count =>
      simp only [BufferedOutputStream.call]
      by_cases beyond : buffer.length < offset + count
      · obtain ⟨after, throws, holds'⟩ := holds.write_outOfBounds beyond
        rw [throws]
        exact ⟨_, _, .outOfBounds beyond, holds'⟩
      · obtain ⟨after, localBuffer', writes, holds'⟩ := holds.write (Nat.le_of_not_lt beyond)
        rw [writes]
        exact ⟨_, _, .write (Nat.le_of_not_lt beyond), holds'⟩
  | flush =>
      obtain ⟨after, flushes, holds', -⟩ := holds.flush
      simp only [BufferedOutputStream.call, flushes]
      exact ⟨_, _, .flush, holds'⟩

end Steps

/-! ## Runs -/

theorem new_holds {sink : OutputStream} {size : Nat} {start : BufferedOutputStream}
    (created : new sink size = .ok start) : ∃ buffer, Holds buffer start sink.bytes := by
  unfold new at created
  split at created
  · cases created
  · next positive =>
      unfold newByteArray at created
      split at created
      · cases created
        refine ⟨List.replicate size 0, ?_⟩
        exact
          { valid := rfl
            mBuffer := rfl
            nonempty := by rw [List.length_replicate]; exact Nat.pos_of_ne_zero positive
            count := Nat.zero_le _
            content := by rw [List.take_zero, List.append_nil] }
      · cases created

/-- The sink and the buffer together always hold what has been written, and the sink alone
does so after `flush()`; after `close()` it does so just if the buffer was empty. -/
theorem close_keeps_iff {sink : OutputStream} {size : Nat} {start : BufferedOutputStream}
    (created : new sink size = .ok start) (calls : List WriteCall) :
    ∃ written, Trace Allows sink.bytes calls (answer call start calls).1 written ∧
      (answer call start calls).2.sink.bytes ++ (answer call start calls).2.buffered = written ∧
      ((answer call start calls).2.call .flush).2.sink.bytes = written ∧
      ((answer call start calls).2.close.sink.bytes = written ↔
        (answer call start calls).2.mCount = 0) := by
  obtain ⟨buffer, starts⟩ := new_holds created
  obtain ⟨written, trace, localBuffer, holds⟩ :
      ∃ written, Trace Allows sink.bytes calls (answer call start calls).1 written ∧
        ∃ localBuffer, Holds localBuffer (answer call start calls).2 written := by
    apply Trace.of_simulation (fun stream written => ∃ localBuffer, Holds localBuffer stream written)
      _ ⟨buffer, starts⟩ (permitted_always call start calls)
    rintro stream written next ⟨localBuffer, holds⟩ -
    obtain ⟨written', localBuffer', allows, holds'⟩ := holds.call next
    exact ⟨written', allows, localBuffer', holds'⟩
  refine ⟨written, trace, ?_, ?_, ?_⟩
  · rw [buffered, holds.mBuffer]
    exact holds.content
  · obtain ⟨after, flushes, -, same⟩ := holds.flush
    simp only [call, flushes]
    exact same
  · rw [close, holds.valid]
    constructor
    · intro same
      have nothing : localBuffer.take (answer call start calls).2.mCount = [] :=
        List.append_right_eq_self.mp (holds.content.trans same.symm)
      have nonempty := holds.nonempty
      rcases List.take_eq_nil_iff.mp nothing with none | rfl
      · exact none
      · exact absurd nonempty (Nat.lt_irrefl _)
    · intro none
      have content := holds.content
      rwa [none, List.take_zero, List.append_nil] at content

/-! A byte is written and the stream is closed. -/

theorem close_loses_byte : ∃ start, new ⟨[], false⟩ 4 = .ok start ∧
    (answer call start [.writeByte 1]).1 = [.returned] ∧
    ¬∃ written, Trace Allows [] [.writeByte 1] (answer call start [.writeByte 1]).1 written ∧
      (answer call start [.writeByte 1]).2.close.sink.bytes = written := by
  refine ⟨_, rfl, rfl, ?_⟩
  rintro ⟨written, trace, same⟩
  obtain ⟨_, writes, nothing⟩ := trace.uncons
  cases writes
  cases nothing
  cases same

theorem flush_keeps_byte : ∃ start, new ⟨[], false⟩ 4 = .ok start ∧
    (answer call start [.writeByte 1, .flush]).2.close.sink.bytes = [1] := by
  refine ⟨_, rfl, ?_⟩
  obtain ⟨written, trace, -, -, iff⟩ := close_keeps_iff
    (show new ⟨[], false⟩ 4 = .ok _ from rfl) [.writeByte 1, .flush]
  obtain ⟨_, writes, trace⟩ := trace.uncons
  obtain ⟨_, flushes, nothing⟩ := trace.uncons
  cases writes
  cases flushes
  cases nothing
  exact iff.mpr rfl

end BufferedOutputStream

end Mindroid
