import Mindroid.Util.Logging.LogBuffer

/-!
# How records stand in the ring

The content of a log buffer is a sequence of frames, each a length followed by an
encoded record.  Reading and writing frames is described by the list of records
the ring holds.
-/

set_option autoImplicit false

namespace Mindroid

open Foundation

/-! ## Encoding and decoding -/

namespace LogRecord

variable (record : LogRecord)

/-- The bytes behind the length, in the order `put` stores them. -/
def chunks : List (List UInt8) :=
  [toBytes 8 record.mTimestamp.toNat, toBytes 8 record.mThreadId.toNat,
    toBytes 4 record.mPriority.toNat, toBytes 4 (BitVec.ofNat 32 record.mTag.length).toNat,
    record.mTag, toBytes 4 (BitVec.ofNat 32 record.mMessage.length).toNat, record.mMessage]

/-- What is written to the ring. -/
def frame : List UInt8 :=
  toBytes 4 record.size.toNat ++ record.chunks.flatten

theorem length_chunks : record.chunks.flatten.length = record.encodedSize := by
  simp only [chunks, List.flatten_cons, List.flatten_nil, List.length_append, length_toBytes,
    List.length_nil, encodedSize, TIMESTAMP_SIZE, THREAD_ID_SIZE, PRIORITY_SIZE, TAG_SIZE,
    MESSAGE_SIZE]
  omega

theorem length_frame : record.frame.length = record.encodedSize + 4 := by
  rw [frame, List.length_append, length_toBytes, length_chunks]
  omega

/-- `put` allocates a buffer and stores the parts of the frame. -/
theorem encode_eq_storeAll :
    record.encode = ByteBuffer.allocate (record.size + 4).toNat >>=
      fun buffer => buffer.storeAll (toBytes 4 record.size.toNat :: record.chunks) := by
  simp only [encode, ByteBuffer.storeAll, chunks, ByteBuffer.putInt, ByteBuffer.putLong,
    ByteBuffer.put, List.foldlM_cons, List.foldlM_nil, bind_pure]

theorem allocate_frame :
    ∃ buffer : ByteBuffer, ByteBuffer.allocate (record.size + 4).toNat = .ok buffer ∧
      buffer.Wrote [] ∧ buffer.mBuffer.length = (record.encodedSize + 4) % 2 ^ 32 := by
  have bound := (record.size + 4).isLt
  refine ⟨{ mBuffer := List.replicate (record.size + 4).toNat 0 }, ?_, ⟨rfl, rfl⟩, ?_⟩
  · rw [ByteBuffer.allocate, newByteArray_ok (by omega)]
    rfl
  · rw [List.length_replicate, size, BitVec.toNat_add, BitVec.toNat_ofNat]
    simp

variable {record}

/-- A record whose frame length fits 32 bits is encoded as its frame. -/
theorem encode_eq (fits : record.encodedSize + 4 < 2 ^ 32) :
    ∃ buffer, record.encode = .ok buffer ∧ buffer.mBuffer = record.frame := by
  rcases record.allocate_frame with ⟨buffer, allocated, wrote, length⟩
  rw [Nat.mod_eq_of_lt fits, ← length_frame] at length
  have whole : [] ++ (toBytes 4 record.size.toNat :: record.chunks).flatten = record.frame := by
    rw [List.nil_append, List.flatten_cons, frame]
  rcases wrote.storeAll (by rw [whole, length]) with ⟨buffer', stored, wrote', sameLength⟩
  rw [whole] at wrote'
  refine ⟨buffer', ?_, wrote'.eq_of_full (by rw [sameLength, length])⟩
  rw [encode_eq_storeAll, allocated]
  exact stored

/-- A longer one does not fit the buffer that is allocated for it. -/
theorem encode_error (long : 2 ^ 32 ≤ record.encodedSize + 4) :
    ∃ thrown, record.encode = .error thrown := by
  rcases record.allocate_frame with ⟨buffer, allocated, wrote, length⟩
  cases encoded : record.encode with
  | error thrown => exact ⟨thrown, rfl⟩
  | ok buffer' =>
      rw [encode_eq_storeAll, allocated] at encoded
      have fits := wrote.of_storeAll (Nat.zero_le _) encoded
      rw [List.nil_append, List.flatten_cons, ← frame, length_frame, length] at fits
      have short := Nat.mod_lt (record.encodedSize + 4) (Nat.two_pow_pos 32)
      omega

theorem toInt_ofNat {length : Nat} (fits : length < 2 ^ 31) :
    (BitVec.ofNat 32 length).toInt = length := by
  rw [BitVec.toInt_eq_toNat_of_lt, BitVec.toNat_ofNat, Nat.mod_eq_of_lt (by omega)]
  rw [BitVec.toNat_ofNat, Nat.mod_eq_of_lt (by omega)]
  omega

/-- Lengths below `2^31` survive the conversions to `int32_t` and `size_t`. -/
theorem toSize_toInt {length : Nat} (fits : length < 2 ^ 31) :
    toSize (BitVec.ofNat 32 length).toInt = length := by
  rw [toInt_ofNat fits, toSize, BitVec.ofInt_natCast, BitVec.toNat_ofNat,
    Nat.mod_eq_of_lt (by omega)]

theorem length_le_encodedSize (record : LogRecord) :
    record.mTag.length ≤ record.encodedSize ∧ record.mMessage.length ≤ record.encodedSize := by
  simp only [encodedSize, TIMESTAMP_SIZE, THREAD_ID_SIZE, PRIORITY_SIZE, TAG_SIZE, MESSAGE_SIZE]
  omega

/-- The bytes of a record decode to it. -/
theorem decode_chunks (fits : record.encodedSize < 2 ^ 31) :
    decode record.chunks.flatten = .ok record := by
  rcases record.length_le_encodedSize with ⟨tagShort, messageShort⟩
  have newArray {length : Nat} (short : length < 2 ^ 31) :
      newByteArray (toSize (BitVec.ofNat 32 length).toInt) = .ok (List.replicate length 0) := by
    rw [toSize_toInt short, newByteArray_ok (by omega)]
  have start : (ByteBuffer.wrap record.chunks.flatten).Reads record.chunks.flatten :=
    ⟨Nat.zero_le _, rfl⟩
  rw [chunks, List.flatten_cons] at start
  rcases start.getLong with ⟨buffer, timestamp, reads⟩
  rw [List.flatten_cons] at reads
  rcases reads.getLong with ⟨buffer, threadId, reads⟩
  rw [List.flatten_cons] at reads
  rcases reads.getInt with ⟨buffer, priority, reads⟩
  rw [List.flatten_cons] at reads
  rcases reads.getInt with ⟨buffer, tagLength, reads⟩
  rw [List.flatten_cons] at reads
  rcases reads.get with ⟨buffer, tag, reads⟩
  rw [List.flatten_cons] at reads
  rcases reads.getInt with ⟨buffer, messageLength, reads⟩
  rw [List.flatten_cons] at reads
  rcases reads.get with ⟨buffer, message, reads⟩
  have tagArray := newArray (Nat.lt_of_le_of_lt tagShort fits)
  have messageArray := newArray (Nat.lt_of_le_of_lt messageShort fits)
  simp only [List.flatten_cons] at timestamp
  simp only [decode, bind, Except.bind, chunks, List.flatten_cons, timestamp, threadId, priority,
    tagLength, tagArray, tag, messageLength, messageArray, message]
  rfl

end LogRecord

/-! ## Copies from and to the ring -/

namespace LogM

variable {α β : Type} {first : LogM α} {rest : α → LogM β} {st st' : LogBuffer} {value : α}

theorem bind_ok (returned : first st = .ok value st') : (first >>= rest) st = rest value st' := by
  simp only [bind, EStateM.bind, returned]

theorem bind_get (code : LogBuffer → LogM β) : (MonadState.get >>= code) st = code st st := rfl

theorem bind_set (code : PUnit → LogM β) : (set st' >>= code) st = code ⟨⟩ st' := rfl

theorem bind_modify (change : LogBuffer → LogBuffer) (code : PUnit → LogM β) :
    (modify change >>= code) st = code ⟨⟩ (change st) := rfl

theorem pure_run : (pure value : LogM α) st = .ok value st := rfl

theorem bind_lift {code : Except Thrown α} (returned : code = .ok value) :
    (LogM.lift code >>= rest) st = rest value st := by
  rw [returned]
  rfl

end LogM

namespace LogBuffer

variable {st : LogBuffer}

/-- The indices stay inside the ring. -/
structure Placed (st : LogBuffer) : Prop where
  length : st.mBuffer.length = st.mSize
  bounded : st.mSize < 2 ^ 63
  readInside : st.mReadIndex < st.mSize
  writeInside : st.mWriteIndex < st.mSize

theorem readByteArray_eq (placed : Placed st) {size : Nat} (fits : size ≤ st.mSize) :
    readByteArray size st = .ok (RingBuffer.read st.mBuffer st.mReadIndex size)
      { st with mReadIndex := (st.mReadIndex + size) % st.mSize } := by
  have length := placed.length
  have inside := placed.readInside
  have bounded := placed.bounded
  have array := newByteArray_ok (Nat.lt_of_le_of_lt fits bounded)
  rw [readByteArray, LogM.bind_lift array, LogM.bind_get, RingBuffer.read, length]
  by_cases straight : st.mReadIndex + size < st.mSize
  · have copied := arraycopy_ok st.mBuffer st.mReadIndex (List.replicate size 0) 0 size
      (by omega) (by rw [List.length_replicate]; omega)
    rw [if_pos straight, if_pos straight, LogM.bind_lift copied, LogM.bind_set, LogM.pure_run,
      overwrite_all]
    rw [List.length_take, List.length_drop, List.length_replicate]
    omega
  · have front : ((st.mBuffer.drop st.mReadIndex).take (st.mSize - st.mReadIndex)) =
        st.mBuffer.drop st.mReadIndex :=
      List.take_of_length_le (by rw [List.length_drop]; omega)
    have frontLength : (st.mBuffer.drop st.mReadIndex).length = st.mSize - st.mReadIndex := by
      rw [List.length_drop, length]
    have first := arraycopy_ok st.mBuffer st.mReadIndex (List.replicate size 0) 0
      (st.mSize - st.mReadIndex) (by omega) (by rw [List.length_replicate]; omega)
    rw [front] at first
    have room : 0 + (st.mBuffer.drop st.mReadIndex).length ≤
        (List.replicate size (0 : UInt8)).length := by
      rw [List.length_replicate, frontLength]
      omega
    have second := arraycopy_ok st.mBuffer 0
      (overwrite (List.replicate size 0) 0 (st.mBuffer.drop st.mReadIndex))
      (st.mSize - st.mReadIndex) (size - (st.mSize - st.mReadIndex)) (by omega)
      (by rw [length_overwrite room, List.length_replicate]; omega)
    rw [List.drop_zero, ← frontLength, overwrite_parts, frontLength] at second
    · rw [if_neg straight, if_neg straight, LogM.bind_lift first,
        LogM.bind_lift second, LogM.bind_set, LogM.pure_run]
    · rw [frontLength, List.length_take, List.length_replicate]
      omega

/-- The two copies write the data at the write index. -/
theorem copyIn_eq (placed : Placed st) {data : List UInt8} (fits : data.length ≤ st.mSize) :
    copyIn data st = .ok ⟨⟩
      { st with
        mBuffer := RingBuffer.write st.mBuffer st.mWriteIndex data
        mWriteIndex := (st.mWriteIndex + data.length) % st.mSize } := by
  have length := placed.length
  have inside := placed.writeInside
  rw [copyIn]
  simp only
  rw [LogM.bind_get, RingBuffer.write, length]
  by_cases straight : st.mWriteIndex + data.length < st.mSize
  · have copied := arraycopy_ok data 0 st.mBuffer st.mWriteIndex data.length (by omega) (by omega)
    rw [List.drop_zero, List.take_length] at copied
    rw [if_pos straight, if_pos straight, LogM.bind_lift copied]
    rfl
  · have first := arraycopy_ok data 0 st.mBuffer st.mWriteIndex (st.mSize - st.mWriteIndex)
      (by omega) (by omega)
    rw [List.drop_zero] at first
    have room : st.mWriteIndex + (data.take (st.mSize - st.mWriteIndex)).length ≤
        st.mBuffer.length := by
      rw [List.length_take]
      omega
    have second := arraycopy_ok data (st.mSize - st.mWriteIndex)
      (overwrite st.mBuffer st.mWriteIndex (data.take (st.mSize - st.mWriteIndex))) 0
      (data.length - (st.mSize - st.mWriteIndex)) (by omega)
      (by rw [length_overwrite room]; omega)
    have back : (data.drop (st.mSize - st.mWriteIndex)).take
        (data.length - (st.mSize - st.mWriteIndex)) = data.drop (st.mSize - st.mWriteIndex) :=
      List.take_of_length_le (by rw [List.length_drop])
    rw [back] at second
    rw [if_neg straight, if_neg straight, LogM.bind_lift first, LogM.bind_set,
      LogM.bind_lift second]
    rfl

end LogBuffer

end Mindroid
