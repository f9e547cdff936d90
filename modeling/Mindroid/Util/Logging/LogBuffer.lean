import Mindroid.Nio.ByteBuffer

/-!
# The log buffer

`LogBuffer` keeps encoded log records in a byte ring.  Every operation holds the
buffer lock for all it reads and writes of the ring, so one operation is one step.
An exception leaves the state as it is at that point.
-/

set_option autoImplicit false

namespace Mindroid

open Foundation

/-- `LogBuffer::LogRecord`; strings are their bytes. -/
structure LogRecord where
  mTimestamp : BitVec 64
  mThreadId : BitVec 64
  mPriority : BitVec 32
  mTag : List UInt8
  mMessage : List UInt8
  deriving DecidableEq

/-- A log buffer, and the promises its `get` has returned, in this order, each with
its value once it is completed. -/
structure LogBuffer where
  mSize : Nat
  mBuffer : List UInt8
  mReadIndex : Nat := 0
  mWriteIndex : Nat := 0
  mPromise : Option Nat := none
  promises : List (Option (Option LogRecord)) := []
  deriving DecidableEq

namespace LogRecord

def TIMESTAMP_SIZE : Nat := 8
def THREAD_ID_SIZE : Nat := 8
def PRIORITY_SIZE : Nat := 4
def TAG_SIZE : Nat := 4
def MESSAGE_SIZE : Nat := 4

/-- Number of bytes of an encoded record. -/
def encodedSize (record : LogRecord) : Nat :=
  TIMESTAMP_SIZE + THREAD_ID_SIZE + PRIORITY_SIZE + TAG_SIZE + record.mTag.length +
    MESSAGE_SIZE + record.mMessage.length

/-- The variable `size` of `put`, a `uint32_t`. -/
def size (record : LogRecord) : BitVec 32 :=
  BitVec.ofNat 32 record.encodedSize

/-- The buffer that `put` fills before it takes the lock. -/
def encode (record : LogRecord) : Except Thrown ByteBuffer := do
  let byteBuffer ← ByteBuffer.allocate (record.size + 4).toNat
  let byteBuffer ← byteBuffer.putInt record.size
  let byteBuffer ← byteBuffer.putLong record.mTimestamp
  let byteBuffer ← byteBuffer.putLong record.mThreadId
  let byteBuffer ← byteBuffer.putInt record.mPriority
  let byteBuffer ← byteBuffer.putInt (BitVec.ofNat 32 record.mTag.length)
  let byteBuffer ← byteBuffer.put record.mTag
  let byteBuffer ← byteBuffer.putInt (BitVec.ofNat 32 record.mMessage.length)
  byteBuffer.put record.mMessage

end LogRecord

/-- Conversion of a signed number to `size_t`. -/
def toSize (value : Int) : Nat :=
  (BitVec.ofInt 64 value).toNat

/-- What `get` does with the bytes of a record after it has released the lock. -/
def LogRecord.decode (buffer : List UInt8) : Except Thrown LogRecord := do
  let byteBuffer := ByteBuffer.wrap buffer
  let (timestamp, byteBuffer) ← byteBuffer.getLong
  let (threadId, byteBuffer) ← byteBuffer.getLong
  let (priority, byteBuffer) ← byteBuffer.getInt
  let (tagSize, byteBuffer) ← byteBuffer.getInt
  let tagData ← newByteArray (toSize tagSize.toInt)
  let (tag, byteBuffer) ← byteBuffer.get tagData
  let (messageSize, byteBuffer) ← byteBuffer.getInt
  let messageData ← newByteArray (toSize messageSize.toInt)
  let (message, _) ← byteBuffer.get messageData
  return { mTimestamp := timestamp, mThreadId := threadId, mPriority := priority
           mTag := tag, mMessage := message }

/-- Code that runs on a log buffer and may throw. -/
abbrev LogM := EStateM Thrown LogBuffer

/-- Run code that does not touch the log buffer. -/
def LogM.lift {α : Type} : Except Thrown α → LogM α
  | .ok value => pure value
  | .error thrown => throw thrown

namespace LogBuffer

/-- The constructor. -/
def new (size : Nat) : Except Thrown LogBuffer :=
  (newByteArray size).map fun array => { mSize := size, mBuffer := array }

def isEmpty (st : LogBuffer) : Bool :=
  st.mReadIndex == st.mWriteIndex

def remainingCapacity (st : LogBuffer) : Nat :=
  if st.mWriteIndex ≥ st.mReadIndex then
    st.mSize - (st.mWriteIndex - st.mReadIndex)
  else
    st.mReadIndex - st.mWriteIndex

def intFromByteArray (data : List UInt8) : Int :=
  (BitVec.ofNat 32 (ofBytes data)).toInt

def readByteArray (size : Nat) : LogM (List UInt8) := do
  let data ← LogM.lift (newByteArray size)
  let st ← get
  if st.mReadIndex + size < st.mSize then
    let data ← LogM.lift (arraycopy st.mBuffer st.mReadIndex data 0 size)
    set { st with mReadIndex := (st.mReadIndex + size) % st.mSize }
    return data
  else
    let partialSize := st.mSize - st.mReadIndex
    let data ← LogM.lift (arraycopy st.mBuffer st.mReadIndex data 0 partialSize)
    let data ← LogM.lift (arraycopy st.mBuffer 0 data partialSize (size - partialSize))
    set { st with mReadIndex := (st.mReadIndex + size) % st.mSize }
    return data

/-- The loop of `writeByteArray` that evicts the oldest records. -/
def makeRoom (size : Nat) : Nat → Nat → LogM Unit
  | 0, _ => throw .outOfFuel
  | fuel + 1, freeCapacity => do
      if freeCapacity < size then
        let s := intFromByteArray (← readByteArray 4)
        modify fun st => { st with mReadIndex := toSize (st.mReadIndex + s) % st.mSize }
        makeRoom size fuel (toSize (freeCapacity + (s + 4)))

/-- The two copies of `writeByteArray`. -/
def copyIn (data : List UInt8) : LogM Unit := do
  let size := data.length
  let st ← get
  if st.mWriteIndex + size < st.mSize then
    let buffer ← LogM.lift (arraycopy data 0 st.mBuffer st.mWriteIndex size)
    set { st with mBuffer := buffer, mWriteIndex := (st.mWriteIndex + size) % st.mSize }
  else
    let partialSize := st.mSize - st.mWriteIndex
    let buffer ← LogM.lift (arraycopy data 0 st.mBuffer st.mWriteIndex partialSize)
    set { st with mBuffer := buffer }
    let buffer ← LogM.lift (arraycopy data partialSize buffer 0 (size - partialSize))
    set { st with mBuffer := buffer, mWriteIndex := (st.mWriteIndex + size) % st.mSize }

/-- Every record takes at least one byte, so the loop gets one unit of fuel for
each byte of the ring. -/
def writeByteArray (data : List UInt8) : LogM Unit := do
  let st ← get
  makeRoom data.length (st.mSize + 1) st.remainingCapacity
  copyIn data

/-- `promise->complete(value)` on a promise that `get` has returned. -/
def complete (st : LogBuffer) (promise : Nat) (value : Option LogRecord) : LogBuffer :=
  { st with promises := st.promises.modify promise fun outcome => some (outcome.getD value) }

def put (timestamp threadId : BitVec 64) (priority : BitVec 32)
    (tag message : Option (List UInt8)) : LogM Bool :=
  match tag, message with
  | some tag, some message => do
      let record : LogRecord :=
        { mTimestamp := timestamp, mThreadId := threadId, mPriority := priority
          mTag := tag, mMessage := message }
      if (record.size + 4).toNat > (← get).mSize then
        return false
      let byteBuffer ← LogM.lift record.encode
      match (← get).mPromise with
      | some promise =>
          modify fun st => { st.complete promise (some record) with mPromise := none }
      | none => writeByteArray byteBuffer.mBuffer
      return true
  | _, _ => return false

/-- Returns the promise by its place among all that were returned. -/
def get : LogM Nat := do
  let st ← MonadState.get
  match st.mPromise with
  | some promise => return promise
  | none =>
      if !st.isEmpty then
        let size := intFromByteArray (← readByteArray 4)
        let buffer ← readByteArray (toSize size)
        let record ← LogM.lift (LogRecord.decode buffer)
        modify fun st => { st with promises := st.promises ++ [some (some record)] }
        return st.promises.length
      else
        set { st with mPromise := some st.promises.length, promises := st.promises ++ [none] }
        return st.promises.length

def reset : LogM Unit := do
  modify fun st => { st with mReadIndex := 0, mWriteIndex := 0 }
  match (← MonadState.get).mPromise with
  | some promise => modify fun st => { st.complete promise none with mPromise := none }
  | none => return ()

end LogBuffer

end Mindroid
