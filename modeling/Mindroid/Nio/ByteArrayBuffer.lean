import Mindroid.Foundation.Bytes
import Mindroid.Foundation.RingBuffer
import Mindroid.Foundation.Throwing

/-!
# Byte buffers over shared arrays

The fields of a buffer are of type `size_t`, and sums of them wrap.  An access to a C array that
leaves the array is undefined behaviour, whereas `ByteArray` itself checks its bounds.
-/

set_option autoImplicit false

namespace Mindroid

namespace Nio

open Foundation

/-- A byte array has less bytes than `PTRDIFF_MAX`, like every `std::vector`. -/
structure ByteArray where
  bytes : List UInt8
  bounded : bytes.length < 2 ^ 63
  deriving DecidableEq

namespace ByteArray

def size (array : ByteArray) : UInt64 :=
  UInt64.ofNat array.bytes.length

def overwrite (array : ByteArray) (index : Nat) (data : List UInt8)
    (fits : index + data.length ≤ array.bytes.length) : ByteArray where
  bytes := Foundation.overwrite array.bytes index data
  bounded := by
    rw [length_overwrite fits]
    exact array.bounded

theorem toNat_size (array : ByteArray) : array.size.toNat = array.bytes.length :=
  UInt64.toNat_ofNat_of_lt' (Nat.lt_trans array.bounded (by decide))

@[simp] theorem size_overwrite (array : ByteArray) (index : Nat) (data : List UInt8)
    (fits : index + data.length ≤ array.bytes.length) :
    (array.overwrite index data fits).size = array.size := by
  rw [size, size, overwrite, length_overwrite fits]

end ByteArray

/-- What ends a call without a result. -/
inductive Fault where
  | bufferOverflowException (message : String)
  | bufferUnderflowException
  | indexOutOfBoundsException (message : String)
  | nullPointerException
  | lengthError
  /-- A null pointer or an address outside of the array is used. -/
  | undefined
  deriving DecidableEq

/-- The fields of a buffer; its array is one of those that are shared. -/
structure Buffer where
  mBuffer : Nat
  mOffset : UInt64
  mPosition : UInt64
  mLimit : UInt64
  mCapacity : UInt64
  deriving DecidableEq

/-- What the methods of a buffer read and write. -/
structure Scope where
  arrays : List ByteArray
  this : Buffer

abbrev Method (α : Type) : Type :=
  Throwing Fault Scope α

/-! ## Buffer -/

def Buffer.remaining (buffer : Buffer) : UInt64 :=
  if buffer.mPosition < buffer.mLimit then buffer.mLimit - buffer.mPosition else 0

/-- The fields of the buffer. -/
def self : Method Buffer :=
  Scope.this <$> get

def setPosition (position : UInt64) : Method Unit :=
  modify fun scope => { scope with this := { scope.this with mPosition := position } }

def setLimit (limit : UInt64) : Method Unit :=
  modify fun scope => { scope with this := { scope.this with mLimit := limit } }

def clear : Method Unit := do
  setLimit (← self).mCapacity
  setPosition 0

def flip : Method Unit := do
  setLimit (← self).mPosition
  setPosition 0

def limit (newLimit : UInt64) : Method Unit := do
  if newLimit > (← self).mCapacity then
    throw (.bufferOverflowException "Given limit exceeds capacity")
  else
    setLimit newLimit

def position (newPosition : UInt64) : Method Unit := do
  if newPosition > (← self).mLimit then
    throw (.bufferOverflowException "Cannot position outside of the buffer")
  else
    setPosition newPosition

def rewind : Method Unit :=
  setPosition 0

/-! ## The array -/

/-- The array that a pointer refers to, if it is not null. -/
def lookup (array : Nat) (null : Fault) : Method ByteArray := do
  match (← get).arrays[array]? with
  | some found => return found
  | none => throw null

/-- Some bytes at an address of the C array. -/
def readBytes (array : Nat) (address count : UInt64) : Method (List UInt8) := do
  let found ← lookup array .undefined
  if address.toNat + count.toNat ≤ found.bytes.length then
    return (found.bytes.drop address.toNat).take count.toNat
  else
    throw .undefined

def writeBytes (array : Nat) (address : UInt64) (data : List UInt8) : Method Unit := do
  let found ← lookup array .undefined
  if fits : address.toNat + data.length ≤ found.bytes.length then
    modify fun scope =>
      { scope with arrays := scope.arrays.set array (found.overwrite address.toNat data fits) }
  else
    throw .undefined

/-- `ByteArray::get`. -/
def arrayGet (array : Nat) (index : UInt64) : Method UInt8 := do
  if index ≥ (← lookup array .undefined).size then
    throw (.indexOutOfBoundsException "")
  else
    return (← readBytes array index 1).headD 0

/-- `ByteArray::set`. -/
def arraySet (array : Nat) (index : UInt64) (value : UInt8) : Method Unit := do
  if index ≥ (← lookup array .undefined).size then
    throw (.indexOutOfBoundsException "")
  else
    writeBytes array index [value]

/-- `System::arraycopy`. -/
def arraycopy (src : Nat) (srcPos : UInt64) (dest : Nat) (destPos length : UInt64) :
    Method Unit := do
  let source ← lookup src .nullPointerException
  let target ← lookup dest .nullPointerException
  if srcPos + length > source.size ∨ destPos + length > target.size then
    throw (.indexOutOfBoundsException "")
  else
    writeBytes dest destPos (← readBytes src srcPos length)

/-! ## ByteBuffer -/

def checkBufferOverflow (index amount : UInt64) : Method Unit := do
  if index + amount > (← self).mLimit then
    throw (.bufferOverflowException "")

def checkBufferUnderflow (index amount : UInt64) : Method Unit := do
  if index + amount > (← self).mLimit then
    throw .bufferUnderflowException

/-- The number that is stored in some bytes, or the bits of it. -/
def number (width : Nat) (data : List UInt8) : BitVec width :=
  BitVec.ofNat width (ofBytes data)

/-- A number is read from the C array. -/
def load (width index : UInt64) : Method (List UInt8) := do
  checkBufferUnderflow index width
  let this ← self
  readBytes this.mBuffer (this.mOffset + index) width

/-- A number is written to the C array. -/
def store (width index : UInt64) (value : Nat) : Method Unit := do
  checkBufferOverflow index width
  let this ← self
  writeBytes this.mBuffer (this.mOffset + index) (toBytes width.toNat value)

/-- An absolute method is used at the position, and then the position is moved. -/
def relative {α : Type} (width : UInt64) (access : UInt64 → Method α) : Method α := do
  let result ← access (← self).mPosition
  setPosition ((← self).mPosition + width)
  return result

/-- The position is moved before the absolute method is used. -/
def moved {α : Type} (access : UInt64 → Method α) : Method α := do
  let index := (← self).mPosition
  setPosition (index + 1)
  access index

def getAt (index : UInt64) : Method UInt8 := do
  checkBufferUnderflow index 1
  let this ← self
  arrayGet this.mBuffer (this.mOffset + index)

def get : Method UInt8 :=
  moved getAt

def getCharAt (index : UInt64) : Method UInt8 := do
  checkBufferUnderflow index 1
  let this ← self
  arrayGet this.mBuffer (this.mOffset + index)

def getChar : Method UInt8 :=
  relative 1 getCharAt

def getDoubleAt (index : UInt64) : Method (BitVec 64) :=
  number 64 <$> load 8 index

def getDouble : Method (BitVec 64) :=
  relative 8 getDoubleAt

def getFloatAt (index : UInt64) : Method (BitVec 32) :=
  number 32 <$> load 4 index

def getFloat : Method (BitVec 32) :=
  relative 4 getFloatAt

def getIntAt (index : UInt64) : Method (BitVec 32) :=
  number 32 <$> load 4 index

def getInt : Method (BitVec 32) :=
  relative 4 getIntAt

def getLongAt (index : UInt64) : Method (BitVec 64) :=
  number 64 <$> load 8 index

def getLong : Method (BitVec 64) :=
  relative 8 getLongAt

def getShortAt (index : UInt64) : Method (BitVec 16) :=
  number 16 <$> load 2 index

def getShort : Method (BitVec 16) :=
  relative 2 getShortAt

/-- Bytes from the position on are copied to a part of an array. -/
def getRange (dst : Nat) (offset count : UInt64) : Method Unit := do
  if offset + count > (← lookup dst .nullPointerException).size then
    throw (.indexOutOfBoundsException "")
  else
    relative count fun index => do
      checkBufferUnderflow index count
      let this ← self
      arraycopy this.mBuffer (this.mOffset + index) dst offset count

def getAll (dst : Nat) : Method Unit := do
  getRange dst 0 (← lookup dst .undefined).size

def putAt (index : UInt64) (value : UInt8) : Method Unit := do
  checkBufferOverflow index 1
  let this ← self
  arraySet this.mBuffer (this.mOffset + index) value

def put (value : UInt8) : Method Unit :=
  moved (putAt · value)

def putCharAt (index : UInt64) (value : UInt8) : Method Unit := do
  checkBufferOverflow index 1
  let this ← self
  arraySet this.mBuffer (this.mOffset + index) value

/-- The overload of `put` is used, other than in `getChar`. -/
def putChar (value : UInt8) : Method Unit :=
  moved (putAt · value)

def putDoubleAt (index : UInt64) (value : BitVec 64) : Method Unit :=
  store 8 index value.toNat

def putDouble (value : BitVec 64) : Method Unit :=
  relative 8 (putDoubleAt · value)

def putFloatAt (index : UInt64) (value : BitVec 32) : Method Unit :=
  store 4 index value.toNat

def putFloat (value : BitVec 32) : Method Unit :=
  relative 4 (putFloatAt · value)

def putIntAt (index : UInt64) (value : BitVec 32) : Method Unit :=
  store 4 index value.toNat

def putInt (value : BitVec 32) : Method Unit :=
  relative 4 (putIntAt · value)

def putLongAt (index : UInt64) (value : BitVec 64) : Method Unit :=
  store 8 index value.toNat

def putLong (value : BitVec 64) : Method Unit :=
  relative 8 (putLongAt · value)

def putShortAt (index : UInt64) (value : BitVec 16) : Method Unit :=
  store 2 index value.toNat

def putShort (value : BitVec 16) : Method Unit :=
  relative 2 (putShortAt · value)

/-- A part of an array is copied to the position. -/
def putRange (src : Nat) (offset size : UInt64) : Method Unit := do
  if offset + size > (← lookup src .nullPointerException).size then
    throw (.indexOutOfBoundsException "")
  else
    relative size fun index => do
      checkBufferOverflow index size
      let this ← self
      arraycopy src offset this.mBuffer (this.mOffset + index) size

def putAll (src : Nat) : Method Unit := do
  putRange src 0 (← lookup src .undefined).size

/-! ## ByteArrayBuffer -/

/-- The constructor of `ByteBuffer`. -/
def new (arrays : List ByteArray) (buffer : Nat) (position limit capacity offset : UInt64) :
    Except Fault Buffer :=
  match arrays[buffer]? with
  | none => .error .undefined
  | some array =>
      if position > limit then
        .error (.indexOutOfBoundsException "position > limit")
      else if limit > capacity then
        .error (.indexOutOfBoundsException "limit > capacity")
      else if capacity > array.size then
        .error (.indexOutOfBoundsException "capacity > buffer size")
      else if offset + limit > array.size then
        .error (.indexOutOfBoundsException "buffer overflow")
      else
        .ok { mBuffer := buffer, mOffset := offset, mPosition := position, mLimit := limit
              mCapacity := capacity }

def compact : Method Unit := do
  let this ← self
  writeBytes this.mBuffer this.mOffset
    (← readBytes this.mBuffer (this.mOffset + this.mPosition) this.remaining)
  setPosition (this.mLimit - this.mPosition)
  setLimit this.mCapacity

def duplicate (arrays : List ByteArray) (this : Buffer) : Except Fault Buffer :=
  new arrays this.mBuffer this.mPosition this.mLimit this.mCapacity this.mOffset

def slice (arrays : List ByteArray) (this : Buffer) : Except Fault Buffer :=
  new arrays this.mBuffer 0 this.remaining this.remaining (this.mPosition + this.mOffset)

def wrapRange (arrays : List ByteArray) (array : Nat) (offset size : UInt64) :
    Except Fault Buffer :=
  new arrays array 0 size size offset

def wrap (arrays : List ByteArray) (array : Nat) : Except Fault Buffer :=
  match arrays[array]? with
  | none => .error .undefined
  | some found => wrapRange arrays array 0 found.size

/-- `new ByteArray`, filled with zeros. -/
def newByteArray (size : UInt64) : Except Fault ByteArray :=
  if bounded : size.toNat < 2 ^ 63 then
    .ok { bytes := List.replicate size.toNat 0, bounded := by rwa [List.length_replicate] }
  else
    .error .lengthError

end Nio

end Mindroid
