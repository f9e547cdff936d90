import Mindroid.Foundation.Bytes
import Mindroid.Foundation.RingBuffer

/-!
# Byte arrays and byte buffers

`ByteArray`, `System::arraycopy` and the relative accessors of a `ByteBuffer` whose
limit is its capacity, as `allocate` and `wrap` create it.  Numbers are stored in
the byte order of the machine, which is little-endian here; writing and reading use
the same one.
-/

set_option autoImplicit false

namespace Mindroid

open Foundation

/-- Exceptions of the array and buffer operations. -/
inductive Thrown where
  | bufferOverflowException
  | bufferUnderflowException
  | indexOutOfBoundsException
  /-- `std::length_error`, from a `std::vector` of more than `PTRDIFF_MAX` bytes. -/
  | lengthError
  /-- The loop of `LogBuffer::writeByteArray` did not end. -/
  | outOfFuel
  deriving DecidableEq, Repr

/-- `new ByteArray(size)`. -/
def newByteArray (size : Nat) : Except Thrown (List UInt8) :=
  if size < 2 ^ 63 then
    .ok (List.replicate size 0)
  else
    .error .lengthError

/-- `System::arraycopy`; returns the new content of `dest`. -/
def arraycopy (src : List UInt8) (srcPos : Nat) (dest : List UInt8) (destPos length : Nat) :
    Except Thrown (List UInt8) :=
  if src.length < srcPos + length ∨ dest.length < destPos + length then
    .error .indexOutOfBoundsException
  else
    .ok (overwrite dest destPos ((src.drop srcPos).take length))

theorem newByteArray_ok {size : Nat} (bounded : size < 2 ^ 63) :
    newByteArray size = .ok (List.replicate size 0) :=
  if_pos bounded

theorem arraycopy_ok (src : List UInt8) (srcPos : Nat) (dest : List UInt8) (destPos length : Nat)
    (inSrc : srcPos + length ≤ src.length) (inDest : destPos + length ≤ dest.length) :
    arraycopy src srcPos dest destPos length =
      .ok (overwrite dest destPos ((src.drop srcPos).take length)) :=
  if_neg (by omega)

/-- Overwriting a whole array. -/
theorem overwrite_all {buffer data : List UInt8} (same : data.length = buffer.length) :
    overwrite buffer 0 data = data := by
  simp [overwrite, same]

/-- Overwriting a whole array in two parts. -/
theorem overwrite_parts {buffer front back : List UInt8}
    (same : front.length + back.length = buffer.length) :
    overwrite (overwrite buffer 0 front) front.length back = front ++ back := by
  have gone : buffer.drop (front.length + back.length) = [] := by
    rw [same, List.drop_length]
  simp [overwrite, gone]

structure ByteBuffer where
  mBuffer : List UInt8
  mPosition : Nat := 0
  deriving DecidableEq

namespace ByteBuffer

def allocate (capacity : Nat) : Except Thrown ByteBuffer :=
  (newByteArray capacity).map fun array => { mBuffer := array }

def wrap (array : List UInt8) : ByteBuffer :=
  { mBuffer := array }

/-- Store bytes at the position and advance it. -/
def store (buffer : ByteBuffer) (data : List UInt8) : Except Thrown ByteBuffer :=
  if buffer.mPosition + data.length > buffer.mBuffer.length then
    .error .bufferOverflowException
  else
    .ok { mBuffer := overwrite buffer.mBuffer buffer.mPosition data
          mPosition := buffer.mPosition + data.length }

/-- Load bytes from the position and advance it. -/
def load (buffer : ByteBuffer) (count : Nat) : Except Thrown (List UInt8 × ByteBuffer) :=
  if buffer.mPosition + count > buffer.mBuffer.length then
    .error .bufferUnderflowException
  else
    .ok ((buffer.mBuffer.drop buffer.mPosition).take count,
      { buffer with mPosition := buffer.mPosition + count })

def putInt (buffer : ByteBuffer) (value : BitVec 32) : Except Thrown ByteBuffer :=
  buffer.store (toBytes 4 value.toNat)

def putLong (buffer : ByteBuffer) (value : BitVec 64) : Except Thrown ByteBuffer :=
  buffer.store (toBytes 8 value.toNat)

def put (buffer : ByteBuffer) (src : List UInt8) : Except Thrown ByteBuffer :=
  buffer.store src

def getInt (buffer : ByteBuffer) : Except Thrown (BitVec 32 × ByteBuffer) :=
  (buffer.load 4).map fun (data, buffer) => (BitVec.ofNat 32 (ofBytes data), buffer)

def getLong (buffer : ByteBuffer) : Except Thrown (BitVec 64 × ByteBuffer) :=
  (buffer.load 8).map fun (data, buffer) => (BitVec.ofNat 64 (ofBytes data), buffer)

/-- Fill the whole of `dst`. -/
def get (buffer : ByteBuffer) (dst : List UInt8) : Except Thrown (List UInt8 × ByteBuffer) :=
  buffer.load dst.length

/-! ## Writing and reading in sequence -/

/-- Everything in front of the position has been written, in this order. -/
structure Wrote (buffer : ByteBuffer) (written : List UInt8) : Prop where
  position : buffer.mPosition = written.length
  front : buffer.mBuffer.take written.length = written

/-- Everything from the position on is still to be read. -/
structure Reads (buffer : ByteBuffer) (rest : List UInt8) : Prop where
  inside : buffer.mPosition ≤ buffer.mBuffer.length
  rest : buffer.mBuffer.drop buffer.mPosition = rest

variable {buffer buffer' : ByteBuffer} {written rest data : List UInt8}

/-- A store that succeeds appends to what was written and fits. -/
theorem Wrote.of_store (wrote : Wrote buffer written) (stored : buffer.store data = .ok buffer') :
    Wrote buffer' (written ++ data) ∧ buffer'.mBuffer.length = buffer.mBuffer.length ∧
      (written ++ data).length ≤ buffer.mBuffer.length := by
  rw [store] at stored
  split at stored
  · cases stored
  · next fits =>
      have within := Nat.not_lt.mp fits
      cases stored
      rw [wrote.position] at within
      refine ⟨⟨?_, ?_⟩, length_overwrite (by rw [wrote.position]; exact within), ?_⟩
      · rw [List.length_append, wrote.position]
      · rw [overwrite, wrote.position, wrote.front, List.take_left']
        rfl
      · rw [List.length_append]
        exact within

theorem Wrote.store (wrote : Wrote buffer written)
    (room : (written ++ data).length ≤ buffer.mBuffer.length) :
    ∃ buffer', buffer.store data = .ok buffer' ∧ Wrote buffer' (written ++ data) ∧
      buffer'.mBuffer.length = buffer.mBuffer.length := by
  rw [List.length_append] at room
  have stored : buffer.store data = .ok
      { mBuffer := overwrite buffer.mBuffer buffer.mPosition data
        mPosition := buffer.mPosition + data.length } := by
    rw [ByteBuffer.store, if_neg]
    rw [wrote.position]
    exact Nat.not_lt.mpr room
  rcases wrote.of_store stored with ⟨wrote', sameLength, _⟩
  exact ⟨_, stored, wrote', sameLength⟩

/-- Store several runs of bytes one after the other. -/
def storeAll (buffer : ByteBuffer) (chunks : List (List UInt8)) : Except Thrown ByteBuffer :=
  chunks.foldlM store buffer

theorem Wrote.storeAll {chunks : List (List UInt8)} (wrote : Wrote buffer written)
    (room : (written ++ chunks.flatten).length ≤ buffer.mBuffer.length) :
    ∃ buffer', buffer.storeAll chunks = .ok buffer' ∧ Wrote buffer' (written ++ chunks.flatten) ∧
      buffer'.mBuffer.length = buffer.mBuffer.length := by
  induction chunks generalizing buffer written with
  | nil => exact ⟨buffer, rfl, by simpa using wrote, rfl⟩
  | cons chunk chunks ih =>
      rw [List.flatten_cons, ← List.append_assoc] at room ⊢
      have first : (written ++ chunk).length ≤ buffer.mBuffer.length := by
        rw [List.length_append] at room
        omega
      rcases wrote.store first with ⟨mid, stored, wrote', sameLength⟩
      rcases ih wrote' (by rw [sameLength]; exact room) with ⟨buffer', rest, wrote'', sameLength'⟩
      refine ⟨buffer', ?_, wrote'', sameLength'.trans sameLength⟩
      rw [ByteBuffer.storeAll, List.foldlM_cons, stored]
      exact rest

/-- What has been stored fits. -/
theorem Wrote.of_storeAll {chunks : List (List UInt8)} (wrote : Wrote buffer written)
    (inside : written.length ≤ buffer.mBuffer.length)
    (stored : buffer.storeAll chunks = .ok buffer') :
    (written ++ chunks.flatten).length ≤ buffer.mBuffer.length := by
  induction chunks generalizing buffer written with
  | nil => simpa using inside
  | cons chunk chunks ih =>
      rw [ByteBuffer.storeAll, List.foldlM_cons] at stored
      cases first : buffer.store chunk with
      | error thrown =>
          rw [first] at stored
          cases stored
      | ok mid =>
          rw [first] at stored
          rcases wrote.of_store first with ⟨wrote', sameLength, fits⟩
          have rest := ih wrote' (by rw [sameLength]; exact fits) stored
          rwa [sameLength, List.append_assoc, ← List.flatten_cons] at rest

/-- A full buffer is what was written. -/
theorem Wrote.eq_of_full (wrote : Wrote buffer written)
    (full : written.length = buffer.mBuffer.length) : buffer.mBuffer = written := by
  have front := wrote.front
  rwa [full, List.take_length] at front

theorem Reads.load (reads : Reads buffer (data ++ rest)) :
    ∃ buffer', buffer.load data.length = .ok (data, buffer') ∧ Reads buffer' rest := by
  have length := congrArg List.length reads.rest
  rw [List.length_drop, List.length_append] at length
  have inside := reads.inside
  refine ⟨{ buffer with mPosition := buffer.mPosition + data.length }, ?_, ⟨?_, ?_⟩⟩
  · rw [ByteBuffer.load, reads.rest, List.take_left, if_neg (by omega)]
  · simp only
    omega
  · rw [← List.drop_drop, reads.rest, List.drop_left]

theorem Reads.getInt {value : BitVec 32} (reads : Reads buffer (toBytes 4 value.toNat ++ rest)) :
    ∃ buffer', buffer.getInt = .ok (value, buffer') ∧ Reads buffer' rest := by
  rcases reads.load with ⟨buffer', loaded, reads'⟩
  refine ⟨buffer', ?_, reads'⟩
  rw [length_toBytes] at loaded
  have same : BitVec.ofNat _ (ofBytes (toBytes 4 value.toNat)) = value := by
    rw [ofBytes_toBytes_of_lt value.isLt, BitVec.ofNat_toNat, BitVec.setWidth_eq]
  simp only [ByteBuffer.getInt, loaded, Except.map, same]

theorem Reads.getLong {value : BitVec 64} (reads : Reads buffer (toBytes 8 value.toNat ++ rest)) :
    ∃ buffer', buffer.getLong = .ok (value, buffer') ∧ Reads buffer' rest := by
  rcases reads.load with ⟨buffer', loaded, reads'⟩
  refine ⟨buffer', ?_, reads'⟩
  rw [length_toBytes] at loaded
  have same : BitVec.ofNat _ (ofBytes (toBytes 8 value.toNat)) = value := by
    rw [ofBytes_toBytes_of_lt value.isLt, BitVec.ofNat_toNat, BitVec.setWidth_eq]
  simp only [ByteBuffer.getLong, loaded, Except.map, same]

theorem Reads.get (reads : Reads buffer (data ++ rest)) :
    ∃ buffer', buffer.get (List.replicate data.length 0) = .ok (data, buffer') ∧
      Reads buffer' rest := by
  rw [ByteBuffer.get, List.length_replicate]
  exact reads.load

end ByteBuffer

end Mindroid
