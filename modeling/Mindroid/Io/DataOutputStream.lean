import Mindroid.Foundation.Decoding
import Mindroid.Io.BufferedOutputStream

/-!
# Data output streams

Numbers are written highest byte first.
-/

set_option autoImplicit false

namespace Mindroid

open Foundation

/-- `flush()` of a stream that does not buffer. -/
def OutputStream.flush (sink : OutputStream) : OutputStream := sink

structure DataOutputStream where
  mOutputStream : OutputStream
  mScratchpad : List UInt8
  deriving DecidableEq

namespace DataOutputStream

/-- A function that writes to the stream. -/
abbrev Action := StateT DataOutputStream (Except StreamThrown) Unit

def new (outputStream : OutputStream) : DataOutputStream :=
  { mOutputStream := outputStream, mScratchpad := List.replicate 8 0 }

def flush : Action := fun stream =>
  .ok ((), { stream with mOutputStream := stream.mOutputStream.flush })

def write (buffer : List UInt8) (offset count : Nat) : Action := fun stream => do
  let sink ← stream.mOutputStream.write buffer offset count
  pure ((), { stream with mOutputStream := sink })

/-- Store bytes at the start of the scratchpad and write them. -/
def writeScratchpad (data : List UInt8) : Action := fun stream =>
  let scratchpad := overwrite stream.mScratchpad 0 data
  write scratchpad 0 data.length { stream with mScratchpad := scratchpad }

/-- `(uint8_t) ((value >> shift) & 0xff)`. -/
def byteOf {width : Nat} (value : BitVec width) (shift : Nat) : UInt8 :=
  ⟨((value.sshiftRight shift).setWidth 8) &&& 0xff⟩

/-- The bytes that `writeShort` stores in the scratchpad. -/
def shortBytes (value : Int16) : List UInt8 :=
  [byteOf value.toBitVec 8, byteOf value.toBitVec 0]

/-- The bytes that `writeInt` stores in the scratchpad. -/
def intBytes (value : Int32) : List UInt8 :=
  [byteOf value.toBitVec 24, byteOf value.toBitVec 16, byteOf value.toBitVec 8,
    byteOf value.toBitVec 0]

/-- The bytes that `writeLong` stores in the scratchpad. -/
def longBytes (value : Int64) : List UInt8 :=
  [byteOf value.toBitVec 56, byteOf value.toBitVec 48, byteOf value.toBitVec 40,
    byteOf value.toBitVec 32, byteOf value.toBitVec 24, byteOf value.toBitVec 16,
    byteOf value.toBitVec 8, byteOf value.toBitVec 0]

/-- `mOutputStream->write(b)`. -/
def writeOne (b : UInt8) : Action := fun stream =>
  let sink := { stream.mOutputStream with bytes := stream.mOutputStream.bytes ++ [b] }
  .ok ((), { stream with mOutputStream := sink })

def writeBoolean (value : Bool) : Action := writeOne (if value then 1 else 0)

def writeByte (value : UInt8) : Action := writeOne value

def writeChar (value : Int8) : Action := writeByte value.toUInt8

def writeShort (value : Int16) : Action := writeScratchpad (shortBytes value)

def writeInt (value : Int32) : Action := writeScratchpad (intBytes value)

def writeLong (value : Int64) : Action := writeScratchpad (longBytes value)

/-- An empty string is not written at all. -/
def writeUTF (string : List UInt8) : Action :=
  if string.length = 0 then
    pure ()
  else do
    writeShort (Int16.ofNat string.length)
    write string 0 string.length

/-! ## What is written -/

/-- The bytes that the stream below has been given. -/
def port : Port DataOutputStream UInt8 where
  valid stream := stream.mScratchpad.length = 8
  content stream := stream.mOutputStream.bytes

theorem new_valid (outputStream : OutputStream) : port.valid (new outputStream) :=
  List.length_replicate

@[simp] theorem length_shortBytes (value : Int16) : (shortBytes value).length = 2 := rfl

@[simp] theorem length_intBytes (value : Int32) : (intBytes value).length = 4 := rfl

@[simp] theorem length_longBytes (value : Int64) : (longBytes value).length = 8 := rfl

theorem flush_encodes : Encodes port flush [] where
  writes := by
    intro stream valid
    exact ⟨_, rfl, valid, (List.append_nil _).symm⟩

theorem write_encodes {buffer : List UInt8} {offset count : Nat}
    (inside : offset + count ≤ buffer.length) :
    Encodes port (write buffer offset count) ((buffer.drop offset).take count) where
  writes := by
    intro stream valid
    let sink : OutputStream :=
      { stream.mOutputStream with
        bytes := stream.mOutputStream.bytes ++ (buffer.drop offset).take count }
    have accepted : stream.mOutputStream.write buffer offset count = .ok sink :=
      if_neg (Nat.not_lt.mpr inside)
    refine ⟨{ stream with mOutputStream := sink }, ?_, valid, rfl⟩
    rw [write, accepted]
    rfl

theorem write_all_encodes (buffer : List UInt8) :
    Encodes port (write buffer 0 buffer.length) buffer := by
  have all : Encodes port (write buffer 0 buffer.length) ((buffer.drop 0).take buffer.length) :=
    write_encodes (Nat.le_of_eq (Nat.zero_add _))
  rw [List.drop_zero, List.take_length] at all
  exact all

theorem writeScratchpad_encodes {data : List UInt8} (fits : data.length ≤ 8) :
    Encodes port (writeScratchpad data) data where
  writes := by
    intro stream valid
    have size : (overwrite stream.mScratchpad 0 data).length = 8 := by
      rw [length_overwrite (by rw [Nat.zero_add, valid]; exact fits)]
      exact valid
    have front : (overwrite stream.mScratchpad 0 data).take data.length = data := by
      have copied : (overwrite stream.mScratchpad 0 data).take (0 + data.length) =
          stream.mScratchpad.take 0 ++ data :=
        take_overwrite (Nat.zero_le _)
      rw [Nat.zero_add, List.take_zero, List.nil_append] at copied
      exact copied
    have written :
        Encodes port (write (overwrite stream.mScratchpad 0 data) 0 data.length) data := by
      have bytes : Encodes port (write (overwrite stream.mScratchpad 0 data) 0 data.length)
          (((overwrite stream.mScratchpad 0 data).drop 0).take data.length) :=
        write_encodes (by rw [Nat.zero_add, size]; exact fits)
      rw [List.drop_zero, front] at bytes
      exact bytes
    have stored : port.valid
        { stream with mScratchpad := overwrite stream.mScratchpad 0 data } := size
    exact written.writes stored

theorem writeShort_encodes (value : Int16) : Encodes port (writeShort value) (shortBytes value) :=
  writeScratchpad_encodes (by rw [length_shortBytes]; decide)

theorem writeInt_encodes (value : Int32) : Encodes port (writeInt value) (intBytes value) :=
  writeScratchpad_encodes (by rw [length_intBytes]; decide)

theorem writeLong_encodes (value : Int64) : Encodes port (writeLong value) (longBytes value) :=
  writeScratchpad_encodes (by rw [length_longBytes])

theorem writeOne_encodes (b : UInt8) : Encodes port (writeOne b) [b] where
  writes := by
    intro stream valid
    exact ⟨_, rfl, valid, rfl⟩

theorem writeUTF_nil : writeUTF [] = pure () :=
  if_pos rfl

/-- A string is written as its length and its bytes. -/
theorem writeUTF_encodes {string : List UInt8} (written : string ≠ []) :
    Encodes port (writeUTF string) (shortBytes (Int16.ofNat string.length) ++ string) := by
  rw [writeUTF, if_neg (mt List.length_eq_zero_iff.mp written)]
  exact (writeShort_encodes _).andThen (write_all_encodes string)

end DataOutputStream

end Mindroid
