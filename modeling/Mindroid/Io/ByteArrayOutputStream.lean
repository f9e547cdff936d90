import Mindroid.Lang.Arrays

/-!
# Byte array output streams

A stream writes to an array that grows.  The array may be one that is passed to the constructor,
and it may be passed to `write` then.
-/

set_option autoImplicit false

namespace Mindroid

open Foundation
open Foundation.Throwing
open Method
open Nio (Fault)

/-- The array is one of those of the program. -/
structure ByteArrayOutputStream where
  mBuffer : Nat
  mCount : UInt64

namespace ByteArrayOutputStream

def setCount (count : UInt64) : Method ByteArrayOutputStream Unit :=
  modify fun st => { st with this := { st.this with mCount := count } }

def setBuffer (buffer : Nat) : Method ByteArrayOutputStream Unit :=
  modify fun st => { st with this := { st.this with mBuffer := buffer } }

section Allocation

variable (allocates : UInt64 → Bool)

def expand (i : UInt64) : Method ByteArrayOutputStream Unit := do
  let this ← self
  if this.mCount + i ≤ (← lookup this.mBuffer .undefined).size then
    return
  else
    let buffer ← Method.newByteArray allocates ((this.mCount + i) * 2)
    Method.arraycopy this.mBuffer 0 buffer 0 this.mCount
    setBuffer buffer

/-- `write(buffer, offset, count)`. -/
def writeRange (buffer : Nat) (offset count : UInt64) : Method ByteArrayOutputStream Unit := do
  if offset + count > (← lookup buffer .nullPointerException).size then
    throw (.indexOutOfBoundsException "")
  else if count = 0 then
    return
  else
    expand allocates count
    let this ← self
    Method.arraycopy buffer offset this.mBuffer this.mCount count
    setCount (this.mCount + count)

/-- The part of `write(b)` that makes room. -/
def makeRoom : Method ByteArrayOutputStream Unit := do
  let this ← self
  if this.mCount = (← lookup this.mBuffer .undefined).size then
    expand allocates 1
  else
    return

/-- `write(b)`. -/
def write (b : BitVec 32) : Method ByteArrayOutputStream Unit := do
  makeRoom allocates
  let this ← self
  setCount (this.mCount + 1)
  arraySet this.mBuffer this.mCount (UInt8.ofNat b.toNat)

def reset : Method ByteArrayOutputStream Unit :=
  setCount 0

def size (st : Memory ByteArrayOutputStream) : UInt64 :=
  st.this.mCount

def toByteArray (st : Memory ByteArrayOutputStream) : Except Fault (List UInt8) :=
  match st.arrays[st.this.mBuffer]? with
  | none => .error .undefined
  | some found =>
      if st.this.mCount.toNat ≤ found.bytes.length then
        .ok (found.bytes.take st.this.mCount.toNat)
      else
        .error .undefined

/-- `new ByteArrayOutputStream(size)`. -/
def new (arrays : List Nio.ByteArray) (size : UInt64) :
    Except Fault (Memory ByteArrayOutputStream) :=
  if bounded : size.toNat < 2 ^ 63 then
    if allocates size then
      .ok { arrays := arrays ++ [zeros size bounded]
            this := { mBuffer := arrays.length, mCount := 0 } }
    else
      .error .lengthError
  else
    .error .lengthError

/-- `new ByteArrayOutputStream()`. -/
def newDefault (arrays : List Nio.ByteArray) : Except Fault (Memory ByteArrayOutputStream) :=
  new allocates arrays 64

/-- `new ByteArrayOutputStream(buffer)`. -/
def wrap (arrays : List Nio.ByteArray) (buffer : Nat) :
    Except Fault (Memory ByteArrayOutputStream) :=
  match arrays[buffer]? with
  | none => .error .undefined
  | some found => .ok { arrays := arrays, this := { mBuffer := buffer, mCount := found.size } }

end Allocation

/-! ## Sessions -/

/-- A call of a method that writes. -/
inductive Call where
  | write (b : BitVec 32)
  | writeRange (buffer : Nat) (offset count : UInt64)
  | reset
  deriving DecidableEq

/-- A stream in use, with the bytes that have been written since the last reset. -/
structure Session where
  memory : Memory ByteArrayOutputStream
  written : List UInt8

def Call.method (allocates : UInt64 → Bool) : Call → Method ByteArrayOutputStream Unit
  | .write b => ByteArrayOutputStream.write allocates b
  | .writeRange buffer offset count =>
      ByteArrayOutputStream.writeRange allocates buffer offset count
  | .reset => ByteArrayOutputStream.reset

/-- The bytes that are written since the last reset when the call returns. -/
def Call.written (before : Session) : Call → List UInt8
  | .write b => before.written ++ [UInt8.ofNat b.toNat]
  | .writeRange buffer offset count =>
      before.written ++ before.memory.range buffer offset.toNat count.toNat
  | .reset => []

/-- The end of the range and the size that the stream would have are below 2^63. -/
def Call.Bounded (before : Session) : Call → Prop
  | .write _ => before.written.length + 1 < 2 ^ 63
  | .writeRange _ offset count =>
      offset.toNat + count.toNat < 2 ^ 63 ∧ before.written.length + count.toNat < 2 ^ 63
  | .reset => True

instance (before : Session) (call : Call) : Decidable (call.Bounded before) := by
  cases call
  · exact inferInstanceAs (Decidable (_ < _))
  · exact inferInstanceAs (Decidable (_ ∧ _))
  · exact inferInstanceAs (Decidable True)

/-- How a call ends, and what is in memory then, if allocations go as given. -/
def Session.calls (before : Session) (call : Call × (UInt64 → Bool)) :
    Except Fault Unit × Memory ByteArrayOutputStream :=
  outcome (call.1.method call.2) before.memory

def Session.after (before : Session) (call : Call × (UInt64 → Bool)) : Session :=
  match before.calls call with
  | (.ok _, memory) => { memory := memory, written := call.1.written before }
  | (.error _, memory) => { memory := memory, written := before.written }

/-- The session after a call within the bounds. -/
def Session.step (before : Session) (call : Call × (UInt64 → Bool)) : Option Session :=
  if call.1.Bounded before then some (before.after call) else none

/-- The stream gives exactly what has been written. -/
structure Session.Exact (session : Session) : Prop where
  size : (size session.memory).toNat = session.written.length
  toByteArray : toByteArray session.memory = .ok session.written

/-- The call copies within the bounds of arrays, changes nothing when it throws, and the stream
gives what has been written. -/
structure Appends (before : Session) (call : Call × (UInt64 → Bool)) (after : Session) :
    Prop where
  inRange : (before.calls call).1 ≠ .error .undefined
  unchanged : ∀ thrown, (before.calls call).1 = .error thrown → after.memory = before.memory
  exact : after.Exact

/-- A range of the array of the stream itself is not copied onto a part of itself. -/
def ApartFromItself (before : Session) : Call × (UInt64 → Bool) → Prop
  | (.writeRange buffer offset count, _) =>
      ∀ found, before.memory.arrays[buffer]? = some found → buffer = before.memory.this.mBuffer →
        offset.toNat + count.toNat ≤ found.bytes.length →
          before.written.length + count.toNat ≤ found.bytes.length →
            before.written.length + count.toNat ≤ offset.toNat ∨
              offset.toNat + count.toNat ≤ before.written.length
  | _ => True

inductive Construction where
  | default
  | sized (size : UInt64)
  | wrapped (buffer : Nat)

/-- The constructors. -/
def construct (allocates : UInt64 → Bool) (arrays : List Nio.ByteArray) :
    Construction → Except Fault (Memory ByteArrayOutputStream)
  | .default => newDefault allocates arrays
  | .sized size => new allocates arrays size
  | .wrapped buffer => wrap arrays buffer

/-- What a new stream contains. -/
def Construction.content (arrays : List Nio.ByteArray) : Construction → List UInt8
  | .wrapped buffer =>
      match arrays[buffer]? with
      | some found => found.bytes
      | none => []
  | _ => []

end ByteArrayOutputStream

end Mindroid
