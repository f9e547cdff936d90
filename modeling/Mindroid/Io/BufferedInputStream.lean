import Mindroid.Io.InputStream

/-!
# Buffered input streams

`BufferedInputStream` without its unsynchronized `close()` calls: nobody closes the stream
while another thread is in one of its functions.
-/

set_option autoImplicit false

namespace Mindroid

open Foundation

/-- The fields of the stream.  `mMarkPosition` is `none` where the source has -1. -/
structure BufferedInputStream (σ : Type) where
  mInputStream : Option σ
  mBuffer : Option (List UInt8)
  mCount : Nat
  mMarkLimit : Nat
  mMarkPosition : Option Nat
  mPosition : Nat

/-- The result of a function that returns a number and may change the caller's buffer. -/
structure Filled (σ : Type) where
  result : Int
  buffer : List UInt8
  stream : BufferedInputStream σ

/-- The local variables of the loop in `read`. -/
structure Copying (σ : Type) where
  stream : BufferedInputStream σ
  buffer : List UInt8
  offset : Nat
  requiredStreamCount : Nat

namespace BufferedInputStream

variable {σ : Type} (source : InputStream σ) (memcpy : Memcpy)

/-- `new BufferedInputStream(inputStream, size)`. -/
def new (inputStream : σ) (size : Nat) : Except StreamThrown (BufferedInputStream σ) :=
  if size = 0 then
    .error (.illegalArgumentException "size = 0")
  else do
    let buffer ← (newByteArray size).mapError StreamThrown.array
    pure
      { mInputStream := some inputStream
        mBuffer := some buffer
        mCount := 0
        mMarkLimit := 0
        mMarkPosition := none
        mPosition := 0 }

/-- `failWithIoException()`. -/
def closed : StreamThrown := .ioException "BufferedInputStream is closed"

def mark (stream : BufferedInputStream σ) (limit : Nat) : BufferedInputStream σ :=
  { stream with mMarkLimit := limit, mMarkPosition := some stream.mPosition }

def reset (stream : BufferedInputStream σ) : Except StreamThrown (BufferedInputStream σ) :=
  match stream.mBuffer, stream.mMarkPosition with
  | none, _ => .error (.ioException "Stream is closed")
  | some _, none => .error (.ioException "Mark has been invalidated.")
  | some _, some mark => .ok { stream with mPosition := mark }

/-- The mark position that `fillBuffer` keeps, if the mark is set and its limit has not
been exceeded. -/
def keptMark (stream : BufferedInputStream σ) : Option Nat :=
  match stream.mMarkPosition with
  | none => none
  | some mark => if stream.mPosition - mark ≥ stream.mMarkLimit then none else some mark

/-- Move the marked region to the start of a buffer that may be larger. -/
def keepMarked (stream : BufferedInputStream σ) (buffer : List UInt8) (mark : Nat) :
    Except Thrown (List UInt8) :=
  if mark = 0 ∧ stream.mMarkLimit > buffer.length then do
    let newBuffer ← newByteArray (min (buffer.length * 2) stream.mMarkLimit)
    arraycopy buffer 0 newBuffer 0 buffer.length
  else if mark > 0 then
    arraycopyWithin memcpy buffer mark 0 (buffer.length - mark)
  else
    .ok buffer

/-- The number of bytes read, or -1. -/
def fillBuffer (stream : BufferedInputStream σ) (inputStream : σ) (buffer : List UInt8) :
    Except Thrown (Int × BufferedInputStream σ) :=
  match stream.keptMark with
  | none =>
      match source.read inputStream buffer.length with
      | (none, inputStream) => .ok (-1, { stream with mInputStream := some inputStream })
      | (some data, inputStream) =>
          if data.length > 0 then
            .ok (data.length,
              { stream with
                mInputStream := some inputStream
                mBuffer := some (overwrite buffer 0 data)
                mMarkPosition := none
                mPosition := 0
                mCount := data.length })
          else
            .ok (0, { stream with mInputStream := some inputStream })
  | some mark => do
      let buffer ← stream.keepMarked memcpy buffer mark
      let position := stream.mPosition - mark
      let (data, inputStream) := source.read inputStream (buffer.length - position)
      -- `int size`
      let size := (BitVec.ofInt 32 (data.elim (-1) fun data => (data.length : Int))).toInt
      pure (size,
        { stream with
          mInputStream := some inputStream
          mBuffer := some (data.elim buffer fun data => overwrite buffer position data)
          mPosition := position
          mMarkPosition := some 0
          mCount := if size ≤ 0 then position else position + size.toNat })

/-- The next byte of the buffer, if there is one. -/
def readBuffered (stream : BufferedInputStream σ) (buffer : List UInt8) :
    Except StreamThrown (Int × BufferedInputStream σ) :=
  if stream.mCount - stream.mPosition > 0 then
    match buffer[stream.mPosition]? with
    | none => .error (.array .indexOutOfBoundsException)
    | some byte => .ok (byte.toNat, { stream with mPosition := stream.mPosition + 1 })
  else
    .ok (-1, stream)

def read (stream : BufferedInputStream σ) : Except StreamThrown (Int × BufferedInputStream σ) :=
  match stream.mBuffer, stream.mInputStream with
  | some buffer, some inputStream => do
      if stream.mPosition ≥ stream.mCount then
        let (result, stream) ←
          (fillBuffer source memcpy stream inputStream buffer).mapError StreamThrown.array
        if result = -1 then
          return (-1, stream)
        match stream.mBuffer with
        | none => throw closed
        | some buffer => stream.readBuffered buffer
      else
        stream.readBuffered buffer
  | _, _ => .error closed

/-- Copy buffered bytes into the caller's buffer. -/
def copyOut (stream : BufferedInputStream σ) (localBuffer buffer : List UInt8)
    (offset size : Nat) : Except StreamThrown (List UInt8 × BufferedInputStream σ) := do
  let buffer ←
    (arraycopy localBuffer stream.mPosition buffer offset size).mapError StreamThrown.array
  pure (buffer, { stream with mPosition := stream.mPosition + size })

/-- The part of `read` before its loop. -/
def startCopying (stream : BufferedInputStream σ) (buffer : List UInt8) (offset count : Nat) :
    Except StreamThrown (Filled σ ⊕ Copying σ) :=
  match stream.mBuffer with
  | none => .error closed
  | some localBuffer =>
      if offset > buffer.length ∨ buffer.length - offset < count then
        .error (.array .indexOutOfBoundsException)
      else if count = 0 then
        .ok (.inl ⟨0, buffer, stream⟩)
      else
        match stream.mInputStream with
        | none => .error closed
        | some inputStream =>
            if stream.mPosition < stream.mCount then do
              let size :=
                if stream.mCount - stream.mPosition ≥ count then count
                else stream.mCount - stream.mPosition
              let (buffer, stream) ← stream.copyOut localBuffer buffer offset size
              if size = count ∨ source.available inputStream = 0 then
                return .inl ⟨size, buffer, stream⟩
              return .inr ⟨stream, buffer, offset + size, count - size⟩
            else
              .ok (.inr ⟨stream, buffer, offset, count⟩)

/-- The rest of an iteration, after `size` bytes have been delivered. -/
def copied (count : Nat) (copying : Copying σ) (size : Nat) (buffer : List UInt8)
    (stream : BufferedInputStream σ) : Filled σ ⊕ Copying σ :=
  let required := copying.requiredStreamCount - size
  if required = 0 then
    .inl ⟨count, buffer, stream⟩
  else if stream.mInputStream.elim 0 source.available = 0 then
    .inl ⟨((count - required : Nat) : Int), buffer, stream⟩
  else
    .inr ⟨stream, buffer, copying.offset + size, required⟩

/-- What `read` returns at the end of the underlying stream. -/
def ended (count : Nat) (copying : Copying σ) (stream : BufferedInputStream σ) : Filled σ :=
  if copying.requiredStreamCount = count then
    ⟨-1, copying.buffer, stream⟩
  else
    ⟨((count - copying.requiredStreamCount : Nat) : Int), copying.buffer, stream⟩

/-- One iteration of the loop in `read`. -/
def copyNext (count : Nat) (copying : Copying σ) :
    Except StreamThrown (Filled σ ⊕ Copying σ) :=
  let stream := copying.stream
  match stream.mBuffer, stream.mInputStream with
  | some localBuffer, some inputStream =>
      let required := copying.requiredStreamCount
      if stream.mMarkPosition = none ∧ required ≥ localBuffer.length then
        match source.read inputStream required with
        | (none, inputStream) =>
            .ok (.inl (ended count copying { stream with mInputStream := some inputStream }))
        | (some data, inputStream) =>
            .ok (copied source count copying data.length
              (overwrite copying.buffer copying.offset data)
              { stream with mInputStream := some inputStream })
      else do
        let (result, stream) ←
          (fillBuffer source memcpy stream inputStream localBuffer).mapError StreamThrown.array
        if result = -1 then
          return .inl (ended count copying stream)
        match stream.mBuffer with
        | none => throw closed
        | some localBuffer =>
            let size :=
              if stream.mCount - stream.mPosition ≥ required then required
              else stream.mCount - stream.mPosition
            let (buffer, stream) ←
              stream.copyOut localBuffer copying.buffer copying.offset size
            return copied source count copying size buffer stream
  | _, _ => .error closed

/-- `read(buffer, offset, count)`. -/
def readBytes (fuel : Nat) (stream : BufferedInputStream σ) (buffer : List UInt8)
    (offset count : Nat) : Except StreamThrown (Filled σ) := do
  match ← startCopying source stream buffer offset count with
  | .inl filled => return filled
  | .inr copying => loop (copyNext source memcpy count) (.array .outOfFuel) fuel copying

def skip (stream : BufferedInputStream σ) (count : Nat) :
    Except StreamThrown (Nat × BufferedInputStream σ) :=
  match stream.mBuffer with
  | none => .error closed
  | some localBuffer =>
      if count < 1 then
        .ok (0, stream)
      else
        match stream.mInputStream with
        | none => .error closed
        | some inputStream =>
            if stream.mCount - stream.mPosition ≥ count then
              .ok (count, { stream with mPosition := stream.mPosition + count })
            else
              let size := stream.mCount - stream.mPosition
              let stream := { stream with mPosition := stream.mCount }
              if stream.mMarkPosition ≠ none ∧ count ≤ stream.mMarkLimit then do
                let (result, stream) ←
                  (fillBuffer source memcpy stream inputStream localBuffer).mapError
                    StreamThrown.array
                if result = -1 then
                  return (size, stream)
                if stream.mCount - stream.mPosition ≥ count - size then
                  return (count, { stream with mPosition := stream.mPosition + (count - size) })
                return (size + (stream.mCount - stream.mPosition),
                  { stream with mPosition := stream.mCount })
              else
                let (skipped, inputStream) := source.skip inputStream (count - size)
                .ok (size + skipped, { stream with mInputStream := some inputStream })

end BufferedInputStream

end Mindroid
