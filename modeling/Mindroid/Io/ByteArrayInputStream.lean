import Mindroid.Io.DataInputStream

/-!
# Byte array input streams

A stream over a part of an array.
-/

set_option autoImplicit false

namespace Mindroid

/-- The stream never counts bytes that are not in its array. -/
structure ByteArrayInputStream where
  mBuffer : List UInt8
  mPosition : Nat
  mCount : Nat
  inside : mCount ≤ mBuffer.length

namespace ByteArrayInputStream

/-- `new ByteArrayInputStream(buffer, offset, count)`. -/
def new (buffer : List UInt8) (offset count : Nat) : ByteArrayInputStream where
  mBuffer := buffer
  mPosition := offset
  mCount := if offset + count > buffer.length then buffer.length else offset + count
  inside := by
    split
    · exact Nat.le_refl _
    · next fits => exact Nat.le_of_not_gt fits

def available (stream : ByteArrayInputStream) : Nat :=
  stream.mCount - stream.mPosition

/-- `read(buffer, 0, count)`; the bytes that it copies into the buffer. -/
def read (stream : ByteArrayInputStream) (count : Nat) :
    Option (List UInt8) × ByteArrayInputStream :=
  if stream.mPosition ≥ stream.mCount then
    (none, stream)
  else if count = 0 then
    (some [], stream)
  else
    let count :=
      if stream.mCount - stream.mPosition < count then stream.mCount - stream.mPosition else count
    (some ((stream.mBuffer.drop stream.mPosition).take count),
      { stream with mPosition := stream.mPosition + count })

def skip (stream : ByteArrayInputStream) (count : Nat) : Nat × ByteArrayInputStream :=
  if count = 0 then
    (0, stream)
  else
    let position :=
      if stream.mCount - stream.mPosition < count then stream.mCount else stream.mPosition + count
    (position - stream.mPosition, { stream with mPosition := position })

/-- The functions that a `DataInputStream` calls. -/
def source : InputStream ByteArrayInputStream where
  read := read
  available := available
  skip := skip

/-- The bytes that the stream has not delivered. -/
def content (stream : ByteArrayInputStream) : List UInt8 :=
  (stream.mBuffer.take stream.mCount).drop stream.mPosition

theorem content_new (buffer : List UInt8) : (new buffer 0 buffer.length).content = buffer := by
  have all : (new buffer 0 buffer.length).mCount = buffer.length := by
    simp [new]
  rw [content, all]
  exact List.take_length

theorem length_content (stream : ByteArrayInputStream) :
    stream.content.length = stream.available := by
  rw [content, available, List.length_drop, List.length_take, Nat.min_eq_left stream.inside]

/-- A read delivers as many bytes as it is asked for, or all there are. -/
theorem read_eq (stream : ByteArrayInputStream) {count : Nat}
    (left : stream.mPosition < stream.mCount) (asks : 0 < count) :
    ∃ after, stream.read count = (some (stream.content.take count), after) ∧
      after.content = stream.content.drop count := by
  have fewer : ∀ size, size ≤ stream.mCount - stream.mPosition →
      (stream.mBuffer.drop stream.mPosition).take size = stream.content.take size := by
    intro size within
    rw [content, List.drop_take, List.take_take, Nat.min_eq_left within]
  have length := stream.length_content
  rw [read, if_neg (Nat.not_le_of_lt left), if_neg (Nat.ne_of_gt asks)]
  by_cases few : stream.mCount - stream.mPosition < count
  · rw [if_pos few]
    dsimp only
    rw [fewer _ (Nat.le_refl _)]
    rw [available] at length
    have all : stream.content.take (stream.mCount - stream.mPosition) =
        stream.content.take count := by
      rw [← length, List.take_length, List.take_of_length_le]
      rw [length]
      exact Nat.le_of_lt few
    have none : stream.content.drop count = [] := by
      apply List.drop_of_length_le
      rw [length]
      exact Nat.le_of_lt few
    rw [all, none]
    refine ⟨_, rfl, List.drop_of_length_le ?_⟩
    rw [List.length_take, Nat.add_sub_cancel' (Nat.le_of_lt left)]
    exact Nat.min_le_left _ _
  · rw [if_neg few]
    dsimp only
    rw [fewer _ (Nat.le_of_not_lt few)]
    exact ⟨_, rfl, by rw [content, content, List.drop_drop]⟩

/-- A read of no bytes delivers none. -/
theorem read_zero (stream : ByteArrayInputStream) :
    ∃ delivered, stream.read 0 = (delivered, stream) ∧ delivered.getD [] = [] := by
  rw [read]
  split
  · exact ⟨none, rfl, rfl⟩
  · exact ⟨some [], rfl, rfl⟩

theorem delivers : source.Delivers content where
  read_end := by
    intro stream after count reads
    change stream.read count = _ at reads
    rw [read] at reads
    split at reads
    · next atEnd =>
        apply List.drop_of_length_le
        rw [List.length_take, Nat.min_eq_left stream.inside]
        exact atEnd
    · split at reads <;> cases reads
  read_some := by
    intro stream after count data reads asks
    change stream.read count = _ at reads
    by_cases left : stream.mPosition < stream.mCount
    · rcases stream.read_eq left asks with ⟨after', delivered, remains⟩
      rw [reads] at delivered
      cases delivered
      refine ⟨?_, List.length_take_le _ _, ?_⟩
      · have length := stream.length_content
        rw [available] at length
        rw [ne_eq, List.take_eq_nil_iff, ← List.length_eq_zero_iff, length]
        omega
      · rw [remains, List.take_append_drop]
    · rw [read, if_pos (Nat.le_of_not_lt left)] at reads
      cases reads

end ByteArrayInputStream

end Mindroid
