import Mathlib.Data.List.Basic

/-!
# Ring buffers

A buffer of fixed length holds a content from some start index on, wrapping at its
end.  Reading and writing a run of elements takes one copy, or two when the run
reaches the end of the buffer.
-/

set_option autoImplicit false

namespace Foundation

variable {α : Type}

/-- Replace the elements from `pos` on. -/
def overwrite (buffer : List α) (pos : Nat) (data : List α) : List α :=
  buffer.take pos ++ data ++ buffer.drop (pos + data.length)

theorem length_overwrite {buffer data : List α} {pos : Nat}
    (fits : pos + data.length ≤ buffer.length) :
    (overwrite buffer pos data).length = buffer.length := by
  simp only [overwrite, List.length_append, List.length_take, List.length_drop]
  omega

theorem getElem?_overwrite {buffer data : List α} {pos : Nat}
    (fits : pos + data.length ≤ buffer.length) (i : Nat) :
    (overwrite buffer pos data)[i]? =
      if i < pos ∨ pos + data.length ≤ i then buffer[i]? else data[i - pos]? := by
  rw [overwrite]
  by_cases before : i < pos
  · rw [if_pos (.inl before), List.append_assoc, List.getElem?_append_left, List.getElem?_take,
      if_pos before]
    rw [List.length_take]
    omega
  · by_cases behind : pos + data.length ≤ i
    · rw [if_pos (.inr behind), List.getElem?_append_right, List.getElem?_drop]
      · congr 1
        simp only [List.length_append, List.length_take]
        omega
      · simp only [List.length_append, List.length_take]
        omega
    · rw [if_neg (by omega), List.getElem?_append_left, List.getElem?_append_right]
      · congr 1
        rw [List.length_take]
        omega
      · rw [List.length_take]
        omega
      · simp only [List.length_append, List.length_take]
        omega

theorem overwrite_nil (buffer : List α) (pos : Nat) : overwrite buffer pos [] = buffer := by
  rw [overwrite, List.append_nil, List.length_nil, Nat.add_zero, List.take_append_drop]

theorem take_overwrite {buffer data : List α} {pos : Nat} (inside : pos ≤ buffer.length) :
    (overwrite buffer pos data).take (pos + data.length) = buffer.take pos ++ data := by
  rw [overwrite, List.take_append_of_le_length]
  · apply List.take_of_length_le
    rw [List.length_append, List.length_take]
    omega
  · rw [List.length_append, List.length_take]
    omega

theorem drop_overwrite {buffer data : List α} {pos : Nat} (inside : pos ≤ buffer.length) :
    (overwrite buffer pos data).drop (pos + data.length) = buffer.drop (pos + data.length) := by
  rw [overwrite]
  apply List.drop_left'
  rw [List.length_append, List.length_take, Nat.min_eq_left inside]

/-- Elements that are stored one after another. -/
theorem overwrite_append {buffer front back : List α} {pos : Nat}
    (fits : pos + front.length + back.length ≤ buffer.length) :
    overwrite (overwrite buffer pos front) (pos + front.length) back =
      overwrite buffer pos (front ++ back) := by
  have inside : pos ≤ buffer.length := by omega
  rw [overwrite, take_overwrite inside, ← List.drop_drop, drop_overwrite inside, List.drop_drop,
    overwrite, List.length_append, List.append_assoc (buffer.take pos), Nat.add_assoc]

namespace RingBuffer

/-- The content stands in the buffer from `start` on. -/
structure Holds (buffer : List α) (start : Nat) (content : List α) : Prop where
  fits : content.length ≤ buffer.length
  get : ∀ i, i < content.length → buffer[(start + i) % buffer.length]? = content[i]?

/-- Read `length` elements from `start` on. -/
def read (buffer : List α) (start length : Nat) : List α :=
  if start + length < buffer.length then
    (buffer.drop start).take length
  else
    buffer.drop start ++ buffer.take (length - (buffer.length - start))

/-- Write some elements from `pos` on. -/
def write (buffer : List α) (pos : Nat) (data : List α) : List α :=
  if pos + data.length < buffer.length then
    overwrite buffer pos data
  else
    overwrite (overwrite buffer pos (data.take (buffer.length - pos))) 0
      (data.drop (buffer.length - pos))

theorem add_mod_of_lt {start i size : Nat} (inside : start < size) (offset : i < size) :
    (start + i) % size = if start + i < size then start + i else start + i - size := by
  split
  · exact Nat.mod_eq_of_lt ‹_›
  · rw [Nat.mod_eq_sub_mod (by omega), Nat.mod_eq_of_lt (by omega)]

theorem getElem?_read {buffer : List α} {start length : Nat} (inside : start < buffer.length)
    (fits : length ≤ buffer.length) {i : Nat} (bound : i < length) :
    (read buffer start length)[i]? = buffer[(start + i) % buffer.length]? := by
  rw [add_mod_of_lt inside (by omega), read]
  by_cases straight : start + length < buffer.length
  · rw [if_pos straight, if_pos (by omega), List.getElem?_take, if_pos bound, List.getElem?_drop]
  · rw [if_neg straight]
    by_cases beforeEnd : start + i < buffer.length
    · rw [if_pos beforeEnd, List.getElem?_append_left, List.getElem?_drop]
      rw [List.length_drop]
      omega
    · rw [if_neg beforeEnd, List.getElem?_append_right, List.getElem?_take, List.length_drop,
        if_pos (by omega)]
      · congr 1
        omega
      · rw [List.length_drop]
        omega

theorem length_read {buffer : List α} {start length : Nat} (inside : start < buffer.length)
    (fits : length ≤ buffer.length) : (read buffer start length).length = length := by
  rw [read]
  split
  · rw [List.length_take, List.length_drop]
    omega
  · rw [List.length_append, List.length_drop, List.length_take]
    omega

theorem length_write {buffer : List α} {pos : Nat} (data : List α) (inside : pos < buffer.length)
    (fits : data.length ≤ buffer.length) : (write buffer pos data).length = buffer.length := by
  rw [write]
  split
  · exact length_overwrite (by omega)
  · rw [length_overwrite, length_overwrite]
    · rw [List.length_take]
      omega
    · rw [length_overwrite, List.length_drop]
      · omega
      · rw [List.length_take]
        omega

/-- What a write changes, counted from the index it starts at. -/
theorem getElem?_write {buffer data : List α} {pos : Nat} (inside : pos < buffer.length)
    (fits : data.length ≤ buffer.length) {i : Nat} (bound : i < buffer.length) :
    (write buffer pos data)[(pos + i) % buffer.length]? =
      if i < data.length then data[i]? else buffer[(pos + i) % buffer.length]? := by
  rw [add_mod_of_lt inside bound, write]
  by_cases straight : pos + data.length < buffer.length
  · rw [if_pos straight, getElem?_overwrite (by omega)]
    by_cases written : i < data.length
    · have near : pos + i < buffer.length := by omega
      rw [if_pos written, if_pos near, if_neg (by omega), Nat.add_sub_cancel_left]
    · rw [if_neg written, if_pos (by split <;> omega)]
  · have first : pos + (data.take (buffer.length - pos)).length ≤ buffer.length := by
      rw [List.length_take]
      omega
    have second : 0 + (data.drop (buffer.length - pos)).length ≤
        (overwrite buffer pos (data.take (buffer.length - pos))).length := by
      rw [length_overwrite first, List.length_drop]
      omega
    rw [if_neg straight, getElem?_overwrite second, getElem?_overwrite first]
    simp only [List.length_take, List.length_drop, List.getElem?_take, List.getElem?_drop]
    by_cases written : i < data.length
    · rw [if_pos written]
      by_cases beforeEnd : pos + i < buffer.length
      · rw [if_pos beforeEnd, if_pos (by omega), if_neg (by omega), if_pos (by omega)]
        congr 1
        omega
      · rw [if_neg beforeEnd, if_neg (by omega)]
        congr 1
        omega
    · rw [if_neg written]
      rw [if_pos (by split <;> omega), if_pos (by split <;> omega)]

namespace Holds

variable {buffer front back content data : List α} {start : Nat}

theorem empty (buffer : List α) (start : Nat) : Holds buffer start [] :=
  ⟨Nat.zero_le _, fun i bound => absurd bound (Nat.not_lt_zero i)⟩

/-- Reading returns the front of the content. -/
theorem read (holds : Holds buffer start (front ++ back)) (inside : start < buffer.length) :
    RingBuffer.read buffer start front.length = front := by
  have fits := holds.fits
  rw [List.length_append] at fits
  apply List.ext_getElem?
  intro i
  by_cases bound : i < front.length
  · rw [getElem?_read inside (by omega) bound, holds.get i (by rw [List.length_append]; omega),
      List.getElem?_append_left bound]
  · rw [List.getElem?_eq_none (by rw [length_read inside (by omega)]; omega),
      List.getElem?_eq_none (by omega)]

/-- The content behind its front part. -/
theorem dropFront (holds : Holds buffer start (front ++ back)) :
    Holds buffer ((start + front.length) % buffer.length) back := by
  have fits := holds.fits
  rw [List.length_append] at fits
  refine ⟨by omega, ?_⟩
  intro i bound
  have stands := holds.get (front.length + i) (by rw [List.length_append]; omega)
  rw [List.getElem?_append_right (by omega), Nat.add_sub_cancel_left] at stands
  rw [← stands, Nat.mod_add_mod, Nat.add_assoc]

/-- Writing behind the content appends to it when there is room. -/
theorem write (holds : Holds buffer start content) (nonempty : 0 < buffer.length)
    (room : content.length + data.length ≤ buffer.length) :
    Holds (RingBuffer.write buffer ((start + content.length) % buffer.length) data) start
      (content ++ data) := by
  have inside := Nat.mod_lt (start + content.length) nonempty
  have sameLength := length_write data inside (by omega)
  refine ⟨by rw [sameLength, List.length_append]; exact room, ?_⟩
  intro i bound
  rw [List.length_append] at bound
  rw [sameLength]
  by_cases old : i < content.length
  · -- an old index is reached from the write index by going around once
    have around : (start + i) % buffer.length =
        ((start + content.length) % buffer.length +
          (buffer.length - content.length + i)) % buffer.length := by
      rw [Nat.mod_add_mod]
      have shift : start + content.length + (buffer.length - content.length + i) =
          start + i + buffer.length := by omega
      rw [shift, Nat.add_mod_right]
    rw [around, getElem?_write inside (by omega) (by omega), if_neg (by omega), ← around,
      holds.get i old, List.getElem?_append_left old]
  · have ahead : (start + i) % buffer.length =
        ((start + content.length) % buffer.length + (i - content.length)) % buffer.length := by
      rw [Nat.mod_add_mod]
      congr 1
      omega
    rw [ahead, getElem?_write inside (by omega) (by omega), if_pos (by omega),
      List.getElem?_append_right (by omega)]

end Holds

end RingBuffer

end Foundation
