import Mindroid.Foundation.Bytes
import Mindroid.Foundation.RingBuffer

/-!
# Elements that are not reached

What reads and what overwrites a part of a list, seen from one element: outside of the part the
element does not matter and is kept, and inside of it every element matters or is lost.
-/

set_option autoImplicit false

namespace Foundation

section Part

variable {α : Type} {buffer data : List α} {element : α} {index start length : Nat}

/-- The element is not in a part of the list. -/
def Apart (index start length : Nat) : Prop :=
  index < start ∨ start + length ≤ index

theorem part_set_of_apart (apart : Apart index start length) :
    ((buffer.set index element).drop start).take length = (buffer.drop start).take length := by
  apply List.ext_getElem?
  intro i
  simp only [List.getElem?_take, List.getElem?_drop]
  split
  · rename_i inside
    apply List.getElem?_set_ne
    rcases apart with before | behind
    · exact Nat.ne_of_lt (Nat.lt_of_lt_of_le before (Nat.le_add_right start i))
    · exact Nat.ne_of_gt (Nat.lt_of_lt_of_le (Nat.add_lt_add_left inside start) behind)
  · rfl

/-- A part tells every element in it. -/
theorem eq_of_part_set (inside : ¬Apart index start length) (bound : index < buffer.length)
    (same : ((buffer.set index element).drop start).take length =
      (buffer.drop start).take length) : buffer[index]? = some element := by
  rw [Apart, not_or, Nat.not_lt, Nat.not_le] at inside
  have at_index := congrArg (fun part => part[index - start]?) same
  simp only [List.getElem?_take, List.getElem?_drop, Nat.add_sub_cancel' inside.1,
    if_pos (Nat.sub_lt_left_of_lt_add inside.1 inside.2), List.getElem?_set_self bound] at at_index
  exact at_index.symm

theorem overwrite_set_of_apart (fits : start + data.length ≤ buffer.length)
    (apart : Apart index start data.length) :
    overwrite (buffer.set index element) start data =
      (overwrite buffer start data).set index element := by
  apply List.ext_getElem?
  intro i
  rw [getElem?_overwrite (by rwa [List.length_set]), List.getElem?_set, List.getElem?_set,
    length_overwrite fits, getElem?_overwrite fits]
  split
  · split
    · rfl
    · rfl
  · rename_i within
    split
    · rename_i same
      exact absurd (same ▸ apart) within
    · rfl

/-- What is overwritten does not matter. -/
theorem overwrite_set_of_inside (fits : start + data.length ≤ buffer.length)
    (inside : ¬Apart index start data.length) :
    overwrite (buffer.set index element) start data = overwrite buffer start data := by
  apply List.ext_getElem?
  intro i
  rw [getElem?_overwrite (by rwa [List.length_set]), getElem?_overwrite fits]
  split
  · rename_i outside
    apply List.getElem?_set_ne
    rintro rfl
    exact inside outside
  · rfl

theorem part_overwrite (fits : start + data.length ≤ buffer.length) :
    ((overwrite buffer start data).drop start).take data.length = data := by
  apply List.ext_getElem?
  intro i
  rw [List.getElem?_take, List.getElem?_drop, getElem?_overwrite fits]
  split
  · rename_i inside
    rw [if_neg (by omega), Nat.add_sub_cancel_left]
  · rename_i outside
    exact (List.getElem?_eq_none (Nat.not_lt.mp outside)).symm

/-- What is written is known from the list. -/
theorem overwrite_injective {other : List α} (fits : start + data.length ≤ buffer.length)
    (count : data.length = other.length)
    (same : overwrite buffer start data = overwrite buffer start other) : data = other := by
  rw [← part_overwrite fits, same, count, part_overwrite (by rwa [← count])]

end Part

/-- The bytes that a part tells are those in it. -/
theorem forall_part_set_iff {bytes : List UInt8} {index start length : Nat}
    (fits : start + length ≤ bytes.length) :
    (∀ value, ((bytes.set index value).drop start).take length =
      (bytes.drop start).take length) ↔ Apart index start length := by
  constructor
  · intro same
    by_contra inside
    have bound : index < bytes.length := by
      rw [Apart] at inside
      omega
    have kept := eq_of_part_set inside bound (same (bytes[index] + 1))
    rw [List.getElem?_eq_getElem bound, Option.some.injEq] at kept
    exact absurd (UInt8.add_eq_left.mp kept.symm) (by decide)
  · exact fun apart value => part_set_of_apart apart

theorem ofBytes_lt (data : List UInt8) : ofBytes data < 256 ^ data.length := by
  induction data with
  | nil => exact Nat.one_pos
  | cons byte bytes ih =>
      have small := byte.toNat_lt
      rw [ofBytes, List.length_cons, Nat.pow_succ]
      omega

/-- Bytes are known from their number and the count of them. -/
theorem ofBytes_injective {data other : List UInt8} (count : data.length = other.length)
    (same : ofBytes data = ofBytes other) : data = other := by
  induction data generalizing other with
  | nil => exact (List.eq_nil_of_length_eq_zero count.symm).symm
  | cons byte bytes ih =>
      cases other with
      | nil => cases count
      | cons byte' bytes' =>
          have small := byte.toNat_lt
          have small' := byte'.toNat_lt
          rw [ofBytes, ofBytes] at same
          have first : byte = byte' := UInt8.toNat_inj.mp (by omega)
          rw [first, ih (Nat.succ.inj count) (by omega)]

end Foundation
