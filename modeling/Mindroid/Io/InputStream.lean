import Mindroid.Foundation.Loop
import Mindroid.Nio.ByteBuffer

/-!
# Input streams

A stream reads from another one of which it knows only the interface.  `Lawful` is what
the comments of `InputStream` promise about `read` and `skip`; `available` may answer
anything.
-/

set_option autoImplicit false

namespace Mindroid

open Foundation

/-- What the operations of a stream throw. -/
inductive StreamThrown where
  | illegalArgumentException (message : String)
  | ioException (message : String)
  | eofException
  | array (thrown : Thrown)
  deriving DecidableEq, Repr

/-- Whether `catch (const IOException&)` catches it. -/
def StreamThrown.isIOException : StreamThrown → Bool
  | .ioException _ | .eofException => true
  | .illegalArgumentException _ | .array _ => false

/-- The virtual functions of an `InputStream` whose state is `σ`.  A read stores at most
`count` bytes into the caller's buffer and returns -1 (`none`) at the end. -/
structure InputStream (σ : Type) where
  read : σ → Nat → Option (List UInt8) × σ
  available : σ → Nat
  skip : σ → Nat → Nat × σ

/-- The bytes that a stream has not delivered, and that every read delivers at least one
of them unless there are none. -/
structure InputStream.Lawful {σ : Type} (source : InputStream σ) (content : σ → List UInt8) :
    Prop where
  read_end : ∀ {st st' count}, source.read st count = (none, st') →
    content st = [] ∧ content st' = []
  read_some : ∀ {st st' count data}, source.read st count = (some data, st') → 0 < count →
    data ≠ [] ∧ data.length ≤ count ∧ content st = data ++ content st'
  skips : ∀ {st st' count skipped}, source.skip st count = (skipped, st') →
    skipped ≤ count ∧ skipped ≤ (content st).length ∧ content st' = (content st).drop skipped

/-- The stream of a list, of which it delivers at most `size` bytes at a time. -/
def InputStream.chunked (size : Nat) : InputStream (List UInt8) where
  read
    | [], _ => (none, [])
    | byte :: bytes, count =>
        (some ((byte :: bytes).take (min count size)), (byte :: bytes).drop (min count size))
  available := List.length
  skip bytes count := (min count bytes.length, bytes.drop (min count bytes.length))

theorem InputStream.chunked_lawful {size : Nat} (positive : 0 < size) :
    (chunked size).Lawful id where
  read_end := by
    intro st st' count reads
    cases st with
    | nil =>
        cases reads
        exact ⟨rfl, rfl⟩
    | cons => cases reads
  read_some := by
    intro st st' count data reads some
    cases st with
    | nil => cases reads
    | cons byte bytes =>
        cases reads
        refine ⟨?_, ?_, (List.take_append_drop _ _).symm⟩
        · rw [ne_eq, List.take_eq_nil_iff]
          simp only [Nat.min_eq_zero_iff, reduceCtorEq, or_false]
          omega
        · rw [List.length_take]
          omega
  skips := by
    intro st st' count skipped skips
    cases skips
    exact ⟨Nat.min_le_left _ _, Nat.min_le_right _ _, rfl⟩

/-! ## Copies inside one array -/

/-- What `std::memcpy` makes of an array, given a source position, a destination position
and a length.  It is undefined when the two ranges overlap. -/
abbrev Memcpy := List UInt8 → Nat → Nat → Nat → List UInt8

namespace Memcpy

/-- The bytes are copied as if through a temporary array. -/
def Moves (memcpy : Memcpy) (array : List UInt8) (srcPos destPos length : Nat) : Prop :=
  memcpy array srcPos destPos length = overwrite array destPos ((array.drop srcPos).take length)

/-- The contract of `std::memcpy`. -/
def Conforms (memcpy : Memcpy) : Prop :=
  ∀ array srcPos destPos length, srcPos + length ≤ array.length → destPos + length ≤ array.length →
    srcPos + length ≤ destPos ∨ destPos + length ≤ srcPos →
      memcpy.Moves array srcPos destPos length

/-- A `memcpy` that copies the last byte first. -/
def backward (array : List UInt8) (srcPos destPos : Nat) : Nat → List UInt8
  | 0 => array
  | length + 1 =>
      backward (array.set (destPos + length) (array.getD (srcPos + length) 0)) srcPos destPos length

/-- A `memcpy` that copies through a temporary array. -/
def buffered : Memcpy := fun array srcPos destPos length =>
  overwrite array destPos ((array.drop srcPos).take length)

theorem getElem?_backward {array : List UInt8} {srcPos destPos length : Nat}
    (inSrc : srcPos + length ≤ array.length) (inDest : destPos + length ≤ array.length)
    (disjoint : srcPos + length ≤ destPos ∨ destPos + length ≤ srcPos) (i : Nat) :
    (backward array srcPos destPos length)[i]? =
      if destPos ≤ i ∧ i < destPos + length then array[srcPos + (i - destPos)]? else array[i]? := by
  induction length generalizing array with
  | zero => rw [backward, if_neg (by omega)]
  | succ length ih =>
      have byte : array.getD (srcPos + length) 0 = array[srcPos + length] := by
        rw [List.getD_eq_getElem?_getD, List.getElem?_eq_getElem, Option.getD_some]
      rw [backward, ih (by rw [List.length_set]; omega) (by rw [List.length_set]; omega)
        (by omega)]
      by_cases last : i = destPos + length
      · rw [if_neg (by omega), if_pos (by omega), last, List.getElem?_set_self (by omega), byte,
          Nat.add_sub_cancel_left, List.getElem?_eq_getElem]
      · by_cases inside : destPos ≤ i ∧ i < destPos + length
        · rw [if_pos inside, if_pos (by omega), List.getElem?_set_ne (by omega)]
        · rw [if_neg inside, if_neg (by omega), List.getElem?_set_ne (by omega)]

theorem backward_conforms : Conforms backward := by
  intro array srcPos destPos length inSrc inDest disjoint
  have size : ((array.drop srcPos).take length).length = length := by
    rw [List.length_take, List.length_drop]
    omega
  apply List.ext_getElem?
  intro i
  rw [getElem?_backward inSrc inDest disjoint, getElem?_overwrite (by omega), size]
  by_cases inside : destPos ≤ i ∧ i < destPos + length
  · rw [if_pos inside, if_neg (by omega), List.getElem?_take, if_pos (by omega),
      List.getElem?_drop]
  · rw [if_neg inside, if_pos (by omega)]

theorem buffered_moves (array : List UInt8) (srcPos destPos length : Nat) :
    buffered.Moves array srcPos destPos length :=
  rfl

end Memcpy

/-- `System::arraycopy` from an array to itself. -/
def arraycopyWithin (memcpy : Memcpy) (array : List UInt8) (srcPos destPos length : Nat) :
    Except Thrown (List UInt8) :=
  if array.length < srcPos + length ∨ array.length < destPos + length then
    .error .indexOutOfBoundsException
  else
    .ok (memcpy array srcPos destPos length)

end Mindroid
