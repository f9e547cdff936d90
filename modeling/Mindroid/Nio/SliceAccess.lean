import Mindroid.Nio.ReachedBytes

/-!
# Accesses through a part of an array

An access that does not throw reaches only bytes between the offset and the limit of its buffer,
exactly as long as the sum that its check compares with the limit has not wrapped.
-/

set_option autoImplicit false

namespace Mindroid

namespace Nio

open Foundation
open Foundation.Throwing

/-! ## The accesses -/

/-- The absolute and the relative methods that read or write bytes. -/
inductive Access where
  | get | getChar | getDouble | getFloat | getInt | getLong | getShort
  | getAt (index : UInt64)
  | getCharAt (index : UInt64)
  | getDoubleAt (index : UInt64)
  | getFloatAt (index : UInt64)
  | getIntAt (index : UInt64)
  | getLongAt (index : UInt64)
  | getShortAt (index : UInt64)
  | getRange (dst : Nat) (offset count : UInt64)
  | getAll (dst : Nat)
  | put (value : UInt8)
  | putChar (value : UInt8)
  | putDouble (value : BitVec 64)
  | putFloat (value : BitVec 32)
  | putInt (value : BitVec 32)
  | putLong (value : BitVec 64)
  | putShort (value : BitVec 16)
  | putAt (index : UInt64) (value : UInt8)
  | putCharAt (index : UInt64) (value : UInt8)
  | putDoubleAt (index : UInt64) (value : BitVec 64)
  | putFloatAt (index : UInt64) (value : BitVec 32)
  | putIntAt (index : UInt64) (value : BitVec 32)
  | putLongAt (index : UInt64) (value : BitVec 64)
  | putShortAt (index : UInt64) (value : BitVec 16)
  | putRange (src : Nat) (offset size : UInt64)
  | putAll (src : Nat)

namespace Access

/-- What a method returns. -/
def Reply : Access → Type
  | get | getChar | getAt _ | getCharAt _ => UInt8
  | getDouble | getLong | getDoubleAt _ | getLongAt _ => BitVec 64
  | getFloat | getInt | getFloatAt _ | getIntAt _ => BitVec 32
  | getShort | getShortAt _ => BitVec 16
  | _ => Unit

def method : (access : Access) → Method access.Reply
  | get => Nio.get
  | getChar => Nio.getChar
  | getDouble => Nio.getDouble
  | getFloat => Nio.getFloat
  | getInt => Nio.getInt
  | getLong => Nio.getLong
  | getShort => Nio.getShort
  | getAt index => Nio.getAt index
  | getCharAt index => Nio.getCharAt index
  | getDoubleAt index => Nio.getDoubleAt index
  | getFloatAt index => Nio.getFloatAt index
  | getIntAt index => Nio.getIntAt index
  | getLongAt index => Nio.getLongAt index
  | getShortAt index => Nio.getShortAt index
  | getRange dst offset count => Nio.getRange dst offset count
  | getAll dst => Nio.getAll dst
  | put value => Nio.put value
  | putChar value => Nio.putChar value
  | putDouble value => Nio.putDouble value
  | putFloat value => Nio.putFloat value
  | putInt value => Nio.putInt value
  | putLong value => Nio.putLong value
  | putShort value => Nio.putShort value
  | putAt index value => Nio.putAt index value
  | putCharAt index value => Nio.putCharAt index value
  | putDoubleAt index value => Nio.putDoubleAt index value
  | putFloatAt index value => Nio.putFloatAt index value
  | putIntAt index value => Nio.putIntAt index value
  | putLongAt index value => Nio.putLongAt index value
  | putShortAt index value => Nio.putShortAt index value
  | putRange src offset size => Nio.putRange src offset size
  | putAll src => Nio.putAll src

/-- The part of an array that the caller passes. -/
structure Passed where
  array : Nat
  offset : UInt64
  count : UInt64

/-- A byte that the caller itself has passed, if the array of the buffer is passed to it. -/
def Passed.Covers (passed : Passed) (st : Scope) (index : Nat) : Prop :=
  passed.array = st.this.mBuffer ∧ passed.offset.toNat ≤ index ∧
    index < passed.offset.toNat + passed.count.toNat

/-- The part of an array that is passed to a method. -/
def passed (st : Scope) : Access → Option Passed
  | getRange dst offset count => some ⟨dst, offset, count⟩
  | putRange src offset size => some ⟨src, offset, size⟩
  | getAll dst => (st.arrays[dst]?).map fun found => ⟨dst, 0, found.size⟩
  | putAll src => (st.arrays[src]?).map fun found => ⟨src, 0, found.size⟩
  | _ => none

/-- The bytes that an access may reach: those of the buffer and those that are passed to it. -/
def Allowed (access : Access) (st : Scope) (index : Nat) : Prop :=
  st.Region index ∨ ∃ part, access.passed st = some part ∧ part.Covers st index

end Access

/-! ## Addresses -/

section Addresses

variable {st : Scope} {index amount : UInt64} {size : Nat}

/-- What the check accepts is in the region of the buffer, or the address has wrapped to a byte
before it. -/
theorem apart_region_iff (accepted : index + amount ≤ st.this.mLimit) (positive : 0 < amount.toNat)
    (fits : (st.this.mOffset + index).toNat + amount.toNat ≤ size) (bounded : size < 2 ^ 63) :
    (∀ k, ¬st.Region k → Apart k (st.this.mOffset + index).toNat amount.toNat) ↔
      st.this.mOffset.toNat + index.toNat + amount.toNat ≤ size := by
  have small := index.toNat_lt
  have small' := st.this.mOffset.toNat_lt
  rw [UInt64.le_iff_toNat_le, UInt64.toNat_add] at accepted
  rw [UInt64.toNat_add] at fits ⊢
  constructor
  · intro apart
    by_contra beyond
    have first := apart ((st.this.mOffset.toNat + index.toNat) % 2 ^ 64)
    rw [Scope.Region, Apart] at first
    omega
  · intro inside k outside
    rw [Scope.Region] at outside
    rw [Apart]
    omega

end Addresses

/-- When a number is read or written in the region of the buffer only. -/
def Scope.SafeAt (st : Scope) (index width : UInt64) : Prop :=
  index + width ≤ st.this.mLimit → ∃ found, st.arrays[st.this.mBuffer]? = some found ∧
    st.this.mOffset.toNat + index.toNat + width.toNat ≤ found.bytes.length

/-- When a single byte is, which the array checks, too. -/
def Scope.SafeByteAt (st : Scope) (index : UInt64) : Prop :=
  index + 1 ≤ st.this.mLimit → ∃ found, st.arrays[st.this.mBuffer]? = some found ∧
    (st.this.mOffset + index < found.size →
      st.this.mOffset.toNat + index.toNat < found.bytes.length)

/-- In a buffer that is within its bounds, only the sum with the width can wrap. -/
theorem safeAt_iff_of_bounded {st : Scope} {index width : UInt64}
    (bounded : st.this.Bounded st.arrays) :
    st.SafeAt index width ↔
      (index + width ≤ st.this.mLimit → index.toNat + width.toNat < 2 ^ 64) := by
  obtain ⟨found, present, inside⟩ := bounded.capacity
  have limit := bounded.limit
  have small := found.bounded
  rw [UInt64.le_iff_toNat_le] at limit
  apply forall_congr'
  intro accepted
  rw [UInt64.le_iff_toNat_le, UInt64.toNat_add] at accepted
  constructor
  · rintro ⟨found', present', within⟩
    have small' := found'.bounded
    omega
  · intro sum
    rw [Nat.mod_eq_of_lt sum] at accepted
    exact ⟨found, present, by omega⟩

section Single

variable {α : Type} {st : Scope} {index width : UInt64}

/-- The address is not beyond the sum. -/
theorem address_of_inside {size : Nat}
    (inside : st.this.mOffset.toNat + index.toNat + width.toNat ≤ size) :
    (st.this.mOffset + index).toNat + width.toNat ≤ size := by
  rw [UInt64.toNat_add]
  omega

theorem confined_load_iff {f : List UInt8 → α} (positive : 0 < width.toNat)
    (injective : ∀ data other, data.length = width.toNat → other.length = width.toNat →
      f data = f other → data = other) :
    Confined (f <$> load width index) st.Region st ↔ st.SafeAt index width := by
  by_cases accepted : index + width ≤ st.this.mLimit
  · rw [Scope.SafeAt, imp_iff_right accepted]
    by_cases fits : ∃ found, st.arrays[st.this.mBuffer]? = some found ∧
        (st.this.mOffset + index).toNat + width.toNat ≤ found.bytes.length
    · obtain ⟨found, present, fits⟩ := fits
      have ran := outcome_map_ok f (outcome_load accepted present fits)
      have runs (k : Nat) (value : UInt8) := outcome_map_ok f
        (@outcome_load (st.poke k value) _ _ _ accepted (poke_present present k value)
          (by rwa [length_poke]))
      rw [confined_iff_apart ran fun k _ => unreached_read_iff injective fits ran (runs k),
        apart_region_iff accepted positive fits found.bounded]
      constructor
      · exact fun inside => ⟨found, present, inside⟩
      · rintro ⟨found', present', inside⟩
        rwa [Option.some.inj (present.symm.trans present')]
    · have ran : outcome (f <$> load width index) st = (.error .undefined, st) := by
        apply outcome_map_error
        rw [load, outcome_bind_ok (outcome_checkBufferUnderflow accepted),
          outcome_bind_ok outcome_self]
        exact outcome_readBytes_undefined fun found present inside =>
          fits ⟨found, present, inside⟩
      apply iff_of_false (not_confined_of_undefined ran)
      rintro ⟨found, present, inside⟩
      exact fits ⟨found, present, address_of_inside inside⟩
  · have ran : outcome (f <$> load width index) st = (.error .bufferUnderflowException, st) := by
      apply outcome_map_error
      rw [load, outcome_bind_error (outcome_underflow accepted)]
    exact iff_of_true (confined_of_threw ran (by decide)) fun within => absurd within accepted

theorem confined_store_iff {value : Nat} (positive : 0 < width.toNat) :
    Confined (store width index value) st.Region st ↔ st.SafeAt index width := by
  have count := length_toBytes width.toNat value
  by_cases accepted : index + width ≤ st.this.mLimit
  · rw [Scope.SafeAt, imp_iff_right accepted]
    by_cases fits : ∃ found, st.arrays[st.this.mBuffer]? = some found ∧
        (st.this.mOffset + index).toNat + width.toNat ≤ found.bytes.length
    · obtain ⟨found, present, fits⟩ := fits
      have fits' : (st.this.mOffset + index).toNat + (toBytes width.toNat value).length ≤
          found.bytes.length := by
        rwa [count]
      have ran := outcome_store accepted present fits'
      have runs (k : Nat) (byte : UInt8) 
          := @outcome_store (st.poke k byte) _ _ value _ accepted
        (poke_present present k byte) (by rwa [length_poke])
      have reached (k : Nat) : Unreached (store width index value) st k ↔
          Apart k (st.this.mOffset + index).toNat width.toNat := by
        rw [unreached_write_iff present fits' ran fun byte => ⟨_, runs k byte⟩, count]
      rw [confined_iff_apart ran fun k _ => reached k,
        apart_region_iff accepted positive fits found.bounded]
      constructor
      · exact fun inside => ⟨found, present, inside⟩
      · rintro ⟨found', present', inside⟩
        rwa [Option.some.inj (present.symm.trans present')]
    · have ran : outcome (store width index value) st = (.error .undefined, st) := by
        rw [store, outcome_bind_ok (outcome_checkBufferOverflow accepted),
          outcome_bind_ok outcome_self]
        apply outcome_writeBytes_undefined
        intro found present inside
        rw [count] at inside
        exact fits ⟨found, present, inside⟩
      apply iff_of_false (not_confined_of_undefined ran)
      rintro ⟨found, present, inside⟩
      exact fits ⟨found, present, address_of_inside inside⟩
  · have ran : outcome (store width index value) st =
        (.error (.bufferOverflowException ""), st) := by
      rw [store, outcome_bind_error (outcome_overflow accepted)]
    exact iff_of_true (confined_of_threw ran (by decide)) fun within => absurd within accepted

/-- A byte that the check accepts is reached, refused by the array, or not there. -/
theorem confined_byte_iff {call : Method α} (refused : Fault) (defined : refused ≠ .undefined)
    (checked : ¬index + 1 ≤ st.this.mLimit → outcome call st = (.error refused, st))
    (absent : index + 1 ≤ st.this.mLimit → st.arrays[st.this.mBuffer]? = none →
      outcome call st = (.error .undefined, st))
    (outside : index + 1 ≤ st.this.mLimit → ∀ found,
      st.arrays[st.this.mBuffer]? = some found → ¬st.this.mOffset + index < found.size →
      outcome call st = (.error (.indexOutOfBoundsException ""), st))
    (inside : index + 1 ≤ st.this.mLimit → ∀ found,
      st.arrays[st.this.mBuffer]? = some found →
      (st.this.mOffset + index).toNat < found.bytes.length →
      (∃ result st', outcome call st = (.ok result, st')) ∧
        ∀ k, Unreached call st k ↔ Apart k (st.this.mOffset + index).toNat 1) :
    Confined call st.Region st ↔ st.SafeByteAt index := by
  by_cases accepted : index + 1 ≤ st.this.mLimit
  · rw [Scope.SafeByteAt, imp_iff_right accepted]
    cases present : st.arrays[st.this.mBuffer]? with
    | none =>
        apply iff_of_false (not_confined_of_undefined (absent accepted present))
        rintro ⟨found, none, _⟩
        cases none
    | some found =>
        by_cases within : st.this.mOffset + index < found.size
        · have fits : (st.this.mOffset + index).toNat < found.bytes.length := by
            rwa [UInt64.lt_iff_toNat_lt, found.toNat_size] at within
          obtain ⟨⟨result, st', ran⟩, reached⟩ := inside accepted found present fits
          have region := apart_region_iff accepted (Nat.one_pos) fits found.bounded
          rw [confined_iff_apart ran fun k _ => reached k]
          exact region.trans ⟨fun bound => ⟨found, rfl, fun _ => bound⟩, fun safe => by
            obtain ⟨found', same, bound⟩ := safe
            cases same
            exact bound within⟩
        · apply iff_of_true
          · exact confined_of_threw (outside accepted found present within) (by decide)
          · exact ⟨found, rfl, fun bound => absurd bound within⟩
  · exact iff_of_true (confined_of_threw (checked accepted) defined)
      fun bound => absurd bound accepted

theorem headD_injective (data other : List UInt8) (one : data.length = 1)
    (one' : other.length = 1) (same : data.headD 0 = other.headD 0) : data = other := by
  obtain ⟨byte, rfl⟩ := List.length_eq_one_iff.mp one
  obtain ⟨byte', rfl⟩ := List.length_eq_one_iff.mp one'
  exact congrArg (fun first => [first]) same

theorem confined_getAt_iff : Confined (getAt index) st.Region st ↔ st.SafeByteAt index := by
  have enters (st' : Scope) (accepted : index + 1 ≤ st'.this.mLimit) :
      outcome (getAt index) st' =
        outcome (arrayGet st'.this.mBuffer (st'.this.mOffset + index)) st' := by
    rw [getAt, outcome_bind_ok (outcome_checkBufferUnderflow accepted),
      outcome_bind_ok outcome_self]
  apply confined_byte_iff .bufferUnderflowException (by decide)
  · intro refused
    rw [getAt, outcome_bind_error (outcome_underflow refused)]
  · intro accepted absent
    rw [enters st accepted, arrayGet, outcome_bind_error (outcome_lookup_null absent)]
  · intro accepted found present outside
    rw [enters st accepted, outcome_arrayGet_outside present outside]
  · intro accepted found present inside
    have ran := (enters st accepted).trans (outcome_arrayGet present inside)
    refine ⟨⟨_, _, ran⟩, fun k => unreached_read_iff headD_injective inside ran fun value => ?_⟩
    rw [enters (st.poke k value) accepted]
    exact outcome_arrayGet (poke_present present k value) (by rwa [length_poke])

theorem confined_putAt_iff {value : UInt8} :
    Confined (putAt index value) st.Region st ↔ st.SafeByteAt index := by
  have enters (st' : Scope) (accepted : index + 1 ≤ st'.this.mLimit) :
      outcome (putAt index value) st' =
        outcome (arraySet st'.this.mBuffer (st'.this.mOffset + index) value) st' := by
    rw [putAt, outcome_bind_ok (outcome_checkBufferOverflow accepted),
      outcome_bind_ok outcome_self]
  apply confined_byte_iff (.bufferOverflowException "") (by decide)
  · intro refused
    rw [putAt, outcome_bind_error (outcome_overflow refused)]
  · intro accepted absent
    rw [enters st accepted, arraySet, outcome_bind_error (outcome_lookup_null absent)]
  · intro accepted found present outside
    rw [enters st accepted, outcome_arraySet_outside present outside]
  · intro accepted found present inside
    have ran := (enters st accepted).trans (@outcome_arraySet _ _ _ value _ present inside)
    refine ⟨⟨_, _, ran⟩, fun k => unreached_write_iff present inside ran fun byte => ?_⟩
    rw [enters (st.poke k byte) accepted]
    exact ⟨_, outcome_arraySet (poke_present present k byte) (by rwa [length_poke])⟩

end Single

/-! ## Parts of arrays that are passed -/

namespace Access

/-- The checks of a copy accept a part of an array. -/
structure Passed.Accepted (part : Passed) (st : Scope) (own found : ByteArray) : Prop where
  passes : st.arrays[part.array]? = some own
  within : part.offset + part.count ≤ own.size
  limit : st.this.mPosition + part.count ≤ st.this.mLimit
  present : st.arrays[st.this.mBuffer]? = some found
  array : st.this.mOffset + st.this.mPosition + part.count ≤ found.size

/-- The array of the buffer itself is passed, and the bytes before the offset that are reached are
among those that are passed. -/
def Passed.Shields (part : Passed) (st : Scope) (found : ByteArray) : Prop :=
  part.array = st.this.mBuffer ∧
    (st.this.mOffset + st.this.mPosition).toNat + part.count.toNat ≤ found.bytes.length ∧
    part.offset.toNat ≤ (st.this.mOffset + st.this.mPosition).toNat ∧
    min ((st.this.mOffset + st.this.mPosition).toNat + part.count.toNat) st.this.mOffset.toNat ≤
      part.offset.toNat + part.count.toNat

/-- When a copy stays in the region of the buffer: what the checks accept does not wrap. -/
def Passed.Safe (part : Passed) (st : Scope) : Prop :=
  ∀ own found, part.Accepted st own found → part.count = 0 ∨
    part.offset.toNat + part.count.toNat ≤ own.bytes.length ∧
      (st.this.mOffset.toNat + st.this.mPosition.toNat + part.count.toNat ≤ found.bytes.length ∨
        part.Shields st found)

/-- The bytes that a copy may reach. -/
def Passed.Allows (part : Passed) (st : Scope) (index : Nat) : Prop :=
  st.Region index ∨ part.Covers st index

variable {part : Passed} {st : Scope} {own found : ByteArray}

theorem Passed.apart_iff (accepted : part.Accepted st own found) (positive : 0 < part.count.toNat)
    (fits : (st.this.mOffset + st.this.mPosition).toNat + part.count.toNat ≤
      found.bytes.length) :
    (∀ k, ¬part.Allows st k →
        Apart k (st.this.mOffset + st.this.mPosition).toNat part.count.toNat) ↔
      st.this.mOffset.toNat + st.this.mPosition.toNat + part.count.toNat ≤ found.bytes.length ∨
        part.Shields st found := by
  have region := apart_region_iff accepted.limit positive fits found.bounded
  by_cases passes : part.array = st.this.mBuffer
  · have bounded := found.bounded
    have small := st.this.mPosition.toNat_lt
    have small' := st.this.mOffset.toNat_lt
    have limit := accepted.limit
    rw [UInt64.le_iff_toNat_le, UInt64.toNat_add] at limit
    constructor
    · intro apart
      by_contra beyond
      rw [not_or, Passed.Shields, UInt64.toNat_add] at beyond
      rw [UInt64.toNat_add] at fits apart
      have first := apart ((st.this.mOffset.toNat + st.this.mPosition.toNat) % 2 ^ 64)
      have last := apart (min
        ((st.this.mOffset.toNat + st.this.mPosition.toNat) % 2 ^ 64 + part.count.toNat)
        st.this.mOffset.toNat - 1)
      simp only [Passed.Allows, Passed.Covers, Scope.Region, Apart, passes, true_and]
        at first last beyond
      omega
    · rintro (inside | shields) k outside
      · exact region.mpr inside k fun covered => outside (.inl covered)
      · obtain ⟨_, _, before, covers⟩ := shields
        simp only [Passed.Allows, Passed.Covers, Scope.Region, passes, true_and] at outside
        rw [UInt64.toNat_add] at fits before covers ⊢
        rw [Apart]
        omega
  · have uncovered (k : Nat) : part.Allows st k ↔ st.Region k :=
      or_iff_left fun covered => passes covered.1
    have unshielded : ¬part.Shields st found := fun shields => passes shields.1
    simp only [uncovered]
    rw [region, or_iff_left unshielded]

/-- A copy reaches the bytes at the position, or it is refused, or its sums wrap. -/
theorem Passed.confined_copy_iff {call : Method Unit}
    (refused : (∀ own found, ¬part.Accepted st own found) →
      ∃ thrown, thrown ≠ .undefined ∧ outcome call st = (.error thrown, st))
    (wraps : ∀ own found, part.Accepted st own found →
      ¬((st.this.mOffset + st.this.mPosition).toNat + part.count.toNat ≤ found.bytes.length ∧
        part.offset.toNat + part.count.toNat ≤ own.bytes.length) →
      outcome call st = (.error .undefined, st))
    (reaches : ∀ own found, part.Accepted st own found →
      (st.this.mOffset + st.this.mPosition).toNat + part.count.toNat ≤ found.bytes.length →
      part.offset.toNat + part.count.toNat ≤ own.bytes.length →
      (∃ st', outcome call st = (.ok (), st')) ∧ ∀ k, ¬part.Allows st k →
        (Unreached call st k ↔
          Apart k (st.this.mOffset + st.this.mPosition).toNat part.count.toNat)) :
    Confined call (part.Allows st) st ↔ part.Safe st := by
  by_cases accepts : ∃ own found, part.Accepted st own found
  · obtain ⟨own, found, accepted⟩ := accepts
    have safe : part.Safe st ↔ part.count = 0 ∨
        part.offset.toNat + part.count.toNat ≤ own.bytes.length ∧
          (st.this.mOffset.toNat + st.this.mPosition.toNat + part.count.toNat ≤
            found.bytes.length ∨ part.Shields st found) := by
      constructor
      · exact fun all => all own found accepted
      · intro holds own' found' accepted'
        rwa [Option.some.inj (accepted'.passes.symm.trans accepted.passes),
          Option.some.inj (accepted'.present.symm.trans accepted.present)]
    rw [safe]
    by_cases fits : (st.this.mOffset + st.this.mPosition).toNat + part.count.toNat ≤
        found.bytes.length ∧ part.offset.toNat + part.count.toNat ≤ own.bytes.length
    · obtain ⟨⟨st', ran⟩, reached⟩ := reaches own found accepted fits.1 fits.2
      rw [confined_iff_apart ran reached]
      by_cases empty : part.count = 0
      · refine iff_of_true (fun k _ => ?_) (.inl empty)
        rw [Apart, empty, UInt64.toNat_zero]
        omega
      · have positive : 0 < part.count.toNat :=
          Nat.pos_of_ne_zero fun none => empty (UInt64.toNat_inj.mp none)
        rw [Passed.apart_iff accepted positive fits.1, or_iff_right empty, and_iff_right fits.2]
    · refine iff_of_false (not_confined_of_undefined (wraps own found accepted fits)) ?_
      have bound := accepted.array
      have within := accepted.within
      rw [UInt64.le_iff_toNat_le, ByteArray.toNat_size, UInt64.toNat_add] at bound within
      rintro (empty | ⟨inside, straight | shields⟩)
      · have small := found.bounded
        have none : part.count.toNat = 0 := by rw [empty, UInt64.toNat_zero]
        rw [none, Nat.add_zero] at bound within fits
        rw [Nat.mod_eq_of_lt (UInt64.toNat_lt _)] at bound within
        exact fits ⟨bound, within⟩
      · exact fits ⟨address_of_inside straight, inside⟩
      · exact fits ⟨shields.2.1, inside⟩
  · have never : ∀ own found, ¬part.Accepted st own found :=
      fun own found accepted => accepts ⟨own, found, accepted⟩
    obtain ⟨thrown, defined, ran⟩ := refused never
    exact iff_of_true (confined_of_threw ran defined)
      fun own found accepted => absurd accepted (never own found)

theorem length_part (fits : (st.this.mOffset + st.this.mPosition).toNat + part.count.toNat ≤
    found.bytes.length) :
    ((found.bytes.drop (st.this.mOffset + st.this.mPosition).toNat).take
      part.count.toNat).length = part.count.toNat := by
  rw [List.length_take, List.length_drop]
  omega

/-- The part is copied to the array that is passed. -/
theorem Passed.unreached_get_iff {call : Method Unit} (accepted : part.Accepted st own found)
    (fits : (st.this.mOffset + st.this.mPosition).toNat + part.count.toNat ≤ found.bytes.length)
    (runs : ∀ st' own' found', Keeps st st' → st'.arrays[part.array]? = some own' →
      st'.arrays[st.this.mBuffer]? = some found' →
      ∃ fits', outcome call st' = (.ok (), st'.fill part.array (own'.overwrite part.offset.toNat
        ((found'.bytes.drop (st.this.mOffset + st.this.mPosition).toNat).take part.count.toNat)
        fits'))) {k : Nat} (outside : ¬part.Allows st k) :
    Unreached call st k ↔
      Apart k (st.this.mOffset + st.this.mPosition).toNat part.count.toNat := by
  obtain ⟨fitsHere, ran⟩ := runs st own found (Keeps.refl st) accepted.passes accepted.present
  have count := length_part fits
  rw [← forall_part_set_iff fits]
  apply forall_congr'
  intro value
  have keeps := keeps_poke st k value
  have poked := poke_present accepted.present k value
  have count' : (((found.poke k value).bytes.drop
      (st.this.mOffset + st.this.mPosition).toNat).take part.count.toNat).length =
        part.count.toNat := by
    apply length_part
    rwa [length_poke]
  by_cases passes : part.array = st.this.mBuffer
  · obtain rfl : own = found := by
      rw [← Option.some.injEq, ← accepted.passes, ← accepted.present, passes]
    have apart : Apart k part.offset.toNat part.count.toNat := by
      rw [Passed.Allows, Passed.Covers, not_or] at outside
      rw [Apart]
      omega
    obtain ⟨fitsThere, ranThere⟩ := runs _ _ _ keeps (passes ▸ poked) poked
    rw [ranThere, ran, Prod.mk.injEq, and_iff_right rfl, passes, fill_of_poke,
      poke_of_fill accepted.present]
    have moved : overwrite (own.bytes.set k value) _ _ = _ :=
      overwrite_set_of_apart fitsHere (by rwa [count])
    constructor
    · intro same
      have contents := congrArg ByteArray.bytes (fill_injective accepted.present same)
      exact overwrite_injective fitsThere (count'.trans count.symm) (contents.trans moved.symm)
    · intro same
      congr 1
      apply ByteArray.eq_of_bytes
      simp only [ByteArray.overwrite, ByteArray.poke] at moved ⊢
      rw [same]
      exact moved
  · have passed := (poke_other passes k value).trans accepted.passes
    obtain ⟨fitsThere, ranThere⟩ := runs _ _ _ keeps passed poked
    rw [ranThere, ran, Prod.mk.injEq, and_iff_right rfl, fill_poke_other passes]
    constructor
    · intro same
      have contents := congrArg ByteArray.bytes (fill_injective passed same)
      exact overwrite_injective fitsThere (count'.trans count.symm) contents
    · intro same
      congr 1
      apply ByteArray.eq_of_bytes
      simp only [ByteArray.overwrite, ByteArray.poke]
      rw [same]

/-- The part is overwritten from the array that is passed. -/
theorem Passed.unreached_put_iff {call : Method Unit} (accepted : part.Accepted st own found)
    (fits : (st.this.mOffset + st.this.mPosition).toNat + part.count.toNat ≤ found.bytes.length)
    (inside : part.offset.toNat + part.count.toNat ≤ own.bytes.length)
    (runs : ∀ st' own' found', Keeps st st' → st'.arrays[part.array]? = some own' →
      st'.arrays[st.this.mBuffer]? = some found' →
      ∃ fits', outcome call st' = (.ok (), st'.fill st.this.mBuffer
        (found'.overwrite (st.this.mOffset + st.this.mPosition).toNat
          ((own'.bytes.drop part.offset.toNat).take part.count.toNat) fits')))
    {k : Nat} (outside : ¬part.Allows st k) :
    Unreached call st k ↔
      Apart k (st.this.mOffset + st.this.mPosition).toNat part.count.toNat := by
  obtain ⟨fitsHere, ran⟩ := runs st own found (Keeps.refl st) accepted.passes accepted.present
  have count : ((own.bytes.drop part.offset.toNat).take part.count.toNat).length =
      part.count.toNat := by
    rw [List.length_take, List.length_drop]
    omega
  have reached : Unreached call st k ↔ _ :=
    unreached_write_iff accepted.present fitsHere ran ?_
  · rw [reached, count]
  intro value
  have keeps := keeps_poke st k value
  have poked := poke_present accepted.present k value
  by_cases passes : part.array = st.this.mBuffer
  · obtain rfl : own = found := by
      rw [← Option.some.injEq, ← accepted.passes, ← accepted.present, passes]
    have apart : Apart k part.offset.toNat part.count.toNat := by
      rw [Passed.Allows, Passed.Covers, not_or] at outside
      rw [Apart]
      omega
    have ranThere := runs _ _ _ keeps (passes ▸ poked) poked
    simp only [ByteArray.poke, part_set_of_apart apart] at ranThere
    exact ranThere
  · exact runs _ _ _ keeps ((poke_other passes k value).trans accepted.passes) poked

end Access

/-! ## The methods for parts of arrays -/

section Ranges

open Access

variable {st : Scope} {array : Nat} {offset count : UInt64}

/-- Some bytes from an index on are copied to a part of an array. -/
def copyOut (dst : Nat) (offset count index : UInt64) : Method Unit := do
  checkBufferUnderflow index count
  let this ← self
  arraycopy this.mBuffer (this.mOffset + index) dst offset count

/-- Some bytes from an index on are copied from a part of an array. -/
def copyIn (src : Nat) (offset size index : UInt64) : Method Unit := do
  checkBufferOverflow index size
  let this ← self
  arraycopy src offset this.mBuffer (this.mOffset + index) size

theorem confined_copyOut_iff :
    Confined (copyOut array offset count st.this.mPosition)
        (Passed.Allows ⟨array, offset, count⟩ st) st ↔
      Passed.Safe ⟨array, offset, count⟩ st := by
  have enters (st' : Scope) (accepted : st.this.mPosition + count ≤ st'.this.mLimit) :
      outcome (copyOut array offset count st.this.mPosition) st' =
        outcome (arraycopy st'.this.mBuffer (st'.this.mOffset + st.this.mPosition) array offset
          count) st' := by
    rw [copyOut, outcome_bind_ok (outcome_checkBufferUnderflow accepted),
      outcome_bind_ok outcome_self]
  apply Passed.confined_copy_iff
  · intro never
    by_cases limit : st.this.mPosition + count ≤ st.this.mLimit
    · rw [enters st limit]
      apply outcome_arraycopy_throws
      intro found own present passes
      by_contra accepted
      rw [not_or] at accepted
      exact never own found ⟨passes, UInt64.not_lt.mp accepted.2, limit, present,
        UInt64.not_lt.mp accepted.1⟩
    · refine ⟨.bufferUnderflowException, by decide, ?_⟩
      rw [copyOut, outcome_bind_error (outcome_underflow limit)]
  · intro own found accepted outside
    rw [enters st accepted.limit]
    apply outcome_arraycopy_undefined accepted.present accepted.passes _ outside
    exact not_or.mpr ⟨UInt64.not_lt.mpr accepted.array, UInt64.not_lt.mpr accepted.within⟩
  · intro own found accepted fits inside
    simp only at fits inside
    have runs (st' : Scope) (own' found' : ByteArray) (keeps : Keeps st st')
        (passes : st'.arrays[array]? = some own')
        (present : st'.arrays[st.this.mBuffer]? = some found') :
        ∃ fits', outcome (copyOut array offset count st.this.mPosition) st' = (.ok (),
          st'.fill array (own'.overwrite offset.toNat
            ((found'.bytes.drop (st.this.mOffset + st.this.mPosition).toNat).take count.toNat)
            fits')) := by
      have same := length_of_keeps keeps accepted.present present
      have same' := length_of_keeps keeps accepted.passes passes
      rw [enters st' (keeps.this ▸ accepted.limit), keeps.this]
      have fits' : offset.toNat + ((found'.bytes.drop
          (st.this.mOffset + st.this.mPosition).toNat).take count.toNat).length ≤
            own'.bytes.length := by
        rw [List.length_take, same']
        omega
      refine ⟨fits', outcome_arraycopy present passes (by rwa [same]) fits' ?_⟩
      rw [ByteArray.size, ByteArray.size, same, same']
      exact not_or.mpr ⟨UInt64.not_lt.mpr accepted.array, UInt64.not_lt.mpr accepted.within⟩
    obtain ⟨fits', ran⟩ := runs st own found (Keeps.refl st) accepted.passes accepted.present
    exact ⟨⟨_, ran⟩, fun k outside => Passed.unreached_get_iff accepted fits runs outside⟩

theorem confined_copyIn_iff :
    Confined (copyIn array offset count st.this.mPosition)
        (Passed.Allows ⟨array, offset, count⟩ st) st ↔
      Passed.Safe ⟨array, offset, count⟩ st := by
  have enters (st' : Scope) (accepted : st.this.mPosition + count ≤ st'.this.mLimit) :
      outcome (copyIn array offset count st.this.mPosition) st' =
        outcome (arraycopy array offset st'.this.mBuffer (st'.this.mOffset + st.this.mPosition)
          count) st' := by
    rw [copyIn, outcome_bind_ok (outcome_checkBufferOverflow accepted),
      outcome_bind_ok outcome_self]
  apply Passed.confined_copy_iff
  · intro never
    by_cases limit : st.this.mPosition + count ≤ st.this.mLimit
    · rw [enters st limit]
      apply outcome_arraycopy_throws
      intro own found passes present
      by_contra accepted
      rw [not_or] at accepted
      exact never own found ⟨passes, UInt64.not_lt.mp accepted.1, limit, present,
        UInt64.not_lt.mp accepted.2⟩
    · refine ⟨.bufferOverflowException "", by decide, ?_⟩
      rw [copyIn, outcome_bind_error (outcome_overflow limit)]
  · intro own found accepted outside
    rw [enters st accepted.limit]
    apply outcome_arraycopy_undefined accepted.passes accepted.present _
      fun inside => outside inside.symm
    exact not_or.mpr ⟨UInt64.not_lt.mpr accepted.within, UInt64.not_lt.mpr accepted.array⟩
  · intro own found accepted fits inside
    simp only at fits inside
    have runs (st' : Scope) (own' found' : ByteArray) (keeps : Keeps st st')
        (passes : st'.arrays[array]? = some own')
        (present : st'.arrays[st.this.mBuffer]? = some found') :
        ∃ fits', outcome (copyIn array offset count st.this.mPosition) st' = (.ok (),
          st'.fill st.this.mBuffer
            (found'.overwrite (st.this.mOffset + st.this.mPosition).toNat
              ((own'.bytes.drop offset.toNat).take count.toNat) fits')) := by
      have same := length_of_keeps keeps accepted.present present
      have same' := length_of_keeps keeps accepted.passes passes
      rw [enters st' (keeps.this ▸ accepted.limit), keeps.this]
      have fits' : (st.this.mOffset + st.this.mPosition).toNat +
          ((own'.bytes.drop offset.toNat).take count.toNat).length ≤ found'.bytes.length := by
        rw [List.length_take, same]
        omega
      refine ⟨fits', outcome_arraycopy passes present (by rwa [same']) fits' ?_⟩
      rw [ByteArray.size, ByteArray.size, same, same']
      exact not_or.mpr ⟨UInt64.not_lt.mpr accepted.within, UInt64.not_lt.mpr accepted.array⟩
    obtain ⟨fits', ran⟩ := runs st own found (Keeps.refl st) accepted.passes accepted.present
    exact ⟨⟨_, ran⟩,
      fun k outside => Passed.unreached_put_iff accepted fits inside runs outside⟩

/-- The part of the array that is passed is checked before anything else. -/
theorem confined_checked_iff {call : Method Unit} (access : Method Unit) {part : Passed}
    (null : st.arrays[part.array]? = none →
      outcome call st = (.error .nullPointerException, st))
    (refused : ∀ own, st.arrays[part.array]? = some own → part.offset + part.count > own.size →
      outcome call st = (.error (.indexOutOfBoundsException ""), st))
    (enters : ∀ st' own, st'.arrays[part.array]? = some own →
      ¬part.offset + part.count > own.size → outcome call st' = outcome access st')
    (confined : Confined access (part.Allows st) st ↔ part.Safe st) :
    Confined call (part.Allows st) st ↔ part.Safe st := by
  cases passes : st.arrays[part.array]? with
  | none =>
      apply iff_of_true (confined_of_threw (null passes) (by decide))
      intro own found accepted
      cases passes.symm.trans accepted.passes
  | some own =>
      by_cases outside : part.offset + part.count > own.size
      · apply iff_of_true (confined_of_threw (refused own passes outside) (by decide))
        intro own' found accepted
        have within := accepted.within
        rw [← Option.some.inj (passes.symm.trans accepted.passes)] at within
        exact absurd outside (UInt64.not_lt.mpr within)
      · rw [← confined]
        apply confined_congr
        intro st' keeps
        cases passes' : st'.arrays[part.array]? with
        | none =>
            have kept := congrArg (fun all : List UInt64 => all[part.array]?) keeps.sizes
            simp [sizes, passes, passes'] at kept
        | some own' =>
            apply enters st' own' passes'
            rwa [ByteArray.size, length_of_keeps keeps passes passes']

theorem confined_getRange_iff :
    Confined (getRange array offset count) (Passed.Allows ⟨array, offset, count⟩ st) st ↔
      Passed.Safe ⟨array, offset, count⟩ st := by
  apply confined_checked_iff (relative count (copyOut array offset count))
  · intro null
    rw [getRange, outcome_bind_error (outcome_lookup_null null)]
  · intro own passes outside
    rw [getRange, outcome_bind_ok (outcome_lookup passes), if_pos outside]
    rfl
  · intro st' own passes within
    rw [getRange, outcome_bind_ok (outcome_lookup passes), if_neg within]
    rfl
  · rw [confined_relative_iff]
    exact confined_copyOut_iff

theorem confined_putRange_iff :
    Confined (putRange array offset count) (Passed.Allows ⟨array, offset, count⟩ st) st ↔
      Passed.Safe ⟨array, offset, count⟩ st := by
  apply confined_checked_iff (relative count (copyIn array offset count))
  · intro null
    rw [putRange, outcome_bind_error (outcome_lookup_null null)]
  · intro own passes outside
    rw [putRange, outcome_bind_ok (outcome_lookup passes), if_pos outside]
    rfl
  · intro st' own passes within
    rw [putRange, outcome_bind_ok (outcome_lookup passes), if_neg within]
    rfl
  · rw [confined_relative_iff]
    exact confined_copyIn_iff

end Ranges

/-! ## All accesses -/

section Numbers

variable {st : Scope} {width count : Nat} {bytes : UInt64}

/-- A number tells the bytes it is read from. -/
theorem number_injective (wide : 2 ^ width = 256 ^ count) (data other : List UInt8)
    (length : data.length = count) (length' : other.length = count)
    (same : number width data = number width other) : data = other := by
  have small := ofBytes_lt data
  have small' := ofBytes_lt other
  rw [length, ← wide] at small
  rw [length', ← wide] at small'
  have numbers := congrArg BitVec.toNat same
  rw [number, number, BitVec.toNat_ofNat, BitVec.toNat_ofNat, Nat.mod_eq_of_lt small,
    Nat.mod_eq_of_lt small'] at numbers
  exact ofBytes_injective (length.trans length'.symm) numbers

theorem confined_getNumber_iff {index : UInt64} (wide : 2 ^ width = 256 ^ bytes.toNat)
    (positive : 0 < bytes.toNat) :
    Confined (number width <$> load bytes index) st.Region st ↔ st.SafeAt index bytes :=
  confined_load_iff positive (number_injective wide)

end Numbers

namespace Access

/-- When an access that does not throw reaches only bytes that it may reach. -/
def Safe : Access → Scope → Prop
  | get, st | getChar, st | put _, st | putChar _, st => st.SafeByteAt st.this.mPosition
  | getAt index, st | getCharAt index, st | putAt index _, st | putCharAt index _, st =>
      st.SafeByteAt index
  | getShort, st | putShort _, st => st.SafeAt st.this.mPosition 2
  | getShortAt index, st | putShortAt index _, st => st.SafeAt index 2
  | getFloat, st | getInt, st | putFloat _, st | putInt _, st => st.SafeAt st.this.mPosition 4
  | getFloatAt index, st | getIntAt index, st | putFloatAt index _, st | putIntAt index _, st =>
      st.SafeAt index 4
  | getDouble, st | getLong, st | putDouble _, st | putLong _, st =>
      st.SafeAt st.this.mPosition 8
  | getDoubleAt index, st | getLongAt index, st | putDoubleAt index _, st
  | putLongAt index _, st => st.SafeAt index 8
  | getRange dst offset count, st => Passed.Safe ⟨dst, offset, count⟩ st
  | putRange src offset size, st => Passed.Safe ⟨src, offset, size⟩ st
  | getAll array, st | putAll array, st =>
      ∃ own, st.arrays[array]? = some own ∧ Passed.Safe ⟨array, 0, own.size⟩ st

variable {st : Scope}

theorem allowed_of_none {access : Access} (none : access.passed st = none) :
    access.Allowed st = st.Region := by
  funext index
  rw [Allowed, none]
  simp

theorem allowed_of_some {access : Access} {part : Passed} (passes : access.passed st = some part) :
    access.Allowed st = part.Allows st := by
  funext index
  rw [Allowed, passes]
  simp [Passed.Allows]

/-- A whole array is passed. -/
theorem confined_all_iff {access : Access} {array : Nat} {call : Method Unit}
    {range : UInt64 → Method Unit}
    (whole : access.passed st = (st.arrays[array]?).map fun found => ⟨array, 0, found.size⟩)
    (enters : call = do range (← lookup array .undefined).size)
    (confined : ∀ count, Confined (range count) (Passed.Allows ⟨array, 0, count⟩ st) st ↔
      Passed.Safe ⟨array, 0, count⟩ st) :
    Confined call (access.Allowed st) st ↔
      ∃ own, st.arrays[array]? = some own ∧ Passed.Safe ⟨array, 0, own.size⟩ st := by
  cases passes : st.arrays[array]? with
  | none =>
      have ran : outcome call st = (.error .undefined, st) := by
        rw [enters, outcome_bind_error (outcome_lookup_null passes)]
      apply iff_of_false (not_confined_of_undefined ran)
      rintro ⟨own, present, _⟩
      cases present
  | some own =>
      rw [passes] at whole
      rw [allowed_of_some whole]
      have same : Confined call (Passed.Allows ⟨array, 0, own.size⟩ st) st ↔
          Confined (range own.size) (Passed.Allows ⟨array, 0, own.size⟩ st) st := by
        apply confined_congr
        intro st' keeps
        cases passes' : st'.arrays[array]? with
        | none =>
            have kept := congrArg (fun all : List UInt64 => all[array]?) keeps.sizes
            simp [sizes, passes, passes'] at kept
        | some own' =>
            have size : own'.size = own.size := by
              rw [ByteArray.size, length_of_keeps keeps passes passes', ByteArray.size]
            rw [enters, outcome_bind_ok (outcome_lookup passes'), size]
      rw [same, confined own.size]
      simp

theorem confined_put_iff {value : UInt8} :
    Confined (Nio.put value) st.Region st ↔ st.SafeByteAt st.this.mPosition :=
  confined_moved_iff.trans (@confined_putAt_iff (st.advance 1) _ _)

theorem confined_putDouble_iff {value : BitVec 64} :
    Confined (Nio.putDouble value) st.Region st ↔ st.SafeAt st.this.mPosition 8 :=
  confined_relative_iff.trans (confined_store_iff (by decide))

theorem confined_putFloat_iff {value : BitVec 32} :
    Confined (Nio.putFloat value) st.Region st ↔ st.SafeAt st.this.mPosition 4 :=
  confined_relative_iff.trans (confined_store_iff (by decide))

theorem confined_putInt_iff {value : BitVec 32} :
    Confined (Nio.putInt value) st.Region st ↔ st.SafeAt st.this.mPosition 4 :=
  confined_relative_iff.trans (confined_store_iff (by decide))

theorem confined_putLong_iff {value : BitVec 64} :
    Confined (Nio.putLong value) st.Region st ↔ st.SafeAt st.this.mPosition 8 :=
  confined_relative_iff.trans (confined_store_iff (by decide))

theorem confined_putShort_iff {value : BitVec 16} :
    Confined (Nio.putShort value) st.Region st ↔ st.SafeAt st.this.mPosition 2 :=
  confined_relative_iff.trans (confined_store_iff (by decide))

/-- An access through a buffer stays in the region of the buffer exactly if no sum wraps. -/
theorem confined_iff (access : Access) (st : Scope) :
    Confined access.method (access.Allowed st) st ↔ access.Safe st := by
  cases access with
  | get =>
      rw [allowed_of_none rfl]
      exact confined_moved_iff.trans confined_getAt_iff
  | getChar =>
      rw [allowed_of_none rfl]
      exact confined_relative_iff.trans confined_getAt_iff
  | getDouble =>
      rw [allowed_of_none rfl]
      exact confined_relative_iff.trans (confined_getNumber_iff (by decide) (by decide))
  | getFloat =>
      rw [allowed_of_none rfl]
      exact confined_relative_iff.trans (confined_getNumber_iff (by decide) (by decide))
  | getInt =>
      rw [allowed_of_none rfl]
      exact confined_relative_iff.trans (confined_getNumber_iff (by decide) (by decide))
  | getLong =>
      rw [allowed_of_none rfl]
      exact confined_relative_iff.trans (confined_getNumber_iff (by decide) (by decide))
  | getShort =>
      rw [allowed_of_none rfl]
      exact confined_relative_iff.trans (confined_getNumber_iff (by decide) (by decide))
  | getAt index =>
      rw [allowed_of_none rfl]
      exact confined_getAt_iff
  | getCharAt index =>
      rw [allowed_of_none rfl]
      exact confined_getAt_iff
  | getDoubleAt index =>
      rw [allowed_of_none rfl]
      exact confined_getNumber_iff (by decide) (by decide)
  | getFloatAt index =>
      rw [allowed_of_none rfl]
      exact confined_getNumber_iff (by decide) (by decide)
  | getIntAt index =>
      rw [allowed_of_none rfl]
      exact confined_getNumber_iff (by decide) (by decide)
  | getLongAt index =>
      rw [allowed_of_none rfl]
      exact confined_getNumber_iff (by decide) (by decide)
  | getShortAt index =>
      rw [allowed_of_none rfl]
      exact confined_getNumber_iff (by decide) (by decide)
  | getRange dst offset count =>
      rw [allowed_of_some rfl]
      exact confined_getRange_iff
  | getAll dst => exact confined_all_iff rfl rfl fun count => confined_getRange_iff
  | put value =>
      rw [allowed_of_none rfl]
      exact confined_put_iff
  | putChar value =>
      rw [allowed_of_none rfl]
      exact confined_put_iff
  | putDouble value =>
      rw [allowed_of_none rfl]
      exact confined_putDouble_iff
  | putFloat value =>
      rw [allowed_of_none rfl]
      exact confined_putFloat_iff
  | putInt value =>
      rw [allowed_of_none rfl]
      exact confined_putInt_iff
  | putLong value =>
      rw [allowed_of_none rfl]
      exact confined_putLong_iff
  | putShort value =>
      rw [allowed_of_none rfl]
      exact confined_putShort_iff
  | putAt index value =>
      rw [allowed_of_none rfl]
      exact confined_putAt_iff
  | putCharAt index value =>
      rw [allowed_of_none rfl]
      exact confined_putAt_iff
  | putDoubleAt index value =>
      rw [allowed_of_none rfl]
      exact confined_store_iff (by decide)
  | putFloatAt index value =>
      rw [allowed_of_none rfl]
      exact confined_store_iff (by decide)
  | putIntAt index value =>
      rw [allowed_of_none rfl]
      exact confined_store_iff (by decide)
  | putLongAt index value =>
      rw [allowed_of_none rfl]
      exact confined_store_iff (by decide)
  | putShortAt index value =>
      rw [allowed_of_none rfl]
      exact confined_store_iff (by decide)
  | putRange src offset size =>
      rw [allowed_of_some rfl]
      exact confined_putRange_iff
  | putAll src => exact confined_all_iff rfl rfl fun count => confined_putRange_iff

/-- The byte before a slice is read at the largest index. -/
theorem slice_reaches_byte_before :
    slice [{ bytes := [1, 2, 3], bounded := by decide }]
        { mBuffer := 0, mOffset := 0, mPosition := 1, mLimit := 3, mCapacity := 3 } =
      .ok { mBuffer := 0, mOffset := 1, mPosition := 0, mLimit := 2, mCapacity := 2 } ∧
    ¬Confined (method (.getAt 18446744073709551615))
      (Allowed (.getAt 18446744073709551615)
        { arrays := [{ bytes := [1, 2, 3], bounded := by decide }]
          this := { mBuffer := 0, mOffset := 1, mPosition := 0, mLimit := 2, mCapacity := 2 } })
      { arrays := [{ bytes := [1, 2, 3], bounded := by decide }]
        this := { mBuffer := 0, mOffset := 1, mPosition := 0, mLimit := 2, mCapacity := 2 } } := by
  refine ⟨by decide, fun confined => ?_⟩
  rw [allowed_of_none rfl] at confined
  have before : ¬Scope.Region
      { arrays := [{ bytes := [1, 2, 3], bounded := by decide }]
        this := { mBuffer := 0, mOffset := 1, mPosition := 0, mLimit := 2, mCapacity := 2 } } 0 :=
    fun region => absurd region.1 (by decide)
  have reads : (.ok 9 : Except Fault UInt8) = .ok 1 := congrArg Prod.fst (confined 0 before 9)
  cases reads

end Access

end Nio

end Mindroid
