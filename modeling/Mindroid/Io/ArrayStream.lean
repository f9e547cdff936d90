import Mindroid.Foundation.Transition
import Mindroid.Io.ByteArrayInputStream
import Mindroid.Lang.Arrays

/-!
# Byte array input streams with fields of type `size_t`

The constructor adds the offset and the count, and `available` and `skip` subtract the position
from the count, all of which may wrap.  The array of the stream may also be the one that bytes
are read into.
-/

set_option autoImplicit false

namespace Mindroid

open Foundation
open Foundation.Throwing
open Method
open Nio (Fault)

namespace ByteArrayInputStream

/-- The array is one of those of the program. -/
structure Fields where
  mBuffer : Nat
  mPosition : UInt64
  mMark : UInt64
  mCount : UInt64
  deriving DecidableEq

namespace Fields

def setPosition (position : UInt64) : Method Fields Unit :=
  modify fun st => { st with this := { st.this with mPosition := position } }

def available : Method Fields UInt64 := do
  let this ← self
  return this.mCount - this.mPosition

/-- The limit is ignored. -/
def mark (_limit : UInt64) : Method Fields Unit :=
  modify fun st => { st with this := { st.this with mMark := st.this.mPosition } }

def read : Method Fields Int := do
  let this ← self
  if this.mPosition < this.mCount then
    setPosition (this.mPosition + 1)
    let value ← arrayGet this.mBuffer this.mPosition
    return value.toNat
  else
    return -1

/-- `read(buffer, offset, count)`. -/
def readRange (buffer : Nat) (offset count : UInt64) : Method Fields Int := do
  if offset + count > (← lookup buffer .nullPointerException).size then
    throw (.indexOutOfBoundsException "")
  else
    let this ← self
    if this.mPosition ≥ this.mCount then
      return -1
    else if count = 0 then
      return 0
    else
      let count :=
        if this.mCount - this.mPosition < count then this.mCount - this.mPosition else count
      Method.arraycopy this.mBuffer this.mPosition buffer offset count
      setPosition (this.mPosition + count)
      return count.toInt64.toInt

def reset : Method Fields Unit := do
  let this ← self
  setPosition this.mMark

def skip (count : UInt64) : Method Fields UInt64 := do
  if count = 0 then
    return 0
  else
    let this ← self
    let position := if this.mCount - this.mPosition < count then this.mCount
      else this.mPosition + count
    setPosition position
    return position - this.mPosition

/-- `new ByteArrayInputStream(buffer)`. -/
def whole (arrays : List Nio.ByteArray) (buffer : Nat) : Except Fault (Memory Fields) :=
  match arrays[buffer]? with
  | none => .error .nullPointerException
  | some found =>
      .ok { arrays := arrays
            this := { mBuffer := buffer, mPosition := 0, mMark := 0, mCount := found.size } }

/-- `new ByteArrayInputStream(buffer, offset, count)`. -/
def part (arrays : List Nio.ByteArray) (buffer : Nat) (offset count : UInt64) :
    Except Fault (Memory Fields) :=
  match arrays[buffer]? with
  | none => .error .nullPointerException
  | some found =>
      .ok { arrays := arrays
            this := { mBuffer := buffer
                      mPosition := offset
                      mMark := offset
                      mCount := if offset + count > found.size then found.size
                        else offset + count } }

/-! ## Calls -/

inductive Call where
  | read
  | readRange (buffer : Nat) (offset count : UInt64)
  | skip (count : UInt64)
  | mark (limit : UInt64)
  | reset
  | available
  deriving DecidableEq

/-- The method that is called; one that gives no number is given a zero here. -/
def Call.method : Call → Method Fields Int
  | .read => Fields.read
  | .readRange buffer offset count => Fields.readRange buffer offset count
  | .skip count => (fun skipped => (skipped.toNat : Int)) <$> Fields.skip count
  | .mark limit => (fun _ => 0) <$> Fields.mark limit
  | .reset => (fun _ => 0) <$> Fields.reset
  | .available => (fun left => (left.toNat : Int)) <$> Fields.available

def step (st : Memory Fields) (call : Call) : Option (Memory Fields) :=
  some (outcome call.method st).2

inductive Construction where
  | whole
  | part (offset count : UInt64)
  deriving DecidableEq

/-- The constructors. -/
def construct (arrays : List Nio.ByteArray) (buffer : Nat) :
    Construction → Except Fault (Memory Fields)
  | .whole => Fields.whole arrays buffer
  | .part offset count => Fields.part arrays buffer offset count

/-! ## What a stream shall do -/

/-- Where the bytes of a stream begin in an array of this size, and where they end. -/
def Construction.first : Construction → Nat
  | .whole => 0
  | .part offset _ => offset.toNat

def Construction.stop (size : Nat) : Construction → Nat
  | .whole => size
  | .part offset count => min (offset.toNat + count.toNat) size

/-- The fields are in order, and the stream is between its first byte and the end of its bytes. -/
structure Within (first stop : Nat) (st : Memory Fields) : Prop where
  starts : first ≤ st.this.mMark.toNat
  mark : st.this.mMark.toNat ≤ st.this.mPosition.toNat
  position : st.this.mPosition.toNat ≤ st.this.mCount.toNat
  count : st.this.mCount.toNat = stop
  buffer : ∃ found, st.arrays[st.this.mBuffer]? = some found ∧
    st.this.mCount.toNat ≤ found.bytes.length

/-- Exactly this number of bytes can be read one after the other. -/
inductive CanRead : Memory Fields → Nat → Prop where
  | atEnd {st : Memory Fields} (ends : (outcome read st).1 = .ok (-1)) : CanRead st 0
  | byte {st : Memory Fields} {value : UInt8} {left : Nat}
      (reads : (outcome read st).1 = .ok value.toNat) (later : CanRead (outcome read st).2 left) :
      CanRead st (left + 1)

/-- Only the position has changed, by this amount. -/
def Advances (before after : Fields) (amount : Nat) : Prop :=
  after.mPosition.toNat = before.mPosition.toNat + amount ∧
    after = { before with mPosition := after.mPosition }

/-- What a call gives, and what is in memory after it. -/
def Answers (stop : Nat) (before : Memory Fields) :
    Call → Except Fault Int → Memory Fields → Prop
  | .read, reply, after =>
      (∃ value, before.this.mPosition.toNat < stop ∧
        before.range before.this.mBuffer before.this.mPosition.toNat 1 = [value] ∧
          reply = .ok value.toNat ∧ after.arrays = before.arrays ∧
            Advances before.this after.this 1) ∨
        before.this.mPosition.toNat = stop ∧ reply = .ok (-1) ∧ after = before
  | .readRange buffer offset count, reply, after =>
      (∃ target written : Nio.ByteArray, ∃ amount : Nat, reply = .ok amount ∧
        before.this.mPosition.toNat < stop ∧
          amount = min count.toNat (stop - before.this.mPosition.toNat) ∧
            before.arrays[buffer]? = some target ∧
              offset.toNat + amount ≤ target.bytes.length ∧
                written.bytes = overwrite target.bytes offset.toNat
                  (before.range before.this.mBuffer before.this.mPosition.toNat amount) ∧
                  after.arrays = before.arrays.set buffer written ∧
                    Advances before.this after.this amount) ∨
        (before.this.mPosition.toNat = stop ∧ reply = .ok (-1) ∧ after = before) ∨
          ∃ thrown, reply = .error thrown ∧ thrown ≠ .undefined ∧ after = before ∧
            ∀ target, before.arrays[buffer]? = some target →
              target.bytes.length < offset.toNat + count.toNat
  | .skip count, reply, after =>
      ∃ skipped : Nat, reply = .ok skipped ∧
        skipped ≤ min count.toNat (stop - before.this.mPosition.toNat) ∧
          after.arrays = before.arrays ∧ Advances before.this after.this skipped
  | .mark _, reply, after =>
      reply = .ok 0 ∧
        after = { before with this := { before.this with mMark := before.this.mPosition } }
  | .reset, reply, after =>
      reply = .ok 0 ∧
        after = { before with this := { before.this with mPosition := before.this.mMark } }
  | .available, reply, after =>
      ∃ left : Nat, reply = .ok left ∧ CanRead before left ∧ after = before

/-- A call gives what it shall give, and keeps the stream within its bytes. -/
structure Delivers (first stop : Nat) (before : Memory Fields) (call : Call)
    (after : Memory Fields) : Prop where
  answers : Answers stop before call (outcome call.method before).1 after
  within : Within first stop after

/-- The bytes that a call copies have a place in the array that they are copied to, if the
checks accept it, and it is apart from them. -/
def Placed (before : Memory Fields) : Call → Prop
  | .readRange buffer offset count =>
      ∀ (target : Nio.ByteArray) (amount : Nat), before.arrays[buffer]? = some target →
        amount = min count.toNat (before.this.mCount.toNat - before.this.mPosition.toNat) →
          0 < amount → (offset.toNat + count.toNat) % 2 ^ 64 ≤ target.bytes.length →
            (offset.toNat + amount) % 2 ^ 64 ≤ target.bytes.length →
              offset.toNat + amount ≤ target.bytes.length ∧
                (before.this.mBuffer = buffer →
                  before.this.mPosition.toNat + amount ≤ offset.toNat ∨
                    offset.toNat + amount ≤ before.this.mPosition.toNat)
  | _ => True

/-- The offset is in the array, and the sum of offset and count does not wrap. -/
def Construction.Inside (size : Nat) : Construction → Prop
  | .whole => True
  | .part offset count => offset.toNat ≤ size ∧ offset.toNat + count.toNat < 2 ^ 64

/-! ## Single calls -/

variable {first stop : Nat} {st : Memory Fields}

theorem Within.toNat_left (within : Within first stop st) :
    (st.this.mCount - st.this.mPosition).toNat = stop - st.this.mPosition.toNat := by
  rw [UInt64.toNat_sub_of_le _ _ within.position, within.count]

theorem Within.position_le (within : Within first stop st) : st.this.mPosition.toNat ≤ stop := by
  rw [← within.count]
  exact within.position

/-- The stream stays within its bytes when it advances by at most as many as are left. -/
theorem Within.advance {after : Memory Fields} {amount : Nat} (within : Within first stop st)
    (few : amount ≤ stop - st.this.mPosition.toNat)
    (advances : Advances st.this after.this amount)
    (buffer : ∃ found, after.arrays[st.this.mBuffer]? = some found ∧
      st.this.mCount.toNat ≤ found.bytes.length) :
    Within first stop after := by
  obtain ⟨moved, same⟩ := advances
  have sameMark : after.this.mMark = st.this.mMark := by rw [same]
  have sameCount : after.this.mCount = st.this.mCount := by rw [same]
  have sameBuffer : after.this.mBuffer = st.this.mBuffer := by rw [same]
  have before := within.position_le
  have ordered := within.mark
  exact {
    starts := by rw [sameMark]; exact within.starts
    mark := by rw [sameMark]; omega
    position := by rw [sameCount, within.count]; omega
    count := by rw [sameCount, within.count]
    buffer := by rw [sameBuffer, sameCount]; exact buffer }

/-- What the rules have to show of a call. -/
def Behaves (first stop : Nat) (st : Memory Fields) (call : Call) : Prop :=
  Leads call.method
    (fun result after => Answers stop st call (.ok result) after ∧ Within first stop after)
    (fun thrown after => Answers stop st call (.error thrown) after ∧ Within first stop after) st

theorem delivers_iff_behaves {call : Call} :
    Delivers first stop st call (outcome call.method st).2 ↔ Behaves first stop st call := by
  rw [Behaves, @leads_iff_outcome _ _ _ _ _ fun reply after =>
    Answers stop st call reply after ∧ Within first stop after]
  exact ⟨fun delivers => ⟨delivers.answers, delivers.within⟩, fun both => ⟨both.1, both.2⟩⟩

theorem read_behaves (within : Within first stop st) : Behaves first stop st .read := by
  change Leads read _ _ st
  obtain ⟨found, isFound, inside⟩ := within.buffer
  rw [read, leads_bind, leads_self, leads_ite]
  constructor
  · intro left
    rw [UInt64.lt_iff_toNat_lt, within.count] at left
    have bounded := found.bounded
    have counted := within.count
    have isByte : st.this.mPosition.toNat < found.bytes.length := by omega
    have moved : (st.this.mPosition + 1).toNat = st.this.mPosition.toNat + 1 :=
      toNat_add_of_small (by change _ + 1 < _; omega)
    rw [leads_bind, setPosition, leads_modify, leads_bind]
    refine (leads_arrayGet ?_ (List.getElem?_eq_getElem isByte)).mpr ?_
    · exact isFound
    rw [leads_pure]
    refine ⟨.inl ⟨_, left, ?_, rfl, rfl, moved, rfl⟩, ?_⟩
    · rw [Memory.range, isFound]
      simp only
      rw [List.take_one, List.head?_drop, List.getElem?_eq_getElem isByte]
      rfl
    · exact within.advance (by omega) ⟨moved, rfl⟩ ⟨found, isFound, inside⟩
  · intro atEnd
    rw [UInt64.lt_iff_toNat_lt, within.count] at atEnd
    have ends : st.this.mPosition.toNat = stop :=
      Nat.le_antisymm within.position_le (Nat.not_lt.mp atEnd)
    exact ⟨.inr ⟨ends, rfl, rfl⟩, within⟩

/-- After the reads that are left, the end of the bytes is reached. -/
theorem canRead_left {left : Nat} (within : Within first stop st)
    (isLeft : left = stop - st.this.mPosition.toNat) : CanRead st left := by
  induction left generalizing st with
  | zero =>
      rcases (delivers_iff_behaves.mpr (read_behaves within)).answers with
        ⟨value, before, -⟩ | ⟨-, ends, -⟩
      · omega
      · exact .atEnd ends
  | succ left ih =>
      have delivers := delivers_iff_behaves.mpr (read_behaves within)
      rcases delivers.answers with ⟨value, -, -, reads, -, moved, -⟩ | ⟨ends, -⟩
      · have later : left = stop - (outcome Call.read.method st).2.this.mPosition.toNat := by
          rw [moved]
          omega
        exact .byte reads (ih delivers.within later)
      · omega

theorem available_behaves (within : Within first stop st) :
    Behaves first stop st .available :=
  ⟨⟨_, rfl, canRead_left within within.toNat_left, rfl⟩, within⟩

theorem mark_behaves (within : Within first stop st) (limit : UInt64) :
    Behaves first stop st (.mark limit) :=
  ⟨⟨rfl, rfl⟩, {
    starts := Nat.le_trans within.starts within.mark
    mark := Nat.le_refl _
    position := within.position
    count := within.count
    buffer := within.buffer }⟩

theorem reset_behaves (within : Within first stop st) : Behaves first stop st .reset :=
  ⟨⟨rfl, rfl⟩, {
    starts := within.starts
    mark := Nat.le_refl _
    position := Nat.le_trans within.mark within.position
    count := within.count
    buffer := within.buffer }⟩

theorem skip_behaves (within : Within first stop st) (count : UInt64) :
    Behaves first stop st (.skip count) := by
  change Leads ((fun skipped => (skipped.toNat : Int)) <$> skip count) _ _ st
  have counted := within.count
  have bound := within.position_le
  have small := st.this.mCount.toNat_lt
  rw [leads_map, skip, leads_ite]
  constructor
  · rintro rfl
    exact ⟨⟨0, rfl, Nat.zero_le _, rfl, rfl, rfl⟩, within⟩
  · intro _
    rw [leads_bind, leads_self, leads_bind, setPosition, leads_modify, leads_pure]
    generalize chosen : (if st.this.mCount - st.this.mPosition < count then st.this.mCount
      else st.this.mPosition + count) = position
    have moved : position.toNat =
        st.this.mPosition.toNat + min count.toNat (stop - st.this.mPosition.toNat) := by
      rw [← chosen]
      split
      · rename_i few
        rw [UInt64.lt_iff_toNat_lt, within.toNat_left] at few
        omega
      · rename_i enough
        rw [UInt64.lt_iff_toNat_lt, within.toNat_left] at enough
        rw [toNat_add_of_small (by omega)]
        omega
    have skipped : (position - st.this.mPosition).toNat =
        min count.toNat (stop - st.this.mPosition.toNat) := by
      rw [UInt64.toNat_sub_of_le _ _ (by rw [UInt64.le_iff_toNat_le]; omega), moved]
      omega
    refine ⟨⟨_, rfl, Nat.le_of_eq skipped, rfl, ?_, rfl⟩, ?_⟩
    · rw [skipped]
      exact moved
    · exact within.advance (Nat.min_le_right _ _) ⟨moved, rfl⟩ within.buffer

theorem toInt_toInt64 {count : UInt64} (small : count.toNat < 2 ^ 63) :
    count.toInt64.toInt = count.toNat := by
  have bits : count.toBitVec.toInt = count.toBitVec.toNat :=
    BitVec.toInt_eq_toNat_of_lt (by rw [UInt64.toNat_toBitVec]; omega)
  exact bits

section BulkRead

variable {buffer : Nat} {offset count : UInt64} {source target : Nio.ByteArray}

/-- The number of bytes that a bulk read copies, if there are any left. -/
def amountOf (this : Fields) (count : UInt64) : UInt64 :=
  if this.mCount - this.mPosition < count then this.mCount - this.mPosition else count

theorem Within.toNat_amountOf (within : Within first stop st) (count : UInt64) :
    (amountOf st.this count).toNat = min count.toNat (stop - st.this.mPosition.toNat) := by
  have left := within.toNat_left
  unfold amountOf
  split
  · rename_i few
    rw [UInt64.lt_iff_toNat_lt, left] at few
    omega
  · rename_i enough
    rw [UInt64.lt_iff_toNat_lt, left] at enough
    omega

theorem size_lt_add_iff (a b : UInt64) :
    a + b > target.size ↔ target.bytes.length < (a.toNat + b.toNat) % 2 ^ 64 := by
  rw [gt_iff_lt, UInt64.lt_iff_toNat_lt, UInt64.toNat_add, Nio.ByteArray.toNat_size]

/-- A bulk read of at least a byte, with bytes left and an array that has room by the first
check, comes to its copy. -/
theorem readRange_copies {returns : Int → Memory Fields → Prop}
    {throws : Fault → Memory Fields → Prop} (within : Within first stop st)
    (isTarget : st.arrays[buffer]? = some target)
    (accepted : ¬offset + count > target.size) (left : st.this.mPosition.toNat < stop)
    (positive : count ≠ 0) :
    Leads (readRange buffer offset count) returns throws st ↔
      Leads (Method.arraycopy st.this.mBuffer st.this.mPosition buffer offset
          (amountOf st.this count))
        (fun _ after => returns (amountOf st.this count).toInt64.toInt { after with
          this := { after.this with mPosition := st.this.mPosition + amountOf st.this count } })
        throws st := by
  have before : ¬st.this.mPosition ≥ st.this.mCount := by
    rw [ge_iff_le, UInt64.le_iff_toNat_le, within.count]
    exact Nat.not_le.mpr left
  rw [readRange, leads_bind, leads_lookup_some isTarget, if_neg accepted, leads_bind, leads_self,
    if_neg before, if_neg positive, leads_bind]
  exact Iff.rfl

/-- At the end of the bytes, nothing is read. -/
theorem readRange_atEnd (within : Within first stop st)
    (isTarget : st.arrays[buffer]? = some target) (accepted : ¬offset + count > target.size)
    (ends : st.this.mPosition.toNat = stop) :
    Behaves first stop st (.readRange buffer offset count) := by
  change Leads (readRange buffer offset count) _ _ st
  have atEnd : st.this.mPosition ≥ st.this.mCount := by
    rw [ge_iff_le, UInt64.le_iff_toNat_le, within.count, ends]
  rw [readRange, leads_bind, leads_lookup_some isTarget, if_neg accepted, leads_bind, leads_self,
    if_pos atEnd, leads_pure]
  exact ⟨.inr (.inl ⟨ends, rfl, rfl⟩), within⟩

theorem readRange_zero (within : Within first stop st)
    (isTarget : st.arrays[buffer]? = some target) (accepted : ¬offset + 0 > target.size)
    (left : st.this.mPosition.toNat < stop) :
    Behaves first stop st (.readRange buffer offset 0) := by
  change Leads (readRange buffer offset 0) _ _ st
  have before : ¬st.this.mPosition ≥ st.this.mCount := by
    rw [ge_iff_le, UInt64.le_iff_toNat_le, within.count]
    exact Nat.not_le.mpr left
  rw [readRange, leads_bind, leads_lookup_some isTarget, if_neg accepted, leads_bind, leads_self,
    if_neg before, if_pos rfl, leads_pure]
  rw [size_lt_add_iff, UInt64.toNat_zero, Nat.add_zero, Nat.mod_eq_of_lt offset.toNat_lt,
    Nat.not_lt] at accepted
  obtain ⟨inside, same⟩ := List.getElem?_eq_some_iff.mp isTarget
  refine ⟨.inl ⟨target, target, 0, rfl, left, ?_, isTarget, accepted, ?_, ?_, rfl, rfl⟩, within⟩
  · rw [UInt64.toNat_zero, Nat.zero_min]
  · have nothing : st.range st.this.mBuffer st.this.mPosition.toNat 0 = [] := by
      unfold Memory.range
      cases st.arrays[st.this.mBuffer]? with
      | none => rfl
      | some found => exact List.take_zero
    rw [nothing, overwrite_nil]
  · rw [← same, List.set_getElem_self]

/-- The bytes are copied to a place that is apart from them. -/
theorem readRange_placed (within : Within first stop st)
    (isTarget : st.arrays[buffer]? = some target) (accepted : ¬offset + count > target.size)
    (left : st.this.mPosition.toNat < stop) (positive : count ≠ 0)
    (inTarget : offset.toNat + (amountOf st.this count).toNat ≤ target.bytes.length)
    (apart : st.this.mBuffer = buffer →
      st.this.mPosition.toNat + (amountOf st.this count).toNat ≤ offset.toNat ∨
        offset.toNat + (amountOf st.this count).toNat ≤ st.this.mPosition.toNat) :
    Behaves first stop st (.readRange buffer offset count) := by
  change Leads (readRange buffer offset count) _ _ st
  obtain ⟨found, isFound, inside⟩ := within.buffer
  have amount := within.toNat_amountOf count
  have counted := within.count
  have bounded := found.bounded
  rw [readRange_copies within isTarget accepted left positive]
  apply Method.arraycopy_copies isFound isTarget (by omega) inTarget
  · rintro ⟨own, overlap⟩
    have split := apart own
    unfold Overlap at overlap
    omega
  · intro copied bytes
    have sum : (st.this.mPosition + amountOf st.this count).toNat =
        st.this.mPosition.toNat + (amountOf st.this count).toNat :=
      toNat_add_of_small (by omega)
    have filled : copied.bytes.length = target.bytes.length := by
      rw [bytes, length_overwrite]
      rw [List.length_take, List.length_drop]
      omega
    refine ⟨.inl ⟨target, copied, (amountOf st.this count).toNat, ?_, left, amount, isTarget,
      inTarget, ?_, rfl, sum, rfl⟩, ?_⟩
    · rw [toInt_toInt64 (by omega)]
    · rw [bytes, Memory.range, isFound]
    · obtain ⟨found', isFound', size⟩ := st.present_fill isTarget filled isFound
      exact within.advance (by omega) ⟨sum, rfl⟩ ⟨found', isFound', size ▸ inside⟩

/-- What a bulk read copies has a place, or the read throws or is at the end. -/
theorem readRange_behaves (within : Within first stop st)
    (placed : Placed st (.readRange buffer offset count)) :
    Behaves first stop st (.readRange buffer offset count) := by
  cases isTarget : st.arrays[buffer]? with
  | none =>
      change Leads (readRange buffer offset count) _ _ st
      rw [readRange, leads_bind, leads_lookup_none isTarget]
      refine ⟨.inr (.inr ⟨_, rfl, Fault.noConfusion, rfl, ?_⟩), within⟩
      intro target present
      cases isTarget.symm.trans present
  | some target =>
      have refused : target.bytes.length < offset.toNat + count.toNat →
          Answers stop st (.readRange buffer offset count)
            (.error (.indexOutOfBoundsException "")) st := by
        intro beyond
        refine .inr (.inr ⟨_, rfl, Fault.noConfusion, rfl, ?_⟩)
        intro other present
        cases isTarget.symm.trans present
        exact beyond
      by_cases accepted : offset + count > target.size
      · change Leads (readRange buffer offset count) _ _ st
        rw [readRange, leads_bind, leads_lookup_some isTarget, if_pos accepted, leads_throw]
        rw [size_lt_add_iff] at accepted
        exact ⟨refused (Nat.lt_of_lt_of_le accepted (Nat.mod_le _ _)), within⟩
      by_cases left : st.this.mPosition.toNat < stop
      · by_cases none : count = 0
        · subst none
          exact readRange_zero within isTarget accepted left
        · obtain ⟨found, isFound, inside⟩ := within.buffer
          have amount := within.toNat_amountOf count
          by_cases fits : offset + amountOf st.this count > target.size
          · change Leads (readRange buffer offset count) _ _ st
            rw [readRange_copies within isTarget accepted left none,
              Method.arraycopy_refuses isFound isTarget (.inr fits)]
            rw [size_lt_add_iff] at fits
            have beyond := Nat.lt_of_lt_of_le fits (Nat.mod_le _ _)
            exact ⟨refused (by omega), within⟩
          · have some : 0 < count.toNat :=
              Nat.pos_of_ne_zero fun zero => none (UInt64.toNat_inj.mp zero)
            obtain ⟨inTarget, apart⟩ := placed target (amountOf st.this count).toNat isTarget
              (by rw [amount, within.count]) (by omega)
              (by rwa [size_lt_add_iff, Nat.not_lt] at accepted)
              (by rwa [size_lt_add_iff, Nat.not_lt] at fits)
            exact readRange_placed within isTarget accepted left none inTarget apart
      · exact readRange_atEnd within isTarget accepted
          (Nat.le_antisymm within.position_le (Nat.not_lt.mp left))

/-- A copy without a place, or onto a part of itself. -/
theorem readRange_unplaced {amount : Nat} (within : Within first stop st)
    (isTarget : st.arrays[buffer]? = some target)
    (isAmount : amount = min count.toNat (st.this.mCount.toNat - st.this.mPosition.toNat))
    (positive : 0 < amount)
    (accepted : (offset.toNat + count.toNat) % 2 ^ 64 ≤ target.bytes.length)
    (fits : (offset.toNat + amount) % 2 ^ 64 ≤ target.bytes.length)
    (unplaced : ¬(offset.toNat + amount ≤ target.bytes.length ∧
      (st.this.mBuffer = buffer → st.this.mPosition.toNat + amount ≤ offset.toNat ∨
        offset.toNat + amount ≤ st.this.mPosition.toNat))) :
    ¬Behaves first stop st (.readRange buffer offset count) := by
  intro behaves
  change Leads (readRange buffer offset count) _ _ st at behaves
  obtain ⟨found, isFound, inside⟩ := within.buffer
  have chosen := within.toNat_amountOf count
  rw [← within.count, ← isAmount] at chosen
  have left : st.this.mPosition.toNat < stop := by
    rw [← within.count]
    omega
  have some : count ≠ 0 := by
    rintro rfl
    rw [UInt64.toNat_zero] at isAmount
    omega
  have sum : st.this.mPosition.toNat + amount ≤ found.bytes.length := by omega
  rw [readRange_copies within isTarget (by rwa [size_lt_add_iff, Nat.not_lt]) left some,
    Method.arraycopy_undefined isFound isTarget] at behaves
  · rcases behaves.1 with ⟨_, _, _, ends, _⟩ | ⟨-, ends, -⟩ | ⟨thrown, ends, defined, -⟩
    · cases ends
    · cases ends
    · exact defined (Except.error.inj ends).symm
  · rw [size_lt_add_iff, size_lt_add_iff, chosen]
    have bounded := found.bounded
    omega
  · rw [chosen]
    exact sum
  · rw [Overlap, chosen]
    by_cases inTarget : offset.toNat + amount ≤ target.bytes.length
    · rw [and_iff_right inTarget, Classical.not_imp] at unplaced
      exact .inl ⟨unplaced.1, by omega⟩
    · exact .inr (Nat.not_le.mp inTarget)

theorem readRange_iff_placed (within : Within first stop st) :
    Behaves first stop st (.readRange buffer offset count) ↔
      Placed st (.readRange buffer offset count) := by
  constructor
  · intro behaves target amount isTarget isAmount positive accepted fits
    by_contra unplaced
    exact readRange_unplaced within isTarget isAmount positive accepted fits unplaced behaves
  · exact readRange_behaves within

end BulkRead

/-! ## The stream over natural numbers -/

section Refinement

variable {found : Nio.ByteArray} {inside : st.this.mCount.toNat ≤ found.bytes.length}

/-- The stream as `DataInputStream` reads from it. -/
def toStream (this : Fields) (found : Nio.ByteArray)
    (inside : this.mCount.toNat ≤ found.bytes.length) : ByteArrayInputStream where
  mBuffer := found.bytes
  mPosition := this.mPosition.toNat
  mCount := this.mCount.toNat
  inside := inside

theorem available_refines (within : Within first stop st) :
    (toStream st.this found inside).available = (st.this.mCount - st.this.mPosition).toNat := by
  rw [within.toNat_left, ← within.count]
  rfl

/-- A bulk read into another array delivers what the stream over natural numbers does. -/
theorem readRange_refines {buffer amount : Nat} {offset count : UInt64} {after : Memory Fields}
    (within : Within first stop st) (isFound : st.arrays[st.this.mBuffer]? = some found)
    (other : buffer ≠ st.this.mBuffer) (positive : count ≠ 0)
    (answers : Answers stop st (.readRange buffer offset count) (.ok amount) after) :
    after.arrays[after.this.mBuffer]? = some found ∧
      ∃ inside', (toStream st.this found inside).read count.toNat =
        (some (st.range st.this.mBuffer st.this.mPosition.toNat amount),
          toStream after.this found inside') := by
  have counted := within.count
  rcases answers with
    ⟨target, copied, size, delivered, left, isAmount, -, -, -, arrays, moved, same⟩ |
      ⟨-, delivered, -⟩ | ⟨thrown, delivered, -⟩
  · have isSize : amount = size := Int.ofNat.inj (Except.ok.inj delivered)
    subst isSize
    have sameCount : after.this.mCount = st.this.mCount := by rw [same]
    have sameBuffer : after.this.mBuffer = st.this.mBuffer := by rw [same]
    refine ⟨?_, by rw [sameCount]; exact inside, ?_⟩
    · rw [sameBuffer, arrays, List.getElem?_set_ne other, isFound]
    · have some : count.toNat ≠ 0 := fun zero => positive (UInt64.toNat_inj.mp zero)
      have chosen : (if st.this.mCount.toNat - st.this.mPosition.toNat < count.toNat then
          st.this.mCount.toNat - st.this.mPosition.toNat else count.toNat) = amount := by
        split <;> omega
      unfold ByteArrayInputStream.read toStream
      simp only
      rw [if_neg (by omega), if_neg some, chosen, Memory.range, isFound]
      simp only [moved, sameCount]
  · cases delivered
  · cases delivered

end Refinement

/-! ## Whole runs -/

/-- A single call delivers what it shall exactly if what it copies has a place. -/
theorem delivers_iff_placed {call : Call} (within : Within first stop st) :
    Delivers first stop st call (outcome call.method st).2 ↔ Placed st call := by
  rw [delivers_iff_behaves]
  cases call with
  | read => exact iff_of_true (read_behaves within) trivial
  | readRange buffer offset count => exact readRange_iff_placed within
  | skip count => exact iff_of_true (skip_behaves within count) trivial
  | mark limit => exact iff_of_true (mark_behaves within limit) trivial
  | reset => exact iff_of_true (reset_behaves within) trivial
  | available => exact iff_of_true (available_behaves within) trivial

/-- A new stream is within its bytes exactly if the offset and the sum are. -/
theorem construct_within_iff {arrays : List Nio.ByteArray} {buffer : Nat} {found : Nio.ByteArray}
    {construction : Construction} (isBuffer : arrays[buffer]? = some found)
    (constructed : construct arrays buffer construction = .ok st) :
    Within construction.first (construction.stop found.bytes.length) st ↔
      construction.Inside found.bytes.length := by
  cases construction with
  | whole =>
      change whole arrays buffer = .ok st at constructed
      rw [whole, isBuffer] at constructed
      cases constructed
      refine iff_of_true ?_ trivial
      exact {
        starts := Nat.zero_le _
        mark := Nat.le_refl _
        position := Nat.zero_le _
        count := found.toNat_size
        buffer := ⟨found, isBuffer, found.toNat_size.le⟩ }
  | part offset count =>
      change part arrays buffer offset count = .ok st at constructed
      rw [part, isBuffer] at constructed
      cases constructed
      have bounded := found.bounded
      have counted : (if offset + count > found.size then found.size else offset + count).toNat =
          min ((offset.toNat + count.toNat) % 2 ^ 64) found.bytes.length := by
        split
        · rename_i beyond
          rw [size_lt_add_iff] at beyond
          rw [found.toNat_size]
          omega
        · rename_i fits
          rw [size_lt_add_iff] at fits
          rw [UInt64.toNat_add]
          omega
      have small := count.toNat_lt
      have start := offset.toNat_lt
      constructor
      · intro within
        have ordered := within.position
        simp only at ordered
        rw [counted] at ordered
        change offset.toNat ≤ _ ∧ _
        omega
      · intro inside
        change offset.toNat ≤ _ ∧ _ at inside
        rw [Nat.mod_eq_of_lt inside.2] at counted
        exact {
          starts := Nat.le_refl _
          mark := Nat.le_refl _
          position := by rw [counted]; simp only; omega
          count := counted
          buffer := ⟨found, isBuffer, by rw [counted]; exact Nat.min_le_right _ _⟩ }

/-- A stream is in all of a run within its bytes and delivers them in order, if and only if the
offset is in the array, the sum of offset and count does not wrap, and every bulk read copies to
a place that is apart. -/
theorem delivers_iff_meets {arrays : List Nio.ByteArray} {buffer : Nat} {found : Nio.ByteArray}
    {construction : Construction} (isBuffer : arrays[buffer]? = some found)
    (constructed : construct arrays buffer construction = .ok st) (calls : List Call) :
    (Within construction.first (construction.stop found.bytes.length) st ∧
      Relates step (Delivers construction.first (construction.stop found.bytes.length)) st
        calls) ↔
      construction.Inside found.bytes.length ∧ Meets step Placed st calls := by
  rw [construct_within_iff isBuffer constructed]
  apply and_congr_right
  intro inside
  refine relates_iff_meets_of_keeping ?_ ?_
    ((construct_within_iff isBuffer constructed).mpr inside) calls
  · intro before call after within placed taken
    cases taken
    exact ((delivers_iff_placed within).mpr placed).within
  · intro before call after within taken
    cases taken
    exact delivers_iff_placed within

/-- The offset 4 is behind the end of an array of three bytes. -/
theorem offset_behind_end :
    construct [⟨[1, 2, 3], by decide⟩] 0 (.part 4 0) =
        .ok { arrays := [⟨[1, 2, 3], by decide⟩]
              this := { mBuffer := 0, mPosition := 4, mMark := 4, mCount := 3 } } ∧
      (outcome Call.available.method
        { arrays := [⟨[1, 2, 3], by decide⟩]
          this := { mBuffer := 0, mPosition := 4, mMark := 4, mCount := 3 } }).1 =
        .ok 18446744073709551615 ∧
        ¬Within 4 3
          { arrays := [⟨[1, 2, 3], by decide⟩]
            this := { mBuffer := 0, mPosition := 4, mMark := 4, mCount := 3 } } := by
  refine ⟨rfl, rfl, ?_⟩
  intro within
  exact absurd within.position (by decide)

/-- Two bytes of three, read into another array. -/
theorem part_delivers :
    Relates step (Delivers 1 3)
      { arrays := [⟨[1, 2, 3], by decide⟩, ⟨[0, 0], by decide⟩]
        this := { mBuffer := 0, mPosition := 1, mMark := 1, mCount := 3 } }
      [.available, .readRange 1 0 2, .reset, .skip 5] := by
  have constructed : construct [⟨[1, 2, 3], by decide⟩, ⟨[0, 0], by decide⟩] 0 (.part 1 2) =
      .ok { arrays := [⟨[1, 2, 3], by decide⟩, ⟨[0, 0], by decide⟩]
            this := { mBuffer := 0, mPosition := 1, mMark := 1, mCount := 3 } } := rfl
  apply ((delivers_iff_meets rfl constructed _).mpr ⟨⟨by decide, by decide⟩, _⟩).2
  intro _ taken
  cases taken
  refine ⟨trivial, fun _ taken => ?_⟩
  cases taken
  refine ⟨?_, fun _ taken => ?_⟩
  · intro target amount isTarget isAmount _ _ _
    cases isTarget
    cases isAmount
    exact ⟨by decide, fun own => by cases own⟩
  · cases taken
    exact ⟨trivial, fun _ _ => ⟨trivial, trivial⟩⟩

end Fields

end ByteArrayInputStream

end Mindroid
