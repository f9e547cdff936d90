import Mindroid.Foundation.Footprint
import Mindroid.Nio.FailedAccess

/-!
# The bytes that a method of a byte buffer reaches

A byte of the array is reached by a call if it matters for the call or is written by it.  For the
methods that a buffer is made of, these are the bytes at an address.
-/

set_option autoImplicit false

namespace Mindroid

namespace Nio

open Foundation
open Foundation.Throwing

/-! ## Bytes that are reached -/

/-- One byte is replaced. -/
def ByteArray.poke (array : ByteArray) (index : Nat) (value : UInt8) : ByteArray where
  bytes := array.bytes.set index value
  bounded := by
    rw [List.length_set]
    exact array.bounded

/-- One byte of the array of the buffer is replaced. -/
def Scope.poke (st : Scope) (index : Nat) (value : UInt8) : Scope :=
  { st with arrays := st.arrays.modify st.this.mBuffer (·.poke index value) }

/-- An array gets another content. -/
def Scope.fill (st : Scope) (array : Nat) (content : ByteArray) : Scope :=
  { st with arrays := st.arrays.set array content }

/-- The position is moved. -/
def Scope.advance (st : Scope) (width : UInt64) : Scope :=
  { st with this := { st.this with mPosition := st.this.mPosition + width } }

/-- A byte of the array is neither read nor written: a call does the same whatever its value, and
leaves it. -/
def Unreached {α : Type} (call : Method α) (st : Scope) (index : Nat) : Prop :=
  ∀ value, outcome call (st.poke index value) =
    ((outcome call st).1, (outcome call st).2.poke index value)

/-- Unless a call throws, it reaches only bytes that are allowed. -/
def Confined {α : Type} (call : Method α) (allowed : Nat → Prop) (st : Scope) : Prop :=
  Leads call (fun _ _ => ∀ index, ¬allowed index → Unreached call st index)
    (fun thrown _ => thrown ≠ .undefined) st

/-- The bytes of a buffer in its array. -/
def Scope.Region (st : Scope) (index : Nat) : Prop :=
  st.this.mOffset.toNat ≤ index ∧ index < st.this.mOffset.toNat + st.this.mLimit.toNat

/-! ## How the methods run -/

section Runs

variable {st : Scope}

theorem outcome_lookup {array : Nat} {null : Fault} {found : ByteArray}
    (present : st.arrays[array]? = some found) :
    outcome (lookup array null) st = (.ok found, st) := by
  rw [outcome_eq_iff, leads_lookup_some present]
  exact ⟨rfl, rfl⟩

theorem outcome_lookup_null {array : Nat} {null : Fault} (absent : st.arrays[array]? = none) :
    outcome (lookup array null) st = (.error null, st) := by
  rw [lookup, outcome_bind_ok outcome_get, absent]
  rfl

theorem outcome_checkBufferUnderflow {index amount : UInt64}
    (accepted : index + amount ≤ st.this.mLimit) :
    outcome (checkBufferUnderflow index amount) st = (.ok (), st) := by
  rw [outcome_eq_iff, leads_checkBufferUnderflow]
  exact ⟨fun refused => absurd accepted (UInt64.not_le.mpr refused), fun _ => ⟨rfl, rfl⟩⟩

theorem outcome_checkBufferOverflow {index amount : UInt64}
    (accepted : index + amount ≤ st.this.mLimit) :
    outcome (checkBufferOverflow index amount) st = (.ok (), st) := by
  rw [outcome_eq_iff, leads_checkBufferOverflow]
  exact ⟨fun refused => absurd accepted (UInt64.not_le.mpr refused), fun _ => ⟨rfl, rfl⟩⟩

theorem outcome_readBytes {array : Nat} {address count : UInt64} {found : ByteArray}
    (present : st.arrays[array]? = some found)
    (fits : address.toNat + count.toNat ≤ found.bytes.length) :
    outcome (readBytes array address count) st =
      (.ok ((found.bytes.drop address.toNat).take count.toNat), st) := by
  rw [readBytes, outcome_bind_ok (outcome_lookup present), if_pos fits]
  rfl

theorem outcome_writeBytes {array : Nat} {address : UInt64} {data : List UInt8}
    {found : ByteArray} (present : st.arrays[array]? = some found)
    (fits : address.toNat + data.length ≤ found.bytes.length) :
    outcome (writeBytes array address data) st =
      (.ok (), st.fill array (found.overwrite address.toNat data fits)) := by
  rw [writeBytes, outcome_bind_ok (outcome_lookup present), dif_pos fits]
  rfl

theorem outcome_self : outcome self st = (.ok st.this, st) :=
  rfl

/-- The position is moved if the absolute method returns. -/
theorem outcome_relative {α : Type} {width : UInt64} {access : UInt64 → Method α} {result : α}
    {st' : Scope} (ran : outcome (access st.this.mPosition) st = (.ok result, st')) :
    outcome (relative width access) st = (.ok result, st'.advance width) := by
  rw [relative, outcome_bind_ok outcome_self, outcome_bind_ok ran, outcome_bind_ok outcome_self]
  rfl

theorem outcome_relative_error {α : Type} {width : UInt64} {access : UInt64 → Method α}
    {thrown : Fault} {st' : Scope}
    (ran : outcome (access st.this.mPosition) st = (.error thrown, st')) :
    outcome (relative width access) st = (.error thrown, st') := by
  rw [relative, outcome_bind_ok outcome_self, outcome_bind_error ran]

theorem outcome_moved {α : Type} {access : UInt64 → Method α} :
    outcome (moved access) st = outcome (access st.this.mPosition) (st.advance 1) := by
  have sets : outcome (setPosition (st.this.mPosition + 1)) st = (.ok (), st.advance 1) := rfl
  rw [moved, outcome_bind_ok outcome_self, outcome_bind_ok sets]

theorem outcome_load {width index : UInt64} {found : ByteArray}
    (accepted : index + width ≤ st.this.mLimit)
    (present : st.arrays[st.this.mBuffer]? = some found)
    (fits : (st.this.mOffset + index).toNat + width.toNat ≤ found.bytes.length) :
    outcome (load width index) st =
      (.ok ((found.bytes.drop (st.this.mOffset + index).toNat).take width.toNat), st) := by
  rw [load, outcome_bind_ok (outcome_checkBufferUnderflow accepted),
    outcome_bind_ok outcome_self, outcome_readBytes present fits]

theorem outcome_store {width index : UInt64} {value : Nat} {found : ByteArray}
    (accepted : index + width ≤ st.this.mLimit)
    (present : st.arrays[st.this.mBuffer]? = some found)
    (fits : (st.this.mOffset + index).toNat + (toBytes width.toNat value).length ≤
      found.bytes.length) :
    outcome (store width index value) st =
      (.ok (), st.fill st.this.mBuffer
        (found.overwrite (st.this.mOffset + index).toNat (toBytes width.toNat value) fits)) := by
  rw [store, outcome_bind_ok (outcome_checkBufferOverflow accepted),
    outcome_bind_ok outcome_self, outcome_writeBytes present fits]

theorem outcome_arrayGet {array : Nat} {index : UInt64} {found : ByteArray}
    (present : st.arrays[array]? = some found) (inside : index.toNat < found.bytes.length) :
    outcome (arrayGet array index) st =
      (.ok (((found.bytes.drop index.toNat).take 1).headD 0), st) := by
  have within : ¬index ≥ found.size := by
    rw [ge_iff_le, UInt64.le_iff_toNat_le, found.toNat_size, Nat.not_le]
    exact inside
  have fits : index.toNat + (1 : UInt64).toNat ≤ found.bytes.length := inside
  rw [arrayGet, outcome_bind_ok (outcome_lookup present), if_neg within,
    outcome_bind_ok (outcome_readBytes present fits)]
  rfl

theorem outcome_arraySet {array : Nat} {index : UInt64} {value : UInt8} {found : ByteArray}
    (present : st.arrays[array]? = some found)
    (fits : index.toNat + [value].length ≤ found.bytes.length) :
    outcome (arraySet array index value) st =
      (.ok (), st.fill array (found.overwrite index.toNat [value] fits)) := by
  have within : ¬index ≥ found.size := by
    rw [ge_iff_le, UInt64.le_iff_toNat_le, found.toNat_size, Nat.not_le]
    exact fits
  rw [arraySet, outcome_bind_ok (outcome_lookup present), if_neg within,
    outcome_writeBytes present fits]

variable {index width : UInt64}

theorem outcome_underflow (refused : ¬index + width ≤ st.this.mLimit) :
    outcome (checkBufferUnderflow index width) st = (.error .bufferUnderflowException, st) := by
  rw [checkBufferUnderflow, outcome_bind_ok outcome_self, if_pos (UInt64.not_le.mp refused)]
  rfl

theorem outcome_overflow (refused : ¬index + width ≤ st.this.mLimit) :
    outcome (checkBufferOverflow index width) st = (.error (.bufferOverflowException ""), st) := by
  rw [checkBufferOverflow, outcome_bind_ok outcome_self, if_pos (UInt64.not_le.mp refused)]
  rfl

theorem outcome_readBytes_undefined {array : Nat} {address count : UInt64}
    (outside : ∀ found, st.arrays[array]? = some found →
      ¬address.toNat + count.toNat ≤ found.bytes.length) :
    outcome (readBytes array address count) st = (.error .undefined, st) := by
  rw [readBytes]
  cases present : st.arrays[array]? with
  | none => rw [outcome_bind_error (outcome_lookup_null present)]
  | some found =>
      rw [outcome_bind_ok (outcome_lookup present), if_neg (outside found present)]
      rfl

theorem outcome_writeBytes_undefined {array : Nat} {address : UInt64} {data : List UInt8}
    (outside : ∀ found, st.arrays[array]? = some found →
      ¬address.toNat + data.length ≤ found.bytes.length) :
    outcome (writeBytes array address data) st = (.error .undefined, st) := by
  rw [writeBytes]
  cases present : st.arrays[array]? with
  | none => rw [outcome_bind_error (outcome_lookup_null present)]
  | some found =>
      rw [outcome_bind_ok (outcome_lookup present), dif_neg (outside found present)]
      rfl

theorem outcome_arrayGet_outside {array : Nat} {address : UInt64} {found : ByteArray}
    (present : st.arrays[array]? = some found) (outside : ¬address < found.size) :
    outcome (arrayGet array address) st = (.error (.indexOutOfBoundsException ""), st) := by
  rw [arrayGet, outcome_bind_ok (outcome_lookup present), if_pos (UInt64.not_lt.mp outside)]
  rfl

theorem outcome_arraySet_outside {array : Nat} {address : UInt64} {value : UInt8}
    {found : ByteArray} (present : st.arrays[array]? = some found)
    (outside : ¬address < found.size) :
    outcome (arraySet array address value) st =
      (.error (.indexOutOfBoundsException ""), st) := by
  rw [arraySet, outcome_bind_ok (outcome_lookup present), if_pos (UInt64.not_lt.mp outside)]
  rfl

end Runs

section Copies

variable {st : Scope} {src dest : Nat} {srcPos destPos length : UInt64}
  {source target : ByteArray}

theorem outcome_arraycopy (presentSource : st.arrays[src]? = some source)
    (presentTarget : st.arrays[dest]? = some target)
    (fits : srcPos.toNat + length.toNat ≤ source.bytes.length)
    (fits' : destPos.toNat + ((source.bytes.drop srcPos.toNat).take length.toNat).length ≤
      target.bytes.length)
    (accepted : ¬(srcPos + length > source.size ∨ destPos + length > target.size)) :
    outcome (arraycopy src srcPos dest destPos length) st =
      (.ok (), st.fill dest (target.overwrite destPos.toNat
        ((source.bytes.drop srcPos.toNat).take length.toNat) fits')) := by
  rw [arraycopy, outcome_bind_ok (outcome_lookup presentSource),
    outcome_bind_ok (outcome_lookup presentTarget), if_neg accepted,
    outcome_bind_ok (outcome_readBytes presentSource fits),
    outcome_writeBytes presentTarget fits']

theorem outcome_arraycopy_refused (presentSource : st.arrays[src]? = some source)
    (presentTarget : st.arrays[dest]? = some target)
    (refused : srcPos + length > source.size ∨ destPos + length > target.size) :
    outcome (arraycopy src srcPos dest destPos length) st =
      (.error (.indexOutOfBoundsException ""), st) := by
  rw [arraycopy, outcome_bind_ok (outcome_lookup presentSource),
    outcome_bind_ok (outcome_lookup presentTarget), if_pos refused]
  rfl

/-- The sums have wrapped. -/
theorem outcome_arraycopy_undefined (presentSource : st.arrays[src]? = some source)
    (presentTarget : st.arrays[dest]? = some target)
    (accepted : ¬(srcPos + length > source.size ∨ destPos + length > target.size))
    (outside : ¬(srcPos.toNat + length.toNat ≤ source.bytes.length ∧
      destPos.toNat + length.toNat ≤ target.bytes.length)) :
    outcome (arraycopy src srcPos dest destPos length) st = (.error .undefined, st) := by
  rw [arraycopy, outcome_bind_ok (outcome_lookup presentSource),
    outcome_bind_ok (outcome_lookup presentTarget), if_neg accepted]
  by_cases fits : srcPos.toNat + length.toNat ≤ source.bytes.length
  · rw [outcome_bind_ok (outcome_readBytes presentSource fits)]
    apply outcome_writeBytes_undefined
    intro found present inside
    rw [Option.some.inj (present.symm.trans presentTarget), List.length_take, List.length_drop]
      at inside
    omega
  · apply outcome_bind_error
    apply outcome_readBytes_undefined
    intro found present
    rwa [Option.some.inj (present.symm.trans presentSource)]

/-- A copy that is not accepted throws one of these. -/
theorem outcome_arraycopy_throws
    (refused : ∀ source target, st.arrays[src]? = some source → st.arrays[dest]? = some target →
      srcPos + length > source.size ∨ destPos + length > target.size) :
    ∃ thrown, thrown ≠ .undefined ∧
      outcome (arraycopy src srcPos dest destPos length) st = (.error thrown, st) := by
  cases presentSource : st.arrays[src]? with
  | none =>
      refine ⟨.nullPointerException, by decide, ?_⟩
      rw [arraycopy, outcome_bind_error (outcome_lookup_null presentSource)]
  | some source =>
      cases presentTarget : st.arrays[dest]? with
      | none =>
          refine ⟨.nullPointerException, by decide, ?_⟩
          rw [arraycopy, outcome_bind_ok (outcome_lookup presentSource),
            outcome_bind_error (outcome_lookup_null presentTarget)]
      | some target =>
          exact ⟨.indexOutOfBoundsException "", by decide, outcome_arraycopy_refused presentSource
            presentTarget (refused source target presentSource presentTarget)⟩

end Copies

/-! ## The part of the array that is reached -/

section Reached

variable {α : Type} {call : Method α} {st : Scope} {found : ByteArray} {index start : Nat}

theorem ByteArray.eq_of_bytes {array other : ByteArray} (same : array.bytes = other.bytes) :
    array = other := by
  cases array
  cases other
  cases same
  rfl

@[simp] theorem length_poke (found : ByteArray) (index : Nat) (value : UInt8) :
    (found.poke index value).bytes.length = found.bytes.length :=
  List.length_set

theorem poke_present (present : st.arrays[st.this.mBuffer]? = some found) (index : Nat)
    (value : UInt8) :
    (st.poke index value).arrays[st.this.mBuffer]? = some (found.poke index value) := by
  rw [Scope.poke, List.getElem?_modify_eq, present]
  rfl

theorem poke_other {array : Nat} (other : array ≠ st.this.mBuffer) (index : Nat)
    (value : UInt8) : (st.poke index value).arrays[array]? = st.arrays[array]? :=
  List.getElem?_modify_ne _ _ other.symm

/-- The array of the buffer is filled as if no byte had been replaced before. -/
theorem fill_of_poke (index : Nat) (value : UInt8) (content : ByteArray) :
    (st.poke index value).fill st.this.mBuffer content = st.fill st.this.mBuffer content := by
  rw [Scope.fill, Scope.fill, Scope.poke, Scope.mk.injEq]
  refine ⟨List.ext_getElem? fun array => ?_, rfl⟩
  rw [List.getElem?_set, List.getElem?_set, List.length_modify]
  split
  · rfl
  · rename_i other
    exact List.getElem?_modify_ne _ _ other

theorem poke_of_fill (present : st.arrays[st.this.mBuffer]? = some found) (index : Nat)
    (value : UInt8) (content : ByteArray) :
    (st.fill st.this.mBuffer content).poke index value =
      st.fill st.this.mBuffer (content.poke index value) := by
  rw [Scope.fill, Scope.fill, Scope.poke, Scope.mk.injEq]
  refine ⟨List.ext_getElem? fun array => ?_, rfl⟩
  rw [List.getElem?_modify, List.getElem?_set, List.getElem?_set]
  have inside := (List.getElem?_eq_some_iff.mp present).1
  by_cases same : st.this.mBuffer = array
  · rw [if_pos same, if_pos same, if_pos inside, if_pos inside]
    simp [same]
  · rw [if_neg same, if_neg same]
    simp [same]

theorem fill_poke_other {array : Nat} (other : array ≠ st.this.mBuffer) (index : Nat)
    (value : UInt8) (content : ByteArray) :
    (st.fill array content).poke index value = (st.poke index value).fill array content := by
  rw [Scope.fill, Scope.fill, Scope.poke, Scope.mk.injEq]
  refine ⟨List.ext_getElem? fun i => ?_, rfl⟩
  simp only [Scope.poke, List.getElem?_modify, List.getElem?_set, List.length_modify]
  by_cases same : array = i
  · have apart : ¬st.this.mBuffer = i := fun buffer => other (same.trans buffer.symm)
    simp [same, apart]
  · simp [same]

/-- The content of an array is known from the state. -/
theorem fill_injective {array : Nat} (present : st.arrays[array]? = some found)
    {content other : ByteArray} (same : st.fill array content = st.fill array other) :
    content = other := by
  have inside := (List.getElem?_eq_some_iff.mp present).1
  have known := congrArg (fun scope : Scope => scope.arrays[array]?) same
  simp only [Scope.fill] at known
  rw [List.getElem?_set_self inside, List.getElem?_set_self inside] at known
  exact Option.some.inj known

/-- A byte is reached exactly if it is in the part that is read. -/
theorem unreached_read_iff {length : Nat} {f : List UInt8 → α}
    (injective : ∀ data other, data.length = length → other.length = length →
      f data = f other → data = other)
    (fits : start + length ≤ found.bytes.length)
    (ran : outcome call st = (.ok (f ((found.bytes.drop start).take length)), st))
    (runs : ∀ value, outcome call (st.poke index value) =
      (.ok (f (((found.poke index value).bytes.drop start).take length)), st.poke index value)) :
    Unreached call st index ↔ Apart index start length := by
  have count (data : List UInt8) (same : data.length = found.bytes.length) :
      ((data.drop start).take length).length = length := by
    rw [List.length_take, List.length_drop, same]
    omega
  rw [← forall_part_set_iff fits]
  apply forall_congr'
  intro value
  rw [runs, ran, Prod.mk.injEq, Except.ok.injEq, and_iff_left rfl]
  constructor
  · exact injective _ _ (count _ (length_poke _ _ _)) (count _ rfl)
  · exact congrArg f

/-- A byte is reached exactly if it is in the part that is written. -/
theorem unreached_write_iff {result : α} {data : List UInt8}
    (present : st.arrays[st.this.mBuffer]? = some found)
    (fits : start + data.length ≤ found.bytes.length)
    (ran : outcome call st =
      (.ok result, st.fill st.this.mBuffer (found.overwrite start data fits)))
    (runs : ∀ value, ∃ fits', outcome call (st.poke index value) =
      (.ok result, (st.poke index value).fill st.this.mBuffer
        ((found.poke index value).overwrite start data fits'))) :
    Unreached call st index ↔ Apart index start data.length := by
  constructor
  · intro unreached
    by_contra inside
    have bound : index < found.bytes.length := by
      rw [Apart] at inside
      omega
    have overwritten : index < (overwrite found.bytes start data).length := by
      rwa [length_overwrite fits]
    have same := unreached ((overwrite found.bytes start data)[index] + 1)
    obtain ⟨fits', poked⟩ := runs ((overwrite found.bytes start data)[index] + 1)
    rw [poked, ran, Prod.mk.injEq, fill_of_poke, poke_of_fill present] at same
    have contents := congrArg ByteArray.bytes (fill_injective present same.2)
    simp only [ByteArray.overwrite, ByteArray.poke] at contents
    rw [overwrite_set_of_inside fits inside] at contents
    have kept := congrArg (fun bytes => bytes[index]?) contents
    simp only [List.getElem?_set_self overwritten, List.getElem?_eq_getElem overwritten,
      Option.some.injEq] at kept
    exact absurd (UInt8.add_eq_left.mp kept.symm) (by decide)
  · intro apart value
    obtain ⟨fits', poked⟩ := runs value
    rw [poked, ran, fill_of_poke, poke_of_fill present]
    congr 2
    exact ByteArray.eq_of_bytes (overwrite_set_of_apart fits apart)

end Reached

/-! ## When a call is confined -/

section Confined

variable {α : Type} {call : Method α} {allowed : Nat → Prop} {st st' : Scope}

theorem confined_of_threw {thrown : Fault} (ran : outcome call st = (.error thrown, st'))
    (defined : thrown ≠ .undefined) : Confined call allowed st :=
  (leads_threw ran).mpr defined

theorem not_confined_of_undefined (ran : outcome call st = (.error .undefined, st')) :
    ¬Confined call allowed st :=
  fun confined => (leads_threw ran).mp confined rfl

theorem confined_of_returned {result : α} (ran : outcome call st = (.ok result, st')) :
    Confined call allowed st ↔ ∀ index, ¬allowed index → Unreached call st index :=
  leads_returned ran

/-- A call that reaches a certain part of the array. -/
theorem confined_iff_apart {result : α} {start length : Nat}
    (ran : outcome call st = (.ok result, st'))
    (reached : ∀ index, ¬allowed index →
      (Unreached call st index ↔ Apart index start length)) :
    Confined call allowed st ↔ ∀ index, ¬allowed index → Apart index start length := by
  rw [confined_of_returned ran]
  exact forall_congr' fun index => forall_congr' fun outside => reached index outside

theorem advance_injective {width : UInt64} (same : st.advance width = st'.advance width) :
    st = st' := by
  cases st with
  | mk arrays this =>
      cases st' with
      | mk arrays' this' =>
          cases this
          cases this'
          simpa [Scope.advance] using same

/-- Moving the position reaches no byte. -/
theorem confined_relative_iff {width : UInt64} {access : UInt64 → Method α} :
    Confined (relative width access) allowed st ↔
      Confined (access st.this.mPosition) allowed st := by
  rcases ran : outcome (access st.this.mPosition) st with ⟨thrown | result, st'⟩
  · rw [Confined, Confined, leads_threw ran, leads_threw (outcome_relative_error ran)]
  · rw [confined_of_returned ran, confined_of_returned (outcome_relative ran)]
    refine forall_congr' fun index => forall_congr' fun _ => forall_congr' fun value => ?_
    rw [ran, outcome_relative ran]
    rcases poked : outcome (access st.this.mPosition) (st.poke index value) with
      ⟨thrown | other, st''⟩
    · rw [@outcome_relative_error (st.poke index value) _ _ _ _ _ poked]
      simp
    · rw [@outcome_relative (st.poke index value) _ _ _ _ _ poked, Prod.mk.injEq, Prod.mk.injEq]
      exact and_congr_right fun _ => ⟨fun same => advance_injective same, fun same => same ▸ rfl⟩

theorem confined_moved_iff {access : UInt64 → Method α} :
    Confined (moved access) allowed st ↔
      Confined (access st.this.mPosition) allowed (st.advance 1) := by
  unfold Confined Leads Unreached
  simp only [outcome_moved]
  rfl

theorem keeps_poke (st : Scope) (index : Nat) (value : UInt8) : Keeps st (st.poke index value) where
  this := rfl
  sizes := by
    apply List.ext_getElem?
    intro array
    rw [sizes, sizes, List.getElem?_map, List.getElem?_map, Scope.poke, List.getElem?_modify]
    cases st.arrays[array]? with
    | none => rfl
    | some found =>
        simp only [Option.map_eq_map, Option.map_some]
        split
        · rw [ByteArray.size, length_poke, ByteArray.size]
        · rfl

theorem length_of_keeps {st st' : Scope} (keeps : Keeps st st') {array : Nat}
    {found found' : ByteArray} (present : st.arrays[array]? = some found)
    (present' : st'.arrays[array]? = some found') :
    found'.bytes.length = found.bytes.length := by
  have same := congrArg (fun all : List UInt64 => all[array]?) keeps.sizes
  simp only [sizes, List.getElem?_map, present, present', Option.map_some, Option.some.injEq]
    at same
  rw [← found'.toNat_size, same, found.toNat_size]

/-- Two calls that do the same while the sizes of the arrays are the same. -/
theorem confined_congr {α : Type} {call other : Method α} {allowed : Nat → Prop} {st : Scope}
    (same : ∀ st', Keeps st st' → outcome call st' = outcome other st') :
    Confined call allowed st ↔ Confined other allowed st := by
  unfold Confined Leads Unreached
  rw [same st (Keeps.refl st)]
  simp only [fun index value => same (st.poke index value) (keeps_poke st index value)]

end Confined

end Nio

end Mindroid
