import Mindroid.Foundation.Bytes
import Mindroid.Foundation.Throwing
import Mindroid.Nio.ByteArrayBuffer

/-!
# Byte arrays of the program

A method of an object works on the fields of the object and on arrays, and the same array may be
used by others.
-/

set_option autoImplicit false

namespace Mindroid

open Foundation
open Foundation.Throwing
open Nio (Fault)

/-- What the methods of an object read and write: its fields, and the arrays of the program. -/
structure Memory (ι : Type) where
  arrays : List Nio.ByteArray
  this : ι

namespace Memory

variable {ι : Type}

/-- An array gets another content. -/
def fill (st : Memory ι) (array : Nat) (content : Nio.ByteArray) : Memory ι :=
  { st with arrays := st.arrays.set array content }

/-- The bytes of a range. -/
def range (st : Memory ι) (buffer offset count : Nat) : List UInt8 :=
  match st.arrays[buffer]? with
  | some found => (found.bytes.drop offset).take count
  | none => []

/-- Arrays keep their places and lengths when one of them gets a content of its length. -/
theorem present_fill {array other : Nat} {found known copied : Nio.ByteArray} (st : Memory ι)
    (present : st.arrays[array]? = some found) (size : copied.bytes.length = found.bytes.length)
    (isKnown : st.arrays[other]? = some known) :
    ∃ after, (st.fill array copied).arrays[other]? = some after ∧
      known.bytes.length = after.bytes.length := by
  have inside := (List.getElem?_eq_some_iff.mp present).1
  by_cases same : array = other
  · subst same
    cases present.symm.trans isKnown
    exact ⟨copied, List.getElem?_set_self inside, size.symm⟩
  · exact ⟨known, (List.getElem?_set_ne same).trans isKnown, rfl⟩

end Memory

/-- A method of an object with these fields. -/
abbrev Method (ι α : Type) : Type :=
  Throwing Fault (Memory ι) α

namespace Method

variable {ι : Type}

/-- The fields of the object. -/
def self : Method ι ι :=
  Memory.this <$> get

/-- The array that a pointer refers to, if it is not null. -/
def lookup (array : Nat) (null : Fault) : Method ι Nio.ByteArray := do
  match (← get).arrays[array]? with
  | some found => return found
  | none => throw null

theorem length_zeros_lt (size : UInt64) (bounded : size.toNat < 2 ^ 63) :
    (List.replicate size.toNat (0 : UInt8)).length < 2 ^ 63 := by
  rwa [List.length_replicate]

/-- An array of zeros. -/
def zeros (size : UInt64) (bounded : size.toNat < 2 ^ 63) : Nio.ByteArray where
  bytes := List.replicate size.toNat 0
  bounded := length_zeros_lt size bounded

/-- `new ByteArray(size)`, for which there may be no memory. -/
def newByteArray (allocates : UInt64 → Bool) (size : UInt64) : Method ι Nat := do
  let st ← get
  if bounded : size.toNat < 2 ^ 63 then
    if allocates size then
      set { st with arrays := st.arrays ++ [zeros size bounded] }
      return st.arrays.length
    else
      throw .lengthError
  else
    throw .lengthError

/-- The ranges of a copy inside of an array have a byte in common. -/
def Overlap (srcPos destPos length : UInt64) : Prop :=
  srcPos.toNat < destPos.toNat + length.toNat ∧ destPos.toNat < srcPos.toNat + length.toNat

instance (srcPos destPos length : UInt64) : Decidable (Overlap srcPos destPos length) :=
  inferInstanceAs (Decidable (_ ∧ _))

/-- `System::arraycopy`.  The function of C that it calls is undefined if the ranges overlap. -/
def arraycopy (src : Nat) (srcPos : UInt64) (dest : Nat) (destPos length : UInt64) :
    Method ι Unit := do
  let source ← lookup src .nullPointerException
  let target ← lookup dest .nullPointerException
  if srcPos + length > source.size ∨ destPos + length > target.size then
    throw (.indexOutOfBoundsException "")
  else if src = dest ∧ Overlap srcPos destPos length then
    throw .undefined
  else if srcPos.toNat + length.toNat ≤ source.bytes.length then
    let data := (source.bytes.drop srcPos.toNat).take length.toNat
    if fits : destPos.toNat + data.length ≤ target.bytes.length then
      modify fun st => st.fill dest (target.overwrite destPos.toNat data fits)
    else
      throw .undefined
  else
    throw .undefined

/-- `ByteArray::get`. -/
def arrayGet (array : Nat) (position : UInt64) : Method ι UInt8 := do
  match (← lookup array .undefined).bytes[position.toNat]? with
  | some value => return value
  | none => throw (.indexOutOfBoundsException "")

/-- `ByteArray::set`. -/
def arraySet (array : Nat) (position : UInt64) (value : UInt8) : Method ι Unit := do
  let found ← lookup array .undefined
  if fits : position.toNat + [value].length ≤ found.bytes.length then
    modify fun st => st.fill array (found.overwrite position.toNat [value] fits)
  else
    throw (.indexOutOfBoundsException "")

/-! ## Rules -/

section Rules

variable {st : Memory ι} {found : Nio.ByteArray}
variable {returns : PUnit → Memory ι → Prop} {throws : Fault → Memory ι → Prop}

theorem leads_lookup_some {array : Nat} {null : Fault}
    {returns : Nio.ByteArray → Memory ι → Prop} (present : st.arrays[array]? = some found) :
    Leads (lookup array null) returns throws st ↔ returns found st := by
  rw [lookup, leads_bind, leads_get, present]
  exact Iff.rfl

theorem leads_lookup_none {array : Nat} {null : Fault}
    {returns : Nio.ByteArray → Memory ι → Prop} (absent : st.arrays[array]? = none) :
    Leads (lookup array null) returns throws st ↔ throws null st := by
  rw [lookup, leads_bind, leads_get, absent]
  exact Iff.rfl

theorem leads_self {returns : ι → Memory ι → Prop} :
    Leads self returns throws st ↔ returns st.this st :=
  Iff.rfl

/-- A copy within the bounds of two arrays, or between ranges that are apart. -/
theorem arraycopy_copies {src dest : Nat} {srcPos destPos length : UInt64}
    {source target : Nio.ByteArray} (isSource : st.arrays[src]? = some source)
    (isTarget : st.arrays[dest]? = some target)
    (inSource : srcPos.toNat + length.toNat ≤ source.bytes.length)
    (inTarget : destPos.toNat + length.toNat ≤ target.bytes.length)
    (apart : ¬(src = dest ∧ Overlap srcPos destPos length))
    (returning : ∀ copied : Nio.ByteArray,
      copied.bytes = overwrite target.bytes destPos.toNat
        ((source.bytes.drop srcPos.toNat).take length.toNat) →
      returns ⟨⟩ (st.fill dest copied)) :
    Leads (arraycopy src srcPos dest destPos length) returns throws st := by
  have lengths : ((source.bytes.drop srcPos.toNat).take length.toNat).length = length.toNat := by
    rw [List.length_take, List.length_drop]
    omega
  have within : ¬(srcPos + length > source.size ∨ destPos + length > target.size) := by
    have sourceBounded := source.bounded
    have targetBounded := target.bounded
    rw [gt_iff_lt, gt_iff_lt, UInt64.lt_iff_toNat_lt, UInt64.lt_iff_toNat_lt,
      toNat_add_of_small (by omega), toNat_add_of_small (by omega), Nio.ByteArray.toNat_size,
      Nio.ByteArray.toNat_size]
    omega
  rw [arraycopy, leads_bind, leads_lookup_some isSource, leads_bind, leads_lookup_some isTarget,
    if_neg within, if_neg apart, if_pos inSource]
  simp only
  rw [dif_pos (by rw [lengths]; exact inTarget), leads_modify]
  exact returning _ rfl

theorem leads_arrayGet {array : Nat} {position : UInt64} {value : UInt8}
    {returns : UInt8 → Memory ι → Prop} (isArray : st.arrays[array]? = some found)
    (isValue : found.bytes[position.toNat]? = some value) :
    Leads (arrayGet array position) returns throws st ↔ returns value st := by
  rw [arrayGet, leads_bind, leads_lookup_some isArray, isValue]
  exact Iff.rfl

theorem arraySet_sets {array : Nat} {position : UInt64} {value : UInt8}
    (isArray : st.arrays[array]? = some found)
    (fits : position.toNat + [value].length ≤ found.bytes.length)
    (returning : ∀ written : Nio.ByteArray,
      written.bytes = overwrite found.bytes position.toNat [value] →
      returns ⟨⟩ (st.fill array written)) :
    Leads (arraySet array position value) returns throws st := by
  rw [arraySet, leads_bind, leads_lookup_some isArray, dif_pos fits, leads_modify]
  exact returning _ rfl

section Unsound

variable {src dest : Nat} {srcPos destPos length : UInt64} {source target : Nio.ByteArray}

/-- A copy that the checks refuse. -/
theorem arraycopy_refuses (isSource : st.arrays[src]? = some source)
    (isTarget : st.arrays[dest]? = some target)
    (refused : srcPos + length > source.size ∨ destPos + length > target.size) :
    Leads (arraycopy src srcPos dest destPos length) returns throws st ↔
      throws (.indexOutOfBoundsException "") st := by
  rw [arraycopy, leads_bind, leads_lookup_some isSource, leads_bind, leads_lookup_some isTarget,
    if_pos refused, leads_throw]

/-- A copy that the checks accept, although it overlaps or leaves the target. -/
theorem arraycopy_undefined (isSource : st.arrays[src]? = some source)
    (isTarget : st.arrays[dest]? = some target)
    (accepted : ¬(srcPos + length > source.size ∨ destPos + length > target.size))
    (inSource : srcPos.toNat + length.toNat ≤ source.bytes.length)
    (unsound : src = dest ∧ Overlap srcPos destPos length ∨
      target.bytes.length < destPos.toNat + length.toNat) :
    Leads (arraycopy src srcPos dest destPos length) returns throws st ↔
      throws .undefined st := by
  have lengths : ((source.bytes.drop srcPos.toNat).take length.toNat).length = length.toNat := by
    rw [List.length_take, List.length_drop]
    omega
  rw [arraycopy, leads_bind, leads_lookup_some isSource, leads_bind, leads_lookup_some isTarget,
    if_neg accepted]
  by_cases overlaps : src = dest ∧ Overlap srcPos destPos length
  · rw [if_pos overlaps, leads_throw]
  · have leaves := unsound.resolve_left overlaps
    rw [if_neg overlaps, if_pos inSource]
    simp only
    rw [dif_neg (by rw [lengths]; exact Nat.not_le.mpr leaves), leads_throw]

/-- A copy between ranges of an array that overlap. -/
theorem arraycopy_overlaps {array : Nat} (isArray : st.arrays[array]? = some found)
    (inSource : srcPos.toNat + length.toNat ≤ found.bytes.length)
    (inTarget : destPos.toNat + length.toNat ≤ found.bytes.length)
    (overlap : Overlap srcPos destPos length) :
    Leads (arraycopy array srcPos array destPos length) returns throws st ↔
      throws .undefined st := by
  have bounded := found.bounded
  apply arraycopy_undefined isArray isArray _ inSource (.inl ⟨rfl, overlap⟩)
  rw [gt_iff_lt, gt_iff_lt, UInt64.lt_iff_toNat_lt, UInt64.lt_iff_toNat_lt,
    toNat_add_of_small (by omega), toNat_add_of_small (by omega), Nio.ByteArray.toNat_size]
  omega

end Unsound

theorem newByteArray_leads {allocates : UInt64 → Bool} {size : UInt64}
    {returns : Nat → Memory ι → Prop}
    (returning : ∀ bounded : size.toNat < 2 ^ 63,
      returns st.arrays.length { st with arrays := st.arrays ++ [zeros size bounded] })
    (throwing : throws .lengthError st) :
    Leads (newByteArray allocates size) returns throws st := by
  rw [newByteArray, leads_bind, leads_get]
  split
  · rename_i bounded
    rw [leads_ite]
    exact ⟨fun _ => returning bounded, fun _ => throwing⟩
  · exact throwing

end Rules

end Method

end Mindroid
