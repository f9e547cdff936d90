import Mindroid.Foundation.Transition
import Mindroid.Nio.ByteArrayBuffer

/-!
# The bounds of a byte buffer

In every run, the position of every buffer is within its limit, the limit within its capacity, and
the buffer within its array, exactly as long as no limit is set below the position, no single byte
is accessed at the limit by one of the methods that move the position first, and no offset wraps.
-/

set_option autoImplicit false

namespace Mindroid

namespace Nio

open Foundation
open Foundation.Throwing

/-! ## What an access changes -/

/-- The sizes of the arrays. -/
def sizes (arrays : List ByteArray) : List UInt64 :=
  arrays.map ByteArray.size

/-- Nothing is changed but the content of arrays. -/
structure Keeps (st st' : Scope) : Prop where
  this : st'.this = st.this
  sizes : sizes st'.arrays = sizes st.arrays

namespace Keeps

variable {st st' st'' : Scope}

theorem refl (st : Scope) : Keeps st st where
  this := rfl
  sizes := rfl

theorem trans (first : Keeps st st') (second : Keeps st' st'') : Keeps st st'' where
  this := second.this.trans first.this
  sizes := second.sizes.trans first.sizes

end Keeps

/-- A call that keeps the fields of the buffer. -/
def Frames {α : Type} (call : Method α) : Prop :=
  ∀ st, Leaves call (Keeps st) st

namespace Frames

variable {α β : Type} {call : Method α}

theorem bind {next : α → Method β} (frames : Frames call)
    (later : ∀ result, Frames (next result)) : Frames (call >>= next) :=
  fun st => (frames st).followed
    (fun result st' keeps => (later result st').mono fun _ kept => keeps.trans kept)
    (fun _ keeps => keeps)

theorem pure (result : α) : Frames (Pure.pure result : Method α) :=
  fun st => Keeps.refl st

theorem throw (fault : Fault) : Frames (MonadExcept.throw fault : Method α) :=
  fun st => Keeps.refl st

theorem ite {condition : Prop} [Decidable condition] {other : Method α} (frames : Frames call)
    (otherwise : Frames other) : Frames (if condition then call else other) := by
  split
  · exact frames
  · exact otherwise

end Frames

theorem frames_self : Frames self :=
  fun st => Keeps.refl st

theorem leads_lookup {array : Nat} {null : Fault} {returns : ByteArray → Scope → Prop}
    {throws : Fault → Scope → Prop} {st : Scope}
    (present : ∀ found, st.arrays[array]? = some found → returns found st)
    (absent : throws null st) : Leads (lookup array null) returns throws st := by
  rw [lookup, leads_bind, leads_get]
  cases found : st.arrays[array]? with
  | none => exact absent
  | some known => exact present known found

theorem frames_lookup (array : Nat) (null : Fault) : Frames (lookup array null) :=
  fun st => leads_lookup (fun _ _ => Keeps.refl st) (Keeps.refl st)

theorem frames_readBytes (array : Nat) (address count : UInt64) :
    Frames (readBytes array address count) :=
  (frames_lookup array .undefined).bind fun _ => (Frames.pure _).ite (Frames.throw _)

theorem frames_writeBytes (array : Nat) (address : UInt64) (data : List UInt8) :
    Frames (writeBytes array address data) := by
  intro st
  apply Leaves.bind
  refine leads_lookup (fun found present => ?_) (Keeps.refl st)
  split
  · refine ⟨rfl, ?_⟩
    obtain ⟨inside, rfl⟩ := List.getElem?_eq_some_iff.mp present
    rw [sizes, List.map_set, ByteArray.size_overwrite, ← List.getElem_map ByteArray.size,
      List.set_getElem_self]
    · rfl
    · rwa [List.length_map]
  · exact Keeps.refl st

theorem frames_arrayGet (array : Nat) (index : UInt64) : Frames (arrayGet array index) :=
  (frames_lookup array .undefined).bind fun _ =>
    (Frames.throw _).ite ((frames_readBytes array index 1).bind fun _ => Frames.pure _)

theorem frames_arraySet (array : Nat) (index : UInt64) (value : UInt8) :
    Frames (arraySet array index value) :=
  (frames_lookup array .undefined).bind fun _ =>
    (Frames.throw _).ite (frames_writeBytes array index [value])

theorem frames_arraycopy (src : Nat) (srcPos : UInt64) (dest : Nat) (destPos length : UInt64) :
    Frames (arraycopy src srcPos dest destPos length) :=
  (frames_lookup src _).bind fun _ => (frames_lookup dest _).bind fun _ =>
    (Frames.throw _).ite
      ((frames_readBytes src srcPos length).bind fun data => frames_writeBytes dest destPos data)

/-- A call that keeps the fields of the buffer, and that returns only if some bytes are within the
limit. -/
def Accesses {α : Type} (call : Method α) (index amount : UInt64) : Prop :=
  ∀ st, Leads call (fun _ st' => Keeps st st' ∧ index + amount ≤ st.this.mLimit)
    (fun _ => Keeps st) st

namespace Accesses

variable {α β : Type} {call : Method α} {index amount : UInt64}

theorem frames (accesses : Accesses call index amount) : Frames call :=
  fun st => (accesses st).mono (fun _ _ both => both.1) (fun _ _ keeps => keeps)

theorem bind {next : α → Method β} (accesses : Accesses call index amount)
    (later : ∀ result, Frames (next result)) : Accesses (call >>= next) index amount := by
  intro st
  rw [leads_bind]
  refine (accesses st).mono (fun result st' both => ?_) (fun _ _ keeps => keeps)
  exact Leads.mono (later result st') (fun _ _ kept => ⟨both.1.trans kept, both.2⟩)
    (fun _ _ kept => both.1.trans kept)

theorem map (f : α → β) (accesses : Accesses call index amount) :
    Accesses (f <$> call) index amount := by
  intro st
  rw [leads_map]
  exact accesses st

end Accesses

theorem accesses_checkBufferOverflow (index amount : UInt64) :
    Accesses (checkBufferOverflow index amount) index amount := by
  intro st
  rw [checkBufferOverflow, self, leads_bind, leads_map, leads_get, leads_ite]
  exact ⟨fun _ => Keeps.refl st, fun inside => ⟨Keeps.refl st, UInt64.not_lt.mp inside⟩⟩

theorem accesses_checkBufferUnderflow (index amount : UInt64) :
    Accesses (checkBufferUnderflow index amount) index amount := by
  intro st
  rw [checkBufferUnderflow, self, leads_bind, leads_map, leads_get, leads_ite]
  exact ⟨fun _ => Keeps.refl st, fun inside => ⟨Keeps.refl st, UInt64.not_lt.mp inside⟩⟩

theorem accesses_load (width index : UInt64) : Accesses (load width index) index width :=
  (accesses_checkBufferUnderflow index width).bind fun _ =>
    frames_self.bind fun _ => frames_readBytes _ _ _

theorem accesses_store (width index : UInt64) (value : Nat) :
    Accesses (store width index value) index width :=
  (accesses_checkBufferOverflow index width).bind fun _ =>
    frames_self.bind fun _ => frames_writeBytes _ _ _

theorem accesses_getAt (index : UInt64) : Accesses (getAt index) index 1 :=
  (accesses_checkBufferUnderflow index 1).bind fun _ =>
    frames_self.bind fun _ => frames_arrayGet _ _

theorem accesses_putAt (index : UInt64) (value : UInt8) : Accesses (putAt index value) index 1 :=
  (accesses_checkBufferOverflow index 1).bind fun _ =>
    frames_self.bind fun _ => frames_arraySet _ _ _

/-! ## The methods of a buffer -/

theorem Buffer.toNat_remaining (buffer : Buffer) :
    buffer.remaining.toNat = buffer.mLimit.toNat - buffer.mPosition.toNat := by
  unfold remaining
  split
  · rename_i before
    exact UInt64.toNat_sub_of_le _ _ (UInt64.le_of_lt before)
  · rename_i none
    rw [UInt64.lt_iff_toNat_lt, Nat.not_lt] at none
    rw [UInt64.toNat_zero, Nat.sub_eq_zero_of_le none]

/-- The bounds of a buffer. -/
structure Buffer.Bounded (arrays : List ByteArray) (buffer : Buffer) : Prop where
  position : buffer.mPosition ≤ buffer.mLimit
  limit : buffer.mLimit ≤ buffer.mCapacity
  capacity : ∃ array, arrays[buffer.mBuffer]? = some array ∧
    buffer.mOffset.toNat + buffer.mCapacity.toNat ≤ array.bytes.length

namespace Buffer.Bounded

variable {arrays arrays' : List ByteArray} {buffer : Buffer}

/-- Only the sizes of the arrays matter. -/
theorem of_sizes (bounded : buffer.Bounded arrays) (same : sizes arrays' = sizes arrays) :
    buffer.Bounded arrays' := by
  refine ⟨bounded.position, bounded.limit, ?_⟩
  obtain ⟨array, found, inside⟩ := bounded.capacity
  have size : (sizes arrays')[buffer.mBuffer]? = some array.size := by
    rw [same, sizes, List.getElem?_map, found]
    rfl
  rw [sizes, List.getElem?_map, Option.map_eq_some_iff] at size
  obtain ⟨array', found', size'⟩ := size
  refine ⟨array', found', ?_⟩
  rwa [← array'.toNat_size, size', array.toNat_size]

theorem sizes_iff (same : sizes arrays' = sizes arrays) :
    buffer.Bounded arrays' ↔ buffer.Bounded arrays :=
  ⟨fun bounded => bounded.of_sizes same.symm, fun bounded => bounded.of_sizes same⟩

theorem append (bounded : buffer.Bounded arrays) (array : ByteArray) :
    buffer.Bounded (arrays ++ [array]) := by
  refine ⟨bounded.position, bounded.limit, ?_⟩
  obtain ⟨found, present, inside⟩ := bounded.capacity
  refine ⟨found, ?_, inside⟩
  rw [List.getElem?_append_left (List.getElem?_eq_some_iff.mp present).1, present]

/-- The capacity is far from wrapping. -/
theorem offset_capacity (bounded : buffer.Bounded arrays) :
    buffer.mOffset.toNat + buffer.mCapacity.toNat < 2 ^ 63 := by
  obtain ⟨array, _, inside⟩ := bounded.capacity
  exact Nat.lt_of_le_of_lt inside array.bounded

/-- The array and the capacity of a buffer do not change. -/
theorem moves_iff (bounded : buffer.Bounded arrays) (position limit : UInt64) :
    Buffer.Bounded arrays { buffer with mPosition := position, mLimit := limit } ↔
      position ≤ limit ∧ limit ≤ buffer.mCapacity :=
  ⟨fun moved => ⟨moved.position, moved.limit⟩,
    fun inside => ⟨inside.1, inside.2, bounded.capacity⟩⟩

theorem succ_position_iff (bounded : buffer.Bounded arrays) :
    buffer.mPosition + 1 ≤ buffer.mLimit ↔ buffer.mPosition < buffer.mLimit := by
  have position := bounded.position
  have limit := bounded.limit
  have capacity := bounded.offset_capacity
  rw [UInt64.le_iff_toNat_le] at position limit ⊢
  rw [UInt64.lt_iff_toNat_lt, UInt64.toNat_add, UInt64.toNat_one]
  omega

end Buffer.Bounded

/-- The sizes of the arrays are kept, and the bounds exactly if a condition holds. -/
structure Ends (st : Scope) (safe : Prop) (st' : Scope) : Prop where
  sizes : sizes st'.arrays = sizes st.arrays
  bounded : st'.this.Bounded st'.arrays ↔ safe

/-- A method that keeps the bounds of its buffer exactly under a condition, whether it returns or
throws. -/
def Exact {α : Type} (call : Method α) (safe : Buffer → Prop) : Prop :=
  ∀ st, st.this.Bounded st.arrays → Leaves call (Ends st (safe st.this)) st

theorem Keeps.ends {st st' : Scope} (keeps : Keeps st st') (bounded : st.this.Bounded st.arrays) :
    Ends st True st' where
  sizes := keeps.sizes
  bounded := by
    rw [keeps.this, Buffer.Bounded.sizes_iff keeps.sizes]
    exact iff_of_true bounded trivial

/-- Only the position and the limit are moved. -/
theorem Keeps.ends_moved {st st' : Scope} {safe : Prop} (position limit : UInt64)
    (bounded : st.this.Bounded st.arrays)
    (keeps : Keeps { st with this := { st.this with mPosition := position, mLimit := limit } } st')
    (inside : position ≤ limit ∧ limit ≤ st.this.mCapacity ↔ safe) : Ends st safe st' where
  sizes := keeps.sizes
  bounded := by
    rw [keeps.this, Buffer.Bounded.sizes_iff keeps.sizes]
    exact (bounded.moves_iff position limit).trans inside

section Methods

variable {α β : Type} {call : Method α} {safe : Buffer → Prop}

theorem Frames.exact (frames : Frames call) : Exact call fun _ => True :=
  fun st bounded => (frames st).mono fun _ keeps => keeps.ends bounded

/-- A call that keeps the fields comes first. -/
theorem Frames.exact_bind {next : α → Method β} (frames : Frames call)
    (later : ∀ result, Exact (next result) fun _ => True) :
    Exact (call >>= next) fun _ => True := by
  intro st bounded
  refine (frames st).followed (fun result st' keeps => ?_) (fun _ keeps => keeps.ends bounded)
  have ends := keeps.ends bounded
  exact (later result st' (ends.bounded.mpr trivial)).mono
    fun _ ends' => ⟨ends'.sizes.trans ends.sizes, ends'.bounded⟩

theorem exact_relative {width : UInt64} {access : UInt64 → Method α}
    (accesses : ∀ index, Accesses (access index) index width) :
    Exact (relative width access) fun _ => True := by
  intro st bounded
  apply Leaves.bind
  rw [self, leads_map, leads_get]
  apply Leaves.bind
  refine (accesses _ st).mono (fun result st' both => ?_) (fun _ _ keeps => keeps.ends bounded)
  obtain ⟨keeps, inside⟩ := both
  refine Keeps.ends_moved (st.this.mPosition + width) st.this.mLimit bounded ⟨?_, keeps.sizes⟩
    (iff_of_true ⟨inside, bounded.limit⟩ trivial)
  change { st'.this with mPosition := st'.this.mPosition + width } = _
  rw [keeps.this]

theorem exact_moved {access : UInt64 → Method α} (frames : ∀ index, Frames (access index)) :
    Exact (moved access) fun this => this.mPosition < this.mLimit := by
  intro st bounded
  apply Leaves.bind
  rw [self, leads_map, leads_get]
  apply Leaves.bind
  rw [setPosition, leads_modify]
  refine (frames _ _).mono fun st' keeps =>
    Keeps.ends_moved (st.this.mPosition + 1) st.this.mLimit bounded keeps ?_
  rw [bounded.succ_position_iff, and_iff_left bounded.limit]

theorem exact_clear : Exact clear fun _ => True := by
  intro st bounded
  exact Keeps.ends_moved 0 st.this.mCapacity bounded (Keeps.refl _)
    (iff_of_true ⟨UInt64.zero_le, UInt64.le_refl _⟩ trivial)

theorem exact_flip : Exact flip fun _ => True := by
  intro st bounded
  exact Keeps.ends_moved 0 st.this.mPosition bounded (Keeps.refl _)
    (iff_of_true ⟨UInt64.zero_le, UInt64.le_trans bounded.position bounded.limit⟩ trivial)

theorem exact_rewind : Exact rewind fun _ => True := by
  intro st bounded
  exact Keeps.ends_moved 0 st.this.mLimit bounded (Keeps.refl _)
    (iff_of_true ⟨UInt64.zero_le, bounded.limit⟩ trivial)

theorem exact_position (newPosition : UInt64) : Exact (position newPosition) fun _ => True := by
  intro st bounded
  apply Leaves.bind
  rw [self, leads_map, leads_get]
  refine (leads_ite _ _ _).mpr ⟨fun _ => (Keeps.refl st).ends bounded, fun inside => ?_⟩
  exact Keeps.ends_moved newPosition st.this.mLimit bounded (Keeps.refl _)
    (iff_of_true ⟨UInt64.not_lt.mp inside, bounded.limit⟩ trivial)

/-- A limit that is below the position is not refused. -/
theorem exact_limit (newLimit : UInt64) :
    Exact (limit newLimit) fun this =>
      this.mPosition ≤ newLimit ∨ this.mCapacity < newLimit := by
  intro st bounded
  apply Leaves.bind
  rw [self, leads_map, leads_get]
  refine (leads_ite _ _ _).mpr ⟨fun outside => ?_, fun inside => ?_⟩
  · have ends := (Keeps.refl st).ends bounded
    exact ⟨ends.sizes, ends.bounded.trans (iff_of_true trivial (.inr outside))⟩
  · refine Keeps.ends_moved st.this.mPosition newLimit bounded (Keeps.refl _) ?_
    rw [and_iff_left (UInt64.not_lt.mp inside)]
    exact (or_iff_left inside).symm

theorem exact_compact : Exact compact fun _ => True := by
  intro st bounded
  apply Leaves.bind
  rw [self, leads_map, leads_get]
  refine (frames_readBytes _ _ _ st).followed (fun data st' keeps => ?_)
    (fun _ keeps => keeps.ends bounded)
  refine (frames_writeBytes _ _ _ st').followed (fun _ st'' kept => ?_)
    (fun _ kept => (keeps.trans kept).ends bounded)
  have both := keeps.trans kept
  refine Keeps.ends_moved (st.this.mLimit - st.this.mPosition) st.this.mCapacity bounded
    ⟨?_, both.sizes⟩ (iff_of_true ⟨?_, UInt64.le_refl _⟩ trivial)
  · simp only [both.this]
  · refine UInt64.le_trans ?_ bounded.limit
    rw [UInt64.le_iff_toNat_le, UInt64.toNat_sub_of_le _ _ bounded.position]
    exact Nat.sub_le _ _

theorem exact_put (value : UInt8) :
    Exact (put value) fun this => this.mPosition < this.mLimit :=
  exact_moved fun index => (accesses_putAt index value).frames

theorem exact_putChar (value : UInt8) :
    Exact (putChar value) fun this => this.mPosition < this.mLimit :=
  exact_put value

theorem exact_putDouble (value : BitVec 64) : Exact (putDouble value) fun _ => True :=
  exact_relative fun index => accesses_store 8 index _

theorem exact_putFloat (value : BitVec 32) : Exact (putFloat value) fun _ => True :=
  exact_relative fun index => accesses_store 4 index _

theorem exact_putInt (value : BitVec 32) : Exact (putInt value) fun _ => True :=
  exact_relative fun index => accesses_store 4 index _

theorem exact_putLong (value : BitVec 64) : Exact (putLong value) fun _ => True :=
  exact_relative fun index => accesses_store 8 index _

theorem exact_putShort (value : BitVec 16) : Exact (putShort value) fun _ => True :=
  exact_relative fun index => accesses_store 2 index _

theorem exact_getRange (dst : Nat) (offset count : UInt64) :
    Exact (getRange dst offset count) fun _ => True := by
  refine (frames_lookup dst _).exact_bind fun found => ?_
  split
  · exact (Frames.throw _).exact
  · exact exact_relative fun index => (accesses_checkBufferUnderflow index count).bind fun _ =>
      frames_self.bind fun _ => frames_arraycopy _ _ _ _ _

theorem exact_putRange (src : Nat) (offset size : UInt64) :
    Exact (putRange src offset size) fun _ => True := by
  refine (frames_lookup src _).exact_bind fun found => ?_
  split
  · exact (Frames.throw _).exact
  · exact exact_relative fun index => (accesses_checkBufferOverflow index size).bind fun _ =>
      frames_self.bind fun _ => frames_arraycopy _ _ _ _ _

end Methods

/-- The methods of a buffer that only change the buffer itself and the content of arrays. -/
inductive Operation where
  | clear | flip | rewind | compact
  | limit (newLimit : UInt64)
  | position (newPosition : UInt64)
  | get | getChar | getDouble | getFloat | getInt | getLong | getShort
  | getAt (index : UInt64)
  | getCharAt (index : UInt64)
  | getDoubleAt (index : UInt64)
  | getFloatAt (index : UInt64)
  | getIntAt (index : UInt64)
  | getLongAt (index : UInt64)
  | getShortAt (index : UInt64)
  | getRange (dst : Nat) (offset count : UInt64)
  | getAll (dst : Nat)
  | put (value : UInt8)
  | putChar (value : UInt8)
  | putDouble (value : BitVec 64)
  | putFloat (value : BitVec 32)
  | putInt (value : BitVec 32)
  | putLong (value : BitVec 64)
  | putShort (value : BitVec 16)
  | putAt (index : UInt64) (value : UInt8)
  | putCharAt (index : UInt64) (value : UInt8)
  | putDoubleAt (index : UInt64) (value : BitVec 64)
  | putFloatAt (index : UInt64) (value : BitVec 32)
  | putIntAt (index : UInt64) (value : BitVec 32)
  | putLongAt (index : UInt64) (value : BitVec 64)
  | putShortAt (index : UInt64) (value : BitVec 16)
  | putRange (src : Nat) (offset size : UInt64)
  | putAll (src : Nat)

/-- A call whose result is not used. -/
def void {α : Type} (call : Method α) : Method Unit :=
  (fun _ => ()) <$> call

def Operation.method : Operation → Method Unit
  | clear => Nio.clear
  | flip => Nio.flip
  | rewind => Nio.rewind
  | compact => Nio.compact
  | limit newLimit => Nio.limit newLimit
  | position newPosition => Nio.position newPosition
  | get => void Nio.get
  | getChar => void Nio.getChar
  | getDouble => void Nio.getDouble
  | getFloat => void Nio.getFloat
  | getInt => void Nio.getInt
  | getLong => void Nio.getLong
  | getShort => void Nio.getShort
  | getAt index => void (Nio.getAt index)
  | getCharAt index => void (Nio.getCharAt index)
  | getDoubleAt index => void (Nio.getDoubleAt index)
  | getFloatAt index => void (Nio.getFloatAt index)
  | getIntAt index => void (Nio.getIntAt index)
  | getLongAt index => void (Nio.getLongAt index)
  | getShortAt index => void (Nio.getShortAt index)
  | getRange dst offset count => Nio.getRange dst offset count
  | getAll dst => Nio.getAll dst
  | put value => Nio.put value
  | putChar value => Nio.putChar value
  | putDouble value => Nio.putDouble value
  | putFloat value => Nio.putFloat value
  | putInt value => Nio.putInt value
  | putLong value => Nio.putLong value
  | putShort value => Nio.putShort value
  | putAt index value => Nio.putAt index value
  | putCharAt index value => Nio.putCharAt index value
  | putDoubleAt index value => Nio.putDoubleAt index value
  | putFloatAt index value => Nio.putFloatAt index value
  | putIntAt index value => Nio.putIntAt index value
  | putLongAt index value => Nio.putLongAt index value
  | putShortAt index value => Nio.putShortAt index value
  | putRange src offset size => Nio.putRange src offset size
  | putAll src => Nio.putAll src

/-- When an operation keeps the bounds. -/
def Operation.Safe : Operation → Buffer → Prop
  | limit newLimit, this => this.mPosition ≤ newLimit ∨ this.mCapacity < newLimit
  | get, this => this.mPosition < this.mLimit
  | put _, this => this.mPosition < this.mLimit
  | putChar _, this => this.mPosition < this.mLimit
  | _, _ => True

theorem Exact.void {α : Type} {call : Method α} {safe : Buffer → Prop} (exact : Exact call safe) :
    Exact (Nio.void call) safe :=
  fun st bounded => (leads_map _ call).mpr (exact st bounded)

theorem Operation.exact (operation : Operation) : Exact operation.method operation.Safe := by
  cases operation with
  | clear => exact exact_clear
  | flip => exact exact_flip
  | rewind => exact exact_rewind
  | compact => exact exact_compact
  | limit newLimit => exact exact_limit newLimit
  | position newPosition => exact exact_position newPosition
  | get => exact (exact_moved fun index => (accesses_getAt index).frames).void
  | getChar => exact (exact_relative accesses_getAt).void
  | getDouble => exact (exact_relative fun index => (accesses_load 8 index).map _).void
  | getFloat => exact (exact_relative fun index => (accesses_load 4 index).map _).void
  | getInt => exact (exact_relative fun index => (accesses_load 4 index).map _).void
  | getLong => exact (exact_relative fun index => (accesses_load 8 index).map _).void
  | getShort => exact (exact_relative fun index => (accesses_load 2 index).map _).void
  | getAt index => exact (accesses_getAt index).frames.exact.void
  | getCharAt index => exact (accesses_getAt index).frames.exact.void
  | getDoubleAt index => exact ((accesses_load 8 index).map _).frames.exact.void
  | getFloatAt index => exact ((accesses_load 4 index).map _).frames.exact.void
  | getIntAt index => exact ((accesses_load 4 index).map _).frames.exact.void
  | getLongAt index => exact ((accesses_load 8 index).map _).frames.exact.void
  | getShortAt index => exact ((accesses_load 2 index).map _).frames.exact.void
  | getRange dst offset count => exact exact_getRange dst offset count
  | getAll dst => exact (frames_lookup dst _).exact_bind fun _ => exact_getRange dst 0 _
  | put value => exact exact_put value
  | putChar value => exact exact_putChar value
  | putDouble value => exact exact_putDouble value
  | putFloat value => exact exact_putFloat value
  | putInt value => exact exact_putInt value
  | putLong value => exact exact_putLong value
  | putShort value => exact exact_putShort value
  | putAt index value => exact (accesses_putAt index value).frames.exact
  | putCharAt index value => exact (accesses_putAt index value).frames.exact
  | putDoubleAt index value => exact (accesses_store 8 index _).frames.exact
  | putFloatAt index value => exact (accesses_store 4 index _).frames.exact
  | putIntAt index value => exact (accesses_store 4 index _).frames.exact
  | putLongAt index value => exact (accesses_store 8 index _).frames.exact
  | putShortAt index value => exact (accesses_store 2 index _).frames.exact
  | putRange src offset size => exact exact_putRange src offset size
  | putAll src => exact (frames_lookup src _).exact_bind fun _ => exact_putRange src 0 _

/-! ## All buffers -/

/-- The arrays and the buffers that have been created. -/
structure Heap where
  arrays : List ByteArray
  buffers : List Buffer

/-- What the user of the buffers can do. -/
inductive Call where
  | newByteArray (array : ByteArray)
  | allocate (capacity : UInt64)
  | wrap (array : Nat)
  | wrapRange (array : Nat) (offset size : UInt64)
  | duplicate (buffer : Nat)
  | slice (buffer : Nat)
  | operation (buffer : Nat) (operation : Operation)

namespace Heap

def empty : Heap where
  arrays := []
  buffers := []

/-- A buffer is added unless its constructor has thrown. -/
def add (st : Heap) : Except Fault Buffer → Option Heap
  | .ok buffer => some { st with buffers := st.buffers ++ [buffer] }
  | .error .undefined => none
  | .error _ => some st

/-- The state after a call, whether it has returned or thrown.  There is none if the behaviour is
undefined. -/
def call (st : Heap) : Call → Option Heap
  | .newByteArray array => some { st with arrays := st.arrays ++ [array] }
  | .allocate capacity =>
      match Nio.newByteArray capacity with
      | .error _ => some st
      | .ok array =>
          let arrays := st.arrays ++ [array]
          add { st with arrays := arrays } (Nio.wrap arrays st.arrays.length)
  | .wrap array => st.add (Nio.wrap st.arrays array)
  | .wrapRange array offset size => st.add (Nio.wrapRange st.arrays array offset size)
  | .duplicate buffer =>
      match st.buffers[buffer]? with
      | none => none
      | some this => st.add (Nio.duplicate st.arrays this)
  | .slice buffer =>
      match st.buffers[buffer]? with
      | none => none
      | some this => st.add (Nio.slice st.arrays this)
  | .operation buffer operation =>
      match st.buffers[buffer]? with
      | none => none
      | some this =>
          match outcome operation.method { arrays := st.arrays, this := this } with
          | (.error .undefined, _) => none
          | (_, scope) =>
              some { arrays := scope.arrays, buffers := st.buffers.set buffer scope.this }

/-- Every buffer is within its bounds. -/
def Bounded (st : Heap) : Prop :=
  ∀ buffer ∈ st.buffers, buffer.Bounded st.arrays

/-- When a call keeps the bounds. -/
def Safe (st : Heap) : Call → Prop
  | .wrapRange array offset size =>
      ∀ found, st.arrays[array]? = some found →
        found.size < size ∨ offset.toNat + size.toNat < 2 ^ 64
  | .operation buffer operation => ∀ this, st.buffers[buffer]? = some this → operation.Safe this
  | _ => True

end Heap

/-- A guard is passed by what does not throw. -/
theorem guard_eq_ok_iff {α : Type} {condition : Prop} [Decidable condition] {fault : Fault}
    {result : Except Fault α} {value : α} :
    (if condition then .error fault else result) = .ok value ↔
      ¬condition ∧ result = .ok value := by
  split
  · rename_i holds
    exact ⟨fun made => (by cases made), fun both => absurd holds both.1⟩
  · rename_i fails
    exact (and_iff_right fails).symm

section Constructor

variable {arrays : List ByteArray} {array : Nat} {position limit capacity offset : UInt64}
  {buffer : Buffer}

theorem new_eq_ok_iff :
    new arrays array position limit capacity offset = .ok buffer ↔
      ∃ found, arrays[array]? = some found ∧ position ≤ limit ∧ limit ≤ capacity ∧
        capacity ≤ found.size ∧ offset + limit ≤ found.size ∧
        { mBuffer := array, mOffset := offset, mPosition := position, mLimit := limit
          mCapacity := capacity } = buffer := by
  unfold new
  cases present : arrays[array]? with
  | none => simp
  | some found => simp [guard_eq_ok_iff]

theorem new_bounded_iff (made : new arrays array position limit capacity offset = .ok buffer) :
    buffer.Bounded arrays ↔ ∀ found, arrays[array]? = some found →
      offset.toNat + capacity.toNat ≤ found.bytes.length := by
  rcases new_eq_ok_iff.mp made with ⟨found, present, ordered, limited, _, _, rfl⟩
  constructor
  · rintro bounded found' present'
    obtain ⟨array', known, inside⟩ := bounded.capacity
    rw [Option.some.inj (present'.symm.trans known)]
    exact inside
  · exact fun inside => ⟨ordered, limited, found, present, inside found present⟩

end Constructor

namespace Heap

variable {st next : Heap}

theorem add_bounded_iff {made : Except Fault Buffer} (bounded : st.Bounded)
    (taken : st.add made = some next) :
    next.Bounded ↔ ∀ buffer, made = .ok buffer → buffer.Bounded st.arrays := by
  cases made with
  | ok buffer =>
      cases taken
      constructor
      · rintro later _ ⟨⟩
        exact later buffer (List.mem_append_right _ (List.mem_singleton_self buffer))
      · intro added other member
        rcases List.mem_append.mp member with before | last
        · exact bounded other before
        · rw [List.mem_singleton.mp last]
          exact added buffer rfl
  | error fault =>
      have same : next = st := by
        cases fault with
        | undefined => cases taken
        | _ => exact (Option.some.inj taken).symm
      rw [same]
      refine iff_of_true bounded fun buffer made => ?_
      cases made

theorem bounded_append (bounded : st.Bounded) (array : ByteArray) :
    Bounded { st with arrays := st.arrays ++ [array] } :=
  fun buffer member => (bounded buffer member).append array

/-- A whole array is within its bounds. -/
theorem wrap_bounded {arrays : List ByteArray} {array : Nat} {buffer : Buffer}
    (made : Nio.wrap arrays array = .ok buffer) : buffer.Bounded arrays := by
  unfold Nio.wrap at made
  cases present : arrays[array]? with
  | none =>
      rw [present] at made
      cases made
  | some found =>
      rw [present] at made
      rw [new_bounded_iff made]
      intro found' present'
      rw [Option.some.inj (present'.symm.trans present), UInt64.toNat_zero, Nat.zero_add,
        found.toNat_size]

/-- A part of an array is within its bounds unless its end wraps. -/
theorem wrapRange_bounded_iff {arrays : List ByteArray} {array : Nat} {offset size : UInt64} :
    (∀ buffer, Nio.wrapRange arrays array offset size = .ok buffer → buffer.Bounded arrays) ↔
      ∀ found, arrays[array]? = some found →
        found.size < size ∨ offset.toNat + size.toNat < 2 ^ 64 := by
  constructor
  · intro bounded found present
    rw [or_iff_not_imp_left, UInt64.not_lt]
    intro fits
    by_contra wraps
    have accepts : offset + size ≤ found.size := by
      rw [UInt64.le_iff_toNat_le, UInt64.toNat_add] at *
      have small := offset.toNat_lt
      omega
    have made := new_eq_ok_iff.mpr
      ⟨found, present, UInt64.zero_le, UInt64.le_refl size, fits, accepts, rfl⟩
    have inside := (new_bounded_iff made).mp (bounded _ made) found present
    have small := found.bounded
    omega
  · intro safe buffer made
    rcases new_eq_ok_iff.mp made with ⟨found, present, _, _, fits, accepts, _⟩
    rw [new_bounded_iff made]
    intro found' present'
    obtain rfl := Option.some.inj (present.symm.trans present')
    rcases safe found present with large | small
    · exact absurd fits (UInt64.not_le.mpr large)
    · rw [UInt64.le_iff_toNat_le, UInt64.toNat_add, found.toNat_size, Nat.mod_eq_of_lt small]
        at accepts
      exact accepts

theorem duplicate_bounded {arrays : List ByteArray} {this buffer : Buffer}
    (bounded : this.Bounded arrays) (made : Nio.duplicate arrays this = .ok buffer) :
    buffer.Bounded arrays := by
  rw [new_bounded_iff made]
  intro found present
  obtain ⟨found', present', inside⟩ := bounded.capacity
  rw [Option.some.inj (present.symm.trans present')]
  exact inside

theorem slice_bounded {arrays : List ByteArray} {this buffer : Buffer}
    (bounded : this.Bounded arrays) (made : Nio.slice arrays this = .ok buffer) :
    buffer.Bounded arrays := by
  rw [new_bounded_iff made]
  intro found present
  obtain ⟨found', present', inside⟩ := bounded.capacity
  have small := bounded.offset_capacity
  have position := bounded.position
  have limit := bounded.limit
  have remaining := this.toNat_remaining
  rw [UInt64.le_iff_toNat_le] at position limit
  rw [Option.some.inj (present.symm.trans present'), UInt64.toNat_add, remaining]
  omega

theorem operation_bounded_iff {buffer : Nat} {operation : Operation} (bounded : st.Bounded)
    (taken : st.call (.operation buffer operation) = some next) :
    next.Bounded ↔ st.Safe (.operation buffer operation) := by
  simp only [call] at taken
  cases present : st.buffers[buffer]? with
  | none =>
      rw [present] at taken
      cases taken
  | some this =>
      rw [present] at taken
      simp only at taken
      have known := bounded this (List.mem_of_getElem? present)
      have ends := (operation.exact { arrays := st.arrays, this := this } known).after
      have safe : st.Safe (.operation buffer operation) ↔ operation.Safe this :=
        ⟨fun all => all this present, fun holds this' present' => by
          rwa [← Option.some.inj (present.symm.trans present')]⟩
      split at taken
      · cases taken
      rename_i scope _ ran
      rw [ran] at ends
      cases taken
      rw [safe, ← ends.bounded]
      constructor
      · intro later
        exact later scope.this
          (List.mem_set (List.getElem?_eq_some_iff.mp present).1 scope.this)
      · intro moved other member
        rcases List.mem_or_eq_of_mem_set member with before | rfl
        · exact (bounded other before).of_sizes ends.sizes
        · exact moved

theorem call_bounded_iff {request : Call} (bounded : st.Bounded)
    (taken : st.call request = some next) : next.Bounded ↔ st.Safe request := by
  cases request with
  | newByteArray array =>
      cases taken
      exact iff_of_true (bounded_append bounded array) trivial
  | allocate capacity =>
      simp only [call] at taken
      split at taken
      · cases taken
        exact iff_of_true bounded trivial
      · rw [add_bounded_iff (bounded_append bounded _) taken]
        exact iff_of_true (fun buffer made => wrap_bounded made) trivial
  | wrap array =>
      rw [add_bounded_iff bounded taken]
      exact iff_of_true (fun buffer made => wrap_bounded made) trivial
  | wrapRange array offset size =>
      rw [add_bounded_iff bounded taken]
      exact wrapRange_bounded_iff
  | duplicate buffer =>
      simp only [call] at taken
      split at taken
      · cases taken
      · rename_i this present
        rw [add_bounded_iff bounded taken]
        exact iff_of_true
          (fun copy made => duplicate_bounded (bounded this (List.mem_of_getElem? present)) made)
          trivial
  | slice buffer =>
      simp only [call] at taken
      split at taken
      · cases taken
      · rename_i this present
        rw [add_bounded_iff bounded taken]
        exact iff_of_true
          (fun part made => slice_bounded (bounded this (List.mem_of_getElem? present)) made)
          trivial
  | operation buffer operation => exact operation_bounded_iff bounded taken

/-- The bounds hold before, between and after the calls of a run exactly if all the calls are
safe. -/
theorem bounded_iff_safe (calls : List Call) :
    Always call Bounded empty calls ↔ Meets call Safe empty calls :=
  always_iff_meets (fun st (bounded : Bounded st) => bounded)
    (fun _ _ _ bounded safe taken => (call_bounded_iff bounded taken).mpr safe)
    (fun _ _ _ bounded taken later => (call_bounded_iff bounded taken).mp later)
    (fun _ member => absurd member List.not_mem_nil) calls

/-- The three ways in which bounds are lost. -/
theorem bounds_lost :
    ¬Always call Bounded empty
        [.allocate 4, .operation 0 (.position 2), .operation 0 (.limit 1)] ∧
      ¬Always call Bounded empty [.allocate 0, .operation 0 .get] ∧
      ¬Always call Bounded empty [.allocate 1, .wrapRange 0 18446744073709551615 1] := by
  refine ⟨fun always => ?_, fun always => ?_, fun always => ?_⟩
  · have last := ((always.2 _ rfl).2 _ rfl).2 _ rfl _ List.mem_cons_self
    exact absurd last.position (by decide)
  · have last := (always.2 _ rfl).2 _ rfl _ List.mem_cons_self
    exact absurd last.position (by decide)
  · have last := (always.2 _ rfl).2 _ rfl _ (List.mem_cons_of_mem _ List.mem_cons_self)
    obtain ⟨array, present, inside⟩ := last.capacity
    cases present
    exact absurd inside (by decide)

end Heap

end Nio

end Mindroid
