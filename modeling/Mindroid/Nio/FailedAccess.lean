import Mindroid.Nio.BufferBounds

/-!
# Methods of a byte buffer that throw

A method of a buffer that throws has changed nothing, neither the fields of the buffer nor a byte
of an array.  The exceptions are the three relative methods that move the position before they
check the bounds, and these fail to do so whenever they throw.
-/

set_option autoImplicit false

namespace Mindroid

namespace Nio

open Foundation
open Foundation.Throwing

/-! ## What only reads -/

theorem onlyReads_self : OnlyReads self :=
  onlyReads_get.map _

theorem onlyReads_lookup (array : Nat) (null : Fault) : OnlyReads (lookup array null) := by
  apply onlyReads_get.bind
  intro st
  cases st.arrays[array]? with
  | none => exact onlyReads_throw null
  | some found => exact onlyReads_pure found

theorem onlyReads_readBytes (array : Nat) (address count : UInt64) :
    OnlyReads (readBytes array address count) :=
  (onlyReads_lookup array .undefined).bind fun _ =>
    (onlyReads_pure _).ite (onlyReads_throw _)

theorem onlyReads_checkBufferUnderflow (index amount : UInt64) :
    OnlyReads (checkBufferUnderflow index amount) :=
  onlyReads_self.bind fun _ => (onlyReads_throw _).ite (onlyReads_pure _)

theorem onlyReads_checkBufferOverflow (index amount : UInt64) :
    OnlyReads (checkBufferOverflow index amount) :=
  onlyReads_self.bind fun _ => (onlyReads_throw _).ite (onlyReads_pure _)

theorem onlyReads_arrayGet (array : Nat) (index : UInt64) : OnlyReads (arrayGet array index) :=
  (onlyReads_lookup array .undefined).bind fun _ =>
    (onlyReads_throw _).ite
      ((onlyReads_readBytes array index 1).bind fun _ => onlyReads_pure _)

theorem onlyReads_load (width index : UInt64) : OnlyReads (load width index) :=
  (onlyReads_checkBufferUnderflow index width).bind fun _ =>
    onlyReads_self.bind fun _ => onlyReads_readBytes _ _ _

theorem onlyReads_getAt (index : UInt64) : OnlyReads (getAt index) :=
  (onlyReads_checkBufferUnderflow index 1).bind fun _ =>
    onlyReads_self.bind fun _ => onlyReads_arrayGet _ _

/-! ## What writes last -/

theorem alwaysReturns_self : AlwaysReturns self :=
  fun _ => trivial

theorem alwaysReturns_setPosition (position : UInt64) : AlwaysReturns (setPosition position) :=
  alwaysReturns_modify _

theorem alwaysReturns_setLimit (limit : UInt64) : AlwaysReturns (setLimit limit) :=
  alwaysReturns_modify _

theorem allOrNothing_writeBytes (array : Nat) (address : UInt64) (data : List UInt8) :
    AllOrNothing (writeBytes array address data) := by
  apply (onlyReads_lookup array .undefined).followed
  intro found
  split
  · exact (alwaysReturns_modify _).allOrNothing
  · exact (onlyReads_throw _).allOrNothing

theorem allOrNothing_arraySet (array : Nat) (index : UInt64) (value : UInt8) :
    AllOrNothing (arraySet array index value) :=
  (onlyReads_lookup array .undefined).followed fun _ =>
    (onlyReads_throw _).allOrNothing.ite (allOrNothing_writeBytes array index [value])

theorem allOrNothing_arraycopy (src : Nat) (srcPos : UInt64) (dest : Nat)
    (destPos length : UInt64) : AllOrNothing (arraycopy src srcPos dest destPos length) :=
  (onlyReads_lookup src _).followed fun _ => (onlyReads_lookup dest _).followed fun _ =>
    (onlyReads_throw _).allOrNothing.ite
      ((onlyReads_readBytes src srcPos length).followed fun _ => allOrNothing_writeBytes _ _ _)

theorem allOrNothing_store (width index : UInt64) (value : Nat) :
    AllOrNothing (store width index value) :=
  (onlyReads_checkBufferOverflow index width).followed fun _ =>
    onlyReads_self.followed fun _ => allOrNothing_writeBytes _ _ _

theorem allOrNothing_putAt (index : UInt64) (value : UInt8) :
    AllOrNothing (putAt index value) :=
  (onlyReads_checkBufferOverflow index 1).followed fun _ =>
    onlyReads_self.followed fun _ => allOrNothing_arraySet _ _ _

/-- The position is moved when nothing can fail anymore. -/
theorem allOrNothing_relative {α : Type} {width : UInt64} {access : UInt64 → Method α}
    (whole : ∀ index, AllOrNothing (access index)) : AllOrNothing (relative width access) := by
  apply onlyReads_self.followed
  intro this
  apply (whole this.mPosition).bind
  intro result
  apply alwaysReturns_self.bind
  exact fun _ => (alwaysReturns_setPosition _).bind fun _ _ => trivial

theorem allOrNothing_putDouble (value : BitVec 64) : AllOrNothing (putDouble value) :=
  allOrNothing_relative fun index => allOrNothing_store 8 index _

theorem allOrNothing_putFloat (value : BitVec 32) : AllOrNothing (putFloat value) :=
  allOrNothing_relative fun index => allOrNothing_store 4 index _

theorem allOrNothing_putInt (value : BitVec 32) : AllOrNothing (putInt value) :=
  allOrNothing_relative fun index => allOrNothing_store 4 index _

theorem allOrNothing_putLong (value : BitVec 64) : AllOrNothing (putLong value) :=
  allOrNothing_relative fun index => allOrNothing_store 8 index _

theorem allOrNothing_putShort (value : BitVec 16) : AllOrNothing (putShort value) :=
  allOrNothing_relative fun index => allOrNothing_store 2 index _

theorem allOrNothing_getRange (dst : Nat) (offset count : UInt64) :
    AllOrNothing (getRange dst offset count) := by
  apply (onlyReads_lookup dst _).followed
  intro found
  apply (onlyReads_throw _).allOrNothing.ite
  apply allOrNothing_relative
  exact fun index => (onlyReads_checkBufferUnderflow index count).followed fun _ =>
    onlyReads_self.followed fun _ => allOrNothing_arraycopy _ _ _ _ _

theorem allOrNothing_putRange (src : Nat) (offset size : UInt64) :
    AllOrNothing (putRange src offset size) := by
  apply (onlyReads_lookup src _).followed
  intro found
  apply (onlyReads_throw _).allOrNothing.ite
  apply allOrNothing_relative
  exact fun index => (onlyReads_checkBufferOverflow index size).followed fun _ =>
    onlyReads_self.followed fun _ => allOrNothing_arraycopy _ _ _ _ _

/-! ## What moves the position first -/

section Rules

variable {st : Scope}

theorem leads_lookup_some {array : Nat} {null : Fault} {found : ByteArray}
    {returns : ByteArray → Scope → Prop} {throws : Fault → Scope → Prop}
    (present : st.arrays[array]? = some found) :
    Leads (lookup array null) returns throws st ↔ returns found st := by
  rw [lookup, leads_bind, leads_get, present]
  exact Iff.rfl

theorem leads_lookup_none {array : Nat} {null : Fault} {returns : ByteArray → Scope → Prop}
    {throws : Fault → Scope → Prop} (absent : st.arrays[array]? = none) :
    Leads (lookup array null) returns throws st ↔ throws null st := by
  rw [lookup, leads_bind, leads_get, absent]
  exact Iff.rfl

variable {index amount : UInt64} {returns : Unit → Scope → Prop}
  {throws : Fault → Scope → Prop}

theorem leads_checkBufferUnderflow :
    Leads (checkBufferUnderflow index amount) returns throws st ↔
      (st.this.mLimit < index + amount → throws .bufferUnderflowException st) ∧
        (¬st.this.mLimit < index + amount → returns () st) := by
  rw [checkBufferUnderflow, self, leads_bind, leads_map, leads_get, leads_ite]
  exact Iff.rfl

theorem leads_checkBufferOverflow :
    Leads (checkBufferOverflow index amount) returns throws st ↔
      (st.this.mLimit < index + amount → throws (.bufferOverflowException "") st) ∧
        (¬st.this.mLimit < index + amount → returns () st) := by
  rw [checkBufferOverflow, self, leads_bind, leads_map, leads_get, leads_ite]
  exact Iff.rfl

end Rules

/-- A byte is within the limit, and within the array if there is one. -/
structure Scope.Admits (st : Scope) (index : UInt64) : Prop where
  limit : index + 1 ≤ st.this.mLimit
  array : ∀ found, st.arrays[st.this.mBuffer]? = some found →
    st.this.mOffset + index < found.size

/-- If a call throws, then everything is as before. -/
def Untouched {α : Type} (call : Method α) (st : Scope) : Prop :=
  Leads call (fun _ _ => True) (fun thrown st' => thrown ≠ .undefined → st' = st) st

theorem untouched_void {α : Type} {call : Method α} {st : Scope} :
    Untouched (void call) st ↔ Untouched call st :=
  leads_map _ call

theorem untouched_of_allOrNothing {α : Type} {call : Method α} (whole : AllOrNothing call)
    (st : Scope) : Untouched call st :=
  Leads.mono (whole st) (fun _ _ _ => trivial) (fun _ _ same _ => same)

/-- A call that throws nothing. -/
def ThrowsNothing {α : Type} (call : Method α) (st : Scope) : Prop :=
  Leads call (fun _ _ => True) (fun thrown _ => thrown = .undefined) st

theorem throwsNothing_readBytes (array : Nat) (address count : UInt64) (st : Scope) :
    ThrowsNothing (readBytes array address count) st := by
  rw [ThrowsNothing, readBytes, leads_bind]
  apply leads_lookup
  · intro found present
    rw [leads_ite]
    exact ⟨fun _ => trivial, fun _ => rfl⟩
  · rfl

theorem throwsNothing_writeBytes (array : Nat) (address : UInt64) (data : List UInt8)
    (st : Scope) : ThrowsNothing (writeBytes array address data) st := by
  rw [ThrowsNothing, writeBytes, leads_bind]
  apply leads_lookup
  · intro found present
    split
    · trivial
    · rfl
  · rfl

/-- The two methods of an array that check the index themselves. -/
theorem throwsNothing_checked {α : Type} {array : Nat} {index : UInt64} {access : Method α}
    {st : Scope} (accesses : ThrowsNothing access st) :
    ThrowsNothing (do
      if index ≥ (← lookup array .undefined).size then
        throw (.indexOutOfBoundsException "")
      else
        access) st ↔
      ∀ found, st.arrays[array]? = some found → index < found.size := by
  rw [ThrowsNothing, leads_bind]
  cases present : st.arrays[array]? with
  | none =>
      rw [leads_lookup_none present]
      simp
  | some found =>
      rw [leads_lookup_some present, leads_ite, leads_throw]
      constructor
      · rintro throws _ ⟨⟩
        rw [← UInt64.not_le]
        intro outside
        cases throws.1 outside
      · intro inside
        exact ⟨fun outside => absurd (inside found rfl) (UInt64.not_lt.mpr outside),
          fun _ => accesses⟩

/-- A single byte is refused by the check of the limit or by the array. -/
theorem admits_iff {st : Scope} {index : UInt64} {refused : Fault} {access : Prop}
    (thrown : refused ≠ .undefined)
    (checked : access ↔ ∀ found, st.arrays[st.this.mBuffer]? = some found →
      st.this.mOffset + index < found.size) :
    (st.this.mLimit < index + 1 → refused = .undefined) ∧ (¬st.this.mLimit < index + 1 → access) ↔
      st.Admits index := by
  rw [checked]
  constructor
  · intro both
    have within : ¬st.this.mLimit < index + 1 := fun outside => thrown (both.1 outside)
    exact ⟨UInt64.not_lt.mp within, both.2 within⟩
  · intro admits
    exact ⟨fun outside => absurd admits.limit (UInt64.not_le.mpr outside), fun _ => admits.array⟩

theorem throwsNothing_getAt_iff {index : UInt64} {st : Scope} :
    ThrowsNothing (getAt index) st ↔ st.Admits index := by
  rw [ThrowsNothing, getAt, leads_bind, leads_checkBufferUnderflow]
  apply admits_iff (by decide)
  exact throwsNothing_checked ((leads_bind _ _).mpr (throwsNothing_readBytes _ _ _ st))

theorem throwsNothing_putAt_iff {index : UInt64} {value : UInt8} {st : Scope} :
    ThrowsNothing (putAt index value) st ↔ st.Admits index := by
  rw [ThrowsNothing, putAt, leads_bind, leads_checkBufferOverflow]
  apply admits_iff (by decide)
  exact throwsNothing_checked (throwsNothing_writeBytes _ _ _ st)

/-- Whatever such a method throws, the position is lost. -/
theorem untouched_moved_iff {α : Type} {access : UInt64 → Method α} {st : Scope}
    (whole : ∀ index, AllOrNothing (access index)) :
    Untouched (moved access) st ↔
      ThrowsNothing (access st.this.mPosition)
        { st with this := { st.this with mPosition := st.this.mPosition + 1 } } := by
  have moves : Untouched (moved access) st ↔ Leads (access st.this.mPosition) (fun _ _ => True)
      (fun thrown st' => thrown ≠ .undefined → st' = st)
      { st with this := { st.this with mPosition := st.this.mPosition + 1 } } := by
    rw [Untouched, moved, leads_bind]
    exact Iff.rfl
  have kept := whole st.this.mPosition
    { st with this := { st.this with mPosition := st.this.mPosition + 1 } }
  rw [moves]
  constructor
  · intro untouched
    apply (kept.and untouched).mono
    · exact fun _ _ _ => trivial
    · intro thrown st' both
      by_contra throws
      have same : st.this.mPosition + 1 = st.this.mPosition :=
        congrArg (fun scope : Scope => scope.this.mPosition) (both.1.symm.trans (both.2 throws))
      exact absurd (UInt64.add_eq_left.mp same) (by decide)
  · intro returns
    apply Leads.mono returns
    · exact fun _ _ _ => trivial
    · exact fun _ _ undefined throws => absurd undefined throws

theorem untouched_get_iff {st : Scope} : Untouched get st ↔ st.Admits st.this.mPosition := by
  rw [get, untouched_moved_iff fun index => (onlyReads_getAt index).allOrNothing,
    throwsNothing_getAt_iff]
  exact ⟨fun admits => ⟨admits.limit, admits.array⟩, fun admits => ⟨admits.limit, admits.array⟩⟩

theorem untouched_put_iff {value : UInt8} {st : Scope} :
    Untouched (put value) st ↔ st.Admits st.this.mPosition := by
  rw [put, untouched_moved_iff fun index => allOrNothing_putAt index value,
    throwsNothing_putAt_iff]
  exact ⟨fun admits => ⟨admits.limit, admits.array⟩, fun admits => ⟨admits.limit, admits.array⟩⟩

/-! ## The operations -/

theorem allOrNothing_clear : AllOrNothing clear :=
  (alwaysReturns_self.bind fun _ => (alwaysReturns_setLimit _).bind fun _ =>
    alwaysReturns_setPosition 0).allOrNothing

theorem allOrNothing_flip : AllOrNothing flip :=
  (alwaysReturns_self.bind fun _ => (alwaysReturns_setLimit _).bind fun _ =>
    alwaysReturns_setPosition 0).allOrNothing

theorem allOrNothing_limit (newLimit : UInt64) : AllOrNothing (limit newLimit) :=
  onlyReads_self.followed fun _ =>
    (onlyReads_throw _).allOrNothing.ite (alwaysReturns_setLimit _).allOrNothing

theorem allOrNothing_position (newPosition : UInt64) : AllOrNothing (position newPosition) :=
  onlyReads_self.followed fun _ =>
    (onlyReads_throw _).allOrNothing.ite (alwaysReturns_setPosition _).allOrNothing

theorem allOrNothing_compact : AllOrNothing compact := by
  apply onlyReads_self.followed
  intro this
  apply (onlyReads_readBytes _ _ _).followed
  intro data
  apply (allOrNothing_writeBytes _ _ _).bind
  exact fun _ => (alwaysReturns_setPosition _).bind fun _ => alwaysReturns_setLimit _

theorem allOrNothing_void {α : Type} {call : Method α} (whole : AllOrNothing call) :
    AllOrNothing (void call) :=
  whole.map _

/-- A number is read at the position. -/
theorem allOrNothing_getNumber {width size : Nat} {access : UInt64 → Method (BitVec width)}
    (reads : ∀ index, access index = number width <$> load (UInt64.ofNat size) index) :
    AllOrNothing (relative (UInt64.ofNat size) access) := by
  apply allOrNothing_relative
  intro index
  rw [reads index]
  exact ((onlyReads_load _ index).map _).allOrNothing

/-- When an operation that throws changes nothing. -/
def Operation.Harmless : Operation → Scope → Prop
  | get, st => st.Admits st.this.mPosition
  | put _, st => st.Admits st.this.mPosition
  | putChar _, st => st.Admits st.this.mPosition
  | _, _ => True

/-- Every other operation checks the bounds before it moves the position. -/
theorem Operation.untouched_iff (operation : Operation) (st : Scope) :
    Untouched operation.method st ↔ operation.Harmless st := by
  have whole {call : Method Unit} (all : AllOrNothing call) : Untouched call st ↔ True :=
    iff_of_true (untouched_of_allOrNothing all st) trivial
  have reads {α : Type} {call : Method α} (only : OnlyReads call) :
      Untouched (void call) st ↔ True := whole (allOrNothing_void only.allOrNothing)
  cases operation with
  | get => exact untouched_void.trans untouched_get_iff
  | put value => exact untouched_put_iff
  | putChar value => exact untouched_put_iff
  | clear => exact whole allOrNothing_clear
  | flip => exact whole allOrNothing_flip
  | rewind => exact whole (alwaysReturns_setPosition 0).allOrNothing
  | compact => exact whole allOrNothing_compact
  | limit newLimit => exact whole (allOrNothing_limit newLimit)
  | position newPosition => exact whole (allOrNothing_position newPosition)
  | getChar =>
      exact whole (allOrNothing_void (allOrNothing_relative fun index =>
        (onlyReads_getAt index).allOrNothing))
  | getDouble => exact whole (allOrNothing_void (allOrNothing_getNumber fun _ => rfl))
  | getFloat => exact whole (allOrNothing_void (allOrNothing_getNumber fun _ => rfl))
  | getInt => exact whole (allOrNothing_void (allOrNothing_getNumber fun _ => rfl))
  | getLong => exact whole (allOrNothing_void (allOrNothing_getNumber fun _ => rfl))
  | getShort => exact whole (allOrNothing_void (allOrNothing_getNumber fun _ => rfl))
  | getAt index => exact reads (onlyReads_getAt index)
  | getCharAt index => exact reads (onlyReads_getAt index)
  | getDoubleAt index => exact reads ((onlyReads_load 8 index).map _)
  | getFloatAt index => exact reads ((onlyReads_load 4 index).map _)
  | getIntAt index => exact reads ((onlyReads_load 4 index).map _)
  | getLongAt index => exact reads ((onlyReads_load 8 index).map _)
  | getShortAt index => exact reads ((onlyReads_load 2 index).map _)
  | getRange dst offset count => exact whole (allOrNothing_getRange dst offset count)
  | getAll dst =>
      exact whole ((onlyReads_lookup dst _).followed fun _ => allOrNothing_getRange dst 0 _)
  | putDouble value => exact whole (allOrNothing_putDouble value)
  | putFloat value => exact whole (allOrNothing_putFloat value)
  | putInt value => exact whole (allOrNothing_putInt value)
  | putLong value => exact whole (allOrNothing_putLong value)
  | putShort value => exact whole (allOrNothing_putShort value)
  | putAt index value => exact whole (allOrNothing_putAt index value)
  | putCharAt index value => exact whole (allOrNothing_putAt index value)
  | putDoubleAt index value => exact whole (allOrNothing_store 8 index _)
  | putFloatAt index value => exact whole (allOrNothing_store 4 index _)
  | putIntAt index value => exact whole (allOrNothing_store 4 index _)
  | putLongAt index value => exact whole (allOrNothing_store 8 index _)
  | putShortAt index value => exact whole (allOrNothing_store 2 index _)
  | putRange src offset size => exact whole (allOrNothing_putRange src offset size)
  | putAll src =>
      exact whole ((onlyReads_lookup src _).followed fun _ => allOrNothing_putRange src 0 _)

/-- At the end of a buffer, the position is moved by a call that throws. -/
theorem failed_get_moves :
    ¬Untouched (Operation.method .get)
      { arrays := [{ bytes := [7], bounded := by decide }]
        this := { mBuffer := 0, mOffset := 0, mPosition := 1, mLimit := 1, mCapacity := 1 } } := by
  intro untouched
  have same := congrArg (fun st : Scope => st.this.mPosition) (untouched (by decide))
  exact absurd same (by decide)

end Nio

end Mindroid
