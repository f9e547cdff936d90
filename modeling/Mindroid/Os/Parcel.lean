import Mathlib.Algebra.Order.BigOperators.Group.List
import Mathlib.Algebra.Order.Group.Nat
import Mindroid.Io.ByteArrayInputStream
import Mindroid.Lang.String

/-!
# Parcels

A `Parcel` is written in output mode and read in input mode.  Nothing but the order of the
calls says which values the bytes stand for.  The `ByteArrayOutputStream` of a parcel is the
list of the bytes that it was given.
-/

set_option autoImplicit false

namespace Mindroid

open Foundation

/-- What the functions of a parcel throw. -/
inductive ParcelThrown where
  | illegalStateException (message : String)
  /-- `RemoteException(e)` of an `IOException`. -/
  | remoteException (cause : StreamThrown)
  | stream (thrown : StreamThrown)
  | failure (failure : Failure)
  deriving DecidableEq

structure Parcel where
  mDataOutputStream : DataOutputStream
  mDataInputStream : Option (DataInputStream ByteArrayInputStream)

namespace Parcel

abbrev Action (α : Type) := StateT Parcel (Except ParcelThrown) α

def obtain : Parcel where
  mDataOutputStream := DataOutputStream.new ⟨[], false⟩
  mDataInputStream := none

/-- `catch (const IOException& e) { throw RemoteException(e); }`. -/
def rethrow (thrown : StreamThrown) : ParcelThrown :=
  if thrown.isIOException then .remoteException thrown else .stream thrown

/-- Write to `mDataOutputStream`, after `checkOutput()`. -/
def put (action : DataOutputStream.Action) : Action Unit := fun parcel =>
  match parcel.mDataInputStream with
  | some _ => .error (.illegalStateException "Parcel is in input mode")
  | none =>
      match action parcel.mDataOutputStream with
      | .error thrown => .error (rethrow thrown)
      | .ok (_, stream) => .ok ((), { parcel with mDataOutputStream := stream })

/-- Read from `mDataInputStream`, after `checkInput()`. -/
def get {α : Type} (action : DataInputStream.Action ByteArrayInputStream α) : Action α :=
  fun parcel =>
    match parcel.mDataInputStream with
    | none => .error (.illegalStateException "Parcel is in output mode")
    | some stream =>
        match action stream with
        | .error thrown => .error (rethrow thrown)
        | .ok (value, stream) => .ok (value, { parcel with mDataInputStream := some stream })

def putBoolean (value : Bool) : Action Unit := put (DataOutputStream.writeBoolean value)

def putByte (value : UInt8) : Action Unit := put (DataOutputStream.writeByte value)

def putChar (value : Int8) : Action Unit := put (DataOutputStream.writeChar value)

def putShort (value : Int16) : Action Unit := put (DataOutputStream.writeShort value)

def putInt (value : Int32) : Action Unit := put (DataOutputStream.writeInt value)

def putLong (value : Int64) : Action Unit := put (DataOutputStream.writeLong value)

def putString (value : List UInt8) : Action Unit := put (DataOutputStream.writeUTF value)

/-- `mOutputStream->write(buffer, offset, size)`. -/
def putBytes (buffer : List UInt8) (offset size : Nat) : Action Unit :=
  put (DataOutputStream.write buffer offset size)

def getBoolean : Action Bool := get (DataInputStream.readBoolean ByteArrayInputStream.source)

def getByte : Action UInt8 := get (DataInputStream.readByte ByteArrayInputStream.source)

def getChar : Action Int8 := get (DataInputStream.readChar ByteArrayInputStream.source)

/-- The short is returned as a `uint16_t`. -/
def getShort : Action UInt16 := do
  let value ← get (DataInputStream.readShort ByteArrayInputStream.source)
  pure value.toUInt16

def getInt : Action Int32 := get (DataInputStream.readInt ByteArrayInputStream.source)

/-- The long is returned as a `uint64_t`. -/
def getLong : Action UInt64 := do
  let value ← get (DataInputStream.readLong ByteArrayInputStream.source)
  pure value.toUInt64

def getString : Action (List UInt8) := get (DataInputStream.readUTF ByteArrayInputStream.source)

/-- `Math::min(mInputStream->available(), size)` bytes of `mInputStream`.  What `read` returns
is ignored. -/
def readBytes (size : Nat) : DataInputStream.Action ByteArrayInputStream (List UInt8) :=
  fun stream =>
    let size := min stream.mInputStream.available size
    let (data, inputStream) := stream.mInputStream.read size
    .ok (overwrite (List.replicate size 0) 0 (data.getD []),
      { stream with mInputStream := inputStream })

def getBytes (size : Nat) : Action (List UInt8) := get (readBytes size)

/-- The stream that `asInputStream()` returns has all bytes of the parcel in it. -/
def asInput (parcel : Parcel) : Parcel :=
  match parcel.mDataInputStream with
  | some _ => parcel
  | none =>
      let bytes := parcel.mDataOutputStream.mOutputStream.bytes
      { parcel with
        mDataInputStream := some (DataInputStream.new (.new bytes 0 bytes.length)) }

/-- `asInputStream()->available()`. -/
def available (parcel : Parcel) : Nat :=
  match parcel.mDataInputStream with
  | none => 0
  | some stream => stream.mInputStream.available

/-! ## Typed puts and gets -/

/-- What a typed put is given. -/
inductive Item where
  | boolean (value : Bool)
  | byte (value : UInt8)
  | char (value : Int8)
  | short (value : Int16)
  | int (value : Int32)
  | long (value : Int64)
  | string (value : List UInt8)
  | bytes (buffer : List UInt8) (offset size : Nat)

/-- What a typed get returns. -/
inductive Value where
  | boolean (value : Bool)
  | byte (value : UInt8)
  | char (value : Int8)
  | short (value : UInt16)
  | int (value : Int32)
  | long (value : UInt64)
  | string (value : List UInt8)
  | bytes (value : List UInt8)
  deriving DecidableEq

namespace Item

def put : Item → Action Unit
  | boolean value => putBoolean value
  | byte value => putByte value
  | char value => putChar value
  | short value => putShort value
  | int value => putInt value
  | long value => putLong value
  | string value => putString value
  | bytes buffer offset size => putBytes buffer offset size

/-- The get of the same type, of as many bytes. -/
def get : Item → Action Value
  | boolean _ => do pure (.boolean (← getBoolean))
  | byte _ => do pure (.byte (← getByte))
  | char _ => do pure (.char (← getChar))
  | short _ => do pure (.short (← getShort))
  | int _ => do pure (.int (← getInt))
  | long _ => do pure (.long (← getLong))
  | string _ => do pure (.string (← getString))
  | bytes _ _ size => do pure (.bytes (← getBytes size))

/-- The value that was put: of a number the same bit pattern, of an array the range. -/
def value : Item → Value
  | boolean value => .boolean value
  | byte value => .byte value
  | char value => .char value
  | short value => .short value.toUInt16
  | int value => .int value
  | long value => .long value.toUInt64
  | string value => .string value
  | bytes buffer offset size => .bytes ((buffer.drop offset).take size)

/-- The range of `putBytes` is in the array. -/
def InRange : Item → Prop
  | bytes buffer offset size => offset + size ≤ buffer.length
  | _ => True

/-- A string whose length can be told from the two bytes in front of it. -/
def Framed : Item → Prop
  | string value => 0 < value.length ∧ value.length ≤ 65535
  | _ => True

/-- What the put writes. -/
def encoding : Item → List UInt8
  | boolean value => [if value then 1 else 0]
  | byte value => [value]
  | char value => [value.toUInt8]
  | short value => DataOutputStream.shortBytes value
  | int value => DataOutputStream.intBytes value
  | long value => DataOutputStream.longBytes value
  | string value =>
      if value = [] then [] else DataOutputStream.shortBytes (Int16.ofNat value.length) ++ value
  | bytes buffer offset size => (buffer.drop offset).take size

end Item

/-- After all puts the gets return the same values and leave no byte, or some put throws. -/
def RoundTrips (items : List Item) : Prop :=
  (∃ thrown, items.forM Item.put obtain = .error thrown) ∨
    ∃ parcel after, items.forM Item.put obtain = .ok ((), parcel) ∧
      items.mapM Item.get parcel.asInput = .ok (items.map Item.value, after) ∧
      after.available = 0

/-! ## Writing and reading -/

/-- The bytes that a parcel in output mode was given. -/
def outPort : Port Parcel UInt8 where
  valid parcel := parcel.mDataInputStream = none ∧
    DataOutputStream.port.valid parcel.mDataOutputStream
  content parcel := parcel.mDataOutputStream.mOutputStream.bytes

/-- The bytes that a parcel in input mode has not returned. -/
def unread (parcel : Parcel) : List UInt8 :=
  match parcel.mDataInputStream with
  | none => []
  | some stream => stream.mInputStream.content

def inPort : Port Parcel UInt8 where
  valid parcel := ∃ stream, parcel.mDataInputStream = some stream ∧
    (DataInputStream.port ByteArrayInputStream.content).valid stream
  content := unread

theorem obtain_valid : outPort.valid obtain :=
  ⟨rfl, DataOutputStream.new_valid _⟩

theorem asInput_eq {parcel : Parcel} (output : parcel.mDataInputStream = none) :
    parcel.asInput =
      { parcel with
        mDataInputStream := some (DataInputStream.new (.new (outPort.content parcel) 0
          (outPort.content parcel).length)) } := by
  rw [asInput, output]
  rfl

theorem asInput_valid {parcel : Parcel} (valid : outPort.valid parcel) :
    inPort.valid parcel.asInput ∧ inPort.content parcel.asInput = outPort.content parcel := by
  rw [asInput_eq valid.1]
  constructor
  · exact ⟨_, rfl, DataInputStream.new_valid _⟩
  · exact ByteArrayInputStream.content_new _

theorem length_unread (parcel : Parcel) : parcel.unread.length = parcel.available := by
  rw [unread, available]
  cases parcel.mDataInputStream with
  | none => rfl
  | some stream => exact stream.mInputStream.length_content

section Lift

variable {α : Type} {code : List UInt8} {value : α}

theorem put_encodes {action : DataOutputStream.Action}
    (encodes : Encodes DataOutputStream.port action code) : Encodes outPort (put action) code where
  writes := by
    intro parcel valid
    rcases valid with ⟨output, valid⟩
    rcases encodes.writes valid with ⟨stream, writes, kept, content⟩
    refine ⟨{ parcel with mDataOutputStream := stream }, ?_, ⟨output, kept⟩, content⟩
    rw [put, output]
    dsimp only
    rw [writes]

theorem get_takes {action : DataInputStream.Action ByteArrayInputStream α}
    (takes : Takes (DataInputStream.port ByteArrayInputStream.content) action code value) :
    Takes inPort (get action) code value where
  whole := by
    intro parcel rest valid content
    rcases valid with ⟨stream, input, valid⟩
    change parcel.unread = _ at content
    rw [unread, input] at content
    rcases takes.whole valid content with ⟨after, reads, kept, remains⟩
    refine ⟨{ parcel with mDataInputStream := some after }, ?_, ⟨after, rfl, kept⟩, remains⟩
    rw [get, input]
    dsimp only
    rw [reads]

theorem get_spends {action : DataInputStream.Action ByteArrayInputStream α} {cost : α → Nat}
    {returns : α → Prop}
    (spends : Spends (DataInputStream.port ByteArrayInputStream.content) action cost returns) :
    Spends inPort (get action) cost returns where
  spent := by
    intro parcel value after valid reads
    rcases valid with ⟨stream, input, valid⟩
    rw [get, input] at reads
    dsimp only at reads
    cases result : action stream with
    | error thrown =>
        rw [result] at reads
        cases reads
    | ok pair =>
        rw [result] at reads
        cases reads
        rcases spends.spent valid result with ⟨kept, spent, holds⟩
        refine ⟨⟨pair.2, rfl, kept⟩, ?_, holds⟩
        change parcel.unread.length = _
        rw [unread, input]
        exact spent

end Lift

/-! ### Ranges of bytes -/

/-- As many bytes as there are, but no more than asked for. -/
theorem readBytes_eq (stream : DataInputStream ByteArrayInputStream) (size : Nat) :
    ∃ after, readBytes size stream = .ok (stream.mInputStream.content.take size, after) ∧
      after.mScratchpad = stream.mScratchpad ∧
      after.mInputStream.content = stream.mInputStream.content.drop size := by
  have length := stream.mInputStream.length_content
  rw [readBytes, ← length, Nat.min_comm]
  dsimp only
  by_cases asks : 0 < min size stream.mInputStream.content.length
  · have left : stream.mInputStream.mPosition < stream.mInputStream.mCount := by
      rw [length, ByteArrayInputStream.available] at asks
      omega
    have all : stream.mInputStream.content.take (min size stream.mInputStream.content.length) =
        stream.mInputStream.content.take size := by
      rw [← List.take_take, List.take_length]
    have rest : stream.mInputStream.content.drop (min size stream.mInputStream.content.length) =
        stream.mInputStream.content.drop size := by
      rw [List.drop_eq_drop_iff]
      omega
    rcases stream.mInputStream.read_eq left asks with ⟨after, reads, remains⟩
    rw [all] at reads
    refine ⟨{ stream with mInputStream := after }, ?_, rfl, remains.trans rest⟩
    rw [reads]
    dsimp only [Option.getD_some]
    rw [overwrite_all]
    rw [List.length_take, List.length_replicate]
  · have none : min size stream.mInputStream.content.length = 0 := Nat.eq_zero_of_not_pos asks
    have nothing : stream.mInputStream.content.take size = [] := by
      rw [← List.length_eq_zero_iff, List.length_take]
      exact none
    have rest : stream.mInputStream.content.drop size = stream.mInputStream.content := by
      rw [← List.drop_zero (l := stream.mInputStream.content), List.drop_drop,
        List.drop_eq_drop_iff]
      omega
    rcases stream.mInputStream.read_zero with ⟨delivered, reads, empty⟩
    refine ⟨stream, ?_, rfl, rest.symm⟩
    rw [none, reads, nothing, empty]
    rfl

theorem readBytes_takes (data : List UInt8) :
    Takes (DataInputStream.port ByteArrayInputStream.content) (readBytes data.length) data
      data where
  whole := by
    intro stream rest valid content
    change stream.mInputStream.content = _ at content
    rcases readBytes_eq stream data.length with ⟨after, reads, scratchpad, remains⟩
    rw [content, List.take_left] at reads
    rw [content, List.drop_left] at remains
    refine ⟨after, reads, ?_, remains⟩
    change after.mScratchpad.length = 8
    rw [scratchpad]
    exact valid

theorem readBytes_spends (size : Nat) :
    Spends (DataInputStream.port ByteArrayInputStream.content) (readBytes size) List.length
      fun _ => True where
  spent := by
    intro stream value last valid runs
    rcases readBytes_eq stream size with ⟨after, reads, scratchpad, remains⟩
    rw [runs] at reads
    cases reads
    refine ⟨?_, ?_, trivial⟩
    · change last.mScratchpad.length = 8
      rw [scratchpad]
      exact valid
    · change stream.mInputStream.content.length = _ + last.mInputStream.content.length
      rw [remains, ← List.length_append, List.take_append_drop]

/-! ### Items -/

/-- The bytes that a get reads before it returns a value. -/
def Value.cost : Value → Nat
  | .boolean _ | .byte _ | .char _ => 1
  | .short _ => 2
  | .int _ => 4
  | .long _ => 8
  | .string value => 2 + value.length
  | .bytes value => value.length

/-- No string that a get returns is longer than its length field can tell. -/
def Value.Bounded : Value → Prop
  | .string value => value.length ≤ 65535
  | _ => True

namespace Item

theorem put_encodes {item : Item} (inRange : item.InRange) :
    Encodes outPort item.put item.encoding := by
  cases item with
  | boolean value => exact Parcel.put_encodes (DataOutputStream.writeOne_encodes _)
  | byte value => exact Parcel.put_encodes (DataOutputStream.writeOne_encodes _)
  | char value => exact Parcel.put_encodes (DataOutputStream.writeOne_encodes _)
  | short value => exact Parcel.put_encodes (DataOutputStream.writeShort_encodes _)
  | int value => exact Parcel.put_encodes (DataOutputStream.writeInt_encodes _)
  | long value => exact Parcel.put_encodes (DataOutputStream.writeLong_encodes _)
  | string value =>
      apply Parcel.put_encodes
      rw [encoding]
      split
      · next empty =>
          rw [empty, DataOutputStream.writeUTF_nil]
          exact .nothing
      · next written => exact DataOutputStream.writeUTF_encodes written
  | bytes buffer offset size => exact Parcel.put_encodes (DataOutputStream.write_encodes inRange)

/-- A put of a range that is not in its array throws. -/
theorem put_throws {item : Item} (outOfRange : ¬item.InRange) {parcel : Parcel}
    (valid : outPort.valid parcel) : ∃ thrown, item.put parcel = .error thrown := by
  cases item with
  | bytes buffer offset size =>
      have rejected : DataOutputStream.write buffer offset size parcel.mDataOutputStream =
          .error (.array .indexOutOfBoundsException) := by
        rw [DataOutputStream.write, OutputStream.write, if_pos (Nat.lt_of_not_le outOfRange)]
        rfl
      rw [put, putBytes, Parcel.put, valid.1]
      dsimp only
      rw [rejected]
      exact ⟨_, rfl⟩
  | boolean | byte | char | short | int | long | string => exact absurd trivial outOfRange

theorem get_takes {item : Item} (inRange : item.InRange) (framed : item.Framed) :
    Takes inPort item.get item.encoding item.value := by
  have delivers := ByteArrayInputStream.delivers
  cases item with
  | boolean value =>
      have byte := (DataInputStream.readOne_decodes delivers (if value then 1 else 0)).takes
      have reads := Parcel.get_takes (byte.map fun byte : UInt8 => (decide (byte ≠ 0)))
      have same : decide ((if value then 1 else 0 : UInt8) ≠ 0) = value := by
        cases value <;> rfl
      rw [same] at reads
      exact reads.map Value.boolean
  | byte value =>
      exact (Parcel.get_takes (DataInputStream.readOne_decodes delivers value).takes).map Value.byte
  | char value =>
      have byte := (DataInputStream.readOne_decodes delivers value.toUInt8).takes
      exact (Parcel.get_takes (byte.map UInt8.toInt8)).map Value.char
  | short value =>
      have reads := Parcel.get_takes (DataInputStream.readShort_decodes delivers value).takes
      exact (reads.map Int16.toUInt16).map Value.short
  | int value =>
      exact (Parcel.get_takes (DataInputStream.readInt_decodes delivers value).takes).map Value.int
  | long value =>
      have reads := Parcel.get_takes (DataInputStream.readLong_decodes delivers value).takes
      exact (reads.map Int64.toUInt64).map Value.long
  | string value =>
      have written : value ≠ [] := List.length_pos_iff.mp framed.1
      have reads := Parcel.get_takes (DataInputStream.readUTF_decodes delivers framed.2).takes
      rw [encoding, if_neg written]
      exact reads.map Value.string
  | bytes buffer offset size =>
      have reads := Parcel.get_takes (readBytes_takes ((buffer.drop offset).take size))
      have length : ((buffer.drop offset).take size).length = size := by
        rw [List.length_take, List.length_drop]
        exact Nat.min_eq_left (Nat.le_sub_of_add_le' inRange)
      rw [length] at reads
      exact reads.map Value.bytes

theorem get_spends (item : Item) : Spends inPort item.get Value.cost Value.Bounded := by
  have delivers := ByteArrayInputStream.delivers
  have one := DataInputStream.readOne_spends delivers
  cases item with
  | boolean value => exact (Parcel.get_spends one.map).map
  | byte value => exact (Parcel.get_spends one).map
  | char value => exact (Parcel.get_spends one.map).map
  | short value => exact (Parcel.get_spends (DataInputStream.readShort_spends delivers)).map.map
  | int value => exact (Parcel.get_spends (DataInputStream.readInt_spends delivers)).map
  | long value => exact (Parcel.get_spends (DataInputStream.readLong_spends delivers)).map.map
  | string value => exact (Parcel.get_spends (DataInputStream.readUTF_spends delivers)).map
  | bytes buffer offset size =>
      have reads : Spends inPort (getBytes size) (fun value => (Value.bytes value).cost)
          fun value => (Value.bytes value).Bounded := Parcel.get_spends (readBytes_spends size)
      exact reads.map

/-- An empty string costs the length field that it was put without. -/
theorem length_encoding_le (item : Item) : item.encoding.length ≤ item.value.cost := by
  cases item with
  | string value =>
      rw [encoding]
      split
      · exact Nat.zero_le _
      · exact Nat.le_of_eq List.length_append
  | boolean | byte | char | short | int | long | bytes => exact Nat.le_refl _

theorem length_encoding_lt {item : Item} (bounded : item.value.Bounded) (unframed : ¬item.Framed) :
    item.encoding.length < item.value.cost := by
  cases item with
  | string value =>
      have empty : value = [] := by
        apply List.eq_nil_of_length_eq_zero
        exact Nat.eq_zero_of_not_pos fun written => unframed ⟨written, bounded⟩
      rw [encoding, if_pos empty]
      exact Nat.add_pos_left (by decide) _
  | boolean | byte | char | short | int | long | bytes => exact absurd trivial unframed

end Item

/-! ## Round trips -/

/-- The gets of items return what the puts were given, and nothing is left. -/
theorem roundTrips_of_framed {items : List Item} (inRange : ∀ item ∈ items, item.InRange)
    (framed : ∀ item ∈ items, item.Framed) : RoundTrips items := by
  have puts : Encodes outPort (items.forM Item.put) (items.flatMap Item.encoding) :=
    .each items fun item member => Item.put_encodes (inRange item member)
  have gets : Takes inPort (items.mapM Item.get) (items.flatMap Item.encoding)
      (items.map Item.value) :=
    .each items fun item member => Item.get_takes (inRange item member) (framed item member)
  rcases puts.writes obtain_valid with ⟨parcel, written, valid, bytes⟩
  rcases asInput_valid valid with ⟨input, content⟩
  have whole : inPort.content parcel.asInput = items.flatMap Item.encoding ++ [] := by
    rw [content, bytes, List.append_nil]
    rfl
  rcases gets.whole input whole with ⟨after, read, _, remains⟩
  refine .inr ⟨parcel, after, written, read, ?_⟩
  rw [← length_unread]
  exact List.length_eq_zero_iff.mpr remains

/-- Where no put throws, the gets can only return the same values if every string is framed:
they would have to read more bytes than there are. -/
theorem RoundTrips.framed {items : List Item} (trips : RoundTrips items)
    (inRange : ∀ item ∈ items, item.InRange) : ∀ item ∈ items, item.Framed := by
  have puts : Encodes outPort (items.forM Item.put) (items.flatMap Item.encoding) :=
    .each items fun item member => Item.put_encodes (inRange item member)
  rcases puts.writes obtain_valid with ⟨parcel, written, valid, bytes⟩
  rcases trips with ⟨thrown, throws⟩ | ⟨parcel', after, written', read, empty⟩
  · rw [throws] at written
    cases written
  rw [written] at written'
  cases written'
  rcases asInput_valid valid with ⟨input, content⟩
  rcases (Spends.each Item.get_spends items).spent input read with ⟨_, spent, bounded⟩
  intro item member
  by_contra unframed
  have more : (items.map fun item => item.encoding.length).sum <
      (items.map fun item => item.value.cost).sum := by
    apply List.sum_lt_sum
    · exact fun item _ => item.length_encoding_le
    · refine ⟨item, member, Item.length_encoding_lt ?_ unframed⟩
      exact bounded item.value (List.mem_map_of_mem member)
  have whole : (inPort.content parcel.asInput).length =
      (items.map fun item => item.encoding.length).sum := by
    rw [content, bytes]
    exact List.length_flatMap
  have rest : (inPort.content after).length = 0 := (length_unread after).trans empty
  rw [whole, rest, List.map_map] at spent
  exact Nat.ne_of_lt more spent

theorem forM_throws {items : List Item} (outOfRange : ∃ item ∈ items, ¬item.InRange)
    {parcel : Parcel} (valid : outPort.valid parcel) :
    ∃ thrown, items.forM Item.put parcel = .error thrown := by
  induction items generalizing parcel with
  | nil =>
      rcases outOfRange with ⟨_, member, _⟩
      cases member
  | cons first items ih =>
      by_cases inRange : first.InRange
      · rcases (Item.put_encodes inRange).writes valid with ⟨next, puts, kept, _⟩
        have later : ∃ item ∈ items, ¬item.InRange := by
          rcases outOfRange with ⟨item, member, isOut⟩
          rcases List.mem_cons.mp member with rfl | later
          · exact absurd inRange isOut
          · exact ⟨item, later, isOut⟩
        rcases ih later kept with ⟨thrown, throws⟩
        refine ⟨thrown, ?_⟩
        change (first.put >>= fun _ => items.forM Item.put) parcel = _
        rw [run_bind puts]
        exact throws
      · rcases Item.put_throws inRange valid with ⟨thrown, throws⟩
        exact ⟨thrown, run_bind_error throws⟩

end Parcel

end Mindroid
