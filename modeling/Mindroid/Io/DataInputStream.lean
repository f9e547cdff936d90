import Mindroid.Foundation.Decoding
import Mindroid.Io.DataOutputStream

/-!
# Data input streams

The functions that read a fixed number of bytes go on until they have them all, however
few of them the stream below delivers at a time.
-/

set_option autoImplicit false

namespace Mindroid

open Foundation

/-- The part of the contract of `InputStream` that is about reading. -/
structure InputStream.Delivers {σ : Type} (source : InputStream σ) (content : σ → List UInt8) :
    Prop where
  read_end : ∀ {st st' count}, source.read st count = (none, st') → content st = []
  read_some : ∀ {st st' count data}, source.read st count = (some data, st') → 0 < count →
    data ≠ [] ∧ data.length ≤ count ∧ content st = data ++ content st'

theorem InputStream.Lawful.delivers {σ : Type} {source : InputStream σ}
    {content : σ → List UInt8} (lawful : source.Lawful content) : source.Delivers content where
  read_end reads := (lawful.read_end reads).1
  read_some := lawful.read_some

structure DataInputStream (σ : Type) where
  mInputStream : σ
  mScratchpad : List UInt8

namespace DataInputStream

variable {σ : Type} (source : InputStream σ)

/-- A function that reads a value from the stream. -/
abbrev Action (σ α : Type) := StateT (DataInputStream σ) (Except StreamThrown) α

def new (inputStream : σ) : DataInputStream σ :=
  { mInputStream := inputStream, mScratchpad := List.replicate 8 0 }

/-- The local variables of the loop in `readFully`. -/
structure Filling (σ : Type) where
  inputStream : σ
  buffer : List UInt8
  offset : Nat
  count : Nat

/-- One iteration of the loop in `readFully`. -/
def fillNext (st : Filling σ) : Except StreamThrown ((List UInt8 × σ) ⊕ Filling σ) :=
  if st.count = 0 then
    .ok (.inl (st.buffer, st.inputStream))
  else
    match source.read st.inputStream st.count with
    | (none, _) => .error .eofException
    | (some data, inputStream) =>
        .ok (.inr
          { inputStream := inputStream
            buffer := overwrite st.buffer st.offset data
            offset := st.offset + data.length
            count := st.count - data.length })

/-- `readFully(buffer, offset, count)`; returns the new content of the buffer.  The loop
goes on for ever over a stream that delivers nothing without being at its end. -/
def readFully (buffer : List UInt8) (offset count : Nat) : Action σ (List UInt8) := fun stream =>
  if count = 0 then
    .ok (buffer, stream)
  else if offset + count > buffer.length then
    .error (.array .indexOutOfBoundsException)
  else do
    let (buffer, inputStream) ←
      loop (fillNext source) (.array .outOfFuel) (count + 1)
        ⟨stream.mInputStream, buffer, offset, count⟩
    pure (buffer, { stream with mInputStream := inputStream })

/-- Fill the start of the scratchpad. -/
def readScratchpad (count : Nat) : Action σ (List UInt8) := fun stream => do
  let (scratchpad, stream) ← readFully source stream.mScratchpad 0 count stream
  pure (scratchpad, { stream with mScratchpad := scratchpad })

/-- The number that `readShort` makes of the scratchpad. -/
def shortOf (scratchpad : List UInt8) : Int16 :=
  ⟨⟨((scratchpad.getD 0 0).toBitVec.setWidth 16 <<< 8) |||
    ((scratchpad.getD 1 0).toBitVec.setWidth 16 &&& 0xff)⟩⟩

/-- The number that `readInt` makes of the scratchpad. -/
def intOf (scratchpad : List UInt8) : Int32 :=
  ⟨⟨(((scratchpad.getD 0 0).toBitVec.setWidth 32 &&& 0xff) <<< 24) |||
    (((scratchpad.getD 1 0).toBitVec.setWidth 32 &&& 0xff) <<< 16) |||
    (((scratchpad.getD 2 0).toBitVec.setWidth 32 &&& 0xff) <<< 8) |||
    (((scratchpad.getD 3 0).toBitVec.setWidth 32 &&& 0xff) <<< 0)⟩⟩

/-- The number that `readLong` makes of the scratchpad. -/
def longOf (scratchpad : List UInt8) : Int64 :=
  ⟨⟨(((scratchpad.getD 0 0).toBitVec.setWidth 64 &&& 0xff) <<< 56) |||
    (((scratchpad.getD 1 0).toBitVec.setWidth 64 &&& 0xff) <<< 48) |||
    (((scratchpad.getD 2 0).toBitVec.setWidth 64 &&& 0xff) <<< 40) |||
    (((scratchpad.getD 3 0).toBitVec.setWidth 64 &&& 0xff) <<< 32) |||
    (((scratchpad.getD 4 0).toBitVec.setWidth 64 &&& 0xff) <<< 24) |||
    (((scratchpad.getD 5 0).toBitVec.setWidth 64 &&& 0xff) <<< 16) |||
    (((scratchpad.getD 6 0).toBitVec.setWidth 64 &&& 0xff) <<< 8) |||
    (((scratchpad.getD 7 0).toBitVec.setWidth 64 &&& 0xff) <<< 0)⟩⟩

/-- `mInputStream->read()`, which delivers the byte that a read into an array of one byte
delivers, and the check of its result. -/
def readOne : Action σ UInt8 := fun stream =>
  match source.read stream.mInputStream 1 with
  | (none, _) => .error .eofException
  | (some data, inputStream) => .ok (data.headD 0, { stream with mInputStream := inputStream })

def readBoolean : Action σ Bool := do
  let value ← readOne source
  pure (value ≠ 0)

def readByte : Action σ UInt8 := readOne source

def readChar : Action σ Int8 := do
  let value ← readByte source
  pure value.toInt8

def readShort : Action σ Int16 := do
  let scratchpad ← readScratchpad source 2
  pure (shortOf scratchpad)

def readInt : Action σ Int32 := do
  let scratchpad ← readScratchpad source 4
  pure (intOf scratchpad)

def readLong : Action σ Int64 := do
  let scratchpad ← readScratchpad source 8
  pure (longOf scratchpad)

def readUnsignedShort : Action σ UInt16 := do
  let value ← readShort source
  pure (value.toUInt16 &&& 0xffff)

/-- `new ByteArray(size)` and a `readFully` that fills it. -/
def readArray (size : Nat) : Action σ (List UInt8) := fun stream => do
  let array ← (newByteArray size).mapError StreamThrown.array
  readFully source array 0 size stream

def readUTF : Action σ (List UInt8) := do
  let size ← readUnsignedShort source
  readArray source size.toNat

/-! ## Numbers and their bytes -/

section Numbers

open DataOutputStream

theorem getLsbD_mask (width i : Nat) :
    (0xff : BitVec width).getLsbD i = (decide (i < width) && decide (i < 8)) := by
  change (BitVec.ofNat width (2 ^ 8 - 1)).getLsbD i = _
  rw [BitVec.getLsbD_ofNat, Nat.testBit_two_pow_sub_one]

/-- A byte fits into the mask that the code applies to it. -/
theorem and_mask {width : Nat} (byte : UInt8) :
    byte.toBitVec.setWidth width &&& 0xff = byte.toBitVec.setWidth width := by
  apply BitVec.eq_of_getLsbD_eq
  intro i inside
  rw [BitVec.getLsbD_and, getLsbD_mask, BitVec.getLsbD_setWidth]
  by_cases inByte : i < 8
  · simp [inByte, inside]
  · rw [BitVec.getLsbD_of_ge byte.toBitVec i (Nat.le_of_not_lt inByte)]
    simp

theorem getLsbD_byteOf {width : Nat} (value : BitVec width) {shift i : Nat} (inByte : i < 8)
    (inValue : shift + i < width) :
    (byteOf value shift).toBitVec.getLsbD i = value.getLsbD (shift + i) := by
  have below : i < width := Nat.lt_of_le_of_lt (Nat.le_add_left i shift) inValue
  change (((value.sshiftRight shift).setWidth 8) &&& 0xff).getLsbD i = _
  rw [BitVec.getLsbD_and, getLsbD_mask, BitVec.getLsbD_setWidth, BitVec.getLsbD_sshiftRight,
    if_pos inValue]
  simp [inByte, below]

/-- A byte of a number, at its place, gives its bits of the number. -/
theorem getLsbD_placed {width : Nat} (value : BitVec width) (shift : Nat) {i : Nat}
    (inside : i < width) :
    ((byteOf value shift).toBitVec.setWidth width <<< shift).getLsbD i =
      (decide (shift ≤ i ∧ i < shift + 8) && value.getLsbD i) := by
  rw [BitVec.getLsbD_shiftLeft, BitVec.getLsbD_setWidth]
  by_cases start : shift ≤ i
  · by_cases inByte : i < shift + 8
    · rw [getLsbD_byteOf value (by omega) (by omega), Nat.add_sub_cancel' start]
      have inWidth : i - shift < width := Nat.lt_of_le_of_lt (Nat.sub_le i shift) inside
      simp [start, inByte, inside, inWidth]
    · rw [BitVec.getLsbD_of_ge _ (i - shift) (by omega)]
      simp [inByte]
  · have before : i < shift := Nat.lt_of_not_le start
    simp [start, before]

/-- `readShort` reads what `writeShort` wrote. -/
theorem shortOf_shortBytes (value : Int16) (rest : List UInt8) :
    shortOf (shortBytes value ++ rest) = value := by
  apply Int16.toBitVec_inj.mp
  apply BitVec.eq_of_getLsbD_eq
  intro i inside
  have placed := fun shift => getLsbD_placed value.toBitVec shift inside
  have last := placed 0
  rw [BitVec.shiftLeft_zero] at last
  simp only [shortBytes, shortOf, and_mask, List.cons_append, List.getD_cons_zero,
    List.getD_cons_succ, Int16.toBitVec] at placed last ⊢
  rw [BitVec.getLsbD_or, placed, last]
  cases value.toUInt16.toBitVec.getLsbD i with
  | false => simp
  | true =>
      simp
      omega

/-- `readInt` reads what `writeInt` wrote. -/
theorem intOf_intBytes (value : Int32) (rest : List UInt8) :
    intOf (intBytes value ++ rest) = value := by
  apply Int32.toBitVec_inj.mp
  apply BitVec.eq_of_getLsbD_eq
  intro i inside
  have placed := fun shift => getLsbD_placed value.toBitVec shift inside
  simp only [intBytes, intOf, and_mask, List.cons_append, List.getD_cons_zero,
    List.getD_cons_succ, Int32.toBitVec] at placed ⊢
  rw [BitVec.getLsbD_or, BitVec.getLsbD_or, BitVec.getLsbD_or, placed, placed, placed, placed]
  cases value.toUInt32.toBitVec.getLsbD i with
  | false => simp
  | true =>
      simp
      omega

/-- `readLong` reads what `writeLong` wrote. -/
theorem longOf_longBytes (value : Int64) (rest : List UInt8) :
    longOf (longBytes value ++ rest) = value := by
  apply Int64.toBitVec_inj.mp
  apply BitVec.eq_of_getLsbD_eq
  intro i inside
  have placed := fun shift => getLsbD_placed value.toBitVec shift inside
  simp only [longBytes, longOf, and_mask, List.cons_append, List.getD_cons_zero,
    List.getD_cons_succ, Int64.toBitVec] at placed ⊢
  simp only [BitVec.getLsbD_or, placed]
  cases value.toUInt64.toBitVec.getLsbD i with
  | false => simp
  | true =>
      simp
      omega

end Numbers

/-! ## What is read -/

/-- The bytes that the stream below has not delivered. -/
def port (content : σ → List UInt8) : Port (DataInputStream σ) UInt8 where
  valid stream := stream.mScratchpad.length = 8
  content stream := content stream.mInputStream

variable {source} {content : σ → List UInt8}

theorem new_valid (inputStream : σ) : (port content).valid (new inputStream) :=
  List.length_replicate

/-- One iteration of the loop of `readFully` copies a chunk, unless the stream is at its
end. -/
theorem fillNext_eq (delivers : source.Delivers content) {st : Filling σ} (asks : st.count ≠ 0) :
    (content st.inputStream = [] ∧ fillNext source st = .error .eofException) ∨
      ∃ chunk inputStream, chunk ≠ [] ∧ chunk.length ≤ st.count ∧
        content st.inputStream = chunk ++ content inputStream ∧
        fillNext source st =
          .ok (.inr
            { inputStream := inputStream
              buffer := overwrite st.buffer st.offset chunk
              offset := st.offset + chunk.length
              count := st.count - chunk.length }) := by
  rcases reads : source.read st.inputStream st.count with ⟨delivered, inputStream⟩
  rw [fillNext, if_neg asks, reads]
  cases delivered with
  | none => exact .inl ⟨delivers.read_end reads, rfl⟩
  | some chunk =>
      rcases delivers.read_some reads (Nat.pos_of_ne_zero asks) with ⟨some, fits, split⟩
      exact .inr ⟨chunk, inputStream, some, fits, split, rfl⟩

/-- The loop of `readFully` stores the bytes that it asks for if there are so many. -/
theorem fills (delivers : source.Delivers content) {fuel : Nat} (st : Filling σ)
    (enough : st.count < fuel) (room : st.offset + st.count ≤ st.buffer.length)
    (there : st.count ≤ (content st.inputStream).length) :
    ∃ inputStream,
      loop (fillNext source) (.array .outOfFuel) fuel st =
        .ok (overwrite st.buffer st.offset ((content st.inputStream).take st.count), inputStream) ∧
      content inputStream = (content st.inputStream).drop st.count := by
  induction fuel generalizing st with
  | zero => exact absurd enough (Nat.not_lt_zero _)
  | succ fuel ih =>
      rw [loop]
      by_cases done : st.count = 0
      · refine ⟨st.inputStream, ?_, ?_⟩
        · rw [fillNext, if_pos done, done, List.take_zero, overwrite_nil]
        · rw [done, List.drop_zero]
      · rcases fillNext_eq delivers done with
          ⟨empty, _⟩ | ⟨chunk, inputStream, some, fits, split, goesOn⟩
        · rw [empty] at there
          exact absurd (Nat.le_zero.mp there) done
        · have positive : 0 < chunk.length := List.length_pos_iff.mpr some
          have taken : (content st.inputStream).take st.count =
              chunk ++ (content inputStream).take (st.count - chunk.length) := by
            rw [split, List.take_append, List.take_of_length_le fits]
          have dropped : (content st.inputStream).drop st.count =
              (content inputStream).drop (st.count - chunk.length) := by
            rw [split, List.drop_append, List.drop_of_length_le fits, List.nil_append]
          rw [split, List.length_append] at there
          have fewer : st.count - chunk.length < fuel := by omega
          have roomNext : st.offset + chunk.length + (st.count - chunk.length) ≤
              (overwrite st.buffer st.offset chunk).length := by
            rw [length_overwrite (by omega)]
            omega
          have thereNext : st.count - chunk.length ≤ (content inputStream).length := by omega
          rcases ih
            ⟨inputStream, overwrite st.buffer st.offset chunk, st.offset + chunk.length,
              st.count - chunk.length⟩
            fewer roomNext thereNext with ⟨last, returns, remains⟩
          refine ⟨last, ?_, remains.trans dropped.symm⟩
          rw [goesOn, taken, ← overwrite_append (by rw [List.length_take]; omega)]
          exact returns

/-- The loop of `readFully` throws if the stream ends before. -/
theorem starves (delivers : source.Delivers content) {fuel : Nat} (st : Filling σ)
    (enough : st.count < fuel) (few : (content st.inputStream).length < st.count) :
    loop (fillNext source) (.array .outOfFuel) fuel st = .error .eofException := by
  induction fuel generalizing st with
  | zero => exact absurd enough (Nat.not_lt_zero _)
  | succ fuel ih =>
      rw [loop]
      rcases fillNext_eq delivers (Nat.ne_of_gt (Nat.zero_lt_of_lt few)) with
        ⟨_, throws⟩ | ⟨chunk, inputStream, some, fits, split, goesOn⟩
      · rw [throws]
      · have positive : 0 < chunk.length := List.length_pos_iff.mpr some
        rw [split, List.length_append] at few
        have fewer : st.count - chunk.length < fuel := by omega
        have fewNext : (content inputStream).length < st.count - chunk.length := by omega
        rw [goesOn]
        exact ih ⟨inputStream, _, _, st.count - chunk.length⟩ fewer fewNext

theorem readFully_decodes (delivers : source.Delivers content) {buffer data : List UInt8}
    (fits : data.length ≤ buffer.length) :
    Decodes (port content) .eofException (readFully source buffer 0 data.length) data
      (overwrite buffer 0 data) where
  whole := by
    intro stream rest valid split
    rw [readFully]
    by_cases none : data.length = 0
    · have empty : data = [] := List.length_eq_zero_iff.mp none
      subst empty
      refine ⟨stream, ?_, valid, split⟩
      rw [if_pos List.length_nil, overwrite_nil]
    · have there : data.length ≤ (content stream.mInputStream).length := by
        change content stream.mInputStream = _ at split
        rw [split, List.length_append]
        exact Nat.le_add_right _ _
      rcases fills delivers ⟨stream.mInputStream, buffer, 0, data.length⟩ (Nat.lt_succ_self _)
        (by rw [Nat.zero_add]; exact fits) there with
        ⟨inputStream, returns, remains⟩
      change content stream.mInputStream = _ at split
      rw [split, List.take_left] at returns
      rw [split, List.drop_left] at remains
      refine ⟨{ stream with mInputStream := inputStream }, ?_, valid, remains⟩
      rw [if_neg none, if_neg (by rw [Nat.zero_add]; exact Nat.not_lt.mpr fits), returns]
      rfl
  cut := by
    intro stream valid before different
    have shorter : (content stream.mInputStream).length < data.length := by
      apply Nat.lt_of_le_of_ne before.length_le
      intro same
      exact different (before.eq_of_length same)
    rw [readFully, if_neg (Nat.ne_of_gt (Nat.zero_lt_of_lt shorter)),
      if_neg (by rw [Nat.zero_add]; exact Nat.not_lt.mpr fits),
      starves delivers ⟨stream.mInputStream, buffer, 0, data.length⟩ (Nat.lt_succ_self _) shorter]
    rfl

theorem readArray_decodes (delivers : source.Delivers content) {data : List UInt8}
    (bounded : data.length < 2 ^ 63) :
    Decodes (port content) .eofException (readArray source data.length) data data := by
  have fresh : readArray source data.length =
      readFully source (List.replicate data.length 0) 0 data.length := by
    funext stream
    rw [readArray, newByteArray_ok bounded]
    rfl
  have filled : Decodes (port content) .eofException
      (readFully source (List.replicate data.length 0) 0 data.length) data
      (overwrite (List.replicate data.length 0) 0 data) :=
    readFully_decodes delivers (Nat.le_of_eq List.length_replicate.symm)
  rw [overwrite_all List.length_replicate.symm] at filled
  rw [fresh]
  exact filled

/-- A number is read through the scratchpad, whatever is in the rest of it. -/
theorem readScratchpad_decodes {α : Type} (delivers : source.Delivers content)
    {numberOf : List UInt8 → α} {data : List UInt8} {value : α} (fits : data.length ≤ 8)
    (number : ∀ rest, numberOf (data ++ rest) = value) :
    Decodes (port content) .eofException
      (readScratchpad source data.length >>= fun scratchpad => pure (numberOf scratchpad))
      data value where
  whole := by
    intro stream rest valid split
    have room : data.length ≤ stream.mScratchpad.length := by
      rw [show stream.mScratchpad.length = 8 from valid]
      exact fits
    rcases (readFully_decodes delivers room).whole valid split with
      ⟨middle, runs, kept, remains⟩
    have reads : readScratchpad source data.length stream =
        .ok (overwrite stream.mScratchpad 0 data,
          { middle with mScratchpad := overwrite stream.mScratchpad 0 data }) := by
      rw [readScratchpad, runs]
      rfl
    have stored : numberOf (overwrite stream.mScratchpad 0 data) = value := by
      rw [overwrite, List.take_zero, List.nil_append]
      exact number _
    refine
      ⟨{ middle with mScratchpad := overwrite stream.mScratchpad 0 data }, ?_, ?_, remains⟩
    · rw [run_bind reads, stored]
      rfl
    · change (overwrite stream.mScratchpad 0 data).length = 8
      rw [length_overwrite (by rw [Nat.zero_add]; exact room)]
      exact valid
  cut := by
    intro stream valid before different
    have room : data.length ≤ stream.mScratchpad.length := by
      rw [show stream.mScratchpad.length = 8 from valid]
      exact fits
    apply run_bind_error
    rw [readScratchpad, (readFully_decodes delivers room).cut valid before different]
    rfl

theorem readInt_decodes (delivers : source.Delivers content) (value : Int32) :
    Decodes (port content) .eofException (readInt source) (DataOutputStream.intBytes value) value :=
  readScratchpad_decodes delivers (by rw [DataOutputStream.length_intBytes]; decide)
    (intOf_intBytes value)

theorem readLong_decodes (delivers : source.Delivers content) (value : Int64) :
    Decodes (port content) .eofException (readLong source) (DataOutputStream.longBytes value)
      value :=
  readScratchpad_decodes delivers (by rw [DataOutputStream.length_longBytes])
    (longOf_longBytes value)

theorem readOne_decodes (delivers : source.Delivers content) (b : UInt8) :
    Decodes (port content) .eofException (readOne source) [b] b where
  whole := by
    intro stream rest valid split
    change content stream.mInputStream = _ at split
    rcases reads : source.read stream.mInputStream 1 with ⟨delivered, inputStream⟩
    cases delivered with
    | none =>
        have empty := delivers.read_end reads
        rw [split] at empty
        cases empty
    | some data =>
        rcases delivers.read_some reads Nat.one_pos with ⟨some, fits, content'⟩
        rcases List.length_eq_one_iff.mp
          (Nat.le_antisymm fits (List.length_pos_iff.mpr some)) with ⟨byte, rfl⟩
        rw [split] at content'
        injection content' with same remains
        refine ⟨{ stream with mInputStream := inputStream }, ?_, valid, remains.symm⟩
        rw [readOne, reads, same]
        rfl
  cut := by
    intro stream valid before different
    change content stream.mInputStream <+: [b] at before
    change content stream.mInputStream ≠ [b] at different
    have empty : content stream.mInputStream = [] := by
      rcases List.prefix_cons_iff.mp before with empty | ⟨tail, split, nothing⟩
      · exact empty
      · rw [List.prefix_nil.mp nothing] at split
        exact absurd split different
    rcases reads : source.read stream.mInputStream 1 with ⟨delivered, inputStream⟩
    cases delivered with
    | none => rw [readOne, reads]
    | some data =>
        rcases delivers.read_some reads Nat.one_pos with ⟨some, _, content'⟩
        rw [empty] at content'
        exact absurd (List.append_eq_nil_iff.mp content'.symm).1 some

theorem readShort_decodes (delivers : source.Delivers content) (value : Int16) :
    Decodes (port content) .eofException (readShort source) (DataOutputStream.shortBytes value)
      value :=
  readScratchpad_decodes delivers (by rw [DataOutputStream.length_shortBytes]; decide)
    (shortOf_shortBytes value)

/-- The length of a string survives the conversion to a signed number and back. -/
theorem unsigned_ofNat {length : Nat} (bounded : length ≤ 65535) :
    ((Int16.ofNat length).toUInt16 &&& 0xffff).toNat = length := by
  have same : (Int16.ofNat length).toUInt16 = UInt16.ofNat length := rfl
  rw [same, UInt16.toNat_and, UInt16.toNat_ofNat']
  change length % 2 ^ 16 &&& (2 ^ 16 - 1) = length
  rw [Nat.and_two_pow_sub_one_eq_mod]
  omega

/-- `readUTF` reads what `writeUTF` wrote. -/
theorem readUTF_decodes (delivers : source.Delivers content) {string : List UInt8}
    (bounded : string.length ≤ 65535) :
    Decodes (port content) .eofException (readUTF source)
      (DataOutputStream.shortBytes (Int16.ofNat string.length) ++ string) string := by
  have size : Decodes (port content) .eofException (readUnsignedShort source)
      (DataOutputStream.shortBytes (Int16.ofNat string.length))
      ((Int16.ofNat string.length).toUInt16 &&& 0xffff) :=
    (readShort_decodes delivers (Int16.ofNat string.length)).map fun value : Int16 =>
      value.toUInt16 &&& 0xffff
  have bytes : Decodes (port content) .eofException
      (readArray source ((Int16.ofNat string.length).toUInt16 &&& 0xffff).toNat) string string := by
    rw [unsigned_ofNat bounded]
    exact readArray_decodes delivers (Nat.lt_of_le_of_lt bounded (by decide))
  exact size.andThen bytes

/-! ## Reading anything -/

/-- The functions of the stream throw nothing but an `IOException`. -/
abbrev Reads (content : σ → List UInt8) {α : Type} (action : Action σ α) (returns : α → Prop) :
    Prop :=
  Answers (port content) action returns fun thrown => thrown.isIOException = true

theorem readFully_reads (delivers : source.Delivers content) {buffer : List UInt8} {count : Nat}
    (fits : count ≤ buffer.length) :
    Reads content (readFully source buffer 0 count) fun array =>
      array.length = buffer.length where
  outcome := by
    intro stream valid
    by_cases enough : count ≤ (content stream.mInputStream).length
    · have length : ((content stream.mInputStream).take count).length = count := by
        rw [List.length_take, Nat.min_eq_left enough]
      have decodes := readFully_decodes delivers (Nat.le_trans (Nat.le_of_eq length) fits)
      rcases decodes.whole valid (List.take_append_drop count _).symm with ⟨last, runs, kept, _⟩
      rw [length] at runs
      refine .inl ⟨_, last, runs, kept, length_overwrite ?_⟩
      rw [Nat.zero_add, length]
      exact fits
    · let missing := List.replicate (count - (content stream.mInputStream).length) (0 : UInt8)
      have length : (content stream.mInputStream ++ missing).length = count := by
        rw [List.length_append, List.length_replicate,
          Nat.add_sub_cancel' (Nat.le_of_not_le enough)]
      have decodes := readFully_decodes delivers (Nat.le_trans (Nat.le_of_eq length) fits)
      have different : content stream.mInputStream ≠ content stream.mInputStream ++ missing := by
        intro same
        rw [← same] at length
        exact enough (Nat.le_of_eq length.symm)
      have fails := decodes.cut valid (List.prefix_append _ _) different
      rw [length] at fails
      exact .inr ⟨.eofException, fails, rfl⟩

theorem readArray_reads (delivers : source.Delivers content) {size : Nat}
    (bounded : size < 2 ^ 63) :
    Reads content (readArray source size) fun array => array.length = size := by
  have fresh : readArray source size = readFully source (List.replicate size 0) 0 size := by
    funext stream
    rw [readArray, newByteArray_ok bounded]
    rfl
  have room : size ≤ (List.replicate size (0 : UInt8)).length :=
    Nat.le_of_eq List.length_replicate.symm
  have reads := readFully_reads delivers room
  rw [List.length_replicate] at reads
  rw [fresh]
  exact reads

theorem readScratchpad_reads (delivers : source.Delivers content) {count : Nat}
    (fits : count ≤ 8) : Reads content (readScratchpad source count) fun _ => True where
  outcome := by
    intro stream valid
    have size : stream.mScratchpad.length = 8 := valid
    have room : count ≤ stream.mScratchpad.length := by
      rw [size]
      exact fits
    rcases (readFully_reads delivers room).outcome valid with
      ⟨scratchpad, last, runs, _, length⟩ | ⟨thrown, fails, allowed⟩
    · refine .inl ⟨scratchpad, { last with mScratchpad := scratchpad }, ?_, ?_, trivial⟩
      · rw [readScratchpad, runs]
        rfl
      · exact length.trans size
    · refine .inr ⟨thrown, ?_, allowed⟩
      rw [readScratchpad, fails]
      rfl

theorem readInt_reads (delivers : source.Delivers content) :
    Reads content (readInt source) fun _ => True :=
  (readScratchpad_reads delivers (by decide)).andThen fun _ _ => .pure trivial

theorem readShort_reads (delivers : source.Delivers content) :
    Reads content (readShort source) fun _ => True :=
  (readScratchpad_reads delivers (by decide)).andThen fun _ _ => .pure trivial

theorem readUnsignedShort_reads (delivers : source.Delivers content) :
    Reads content (readUnsignedShort source) fun _ => True :=
  (readShort_reads delivers).andThen fun _ _ => .pure trivial

/-- The length of a string fits into the two bytes that it is read from. -/
theorem readUTF_reads (delivers : source.Delivers content) :
    Reads content (readUTF source) fun string => string.length ≤ 65535 := by
  apply (readUnsignedShort_reads delivers).andThen
  intro size _
  have bounded : size.toNat < 2 ^ 16 := size.toNat_lt
  constructor
  intro stream valid
  have reads := readArray_reads delivers (Nat.lt_of_lt_of_le bounded (by decide))
  rcases reads.outcome valid with ⟨string, last, runs, kept, length⟩ | throws
  · refine .inl ⟨string, last, runs, kept, ?_⟩
    rw [length]
    exact Nat.le_of_lt_succ bounded
  · exact .inr throws

/-! ## How much is read -/

/-- `readFully` returns if there are enough bytes, and has read as many as it was told. -/
theorem readFully_spends (delivers : source.Delivers content) {buffer : List UInt8} {count : Nat}
    (fits : count ≤ buffer.length) :
    Spends (port content) (readFully source buffer 0 count) (fun _ => count)
      fun array => array.length = buffer.length where
  spent := by
    intro stream array last valid runs
    by_cases enough : count ≤ (content stream.mInputStream).length
    · have length : ((content stream.mInputStream).take count).length = count := by
        rw [List.length_take, Nat.min_eq_left enough]
      have decodes := readFully_decodes delivers (Nat.le_trans (Nat.le_of_eq length) fits)
      rcases decodes.whole valid (List.take_append_drop count _).symm with
        ⟨last', runs', kept, remains⟩
      rw [length, runs] at runs'
      cases runs'
      refine ⟨kept, ?_, ?_⟩
      · rw [remains, List.length_drop]
        exact (Nat.add_sub_cancel' enough).symm
      · apply length_overwrite
        rw [Nat.zero_add, length]
        exact fits
    · have few : (content stream.mInputStream).length < count := Nat.lt_of_not_le enough
      rw [readFully, if_neg (Nat.ne_of_gt (Nat.zero_lt_of_lt few)),
        if_neg (by rw [Nat.zero_add]; exact Nat.not_lt.mpr fits),
        starves delivers ⟨stream.mInputStream, buffer, 0, count⟩ (Nat.lt_succ_self _) few] at runs
      cases runs

theorem readArray_spends (delivers : source.Delivers content) {size : Nat}
    (bounded : size < 2 ^ 63) :
    Spends (port content) (readArray source size) (fun _ => size)
      fun array => array.length = size := by
  have fresh : readArray source size = readFully source (List.replicate size 0) 0 size := by
    funext stream
    rw [readArray, newByteArray_ok bounded]
    rfl
  have spends := readFully_spends delivers (Nat.le_of_eq (List.length_replicate (a := (0 : UInt8))
    (n := size)).symm)
  rw [List.length_replicate] at spends
  rw [fresh]
  exact spends

theorem readScratchpad_spends (delivers : source.Delivers content) {count : Nat}
    (fits : count ≤ 8) :
    Spends (port content) (readScratchpad source count) (fun _ => count) fun _ => True where
  spent := by
    intro stream array last valid runs
    have size : stream.mScratchpad.length = 8 := valid
    have room : count ≤ stream.mScratchpad.length := by
      rw [size]
      exact fits
    rw [readScratchpad] at runs
    cases filled : readFully source stream.mScratchpad 0 count stream with
    | error thrown =>
        rw [filled] at runs
        cases runs
    | ok pair =>
        rw [filled] at runs
        cases runs
        rcases (readFully_spends delivers room).spent valid filled with ⟨_, spent, length⟩
        exact ⟨length.trans size, spent, trivial⟩

theorem readInt_spends (delivers : source.Delivers content) :
    Spends (port content) (readInt source) (fun _ => 4) fun _ => True :=
  (readScratchpad_spends delivers (by decide)).map

theorem readShort_spends (delivers : source.Delivers content) :
    Spends (port content) (readShort source) (fun _ => 2) fun _ => True :=
  (readScratchpad_spends delivers (by decide)).map

theorem readLong_spends (delivers : source.Delivers content) :
    Spends (port content) (readLong source) (fun _ => 8) fun _ => True :=
  (readScratchpad_spends delivers (by decide)).map

theorem readOne_spends (delivers : source.Delivers content) :
    Spends (port content) (readOne source) (fun _ => 1) fun _ => True where
  spent := by
    intro stream value last valid runs
    rcases reads : source.read stream.mInputStream 1 with ⟨delivered, inputStream⟩
    rw [readOne, reads] at runs
    cases delivered with
    | none => cases runs
    | some data =>
        cases runs
        rcases delivers.read_some reads Nat.one_pos with ⟨some, fits, split⟩
        have one : data.length = 1 := Nat.le_antisymm fits (List.length_pos_iff.mpr some)
        refine ⟨valid, ?_, trivial⟩
        change (content stream.mInputStream).length = _
        rw [split, List.length_append, one]
        rfl

/-- A string costs its length and its bytes. -/
theorem readUTF_spends (delivers : source.Delivers content) :
    Spends (port content) (readUTF source) (fun string => 2 + string.length)
      fun string => string.length ≤ 65535 where
  spent := by
    intro stream string last valid runs
    have length : Spends (port content) (readUnsignedShort source) (fun _ => 2) fun _ => True :=
      (readShort_spends delivers).map
    rcases run_bind_ok runs with ⟨size, middle, sized, filled⟩
    have bounded : size.toNat < 2 ^ 16 := size.toNat_lt
    rcases length.spent valid sized with ⟨kept, spent, _⟩
    rcases (readArray_spends delivers (Nat.lt_of_lt_of_le bounded (by decide))).spent kept filled
      with ⟨keptLast, spentLast, exact⟩
    refine ⟨keptLast, ?_, ?_⟩
    · rw [spent, spentLast, exact, Nat.add_assoc]
    · rw [exact]
      exact Nat.le_of_lt_succ bounded

end DataInputStream

end Mindroid
