import Mindroid.Foundation.Refinement
import Mindroid.Io.BufferedInputStream

/-!
# What a buffered input stream is for

`Reader` is a position in the bytes of the underlying stream, with a mark.  A buffered
stream answers as the reader allows it, as long as `fillBuffer` keeps the marked region.
-/

set_option autoImplicit false

namespace Mindroid

open Foundation

inductive StreamCall where
  | mark (limit : Nat)
  | reset
  | read
  | readBytes (buffer : List UInt8) (offset count : Nat)
  | skip (count : Nat)

inductive StreamReply where
  | returned
  | value (result : Int)
  | filled (result : Int) (buffer : List UInt8)
  | skipped (count : Nat)
  | thrown (thrown : StreamThrown)
  deriving DecidableEq

namespace StreamCall

/-- The bytes that the caller asks for. -/
def count : StreamCall → Nat
  | readBytes _ _ count => count
  | _ => 0

def isSkip : StreamCall → Bool
  | skip _ => true
  | _ => false

end StreamCall

namespace BufferedInputStream

variable {σ : Type} (source : InputStream σ) (memcpy : Memcpy)

/-- A call of one of the functions; what throws leaves the stream as it was. -/
def call (fuel : Nat) (stream : BufferedInputStream σ) :
    StreamCall → StreamReply × BufferedInputStream σ
  | .mark limit => (.returned, stream.mark limit)
  | .reset =>
      match stream.reset with
      | .ok stream => (.returned, stream)
      | .error thrown => (.thrown thrown, stream)
  | .read =>
      match stream.read source memcpy with
      | .ok (result, stream) => (.value result, stream)
      | .error thrown => (.thrown thrown, stream)
  | .readBytes buffer offset count =>
      match stream.readBytes source memcpy fuel buffer offset count with
      | .ok filled => (.filled filled.result filled.buffer, filled.stream)
      | .error thrown => (.thrown thrown, stream)
  | .skip count =>
      match stream.skip source memcpy count with
      | .ok (skipped, stream) => (.skipped skipped, stream)
      | .error thrown => (.thrown thrown, stream)

end BufferedInputStream

/-! ## The abstract reader -/

/-- A position in the content of a stream.  `furthest` is the furthest position since the
mark was set. -/
structure Reader where
  content : List UInt8
  position : Nat
  mark : Option Nat
  limit : Nat
  furthest : Nat

namespace Reader

def start (content : List UInt8) : Reader where
  content := content
  position := 0
  mark := none
  limit := 0
  furthest := 0

def advance (reader : Reader) (count : Nat) : Reader :=
  { reader with
    position := reader.position + count
    furthest := max reader.furthest (reader.position + count) }

/-- The bytes that have not been read. -/
def ahead (reader : Reader) : List UInt8 :=
  reader.content.drop reader.position

/-- The replies that the reader allows, and where it is after them.  A mark may be lost
only after more bytes than its limit have been read. -/
inductive Allows (reader : Reader) : StreamCall → StreamReply → Reader → Prop where
  | mark (limit : Nat) :
      Allows reader (.mark limit) .returned
        { reader with mark := some reader.position, limit := limit, furthest := reader.position }
  | reset {position : Nat} (marked : reader.mark = some position) :
      Allows reader .reset .returned { reader with position := position }
  | resetThrows {thrown : StreamThrown}
      (lost : ∀ position, reader.mark = some position →
        position + reader.limit < reader.furthest) :
      Allows reader .reset (.thrown thrown) reader
  | read {byte : UInt8} (next : reader.ahead.head? = some byte) :
      Allows reader .read (.value byte.toNat) (reader.advance 1)
  | readEnd (ended : reader.ahead = []) : Allows reader .read (.value (-1)) reader
  | readBytes {buffer : List UInt8} {offset count size : Nat}
      (within : offset + count ≤ buffer.length) (positive : 0 < size) (atMost : size ≤ count)
      (inside : size ≤ reader.ahead.length) :
      Allows reader (.readBytes buffer offset count)
        (.filled size (overwrite buffer offset (reader.ahead.take size))) (reader.advance size)
  | readNothing {buffer : List UInt8} {offset : Nat} (within : offset ≤ buffer.length) :
      Allows reader (.readBytes buffer offset 0) (.filled 0 buffer) reader
  | readBytesEnd {buffer : List UInt8} {offset count : Nat}
      (within : offset + count ≤ buffer.length) (positive : 0 < count)
      (ended : reader.ahead = []) :
      Allows reader (.readBytes buffer offset count) (.filled (-1) buffer) reader
  | outOfBounds {buffer : List UInt8} {offset count : Nat}
      (beyond : buffer.length < offset + count) :
      Allows reader (.readBytes buffer offset count)
        (.thrown (.array .indexOutOfBoundsException)) reader
  | skip {count skipped : Nat} (atMost : skipped ≤ count)
      (inside : skipped ≤ reader.ahead.length) :
      Allows reader (.skip count) (.skipped skipped) (reader.advance skipped)

theorem Allows.mark_eq {reader reader' : Reader} {limit : Nat} {reply : StreamReply}
    (allowed : reader.Allows (.mark limit) reply reader') :
    reader' = { reader with
      mark := some reader.position, limit := limit, furthest := reader.position } := by
  cases allowed
  rfl

theorem Allows.reset_eq {reader reader' : Reader} {position : Nat}
    (allowed : reader.Allows .reset .returned reader') (marked : reader.mark = some position) :
    reader' = { reader with position := position } := by
  cases allowed with
  | reset isMarked =>
      obtain rfl := Option.some_inj.mp (isMarked.symm.trans marked)
      rfl

theorem Allows.read_eq {reader reader' : Reader} {value : Int} {byte : UInt8}
    (allowed : reader.Allows .read (.value value) reader')
    (next : reader.ahead.head? = some byte) :
    value = byte.toNat ∧ reader' = reader.advance 1 := by
  generalize isReply : StreamReply.value value = reply at allowed
  cases allowed with
  | read next' =>
      cases isReply
      obtain rfl := Option.some_inj.mp (next'.symm.trans next)
      exact ⟨rfl, rfl⟩
  | readEnd ended =>
      rw [ended] at next
      cases next

theorem Allows.skip_eq {reader reader' : Reader} {count skipped : Nat}
    (allowed : reader.Allows (.skip count) (.skipped skipped) reader') :
    reader' = reader.advance skipped := by
  cases allowed
  rfl

theorem ahead_advance (reader : Reader) (count : Nat) :
    (reader.advance count).ahead = reader.ahead.drop count := by
  rw [ahead, ahead, advance, List.drop_drop]

theorem advance_advance (reader : Reader) (first second : Nat) :
    (reader.advance first).advance second = reader.advance (first + second) := by
  simp only [advance, Reader.mk.injEq, true_and]
  omega

theorem advance_zero {reader : Reader} (reached : reader.position ≤ reader.furthest) :
    reader.advance 0 = reader := by
  rw [advance, Nat.add_zero, Nat.max_eq_left reached]

end Reader

namespace BufferedInputStream

variable {σ : Type}

/-! ## The fields of the stream -/

/-- The stream has the bytes before its underlying stream's in its buffer, from the mark
on if it is set.  `owed` more bytes are about to be read. -/
structure Holds (content : σ → List UInt8) (inputStream : σ) (buffer : List UInt8)
    (stream : BufferedInputStream σ) (reader : Reader) (owed : Nat) : Prop where
  input : stream.mInputStream = some inputStream
  mBuffer : stream.mBuffer = some buffer
  nonempty : 0 < buffer.length
  position : stream.mPosition ≤ stream.mCount
  count : stream.mCount ≤ buffer.length
  ahead : reader.ahead = (buffer.take stream.mCount).drop stream.mPosition ++ content inputStream
  reached : reader.position ≤ reader.furthest
  marked : ∀ mark, stream.mMarkPosition = some mark → mark ≤ stream.mPosition ∧
    ∃ position, reader.mark = some position ∧ reader.limit = stream.mMarkLimit ∧
      reader.position = position + (stream.mPosition - mark) ∧
      reader.content.drop position = (buffer.take stream.mCount).drop mark ++ content inputStream
  lost : stream.mMarkPosition = none → ∀ position, reader.mark = some position →
    position + reader.limit < max reader.furthest (reader.position + owed)

/-- The stream represents the reader. -/
def Represents (content : σ → List UInt8) (stream : BufferedInputStream σ) (reader : Reader) :
    Prop :=
  ∃ inputStream buffer, Holds content inputStream buffer stream reader 0

section Holds

variable {content : σ → List UInt8} {inputStream : σ} {buffer : List UInt8}
variable {stream : BufferedInputStream σ} {reader : Reader} {owed : Nat}

theorem Holds.owe (holds : Holds content inputStream buffer stream reader 0) :
    Holds content inputStream buffer stream reader owed :=
  { holds with
    lost := fun unmarked position marked =>
      Nat.lt_of_lt_of_le (holds.lost unmarked position marked) (by omega) }

theorem Holds.length_buffered (holds : Holds content inputStream buffer stream reader owed) :
    ((buffer.take stream.mCount).drop stream.mPosition).length =
      stream.mCount - stream.mPosition := by
  rw [List.length_drop, List.length_take, Nat.min_eq_left holds.count]

/-- Bytes of the buffer are delivered. -/
theorem Holds.consume {size : Nat} (holds : Holds content inputStream buffer stream reader owed)
    (inside : size ≤ stream.mCount - stream.mPosition) (pays : owed ≤ size) :
    Holds content inputStream buffer { stream with mPosition := stream.mPosition + size }
      (reader.advance size) 0 where
  input := holds.input
  mBuffer := holds.mBuffer
  nonempty := holds.nonempty
  position := by
    have position := holds.position
    show stream.mPosition + size ≤ stream.mCount
    omega
  count := holds.count
  ahead := by
    rw [Reader.ahead_advance, holds.ahead, List.drop_append_of_le_length, List.drop_drop]
    rw [holds.length_buffered]
    exact inside
  reached := Nat.le_max_right _ _
  marked := by
    intro mark isMark
    obtain ⟨before, position, marked, limit, same, content⟩ := holds.marked mark isMark
    refine ⟨Nat.le_add_right_of_le before, position, marked, limit, ?_, content⟩
    show reader.position + size = position + (stream.mPosition + size - mark)
    omega
  lost := by
    intro unmarked position marked
    have lost := holds.lost unmarked position marked
    show position + reader.limit <
      max (max reader.furthest (reader.position + size)) (reader.position + size + 0)
    omega

/-- The bytes that are buffered, copied to the caller. -/
theorem Holds.buffered_take {size : Nat}
    (holds : Holds content inputStream buffer stream reader owed)
    (inside : size ≤ stream.mCount - stream.mPosition) :
    (buffer.drop stream.mPosition).take size = reader.ahead.take size := by
  rw [holds.ahead, List.take_append_of_le_length, List.drop_take, List.take_take,
    Nat.min_eq_left inside]
  rw [holds.length_buffered]
  exact inside

theorem Holds.ahead_of_exhausted (holds : Holds content inputStream buffer stream reader owed)
    (exhausted : stream.mPosition = stream.mCount) : reader.ahead = content inputStream := by
  rw [holds.ahead, exhausted, List.drop_take, Nat.sub_self, List.take_zero, List.nil_append]

/-- Bytes go past the buffer, which is allowed unless it holds a marked region. -/
theorem Holds.bypass {inputStream' : σ} {size : Nat}
    (holds : Holds content inputStream buffer stream reader 0)
    (exhausted : stream.mPosition = stream.mCount)
    (unmarked : stream.mMarkPosition = none ∨ size = 0)
    (dropped : content inputStream' = (content inputStream).drop size) :
    Holds content inputStream' buffer { stream with mInputStream := some inputStream' }
      (reader.advance size) 0 where
  input := rfl
  mBuffer := holds.mBuffer
  nonempty := holds.nonempty
  position := holds.position
  count := holds.count
  ahead := by
    rw [Reader.ahead_advance, holds.ahead_of_exhausted exhausted, dropped]
    show _ = (buffer.take stream.mCount).drop stream.mPosition ++ _
    rw [exhausted, List.drop_take, Nat.sub_self, List.take_zero, List.nil_append]
  reached := Nat.le_max_right _ _
  marked := by
    intro mark isMark
    rcases unmarked with none | rfl
    · cases none.symm.trans isMark
    · rw [Reader.advance_zero holds.reached, dropped]
      exact holds.marked mark isMark
  lost := by
    intro none position marked
    have lost := holds.lost none position marked
    show position + reader.limit <
      max (max reader.furthest (reader.position + size)) (reader.position + size + 0)
    omega

end Holds

/-! ## Filling the buffer -/

section Fill

variable {source : InputStream σ} {memcpy : Memcpy}

variable (source memcpy) in
/-- If a marked region is kept: an array of the grown size can exist, `std::memcpy` copies
the region as `System::arraycopy` promises, and `int` holds the number of bytes that the
underlying stream delivers. -/
def FillSafe (stream : BufferedInputStream σ) : Prop :=
  ∀ inputStream buffer mark, stream.mInputStream = some inputStream →
    stream.mBuffer = some buffer → stream.keptMark = some mark →
      (mark = 0 → buffer.length < stream.mMarkLimit →
        min (buffer.length * 2) stream.mMarkLimit < 2 ^ 63) ∧
      (0 < mark → memcpy.Moves buffer mark 0 (buffer.length - mark)) ∧
      ∀ kept, stream.keepMarked memcpy buffer mark = .ok kept →
        ∀ data rest, source.read inputStream (kept.length - (stream.mPosition - mark)) =
          (some data, rest) → data.length < 2 ^ 31

variable {content : σ → List UInt8} {inputStream : σ} {buffer : List UInt8}
variable {stream : BufferedInputStream σ} {reader : Reader}

theorem keptMark_eq_some {mark : Nat} (kept : stream.keptMark = some mark) :
    stream.mMarkPosition = some mark ∧ stream.mPosition - mark < stream.mMarkLimit := by
  unfold keptMark at kept
  split at kept
  · cases kept
  · split at kept
    · cases kept
    · cases kept
      exact ⟨by assumption, by omega⟩

theorem keptMark_eq_none (dropped : stream.keptMark = none) {mark : Nat}
    (isMark : stream.mMarkPosition = some mark) : stream.mMarkLimit ≤ stream.mPosition - mark := by
  by_contra within
  simp only [keptMark, isMark] at dropped
  rw [if_neg within] at dropped
  cases dropped

/-- The marked region is moved to the start, and there is room behind it. -/
theorem keepMarked_spec {mark : Nat} (nonempty : 0 < buffer.length)
    (before : mark ≤ stream.mPosition) (inside : stream.mPosition ≤ buffer.length)
    (limited : stream.mPosition - mark < stream.mMarkLimit)
    (bounded : mark = 0 → buffer.length < stream.mMarkLimit →
      min (buffer.length * 2) stream.mMarkLimit < 2 ^ 63)
    (moves : 0 < mark → memcpy.Moves buffer mark 0 (buffer.length - mark)) :
    ∃ kept, stream.keepMarked memcpy buffer mark = .ok kept ∧
      stream.mPosition - mark < kept.length ∧
      kept.take (stream.mPosition - mark) = (buffer.take stream.mPosition).drop mark := by
  unfold keepMarked
  by_cases grows : mark = 0 ∧ stream.mMarkLimit > buffer.length
  · obtain ⟨rfl, larger⟩ := grows
    have size : buffer.length < min (buffer.length * 2) stream.mMarkLimit := by omega
    rw [if_pos ⟨rfl, larger⟩, newByteArray_ok (bounded rfl larger)]
    refine ⟨_, arraycopy_ok _ _ _ _ _ (by omega) (by rw [List.length_replicate]; omega), ?_, ?_⟩
    · rw [length_overwrite] <;> simp <;> omega
    · simp [overwrite, List.take_append_of_le_length, inside]
  · rw [if_neg grows]
    by_cases shifts : mark > 0
    · refine ⟨overwrite buffer 0 ((buffer.drop mark).take (buffer.length - mark)), ?_, ?_, ?_⟩
      · rw [if_pos shifts, arraycopyWithin, if_neg (by omega), moves shifts]
      · rw [length_overwrite]
        · omega
        · simp
      · have whole : (buffer.drop mark).take (buffer.length - mark) = buffer.drop mark :=
          List.take_of_length_le (by rw [List.length_drop])
        rw [whole, overwrite, List.take_zero, List.nil_append, List.take_append_of_le_length,
          List.drop_take]
        rw [List.length_drop]
        omega
    · obtain rfl : mark = 0 := by omega
      exact ⟨buffer, if_neg shifts, by omega, by simp⟩

theorem toInt_of_lt {size : Nat} (small : size < 2 ^ 31) :
    (BitVec.ofInt 32 (size : Int)).toInt = size := by
  rw [BitVec.toInt_ofInt, Int.bmod_eq_of_le] <;> omega

variable (content reader) in
/-- Either the underlying stream has ended, or there are bytes in the buffer. -/
def Fills (outcome : Except Thrown (Int × BufferedInputStream σ)) : Prop :=
  (∃ after, outcome = .ok (-1, after) ∧ reader.ahead = [] ∧ Represents content after reader ∧
    after.mPosition = after.mCount) ∨
  ∃ result after inputStream' buffer', outcome = .ok (result, after) ∧ result ≠ -1 ∧
    Holds content inputStream' buffer' after reader 1 ∧ after.mPosition < after.mCount

/-- The mark is dropped when its limit is exceeded. -/
theorem fillBuffer_dropped (lawful : source.Lawful content)
    (holds : Holds content inputStream buffer stream reader 0)
    (exhausted : stream.mPosition = stream.mCount) (dropped : stream.keptMark = none) :
    Fills content reader (fillBuffer source memcpy stream inputStream buffer) := by
  have ahead := holds.ahead_of_exhausted exhausted
  unfold fillBuffer
  simp only [dropped]
  rcases reads : source.read inputStream buffer.length with ⟨data, inputStream'⟩
  cases data with
  | none =>
      obtain ⟨empty, empty'⟩ := lawful.read_end reads
      refine .inl ⟨_, rfl, by rw [ahead, empty], ⟨inputStream', buffer, ?_⟩, exhausted⟩
      exact
        { holds with
          input := rfl
          ahead := by rw [holds.ahead, empty, empty']
          marked := by rw [empty', ← empty]; exact holds.marked }
  | some data =>
      obtain ⟨nonempty, atMost, delivered⟩ := lawful.read_some reads holds.nonempty
      have positive : data.length > 0 := List.length_pos_iff.mpr nonempty
      have front : (overwrite buffer 0 data).take data.length = data := by
        have taken : (overwrite buffer 0 data).take (0 + data.length) = buffer.take 0 ++ data :=
          take_overwrite (Nat.zero_le _)
        rwa [Nat.zero_add, List.take_zero, List.nil_append] at taken
      right
      refine ⟨_, _, inputStream', overwrite buffer 0 data, if_pos positive, by omega, ?_, positive⟩
      have size : (overwrite buffer 0 data).length = buffer.length :=
        length_overwrite (by omega)
      exact
        { input := rfl
          mBuffer := rfl
          nonempty := by rw [size]; exact holds.nonempty
          position := Nat.zero_le _
          count := by rw [size]; exact atMost
          ahead := by rw [ahead, delivered, front, List.drop_zero]
          reached := holds.reached
          marked := by
            intro mark isMark
            cases isMark
          lost := by
            intro _ position marked
            cases isMark : stream.mMarkPosition with
            | none => exact holds.owe.lost isMark position marked
            | some mark =>
                obtain ⟨before, marked', isMarked, limit, same, -⟩ := holds.marked mark isMark
                have exceeded := keptMark_eq_none dropped isMark
                rw [marked] at isMarked
                cases isMarked
                omega }

/-- Otherwise the marked region stays in front of what is read. -/
theorem fillBuffer_kept (lawful : source.Lawful content)
    (holds : Holds content inputStream buffer stream reader 0)
    (exhausted : stream.mPosition = stream.mCount) (safe : FillSafe source memcpy stream)
    {mark : Nat} (kept : stream.keptMark = some mark) :
    Fills content reader (fillBuffer source memcpy stream inputStream buffer) := by
  have ahead := holds.ahead_of_exhausted exhausted
  obtain ⟨isMark, limited⟩ := keptMark_eq_some kept
  obtain ⟨before, position, marked, limit, same, content'⟩ := holds.marked mark isMark
  obtain ⟨bounded, moves, small⟩ := safe inputStream buffer mark holds.input holds.mBuffer kept
  have inside : stream.mPosition ≤ buffer.length := exhausted ▸ holds.count
  obtain ⟨region, keeps, room, front⟩ :=
    keepMarked_spec holds.nonempty before inside limited bounded moves
  rw [← exhausted, ← front] at content'
  rcases reads : source.read inputStream (region.length - (stream.mPosition - mark)) with
    ⟨data, inputStream'⟩
  simp only [fillBuffer, kept, keeps, reads, bind, Except.bind, pure, Except.pure]
  cases data with
  | none =>
      obtain ⟨empty, empty'⟩ := lawful.read_end reads
      left
      refine ⟨_, rfl, by rw [ahead, empty], ⟨inputStream', region, ?_⟩, ?_⟩
      rotate_left
      · rfl
      exact
        { input := rfl
          mBuffer := rfl
          nonempty := Nat.zero_lt_of_lt room
          position := Nat.le_refl _
          count := Nat.le_of_lt room
          ahead := by
            show reader.ahead = (region.take (stream.mPosition - mark)).drop
              (stream.mPosition - mark) ++ content inputStream'
            rw [ahead, empty, empty', List.drop_take, Nat.sub_self, List.take_zero]
            rfl
          reached := holds.reached
          marked := by
            rintro _ ⟨⟩
            refine ⟨Nat.zero_le _, position, marked, limit, same, ?_⟩
            rw [empty', ← empty]
            exact content'
          lost := by
            intro unmarked
            cases unmarked }
  | some data =>
      obtain ⟨nonempty, atMost, delivered⟩ := lawful.read_some reads (by omega)
      have positive : data.length > 0 := List.length_pos_iff.mpr nonempty
      have toInt := toInt_of_lt (small region keeps data inputStream' reads)
      simp only [Option.elim, toInt]
      have count : (if (data.length : Int) ≤ 0 then stream.mPosition - mark
          else stream.mPosition - mark + (data.length : Int).toNat) =
            stream.mPosition - mark + data.length := by
        rw [if_neg (by omega), Int.toNat_natCast]
      have taken : (overwrite region (stream.mPosition - mark) data).take
          (stream.mPosition - mark + data.length) =
            region.take (stream.mPosition - mark) ++ data :=
        take_overwrite (Nat.le_of_lt room)
      have size : (overwrite region (stream.mPosition - mark) data).length = region.length :=
        length_overwrite (by omega)
      right
      refine ⟨_, _, inputStream', overwrite region (stream.mPosition - mark) data, rfl, by omega,
        ?_, ?_⟩
      · exact
          { input := rfl
            mBuffer := rfl
            nonempty := by rw [size]; exact Nat.zero_lt_of_lt room
            position := by simp only [count]; omega
            count := by simp only [count, size]; omega
            ahead := by
              simp only [count]
              rw [taken, ahead, delivered, List.drop_append_of_le_length, List.drop_take,
                Nat.sub_self, List.take_zero]
              · rfl
              · rw [List.length_take]
                omega
            reached := holds.reached
            marked := by
              rintro _ ⟨⟩
              refine ⟨Nat.zero_le _, position, marked, limit, same, ?_⟩
              simp only [count]
              rw [taken, content', delivered, List.drop_zero, List.append_assoc]
            lost := by
              intro unmarked
              cases unmarked }
      · show stream.mPosition - mark < _
        rw [count]
        exact Nat.lt_add_of_pos_right positive

theorem fillBuffer_spec (lawful : source.Lawful content)
    (holds : Holds content inputStream buffer stream reader 0)
    (exhausted : stream.mPosition = stream.mCount) (safe : FillSafe source memcpy stream) :
    Fills content reader (fillBuffer source memcpy stream inputStream buffer) := by
  cases kept : stream.keptMark with
  | none => exact fillBuffer_dropped lawful holds exhausted kept
  | some mark => exact fillBuffer_kept lawful holds exhausted safe kept

end Fill

/-! ## Single bytes -/

section Read

variable {source : InputStream σ} {memcpy : Memcpy}
variable {content : σ → List UInt8} {inputStream : σ} {buffer : List UInt8}
variable {stream : BufferedInputStream σ} {reader : Reader} {owed : Nat}

theorem readBuffered_spec (holds : Holds content inputStream buffer stream reader owed)
    (pays : owed ≤ 1) (available : stream.mPosition < stream.mCount) :
    ∃ byte, reader.ahead.head? = some byte ∧ ∃ after,
      stream.readBuffered buffer = .ok (byte.toNat, after) ∧
        Represents content after (reader.advance 1) := by
  have inside : stream.mPosition < buffer.length := Nat.lt_of_lt_of_le available holds.count
  refine ⟨buffer[stream.mPosition], ?_, _, ?_, _, _, holds.consume (by omega) pays⟩
  · have taken : (buffer.drop stream.mPosition).take 1 = reader.ahead.take 1 :=
      holds.buffered_take (by omega)
    rw [List.drop_eq_getElem_cons inside, List.take_succ_cons, List.take_zero] at taken
    cases ahead : reader.ahead with
    | nil =>
        rw [ahead] at taken
        cases taken
    | cons byte bytes =>
        rw [ahead, List.take_succ_cons, List.take_zero] at taken
        rw [List.head?_cons, List.singleton_inj.mp taken]
  · simp only [readBuffered]
    rw [if_pos (by omega), List.getElem?_eq_getElem inside]

theorem read_spec (lawful : source.Lawful content) (represents : Represents content stream reader)
    (safe : stream.mPosition ≥ stream.mCount → FillSafe source memcpy stream) :
    ∃ result after reader', stream.read source memcpy = .ok (result, after) ∧
      reader.Allows .read (.value result) reader' ∧ Represents content after reader' := by
  obtain ⟨inputStream, buffer, holds⟩ := represents
  by_cases exhausted : stream.mPosition ≥ stream.mCount
  · have same : stream.mPosition = stream.mCount := Nat.le_antisymm holds.position exhausted
    simp only [read, holds.mBuffer, holds.input]
    rw [if_pos exhausted]
    rcases fillBuffer_spec lawful holds same (safe exhausted) with
      ⟨after, fills, ended, represents, -⟩ |
      ⟨result, after, inputStream', buffer', fills, some, filled, available⟩
    · rw [fills]
      exact ⟨-1, after, reader, rfl, .readEnd ended, represents⟩
    · obtain ⟨byte, next, last, reads, represents⟩ :=
        readBuffered_spec filled (Nat.le_refl 1) available
      refine ⟨byte.toNat, last, _, ?_, .read next, represents⟩
      rw [fills]
      simp only [Except.mapError, bind, Except.bind, if_neg some, filled.mBuffer]
      exact reads
  · obtain ⟨byte, next, last, reads, represents⟩ :=
      readBuffered_spec holds (Nat.zero_le 1) (Nat.lt_of_not_le exhausted)
    refine ⟨byte.toNat, last, _, ?_, .read next, represents⟩
    simp only [read, holds.mBuffer, holds.input]
    rw [if_neg exhausted]
    exact reads

end Read

/-! ## Many bytes -/

section ReadBytes

variable {source : InputStream σ} {memcpy : Memcpy}
variable {content : σ → List UInt8} {inputStream : σ} {localBuffer buffer dest : List UInt8}
variable {stream : BufferedInputStream σ} {reader : Reader} {owed offset count size : Nat}

theorem copyOut_spec (holds : Holds content inputStream localBuffer stream reader owed)
    (inside : size ≤ stream.mCount - stream.mPosition) (fits : offset + size ≤ dest.length) :
    stream.copyOut localBuffer dest offset size =
      .ok (overwrite dest offset (reader.ahead.take size),
        { stream with mPosition := stream.mPosition + size }) := by
  have position := holds.position
  have within := holds.count
  rw [copyOut, arraycopy_ok _ _ _ _ _ (by omega) fits, holds.buffered_take inside]
  rfl

variable (content reader buffer offset) in
/-- So many bytes have been delivered to the caller's buffer. -/
structure Delivered (delivered : Nat) (stream : BufferedInputStream σ) (dest : List UInt8) :
    Prop where
  represents : Represents content stream (reader.advance delivered)
  dest : dest = overwrite buffer offset (reader.ahead.take delivered)
  inside : delivered ≤ reader.ahead.length

/-- What `read` returns is what the reader allows. -/
def Answers (content : σ → List UInt8) (reader : Reader) (buffer : List UInt8)
    (offset count : Nat) (filled : Filled σ) : Prop :=
  ∃ reader', reader.Allows (.readBytes buffer offset count)
    (.filled filled.result filled.buffer) reader' ∧ Represents content filled.stream reader'

variable {delivered : Nat}

theorem Delivered.answers (done : Delivered content buffer reader offset delivered stream dest)
    (within : offset + count ≤ buffer.length) (positive : 0 < delivered)
    (atMost : delivered ≤ count) :
    Answers content reader buffer offset count ⟨delivered, dest, stream⟩ := by
  refine ⟨reader.advance delivered, ?_, done.represents⟩
  rw [done.dest]
  exact .readBytes within positive atMost done.inside

/-- More bytes are delivered. -/
theorem Delivered.next {after : BufferedInputStream σ}
    (done : Delivered content buffer reader offset delivered stream dest)
    (represents : Represents content after ((reader.advance delivered).advance size))
    (inside : size ≤ (reader.advance delivered).ahead.length)
    (fits : offset + delivered + size ≤ buffer.length) :
    Delivered content buffer reader offset (delivered + size) after
      (overwrite dest (offset + delivered) ((reader.advance delivered).ahead.take size)) := by
  have before := done.inside
  rw [Reader.ahead_advance] at inside ⊢
  rw [List.length_drop] at inside
  refine ⟨?_, ?_, by omega⟩
  · rwa [Reader.advance_advance] at represents
  · have first : (reader.ahead.take delivered).length = delivered := by
      rw [List.length_take, Nat.min_eq_left before]
    have second : ((reader.ahead.drop delivered).take size).length = size := by
      rw [List.length_take, List.length_drop]
      omega
    have joined : overwrite (overwrite buffer offset (reader.ahead.take delivered))
        (offset + (reader.ahead.take delivered).length) ((reader.ahead.drop delivered).take size) =
          overwrite buffer offset
            (reader.ahead.take delivered ++ (reader.ahead.drop delivered).take size) := by
      apply overwrite_append
      rw [first, second]
      exact fits
    rw [first] at joined
    rw [done.dest, joined, List.take_add]

variable (content buffer reader offset count) in
/-- What holds when an iteration begins. -/
structure Progress (copying : Copying σ) (delivered : Nat) : Prop where
  required : copying.requiredStreamCount + delivered = count
  positive : 0 < copying.requiredStreamCount
  place : copying.offset = offset + delivered
  done : Delivered content buffer reader offset delivered copying.stream copying.buffer
  exhausted : copying.stream.mPosition = copying.stream.mCount

variable (content buffer reader offset count) in
/-- What an iteration leads to. -/
def Iterates (copying : Copying σ) (outcome : Filled σ ⊕ Copying σ) : Prop :=
  (∃ filled, outcome = .inl filled ∧ Answers content reader buffer offset count filled) ∨
    ∃ next delivered, outcome = .inr next ∧
      Progress content buffer reader offset count next delivered ∧
        next.requiredStreamCount < copying.requiredStreamCount

theorem copied_spec {copying : Copying σ} (within : offset + count ≤ buffer.length)
    (progress : Progress content buffer reader offset count copying delivered)
    (done : Delivered content buffer reader offset (delivered + size) stream dest)
    (positive : 0 < size) (atMost : size ≤ copying.requiredStreamCount)
    (exhausted : size < copying.requiredStreamCount → stream.mPosition = stream.mCount) :
    Iterates content buffer reader offset count copying
      (copied source count copying size dest stream) := by
  have required := progress.required
  have answers := done.answers within (by omega) (by omega)
  simp only [copied]
  split
  · next last =>
      have all : delivered + size = count := by omega
      rw [all] at answers
      exact .inl ⟨_, rfl, answers⟩
  · next more =>
      split
      · have all : count - (copying.requiredStreamCount - size) = delivered + size := by omega
        rw [all]
        exact .inl ⟨_, rfl, answers⟩
      · refine .inr ⟨_, delivered + size, rfl, ?_, Nat.sub_lt progress.positive positive⟩
        exact
          { required := by
              show copying.requiredStreamCount - size + (delivered + size) = count
              omega
            positive := Nat.pos_of_ne_zero more
            place := by
              show copying.offset + size = offset + (delivered + size)
              rw [progress.place, Nat.add_assoc]
            done := done
            exhausted := exhausted (by omega) }

theorem ended_spec {copying : Copying σ} (reached : reader.position ≤ reader.furthest)
    (within : offset + count ≤ buffer.length)
    (progress : Progress content buffer reader offset count copying delivered)
    (nothing : (reader.advance delivered).ahead = [])
    (represents : Represents content stream (reader.advance delivered)) :
    Answers content reader buffer offset count (ended count copying stream) := by
  have required := progress.required
  have done := progress.done
  unfold ended
  split
  · next first =>
      obtain rfl : delivered = 0 := by omega
      rw [Reader.advance_zero reached] at nothing represents
      refine ⟨reader, ?_, represents⟩
      rw [done.dest, List.take_zero, overwrite_nil]
      exact .readBytesEnd within (by rw [← first]; exact progress.positive) nothing
  · have all : count - copying.requiredStreamCount = delivered := by omega
    rw [all]
    exact Delivered.answers ⟨represents, done.dest, done.inside⟩ within (by omega) (by omega)

/-- One iteration delivers bytes, or the underlying stream has ended. -/
theorem copyNext_spec {copying : Copying σ} (lawful : source.Lawful content)
    (reached : reader.position ≤ reader.furthest) (within : offset + count ≤ buffer.length)
    (progress : Progress content buffer reader offset count copying delivered)
    (safe : FillSafe source memcpy copying.stream) :
    ∃ outcome, copyNext source memcpy count copying = .ok outcome ∧
      Iterates content buffer reader offset count copying outcome := by
  have required := progress.required
  have positive := progress.positive
  have done := progress.done
  obtain ⟨inputStream, localBuffer, holds⟩ := done.represents
  have ahead := holds.ahead_of_exhausted progress.exhausted
  have sized : copying.buffer.length = buffer.length := by
    rw [done.dest, length_overwrite]
    rw [List.length_take]
    omega
  simp only [copyNext, holds.mBuffer, holds.input]
  split
  · next bypasses =>
      rcases reads : source.read inputStream copying.requiredStreamCount with
        ⟨data, inputStream'⟩
      cases data with
      | none =>
          obtain ⟨empty, empty'⟩ := lawful.read_end reads
          refine ⟨_, rfl, .inl ⟨_, rfl, ended_spec reached within progress ?_ ?_⟩⟩
          · rw [ahead, empty]
          · have passed : Holds content inputStream' localBuffer
                { copying.stream with mInputStream := some inputStream' }
                ((reader.advance delivered).advance 0) 0 :=
              holds.bypass progress.exhausted (.inl bypasses.1) (by rw [empty, empty']; rfl)
            simp only [holds.mBuffer, Reader.advance_zero holds.reached] at passed
            exact ⟨_, _, passed⟩
      | some data =>
          obtain ⟨nonempty, atMost, delivers⟩ := lawful.read_some reads positive
          have front : (reader.advance delivered).ahead.take data.length = data := by
            rw [ahead, delivers, List.take_left']
            rfl
          refine ⟨_, rfl, copied_spec within progress ?_ (List.length_pos_iff.mpr nonempty) atMost
            fun _ => progress.exhausted⟩
          have inside : data.length ≤ (reader.advance delivered).ahead.length := by
            rw [ahead, delivers, List.length_append]
            exact Nat.le_add_right _ _
          have passed : Holds content inputStream' localBuffer
              { copying.stream with mInputStream := some inputStream' }
              ((reader.advance delivered).advance data.length) 0 :=
            holds.bypass progress.exhausted (.inl bypasses.1) (by rw [delivers, List.drop_left])
          simp only [holds.mBuffer] at passed
          have next := done.next ⟨_, _, passed⟩ inside (by omega)
          rwa [front, ← progress.place] at next
  · rcases fillBuffer_spec lawful holds progress.exhausted safe with
      ⟨after, fills, nothing, represents, -⟩ |
      ⟨result, after, inputStream', localBuffer', fills, some, filled, available⟩
    · simp only [fills, Except.mapError, bind, Except.bind, pure, Except.pure, if_pos]
      exact ⟨_, rfl, .inl ⟨_, rfl, ended_spec reached within progress nothing represents⟩⟩
    · simp only [fills, Except.mapError, bind, Except.bind, pure, Except.pure, if_neg some,
        filled.mBuffer]
      have stored := filled.length_buffered
      obtain ⟨size, chosen, positive', atMost, inside, rest⟩ : ∃ size,
          (if after.mCount - after.mPosition ≥ copying.requiredStreamCount then
            copying.requiredStreamCount else after.mCount - after.mPosition) = size ∧
          1 ≤ size ∧ size ≤ copying.requiredStreamCount ∧ size ≤ after.mCount - after.mPosition ∧
          (size < copying.requiredStreamCount → after.mPosition + size = after.mCount) := by
        split
        · exact ⟨_, rfl, positive, Nat.le_refl _, by omega, fun less => by omega⟩
        · exact ⟨_, rfl, by omega, by omega, Nat.le_refl _, fun less => by omega⟩
      have fits : copying.offset + size ≤ copying.buffer.length := by
        rw [sized, progress.place]
        omega
      have ahead' : size ≤ (reader.advance delivered).ahead.length := by
        rw [filled.ahead, List.length_append, stored]
        exact Nat.le_add_right_of_le inside
      have next := done.next ⟨_, _, filled.consume inside positive'⟩ ahead' (by omega)
      rw [chosen, copyOut_spec filled inside fits]
      refine ⟨_, rfl, copied_spec within progress ?_ positive' atMost rest⟩
      rwa [progress.place]

variable (source) in
/-- What is buffered is delivered first. -/
theorem startCopying_spec (represents : Represents content stream reader)
    (within : offset + count ≤ buffer.length) (positive : 0 < count) :
    (∃ filled, startCopying source stream buffer offset count = .ok (.inl filled) ∧
        Answers content reader buffer offset count filled) ∨
      ∃ first delivered, startCopying source stream buffer offset count = .ok (.inr first) ∧
        Progress content buffer reader offset count first delivered := by
  obtain ⟨inputStream, localBuffer, holds⟩ := represents
  have none : Delivered content buffer reader offset 0 stream buffer := by
    refine ⟨?_, by rw [List.take_zero, overwrite_nil], Nat.zero_le _⟩
    rw [Reader.advance_zero holds.reached]
    exact ⟨_, _, holds⟩
  simp only [startCopying, holds.mBuffer, holds.input]
  rw [if_neg (by omega), if_neg (by omega)]
  by_cases available : stream.mPosition < stream.mCount
  · rw [if_pos available]
    obtain ⟨size, chosen, positive', atMost, inside, rest⟩ : ∃ size,
        (if stream.mCount - stream.mPosition ≥ count then count
          else stream.mCount - stream.mPosition) = size ∧ 0 < size ∧ size ≤ count ∧
        size ≤ stream.mCount - stream.mPosition ∧
        (size < count → stream.mPosition + size = stream.mCount) := by
      split
      · exact ⟨_, rfl, positive, Nat.le_refl _, by omega, fun less => by omega⟩
      · exact ⟨_, rfl, by omega, by omega, Nat.le_refl _, fun less => by omega⟩
    have ahead : size ≤ reader.ahead.length := by
      rw [holds.ahead, List.length_append, holds.length_buffered]
      exact Nat.le_add_right_of_le inside
    have done : Delivered content buffer reader offset size
        { stream with mPosition := stream.mPosition + size }
        (overwrite buffer offset (reader.ahead.take size)) :=
      ⟨⟨_, _, holds.consume inside (Nat.zero_le _)⟩, rfl, ahead⟩
    rw [chosen, copyOut_spec holds inside (by omega)]
    simp only [bind, Except.bind, pure, Except.pure]
    split
    · exact .inl ⟨_, rfl, done.answers within positive' atMost⟩
    · next goesOn =>
        refine .inr ⟨_, size, rfl, ?_⟩
        have less : size < count := Nat.lt_of_le_of_ne atMost fun all => goesOn (.inl all)
        exact
          { required := Nat.sub_add_cancel atMost
            positive := Nat.sub_pos_of_lt less
            place := rfl
            done := done
            exhausted := rest less }
  · rw [if_neg available]
    refine .inr ⟨_, 0, rfl, ?_⟩
    exact
      { required := rfl
        positive := positive
        place := rfl
        done := none
        exhausted := Nat.le_antisymm holds.position (Nat.le_of_not_lt available) }

theorem readBytes_spec {fuel : Nat} (lawful : source.Lawful content)
    (represents : Represents content stream reader) (within : offset + count ≤ buffer.length)
    (positive : 0 < count) (enough : count < fuel)
    (safe : ∀ first, startCopying source stream buffer offset count = .ok (.inr first) →
      ∀ copying, Visits (copyNext source memcpy count) first copying →
        FillSafe source memcpy copying.stream) :
    ∃ filled, stream.readBytes source memcpy fuel buffer offset count = .ok filled ∧
      Answers content reader buffer offset count filled := by
  have reached : reader.position ≤ reader.furthest := by
    obtain ⟨_, _, holds⟩ := represents
    exact holds.reached
  rcases startCopying_spec source represents within positive with
    ⟨filled, starts, answers⟩ | ⟨first, delivered, starts, progress⟩
  · refine ⟨filled, ?_, answers⟩
    simp only [readBytes, starts, bind, Except.bind, pure, Except.pure]
  · simp only [readBytes, starts, bind, Except.bind]
    refine loop_returns
      (fun copying => (∃ delivered, Progress content buffer reader offset count copying delivered) ∧
        ∀ later, Visits (copyNext source memcpy count) copying later →
          FillSafe source memcpy later.stream)
      (fun copying => copying.requiredStreamCount) _ ?_ ⟨⟨delivered, progress⟩, safe first starts⟩
      (by have required := progress.required; omega)
    rintro copying ⟨⟨delivered, progress⟩, safe⟩
    obtain ⟨outcome, iterates, leads⟩ :=
      copyNext_spec lawful reached within progress (safe copying .start)
    rcases leads with ⟨filled, rfl, answers⟩ | ⟨next, delivered', rfl, progress', less⟩
    · exact .inl ⟨filled, iterates, answers⟩
    · refine .inr ⟨next, iterates, ⟨⟨delivered', progress'⟩, fun later visits => ?_⟩, less⟩
      exact safe later (visits.head iterates)

end ReadBytes

/-! ## Skipping -/

section Skip

variable {source : InputStream σ} {memcpy : Memcpy} {content : σ → List UInt8}
variable {stream : BufferedInputStream σ} {reader : Reader} {count : Nat}

/-- A mark is set, and bytes would be skipped that do not come into the buffer. -/
def SkipsMarked (source : InputStream σ) (stream : BufferedInputStream σ) (count : Nat) : Prop :=
  ∃ inputStream, stream.mInputStream = some inputStream ∧ stream.mMarkPosition ≠ none ∧
    stream.mMarkLimit < count ∧
    0 < (source.skip inputStream (count - (stream.mCount - stream.mPosition))).1

theorem skip_spec (lawful : source.Lawful content) (represents : Represents content stream reader)
    (safe : stream.mCount - stream.mPosition < count → count ≤ stream.mMarkLimit →
      FillSafe source memcpy { stream with mPosition := stream.mCount })
    (keeps : stream.mCount - stream.mPosition < count → ¬SkipsMarked source stream count) :
    ∃ skipped after reader', stream.skip source memcpy count = .ok (skipped, after) ∧
      reader.Allows (.skip count) (.skipped skipped) reader' ∧
        Represents content after reader' := by
  obtain ⟨inputStream, localBuffer, holds⟩ := represents
  have whole : reader.ahead.length =
      stream.mCount - stream.mPosition + (content inputStream).length := by
    rw [holds.ahead, List.length_append, holds.length_buffered]
  have position := holds.position
  have emptied : Holds content inputStream localBuffer { stream with mPosition := stream.mCount }
      (reader.advance (stream.mCount - stream.mPosition)) 0 := by
    have consumed := holds.consume (Nat.le_refl _) (Nat.zero_le _)
    rwa [Nat.add_sub_of_le position] at consumed
  obtain ⟨mInputStream, mBuffer, mCount, mMarkLimit, mMarkPosition, mPosition⟩ := stream
  obtain rfl : mInputStream = some inputStream := holds.input
  obtain rfl : mBuffer = some localBuffer := holds.mBuffer
  simp only at whole position emptied safe keeps
  rcases skips : source.skip inputStream (count - (mCount - mPosition)) with
    ⟨skipped, inputStream'⟩
  simp only [skip, skips]
  split
  · refine ⟨0, _, reader.advance 0, rfl, .skip (Nat.zero_le _) (Nat.zero_le _), ?_⟩
    rw [Reader.advance_zero holds.reached]
    exact ⟨_, _, holds⟩
  · split
    · next inside =>
        exact ⟨count, _, _, rfl, .skip (Nat.le_refl _) (by omega),
          ⟨_, _, holds.consume inside (Nat.zero_le _)⟩⟩
    · next beyond =>
        split
        · next limited =>
          rcases fillBuffer_spec lawful emptied rfl (safe (by omega) limited.2) with
            ⟨after, fills, -, represents, -⟩ |
            ⟨result, after, inputStream'', localBuffer', fills, some, filled, available⟩
          · exact ⟨_, after, _, by rw [fills]; rfl, .skip (by omega) (by omega), represents⟩
          · have more := filled.length_buffered
            have ahead := congrArg List.length filled.ahead
            rw [Reader.ahead_advance, List.length_drop, List.length_append, more] at ahead
            simp only [fills, Except.mapError, bind, Except.bind, pure, Except.pure, if_neg some]
            split
            · next enough =>
                have consumed := filled.consume enough (by omega)
                rw [Reader.advance_advance, Nat.add_sub_of_le (by omega)] at consumed
                exact ⟨count, _, _, rfl, .skip (Nat.le_refl _) (by omega), _, _, consumed⟩
            · next short =>
                have consumed := filled.consume (Nat.le_refl _) (by omega)
                rw [Reader.advance_advance, Nat.add_sub_of_le filled.position] at consumed
                exact ⟨_, _, _, rfl, .skip (by omega) (by omega), _, _, consumed⟩
        · next direct =>
            obtain ⟨atMost, inside, dropped⟩ := lawful.skips skips
            have unmarked : mMarkPosition = none ∨ skipped = 0 := by
              by_contra marked
              rw [not_or] at marked
              refine keeps (by omega) ⟨inputStream, rfl, marked.1, ?_, ?_⟩
              · exact Nat.lt_of_not_le fun limited => direct ⟨marked.1, limited⟩
              · rw [skips]
                exact Nat.pos_of_ne_zero marked.2
            have passed := emptied.bypass rfl unmarked dropped
            rw [Reader.advance_advance] at passed
            exact ⟨_, _, _, rfl, .skip (by omega) (by omega), _, _, passed⟩

end Skip

end BufferedInputStream

end Mindroid
