import Mindroid.Io.BufferedReading

/-!
# Runs of a buffered input stream

Whatever calls are made, in whatever order, the replies are those of a reader of the
underlying bytes.
-/

set_option autoImplicit false

namespace Mindroid

open Foundation

namespace BufferedInputStream

variable {σ : Type} {source : InputStream σ} {memcpy : Memcpy} {content : σ → List UInt8}
variable {stream start : BufferedInputStream σ} {reader : Reader} {inputStream : σ}

/-- Every copy that the stream makes is within its buffer. -/
def InRange (stream : BufferedInputStream σ) : Prop :=
  ∃ buffer, stream.mBuffer = some buffer ∧ stream.mPosition ≤ stream.mCount ∧
    stream.mCount ≤ buffer.length ∧ ∀ mark, stream.mMarkPosition = some mark →
      mark ≤ stream.mPosition

theorem Represents.inRange (represents : Represents content stream reader) : stream.InRange := by
  obtain ⟨inputStream, buffer, holds⟩ := represents
  exact ⟨buffer, holds.mBuffer, holds.position, holds.count, fun mark isMark =>
    (holds.marked mark isMark).1⟩

variable (source memcpy) in
/-- Whenever the call fills the buffer, it keeps a marked region as it has to. -/
def FillsSafely (stream : BufferedInputStream σ) : StreamCall → Prop
  | .read => stream.mPosition ≥ stream.mCount → FillSafe source memcpy stream
  | .readBytes buffer offset count =>
      ∀ first, startCopying source stream buffer offset count = .ok (.inr first) →
        ∀ copying, Visits (copyNext source memcpy count) first copying →
          FillSafe source memcpy copying.stream
  | .skip count =>
      stream.mCount - stream.mPosition < count → count ≤ stream.mMarkLimit →
        FillSafe source memcpy { stream with mPosition := stream.mCount }
  | _ => True

variable (source) in
/-- The call skips bytes that do not come into the buffer although a mark is set. -/
def SkipsPastMark (stream : BufferedInputStream σ) : StreamCall → Prop
  | .skip count =>
      stream.mCount - stream.mPosition < count ∧ SkipsMarked source stream count
  | _ => False

/-! ## Single calls -/

theorem Represents.mark (represents : Represents content stream reader) (limit : Nat) :
    Represents content (stream.mark limit)
      { reader with mark := some reader.position, limit := limit, furthest := reader.position } := by
  obtain ⟨inputStream, buffer, holds⟩ := represents
  refine ⟨inputStream, buffer, ?_⟩
  exact
    { input := holds.input
      mBuffer := holds.mBuffer
      nonempty := holds.nonempty
      position := holds.position
      count := holds.count
      ahead := holds.ahead
      reached := Nat.le_refl _
      marked := by
        rintro mark ⟨⟩
        refine ⟨Nat.le_refl _, reader.position, rfl, rfl, ?_, holds.ahead⟩
        show reader.position = reader.position + (stream.mPosition - stream.mPosition)
        omega
      lost := by
        intro unmarked
        cases unmarked }

theorem reset_marked {buffer : List UInt8} {mark : Nat} (isBuffer : stream.mBuffer = some buffer)
    (isMark : stream.mMarkPosition = some mark) :
    stream.reset = .ok { stream with mPosition := mark } := by
  cases stream
  cases isBuffer
  cases isMark
  rfl

theorem reset_spec (represents : Represents content stream reader) :
    (∃ after reader', stream.reset = .ok after ∧ reader.Allows .reset .returned reader' ∧
        Represents content after reader') ∨
      ∃ thrown, stream.reset = .error thrown ∧ reader.Allows .reset (.thrown thrown) reader := by
  obtain ⟨inputStream, buffer, holds⟩ := represents
  cases isMark : stream.mMarkPosition with
  | none =>
      right
      refine ⟨_, by rw [reset, holds.mBuffer, isMark], .resetThrows fun position marked => ?_⟩
      have lost := holds.lost isMark position marked
      have reached := holds.reached
      omega
  | some mark =>
      obtain ⟨before, position, marked, limit, same, ahead⟩ := holds.marked mark isMark
      left
      refine ⟨_, _, reset_marked holds.mBuffer isMark, .reset marked, inputStream, buffer, ?_⟩
      exact
        { input := holds.input
          mBuffer := holds.mBuffer
          nonempty := holds.nonempty
          position := Nat.le_trans before holds.position
          count := holds.count
          ahead := ahead
          reached := by
            have reached := holds.reached
            show position ≤ reader.furthest
            omega
          marked := by
            intro other isOther
            obtain rfl : mark = other := Option.some_inj.mp (isMark.symm.trans isOther)
            refine ⟨Nat.le_refl _, position, marked, limit, ?_, ahead⟩
            show position = position + (mark - mark)
            omega
          lost := by
            intro unmarked
            cases isMark.symm.trans unmarked }

theorem readBytes_outOfBounds {fuel : Nat} {buffer : List UInt8} {offset count : Nat}
    (represents : Represents content stream reader) (beyond : buffer.length < offset + count) :
    stream.readBytes source memcpy fuel buffer offset count =
      .error (.array .indexOutOfBoundsException) := by
  obtain ⟨inputStream, localBuffer, holds⟩ := represents
  simp only [readBytes, startCopying, holds.mBuffer]
  rw [if_pos (by omega)]
  rfl

theorem readBytes_nothing {fuel : Nat} {buffer : List UInt8} {offset : Nat}
    (represents : Represents content stream reader) (within : offset ≤ buffer.length) :
    stream.readBytes source memcpy fuel buffer offset 0 = .ok ⟨0, buffer, stream⟩ := by
  obtain ⟨inputStream, localBuffer, holds⟩ := represents
  simp only [readBytes, startCopying, holds.mBuffer]
  rw [if_neg (by omega), if_true]
  rfl

theorem call_spec {fuel : Nat} (lawful : source.Lawful content)
    (represents : Represents content stream reader) (next : StreamCall)
    (enough : next.count < fuel) (safe : FillsSafely source memcpy stream next)
    (keeps : ¬SkipsPastMark source stream next) :
    ∃ reader', reader.Allows next (stream.call source memcpy fuel next).1 reader' ∧
      Represents content (stream.call source memcpy fuel next).2 reader' := by
  cases next with
  | mark limit => exact ⟨_, .mark limit, represents.mark limit⟩
  | reset =>
      simp only [call]
      rcases reset_spec represents with ⟨after, reader', resets, allows, represents'⟩ |
        ⟨thrown, throws, allows⟩
      · rw [resets]
        exact ⟨reader', allows, represents'⟩
      · rw [throws]
        exact ⟨reader, allows, represents⟩
  | read =>
      obtain ⟨result, after, reader', reads, allows, represents'⟩ :=
        read_spec lawful represents safe
      simp only [call, reads]
      exact ⟨reader', allows, represents'⟩
  | readBytes buffer offset count =>
      simp only [call]
      by_cases beyond : buffer.length < offset + count
      · rw [readBytes_outOfBounds represents beyond]
        exact ⟨reader, .outOfBounds beyond, represents⟩
      · cases count with
        | zero =>
            have within : offset ≤ buffer.length := Nat.le_of_not_lt beyond
            rw [readBytes_nothing represents within]
            exact ⟨reader, .readNothing within, represents⟩
        | succ count =>
            obtain ⟨filled, reads, reader', allows, represents'⟩ :=
              readBytes_spec lawful represents (Nat.le_of_not_lt beyond) (Nat.succ_pos count)
                enough safe
            rw [reads]
            exact ⟨reader', allows, represents'⟩
  | skip count =>
      obtain ⟨skipped, after, reader', skips, allows, represents'⟩ :=
        skip_spec lawful represents safe fun beyond marked => keeps ⟨beyond, marked⟩
      simp only [call, skips]
      exact ⟨reader', allows, represents'⟩

/-! ## Runs -/

theorem new_represents {size : Nat} (created : new inputStream size = .ok start) :
    Represents content start (.start (content inputStream)) := by
  unfold new at created
  split at created
  · cases created
  · next positive =>
      unfold newByteArray at created
      split at created
      · cases created
        refine ⟨inputStream, List.replicate size 0, ?_⟩
        exact
          { input := rfl
            mBuffer := rfl
            nonempty := by rw [List.length_replicate]; exact Nat.pos_of_ne_zero positive
            position := Nat.le_refl _
            count := Nat.zero_le _
            ahead := rfl
            reached := Nat.le_refl _
            marked := by
              intro mark isMark
              cases isMark
            lost := by
              intro _ position marked
              cases marked }
      · cases created

theorem follows_reader {fuel size : Nat} {calls : List StreamCall}
    (lawful : source.Lawful content) (created : new inputStream size = .ok start)
    (permitted : Permitted (call source memcpy fuel) (fun stream next => next.count < fuel ∧
      FillsSafely source memcpy stream next ∧ ¬SkipsPastMark source stream next) start calls) :
    ∃ reader, Trace Reader.Allows (.start (content inputStream)) calls
        (answer (call source memcpy fuel) start calls).1 reader ∧
      (answer (call source memcpy fuel) start calls).2.InRange := by
  have starts : Represents content start (.start (content inputStream)) := new_represents created
  obtain ⟨reader, trace, represents⟩ :
      ∃ reader, Trace Reader.Allows (.start (content inputStream)) calls
          (answer (call source memcpy fuel) start calls).1 reader ∧
        Represents content (answer (call source memcpy fuel) start calls).2 reader :=
    Trace.of_simulation (Represents content) (fun _ _ next represents safe =>
      call_spec lawful represents next safe.1 safe.2.1 safe.2.2) starts permitted
  exact ⟨reader, trace, represents.inRange⟩

/-- Without skips, the replies are those of a reader if every fill is safe. -/
theorem reads_follow_reader {fuel size : Nat} {calls : List StreamCall}
    (lawful : source.Lawful content) (created : new inputStream size = .ok start)
    (noSkip : ∀ next ∈ calls, next.isSkip = false) (enough : ∀ next ∈ calls, next.count < fuel)
    (safe : Permitted (call source memcpy fuel) (FillsSafely source memcpy) start calls) :
    ∃ reader, Trace Reader.Allows (.start (content inputStream)) calls
        (answer (call source memcpy fuel) start calls).1 reader ∧
      (answer (call source memcpy fuel) start calls).2.InRange := by
  refine follows_reader lawful created (safe.mono fun stream next member fills => ?_)
  refine ⟨enough next member, fills, fun skips => ?_⟩
  have isSkip := noSkip next member
  cases next with
  | skip count => cases isSkip
  | mark | reset | read | readBytes => exact skips

/-! A marked region is shifted onto itself. -/

def marksInside : List StreamCall :=
  [.read, .mark 3, .read, .read, .read, .reset, .read]

/-- With a `memcpy` that makes use of the ranges being disjoint, the byte at the mark is
lost. -/
theorem marksInside_not_followed : Memcpy.Conforms Memcpy.backward ∧
    ∃ start, new [1, 2, 3, 4] 3 = .ok start ∧
      ¬∃ reader, Trace Reader.Allows (.start [1, 2, 3, 4]) marksInside
        (answer (call (.chunked 4) Memcpy.backward 5) start marksInside).1 reader := by
  refine ⟨Memcpy.backward_conforms, _, rfl, ?_⟩
  rintro ⟨reader, trace⟩
  have replies : Trace Reader.Allows (.start [1, 2, 3, 4]) marksInside
      [.value 1, .returned, .value 2, .value 3, .value 4, .returned, .value 3] reader := trace
  obtain ⟨_, reads, replies⟩ := replies.uncons
  obtain ⟨-, rfl⟩ := reads.read_eq rfl
  obtain ⟨_, marks, replies⟩ := replies.uncons
  obtain rfl := marks.mark_eq
  obtain ⟨_, reads, replies⟩ := replies.uncons
  obtain ⟨-, rfl⟩ := reads.read_eq rfl
  obtain ⟨_, reads, replies⟩ := replies.uncons
  obtain ⟨-, rfl⟩ := reads.read_eq rfl
  obtain ⟨_, reads, replies⟩ := replies.uncons
  obtain ⟨-, rfl⟩ := reads.read_eq rfl
  obtain ⟨_, resets, replies⟩ := replies.uncons
  obtain rfl := resets.reset_eq rfl
  obtain ⟨_, reads, -⟩ := replies.uncons
  obtain ⟨garbled, -⟩ := reads.read_eq rfl
  exact absurd garbled (by decide)

/-- With a `memcpy` that moves the region correctly, the byte is read again. -/
theorem marksInside_followed : ∃ start, new [1, 2, 3, 4] 3 = .ok start ∧
    ∃ reader, Trace Reader.Allows (.start [1, 2, 3, 4]) marksInside
      [.value 1, .returned, .value 2, .value 3, .value 4, .returned, .value 2] reader := by
  refine ⟨_, rfl, ?_⟩
  have safe : Permitted (call (.chunked 4) Memcpy.buffered 5)
      (FillsSafely (.chunked 4) Memcpy.buffered)
      (⟨some [1, 2, 3, 4], some [0, 0, 0], 0, 0, none, 0⟩ : BufferedInputStream (List UInt8))
      marksInside := by
    refine ⟨?_, trivial, ?_, ?_, ?_, trivial, ?_, trivial⟩
    · rintro - inputStream buffer mark ⟨⟩ ⟨⟩ ⟨⟩
    · intro beyond
      exact absurd beyond (by decide)
    · intro beyond
      exact absurd beyond (by decide)
    · rintro - inputStream buffer mark ⟨⟩ ⟨⟩ ⟨⟩
      refine ⟨by decide, fun _ => Memcpy.buffered_moves _ _ _ _, ?_⟩
      rintro kept ⟨⟩ data rest ⟨⟩
      decide
    · intro beyond
      exact absurd beyond (by decide)
  obtain ⟨reader, trace, -⟩ := reads_follow_reader (InputStream.chunked_lawful (by decide))
    (show new [1, 2, 3, 4] 3 = .ok _ from rfl) (by decide) (by decide) safe
  exact ⟨reader, trace⟩

/-- With skips, no skip may go past the buffer while a mark is set. -/
theorem skips_follow_reader {fuel size : Nat} {calls : List StreamCall}
    (lawful : source.Lawful content) (created : new inputStream size = .ok start)
    (enough : ∀ next ∈ calls, next.count < fuel)
    (safe : Permitted (call source memcpy fuel) (fun stream next =>
      FillsSafely source memcpy stream next ∧ ¬SkipsPastMark source stream next) start calls) :
    ∃ reader, Trace Reader.Allows (.start (content inputStream)) calls
        (answer (call source memcpy fuel) start calls).1 reader ∧
      (answer (call source memcpy fuel) start calls).2.InRange :=
  follows_reader lawful created
    (safe.mono fun _ next member fills => ⟨enough next member, fills.1, fills.2⟩)

/-! A skip leaves a hole behind the marked region. -/

def skipsPast : List StreamCall :=
  [.read, .mark 1, .skip 2, .reset, .read, .read]

theorem skipsPast_not_followed : ∃ start, new [1, 2, 3, 4, 5] 2 = .ok start ∧
    ¬∃ reader, Trace Reader.Allows (.start [1, 2, 3, 4, 5]) skipsPast
      (answer (call (.chunked 5) Memcpy.buffered 5) start skipsPast).1 reader := by
  refine ⟨_, rfl, ?_⟩
  rintro ⟨reader, trace⟩
  have replies : Trace Reader.Allows (.start [1, 2, 3, 4, 5]) skipsPast
      [.value 1, .returned, .skipped 2, .returned, .value 2, .value 4] reader := trace
  obtain ⟨_, reads, replies⟩ := replies.uncons
  obtain ⟨-, rfl⟩ := reads.read_eq rfl
  obtain ⟨_, marks, replies⟩ := replies.uncons
  obtain rfl := marks.mark_eq
  obtain ⟨_, skips, replies⟩ := replies.uncons
  obtain rfl := skips.skip_eq
  obtain ⟨_, resets, replies⟩ := replies.uncons
  obtain rfl := resets.reset_eq rfl
  obtain ⟨_, reads, replies⟩ := replies.uncons
  obtain ⟨-, rfl⟩ := reads.read_eq rfl
  obtain ⟨_, reads, -⟩ := replies.uncons
  obtain ⟨wrong, -⟩ := reads.read_eq rfl
  exact absurd wrong (by decide)

/-- Within the limit of the mark, the bytes that were skipped are read again. -/
theorem skipsWithin_followed : ∃ start, new [1, 2, 3, 4, 5] 2 = .ok start ∧
    ∃ reader, Trace Reader.Allows (.start [1, 2, 3, 4, 5])
      [.read, .mark 2, .skip 2, .reset, .read, .read]
      [.value 1, .returned, .skipped 2, .returned, .value 2, .value 3] reader := by
  refine ⟨_, rfl, ?_⟩
  have safe : Permitted (call (.chunked 5) Memcpy.buffered 5)
      (fun stream next => FillsSafely (.chunked 5) Memcpy.buffered stream next ∧
        ¬SkipsPastMark (.chunked 5) stream next)
      (⟨some [1, 2, 3, 4, 5], some [0, 0], 0, 0, none, 0⟩ : BufferedInputStream (List UInt8))
      [.read, .mark 2, .skip 2, .reset, .read, .read] := by
    refine ⟨⟨?_, not_false⟩, ⟨trivial, not_false⟩, ⟨?_, ?_⟩, ⟨trivial, not_false⟩, ⟨?_, not_false⟩,
      ⟨?_, not_false⟩, trivial⟩
    · rintro - inputStream buffer mark ⟨⟩ ⟨⟩ ⟨⟩
    · rintro - - inputStream buffer mark ⟨⟩ ⟨⟩ ⟨⟩
      refine ⟨by decide, fun _ => Memcpy.buffered_moves _ _ _ _, ?_⟩
      rintro kept ⟨⟩ data rest ⟨⟩
      decide
    · rintro ⟨-, inputStream, -, -, exceeds, -⟩
      exact absurd exceeds (by decide)
    · intro beyond
      exact absurd beyond (by decide)
    · intro beyond
      exact absurd beyond (by decide)
  obtain ⟨reader, trace, -⟩ := skips_follow_reader (InputStream.chunked_lawful (by decide))
    (show new [1, 2, 3, 4, 5] 2 = .ok _ from rfl) (by decide) safe
  exact ⟨reader, trace⟩

end BufferedInputStream

end Mindroid
