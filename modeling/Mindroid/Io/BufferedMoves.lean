import Mindroid.Io.BufferedRuns

/-!
# Moves of a marked region

`fillBuffer` moves the bytes from the mark on to the front of the same array, with a copy that is
undefined for ranges that overlap.  The ranges are apart exactly if the mark is not in the first
half of the array, and only the first fill of a call moves anything.
-/

set_option autoImplicit false

namespace Mindroid

open Foundation

namespace BufferedInputStream

variable {σ : Type} {source : InputStream σ} {memcpy : Memcpy}
variable {stream start : BufferedInputStream σ}

/-- The ranges of a copy inside of an array have no byte in common. -/
def RangesApart (srcPos destPos length : Nat) : Prop :=
  ∀ i, ¬((srcPos ≤ i ∧ i < srcPos + length) ∧ destPos ≤ i ∧ i < destPos + length)

/-- If `fillBuffer` moves the marked region, it moves it to bytes that are apart. -/
def MovesApart (stream : BufferedInputStream σ) : Prop :=
  ∀ buffer mark, stream.mBuffer = some buffer → stream.keptMark = some mark → mark > 0 →
    RangesApart mark 0 (buffer.length - mark)

variable (source memcpy) in
/-- Whenever the call fills the buffer, it moves the marked region to bytes that are apart. -/
def FillsApart (stream : BufferedInputStream σ) : StreamCall → Prop
  | .read => stream.mPosition ≥ stream.mCount → MovesApart stream
  | .readBytes buffer offset count =>
      ∀ first, startCopying source stream buffer offset count = .ok (.inr first) →
        ∀ copying, Visits (copyNext source memcpy count) first copying →
          MovesApart copying.stream
  | .skip count =>
      stream.mCount - stream.mPosition < count → stream.mMarkPosition ≠ none →
        count ≤ stream.mMarkLimit → MovesApart { stream with mPosition := stream.mCount }
  | _ => True

/-- A mark that is kept is not in the first half of the buffer. -/
def MarkedLate (stream : BufferedInputStream σ) : Prop :=
  ∀ buffer mark, stream.mBuffer = some buffer → stream.mMarkPosition = some mark → mark > 0 →
    stream.mPosition - mark < stream.mMarkLimit → buffer.length ≤ 2 * mark

variable (source) in
/-- A call that uses up the buffered bytes finds the mark late in the buffer. -/
def FindsMarkLate (stream : BufferedInputStream σ) : StreamCall → Prop
  | .read => stream.mPosition ≥ stream.mCount → MarkedLate stream
  | .readBytes buffer offset count =>
      (∃ first, startCopying source stream buffer offset count = .ok (.inr first)) →
        MarkedLate { stream with mPosition := max stream.mPosition stream.mCount }
  | .skip count =>
      stream.mCount - stream.mPosition < count → stream.mMarkPosition ≠ none →
        count ≤ stream.mMarkLimit → MarkedLate { stream with mPosition := stream.mCount }
  | _ => True

theorem rangesApart_iff {mark size : Nat} :
    RangesApart mark 0 (size - mark) ↔ size ≤ 2 * mark := by
  constructor
  · intro apart
    by_contra overlap
    exact apart mark ⟨⟨Nat.le_refl mark, by omega⟩, by omega⟩
  · intro late i both
    omega

theorem movesApart_iff : MovesApart stream ↔ MarkedLate stream := by
  constructor
  · intro apart buffer mark isBuffer isMark positive within
    have kept : stream.keptMark = some mark := by
      rw [keptMark, isMark]
      exact if_neg (Nat.not_le.mpr within)
    exact rangesApart_iff.mp (apart buffer mark isBuffer kept positive)
  · intro late buffer mark isBuffer kept positive
    obtain ⟨isMark, within⟩ := keptMark_eq_some kept
    exact rangesApart_iff.mpr (late buffer mark isBuffer isMark positive within)

/-! ## Later fills of the same call -/

/-- Nothing is moved anymore: there is no mark, or it is at the front, or it is not kept. -/
def Settled (stream : BufferedInputStream σ) : Prop :=
  stream.mMarkPosition = none ∨ stream.mMarkPosition = some 0 ∨
    (stream.keptMark = none ∧ stream.mCount ≤ stream.mPosition)

theorem Settled.movesApart (settled : Settled stream) : MovesApart stream := by
  intro buffer mark isBuffer kept positive
  rcases settled with unmarked | front | ⟨dropped, -⟩
  · cases unmarked.symm.trans (keptMark_eq_some kept).1
  · cases front.symm.trans (keptMark_eq_some kept).1
    exact absurd positive (Nat.lt_irrefl 0)
  · cases dropped.symm.trans kept

/-- A fill leaves nothing to be moved by the next one. -/
theorem fillBuffer_settles {inputStream : σ} {buffer : List UInt8} {result : Int}
    {after : BufferedInputStream σ}
    (ready : Settled stream ∨ stream.mCount ≤ stream.mPosition)
    (fills : fillBuffer source memcpy stream inputStream buffer = .ok (result, after)) :
    Settled after := by
  unfold fillBuffer at fills
  cases kept : stream.keptMark with
  | none =>
      rw [kept] at fills
      have same : Settled { stream with mInputStream := after.mInputStream } := by
        rcases ready with (unmarked | front | dropped) | used
        · exact .inl unmarked
        · exact .inr (.inl front)
        · exact .inr (.inr dropped)
        · exact .inr (.inr ⟨kept, used⟩)
      rcases reads : source.read inputStream buffer.length with ⟨_ | data, rest⟩
      · rw [reads] at fills
        cases fills
        exact same
      · rw [reads] at fills
        simp only at fills
        split at fills
        · cases fills
          exact .inl rfl
        · cases fills
          exact same
  | some mark =>
      rw [kept] at fills
      simp only [bind, Except.bind] at fills
      split at fills
      · cases fills
      · cases fills
        exact .inr (.inl rfl)

theorem Settled.advance {required : Nat} (settled : Settled stream) :
    Settled { stream with mPosition := stream.mPosition +
      if stream.mCount - stream.mPosition ≥ required then required
      else stream.mCount - stream.mPosition } := by
  rcases settled with unmarked | front | ⟨dropped, used⟩
  · exact .inl unmarked
  · exact .inr (.inl front)
  · have none : (if stream.mCount - stream.mPosition ≥ required then required
        else stream.mCount - stream.mPosition) = 0 := by
      rw [Nat.sub_eq_zero_of_le used]
      split
      · rename_i most
        exact Nat.le_zero.mp most
      · rfl
    rw [none]
    exact .inr (.inr ⟨dropped, used⟩)

theorem copyOut_stream {localBuffer buffer : List UInt8} {offset size : Nat}
    {out : List UInt8 × BufferedInputStream σ}
    (copies : stream.copyOut localBuffer buffer offset size = .ok out) :
    out.2 = { stream with mPosition := stream.mPosition + size } := by
  unfold copyOut at copies
  simp only [bind, Except.bind] at copies
  split at copies
  · cases copies
  · cases copies
    rfl

theorem copied_stream {count size : Nat} {copying next : Copying σ} {buffer : List UInt8}
    (goesOn : copied source count copying size buffer stream = .inr next) :
    next.stream = stream := by
  unfold copied at goesOn
  simp only at goesOn
  split at goesOn
  · cases goesOn
  · split at goesOn
    · cases goesOn
    · cases goesOn
      rfl

/-- Whatever an iteration does, the next one moves nothing. -/
theorem copyNext_settles {count : Nat} {copying next : Copying σ}
    (ready : Settled copying.stream ∨ copying.stream.mCount ≤ copying.stream.mPosition)
    (goesOn : copyNext source memcpy count copying = .ok (.inr next)) : Settled next.stream := by
  unfold copyNext at goesOn
  simp only at goesOn
  split at goesOn
  · rename_i localBuffer inputStream isBuffer isStream
    split at goesOn
    · rename_i direct
      split at goesOn
      · cases goesOn
      · rw [Except.ok.injEq] at goesOn
        rw [copied_stream goesOn]
        exact .inl direct.1
    · simp only [bind, Except.bind] at goesOn
      cases fills : fillBuffer source memcpy copying.stream inputStream localBuffer with
      | error thrown =>
          rw [fills] at goesOn
          cases goesOn
      | ok filled =>
          rw [fills] at goesOn
          have settled := fillBuffer_settles ready fills
          simp only [Except.mapError] at goesOn
          split at goesOn
          · cases goesOn
          · split at goesOn
            · cases goesOn
            · split at goesOn
              · cases goesOn
              · rename_i copies
                rw [copied_stream (Except.ok.inj goesOn), copyOut_stream copies]
                exact settled.advance
  · cases goesOn

/-- When the loop of `read` begins, the buffered bytes are used up. -/
theorem startCopying_stream {buffer : List UInt8} {offset count : Nat} {first : Copying σ}
    (starts : startCopying source stream buffer offset count = .ok (.inr first)) :
    first.stream = { stream with mPosition := max stream.mPosition stream.mCount } := by
  unfold startCopying at starts
  split at starts
  · cases starts
  split at starts
  · cases starts
  split at starts
  · cases starts
  split at starts
  · cases starts
  split at starts
  · rename_i before
    simp only [bind, Except.bind] at starts
    generalize chosen : (if stream.mCount - stream.mPosition ≥ count then count
      else stream.mCount - stream.mPosition) = size at starts
    split at starts
    · cases starts
    · rename_i copies
      split at starts
      · cases starts
      · rename_i goesOn
        cases starts
        rw [not_or] at goesOn
        rw [if_neg fun enough => goesOn.1 (chosen.symm.trans (if_pos enough))] at chosen
        rw [copyOut_stream copies, ← chosen, Nat.max_eq_right (Nat.le_of_lt before),
          Nat.add_sub_cancel' (Nat.le_of_lt before)]
  · rename_i used
    cases starts
    rw [Nat.max_eq_left (Nat.not_lt.mp used)]

/-! ## Calls and runs -/

/-- Whether a call moves the marked region to bytes that are apart is known before it. -/
theorem fillsApart_iff (next : StreamCall) :
    FillsApart source memcpy stream next ↔ FindsMarkLate source stream next := by
  cases next with
  | mark limit => exact Iff.rfl
  | reset => exact Iff.rfl
  | read => exact imp_congr_right fun _ => movesApart_iff
  | skip count =>
      exact imp_congr_right fun _ => imp_congr_right fun _ => imp_congr_right fun _ =>
        movesApart_iff
  | readBytes buffer offset count =>
      constructor
      · rintro apart ⟨first, starts⟩
        rw [← startCopying_stream starts, ← movesApart_iff]
        exact apart first starts first .start
      · intro late first starts copying visits
        have here : MovesApart first.stream := by
          rw [movesApart_iff, startCopying_stream starts]
          exact late ⟨first, starts⟩
        have used : first.stream.mCount ≤ first.stream.mPosition := by
          rw [startCopying_stream starts]
          exact Nat.le_max_right _ _
        cases visits with
        | start => exact here
        | next before goesOn =>
            refine (copyNext_settles ?_ goesOn).movesApart
            exact before.keeps
              (fun copying => Settled copying.stream ∨
                copying.stream.mCount ≤ copying.stream.mPosition)
              (fun _ _ ready goesOn => .inl (copyNext_settles ready goesOn)) (.inr used)

/-- In a run of any calls, every move of the marked region is apart exactly if every call that
fills the buffer finds the mark late. -/
theorem moves_apart_iff (source : InputStream σ) (memcpy : Memcpy) (fuel : Nat)
    (stream : BufferedInputStream σ) (calls : List StreamCall) :
    Permitted (call source memcpy fuel) (FillsApart source memcpy) stream calls ↔
      Permitted (call source memcpy fuel) (FindsMarkLate source) stream calls :=
  ⟨fun apart => apart.mono fun _ next _ fills => (fillsApart_iff next).mp fills,
    fun late => late.mono fun _ next _ finds => (fillsApart_iff next).mpr finds⟩

/-- The mark at 1 is kept when the three bytes of the buffer have been read. -/
theorem marked_early : ∃ start, new [1, 2, 3, 4] 3 = .ok start ∧
    ¬Permitted (call (.chunked 4) Memcpy.buffered 5) (FillsApart (.chunked 4) Memcpy.buffered)
      start [.read, .mark 3, .read, .read, .read] := by
  refine ⟨_, rfl, ?_⟩
  rintro ⟨-, -, -, -, apart, -⟩
  have overlap := apart (by decide) [1, 2, 3] 1 rfl rfl (by decide) 1
  exact overlap (by decide)

end BufferedInputStream

end Mindroid
