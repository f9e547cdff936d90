import Mindroid.Foundation.Transition
import Mindroid.Util.Logging.FileHandler

/-!
# The limit of a log file

The newest file is smaller than the limit or has only the last record, unless there is only one
file that is appended to, or the size of the file and the record together is not an `int32_t`.
-/

set_option autoImplicit false

namespace Mindroid

open Foundation

namespace LogFiles

variable {time : BitVec 64 → List UInt8}

/-- The content of the current file. -/
def current (st : LogFiles) : List UInt8 :=
  File.content st.disk (st.handler.mFiles 0)

/-- The line of a record. -/
def line (time : BitVec 64 → List UInt8) (record : LogRecord) : List UInt8 :=
  record.toString time ++ FileHandler.CRLF

/-- What holds of the current file after a record has been published.  A record that is dropped
changes nothing. -/
def Limited (time : BitVec 64 → List UInt8) (st : LogFiles) (record : LogRecord) (st' : LogFiles) :
    Prop :=
  if st.dropped record.mPriority (record.toString time) then
    st' = st
  else
    (st'.current.length : Int) < st.handler.mLimit.toInt ∨ st'.current = line time record

/-- The record fits, or the current file can be left or emptied, as long as the `int32_t` of the
size shows that it does not fit. -/
def Fits (time : BitVec 64 → List UInt8) (st : LogFiles) (record : LogRecord) : Prop :=
  let size := (st.current ++ line time record).length
  st.dropped record.mPriority (record.toString time) ∨
    (size : Int) < st.handler.mLimit.toInt ∨ st.current = [] ∨
    (1 < st.handler.mCount ∨ ¬st.handler.mAppend) ∧ Int32.ofNat size ≥ st.handler.mLimit

/-- The handler is open and has a limit. -/
structure Ready (st : LogFiles) : Prop where
  opened : ∃ content, st.Opened content
  limited : st.handler.mLimit > 0

theorem Opened.current {st : LogFiles} {content : List UInt8} (opened : st.Opened content) :
    st.current = content := by
  rw [LogFiles.current, File.content, opened.file]
  rfl

/-- Nothing else is in the file exactly if it was empty. -/
theorem only_line_iff (content : List UInt8) (record : LogRecord) :
    content ++ record.toString time ++ FileHandler.CRLF = line time record ↔ content = [] := by
  rw [line, List.append_assoc, List.append_left_eq_self]

/-- The text before the line is empty, or all of the content. -/
theorem base_limited_iff {st : LogFiles} (limited : st.handler.mLimit > 0)
    (content : List UInt8) (record : LogRecord) :
    (((st.base content (record.toString time) ++ record.toString time ++
          FileHandler.CRLF).length : Int) < st.handler.mLimit.toInt ∨
        st.base content (record.toString time) = []) ↔
      ((content ++ line time record).length : Int) < st.handler.mLimit.toInt ∨ content = [] ∨
        (1 < st.handler.mCount ∨ ¬st.handler.mAppend) ∧
          Int32.ofNat (content ++ line time record).length ≥ st.handler.mLimit := by
  have rotates : st.Rotates content (record.toString time) ↔ st.handler.mLimit > 0 ∧
      Int32.ofNat (content ++ line time record).length ≥ st.handler.mLimit := by
    rw [line, ← List.append_assoc]
    rfl
  rw [List.append_assoc, ← line, base]
  by_cases reaches : Int32.ofNat (content ++ line time record).length ≥ st.handler.mLimit
  · rw [if_pos (rotates.mpr ⟨limited, reaches⟩), nextContent]
    by_cases leaves : 1 < st.handler.mCount ∨ ¬st.handler.mAppend
    · rw [if_pos leaves]
      exact iff_of_true (.inr rfl) (.inr (.inr ⟨leaves, reaches⟩))
    · rw [if_neg leaves]
      exact or_congr_right (or_iff_left fun both => leaves both.1).symm
  · rw [if_neg fun both => reaches (rotates.mp both).2]
    exact or_congr_right (or_iff_left fun both => reaches both.2).symm

theorem publish_limited_iff {st st' : LogFiles} {record : LogRecord} (ready : st.Ready)
    (published : st.publish time record = some st') :
    st'.Ready ∧ (Limited time st record st' ↔ Fits time st record) := by
  obtain ⟨content, opened⟩ := ready.opened
  unfold Limited Fits
  cases drops : st.dropped record.mPriority (record.toString time) with
  | true =>
      rw [publish_dropped drops] at published
      cases published
      exact ⟨ready, by simp⟩
  | false =>
      rcases publish_written opened drops with ⟨next, publishes, opened', kept, _⟩
      obtain rfl := Option.some.inj (published.symm.trans publishes)
      refine ⟨⟨⟨_, opened'⟩, by rw [kept.mLimit]; exact ready.limited⟩, ?_⟩
      simp only [Bool.false_eq_true, if_false, false_or, opened'.current, opened.current,
        only_line_iff]
      exact base_limited_iff ready.limited content record

/-- A handler with a limit is ready when it has been created. -/
theorem ready_new {files : Nat → Path} {settings : Settings} {disk : FileSystem}
    {dataVolume : Int32} {st : LogFiles} (created : new files settings disk dataVolume = .ok st)
    (positive : 0 < settings.limit) : st.Ready := by
  rcases new_eq_ok created with ⟨kept, _, opened⟩
  refine ⟨⟨_, opened⟩, ?_⟩
  rw [kept.mLimit, handler_starting, initProperties]
  simp only
  rw [if_neg fun negative => settings_new created (.inl negative)]
  exact positive

/-- From the creation of a handler on, the limit is kept by every record exactly if every record
fits. -/
theorem limited_iff_fits (time : BitVec 64 → List UInt8) {files : Nat → Path}
    {settings : Settings} {disk : FileSystem} {dataVolume : Int32} {st : LogFiles}
    (created : new files settings disk dataVolume = .ok st) (positive : 0 < settings.limit)
    (records : List LogRecord) :
    Relates (publish time) (Limited time) st records ↔
      Meets (publish time) (Fits time) st records :=
  relates_iff_meets (fun _ _ _ ready published => (publish_limited_iff ready published).1)
    (fun _ _ _ ready published => (publish_limited_iff ready published).2)
    (ready_new created positive) records

/-- A single file that is appended to. -/
def singleFile : Settings where
  limit := 50
  count := 1
  append := true
  bufferSize := 0
  dataVolumeLimit := 0

/-- The time of a record without a timestamp. -/
def epoch : BitVec 64 → List UInt8 :=
  fun _ => String.valueOf "1970-01-01 00:00:00.000"

/-- A record whose line has 37 bytes. -/
def shortRecord : LogRecord where
  mTimestamp := 0
  mThreadId := 1
  mPriority := FileHandler.INFO
  mTag := String.valueOf "t"
  mMessage := String.valueOf "m"

theorem limited_iff_fits_singleFile :
    ∃ st, new (fun _ => [97]) singleFile (fun _ => none) 0 = .ok st ∧ 0 < singleFile.limit ∧
      (Relates (publish epoch) (Limited epoch) st [shortRecord] ↔
        Meets (publish epoch) (Fits epoch) st [shortRecord]) :=
  ⟨_, rfl, by decide,
    @limited_iff_fits epoch (fun _ => [97]) singleFile (fun _ => none) 0 _ rfl (by decide) _⟩

/-- The second record is added to the first one, and the file has 74 bytes. -/
theorem singleFile_grows :
    ¬∀ st, new (fun _ => [97]) singleFile (fun _ => none) 0 = .ok st →
      Relates (publish epoch) (Limited epoch) st [shortRecord, shortRecord] := by
  intro all
  have second := ((all _ rfl _ rfl).2 _ rfl).1
  rw [Limited, if_neg (by decide)] at second
  rcases second with small | same
  · exact absurd small (by decide)
  · exact absurd same (by decide)

end LogFiles

end Mindroid
