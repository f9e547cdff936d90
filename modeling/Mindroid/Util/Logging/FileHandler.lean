import Mindroid.Io.File
import Mindroid.Lang.String
import Mindroid.Util.Logging.LogBuffer

/-!
# The file handler of the logger

A handler writes records to the newest one of some files, and moves the files up by one generation
when the newest one has reached a limit.  A program has one handler at a time for the same files.
-/

set_option autoImplicit false

namespace Mindroid

/-- `Logger::LOG_LEVELS`. -/
def LOG_LEVELS : List UInt8 :=
  String.valueOf "VDIWEA"

/-- `LogRecord::toString`; the C library formats the time. -/
def LogRecord.toString (time : BitVec 64 → List UInt8) (record : LogRecord) : List UInt8 :=
  time record.mTimestamp ++ String.valueOf "  0x" ++
    (Nat.toDigits 16 record.mThreadId.toNat).map (fun digit => UInt8.ofNat digit.toNat) ++
    String.valueOf " " ++ [LOG_LEVELS.getD record.mPriority.toNat 0] ++ String.valueOf " " ++
    String.cStr record.mTag ++ String.valueOf ": " ++ String.cStr record.mMessage

/-- `FileHandler::Writer`, a descriptor of a file that is opened with `O_APPEND`. -/
structure Writer where
  file : Path
  mSize : Int64

namespace Writer

def size (writer : Writer) : Int32 :=
  writer.mSize.toInt32

end Writer

/-- The fields of a handler; the paths of its files are those that `parseFileName` has given. -/
structure FileHandler where
  mFiles : Nat → Path
  mCount : Nat
  mAppend : Bool
  mLimit : Int32
  mBufferSize : Int32
  mDataVolumeLimit : Int32
  mPriority : BitVec 32
  mFlushSize : Int32
  mDataVolume : Int32
  mWriter : Option Writer

/-- A handler, the disk, and the number that the preferences have under `dataVolume`. -/
structure LogFiles where
  handler : FileHandler
  disk : FileSystem
  dataVolume : Int32

namespace FileHandler

def CRLF : List UInt8 :=
  [13, 10]

/-- `Log::INFO`, the priority of a handler before it is set. -/
def INFO : BitVec 32 :=
  2

/-- One turn of the loop that moves the files up. -/
def moveUp (files : Nat → Path) (generation : Nat) (disk : FileSystem) : FileSystem :=
  let disk :=
    if File.exists disk (files generation) then File.remove disk (files generation) else disk
  File.renameTo disk (files (generation - 1)) (files generation)

/-- The loop, from a generation downwards. -/
def rotate (files : Nat → Path) : Nat → FileSystem → FileSystem
  | 0, disk => disk
  | generation + 1, disk => rotate files generation (moveUp files (generation + 1) disk)

/-- The disk that the constructor of `Writer` leaves. -/
def openFile (disk : FileSystem) (file : Path) (append : Bool) : FileSystem :=
  let disk := if File.exists disk file then disk else File.createNewFile disk file
  if append then disk else Function.update disk file (some [])

/-! ### Rotation -/

section Rotation

variable {files : Nat → Path} {disk : FileSystem} {generation : Nat}

theorem removed_self (disk : FileSystem) (path : Path) :
    (if File.exists disk path then File.remove disk path else disk) path = none := by
  split
  · exact File.remove_self disk path
  · rename_i absent
    exact Option.not_isSome_iff_eq_none.mp absent

theorem removed_of_ne {path other : Path} (ne : other ≠ path) :
    (if File.exists disk path then File.remove disk path else disk) other = disk other := by
  split
  · exact File.remove_of_ne ne
  · rfl

theorem moveUp_old (files : Nat → Path) (generation : Nat) (disk : FileSystem) :
    moveUp files generation disk (files (generation - 1)) = none :=
  File.renameTo_old (removed_self disk (files generation))

theorem moveUp_new (ne : files (generation - 1) ≠ files generation) :
    moveUp files generation disk (files generation) = disk (files (generation - 1)) :=
  (File.renameTo_new (removed_self disk (files generation))).trans (removed_of_ne ne)

theorem moveUp_of_ne {path : Path} (old : path ≠ files (generation - 1))
    (new : path ≠ files generation) : moveUp files generation disk path = disk path :=
  (File.renameTo_of_ne old new).trans (removed_of_ne new)

/-- There is no newest file after the loop, whatever the names are. -/
theorem rotate_newest (files : Nat → Path) (generation : Nat) (disk : FileSystem) :
    rotate files (generation + 1) disk (files 0) = none := by
  induction generation generalizing disk with
  | zero => exact moveUp_old files 1 disk
  | succ generation ih => exact ih _

theorem rotate_of_ne {path : Path} (ne : ∀ i, i ≤ generation → path ≠ files i) :
    rotate files generation disk path = disk path := by
  induction generation generalizing disk with
  | zero => rfl
  | succ generation ih =>
      rw [rotate, ih fun i below => ne i (Nat.le_succ_of_le below)]
      exact moveUp_of_ne (ne generation (Nat.le_succ generation)) (ne _ (Nat.le_refl _))

/-- Every file has the content of the next newer one if the names are distinct. -/
theorem rotate_apply
    (distinct : ∀ i j, i ≤ generation → j ≤ generation → files i = files j → i = j) {i : Nat}
    (known : i < generation) :
    rotate files generation disk (files (i + 1)) = disk (files i) := by
  induction generation generalizing disk with
  | zero => exact absurd known (Nat.not_lt_zero i)
  | succ generation ih =>
      have distinct' : ∀ i j, i ≤ generation → j ≤ generation → files i = files j → i = j :=
        fun i j below below' =>
          distinct i j (Nat.le_succ_of_le below) (Nat.le_succ_of_le below')
      have differ : ∀ j, j ≤ generation → files j ≠ files (generation + 1) := fun j below same =>
        absurd (distinct j _ (Nat.le_succ_of_le below) (Nat.le_refl _) same) (by omega)
      rw [rotate]
      rcases Nat.lt_succ_iff_lt_or_eq.mp known with older | rfl
      · rw [ih distinct' older]
        refine moveUp_of_ne (fun same => ?_) (differ i (Nat.le_of_lt older))
        exact Nat.ne_of_lt older
          (distinct' i generation (Nat.le_of_lt older) (Nat.le_refl _) same)
      · rw [rotate_of_ne fun j below same => differ j below same.symm]
        exact moveUp_new (differ i (Nat.le_refl i))

end Rotation

end FileHandler

namespace LogFiles

/-- `new Writer` for the newest file. -/
def openWriter (st : LogFiles) : LogFiles :=
  let file := st.handler.mFiles 0
  let disk := FileHandler.openFile st.disk file st.handler.mAppend
  { st with
    handler := { st.handler with
      mWriter := some { file := file, mSize := Int64.ofNat (File.length disk file) } }
    disk := disk }

/-- The files are moved up. -/
def rotate (st : LogFiles) : LogFiles :=
  { st with disk := FileHandler.rotate st.handler.mFiles (st.handler.mCount - 1) st.disk }

/-- Whether the files are moved up by the constructor. -/
def startsOver (st : LogFiles) : Prop :=
  File.exists st.disk (st.handler.mFiles 0) ∧
    (¬st.handler.mAppend ∨
      st.handler.mLimit.toNatClampNeg ≤ File.length st.disk (st.handler.mFiles 0))

instance (st : LogFiles) : Decidable st.startsOver :=
  inferInstanceAs (Decidable (_ ∧ _))

def initOutputFiles (st : LogFiles) : LogFiles :=
  openWriter (if st.startsOver then st.rotate else st)

def initPreferences (st : LogFiles) : LogFiles :=
  if st.handler.mDataVolumeLimit > 0 then
    { st with handler := { st.handler with mDataVolume := st.dataVolume } }
  else
    st

/-- The arguments of the constructor. -/
structure Settings where
  limit : Int32
  count : Int32
  append : Bool
  bufferSize : Int32
  dataVolumeLimit : Int32

def initProperties (files : Nat → Path) (settings : Settings) : FileHandler where
  mFiles := files
  mCount := (if settings.count < 1 then 1 else settings.count).toNatClampNeg
  mAppend := settings.append
  mLimit := if settings.limit < 0 then 0 else settings.limit
  mBufferSize := if settings.bufferSize < 0 then 0 else settings.bufferSize
  mDataVolumeLimit := if settings.dataVolumeLimit < 0 then 0 else settings.dataVolumeLimit
  mPriority := FileHandler.INFO
  mFlushSize := 0
  mDataVolume := 0
  mWriter := none

/-- The constructor with all parameters, for a pattern that is not empty. -/
def new (files : Nat → Path) (settings : Settings) (disk : FileSystem) (dataVolume : Int32) :
    Except String LogFiles :=
  if settings.limit < 0 ∨ settings.count < 1 then
    .error "limit < 0 || count < 1"
  else if settings.bufferSize < 0 ∨ settings.dataVolumeLimit < 0 then
    .error "bufferSize < 0 || dataVolumeLimit < 0"
  else
    .ok (initPreferences (initOutputFiles {
      handler := initProperties files settings
      disk := disk
      dataVolume := dataVolume }))

def flush (st : LogFiles) : LogFiles :=
  if st.handler.mWriter.isSome ∧ st.handler.mDataVolumeLimit > 0 then
    { st with dataVolume := st.handler.mDataVolume }
  else
    st

def close (st : LogFiles) : LogFiles :=
  let st := st.flush
  { st with handler := { st.handler with mWriter := none } }

def findNextGeneration (st : LogFiles) : LogFiles :=
  openWriter (rotate (close st))

/-- `Writer::write`, which writes all the bytes. -/
def write (st : LogFiles) (writer : Writer) (data : List UInt8) : LogFiles :=
  { st with
    handler := { st.handler with
      mWriter := some { writer with mSize := writer.mSize + Int64.ofNat data.length } }
    disk := File.append st.disk writer.file data }

/-- The end of `publish`. -/
def written (st : LogFiles) (logMessageSize : Int32) : LogFiles :=
  let st := { st with handler := { st.handler with
    mFlushSize := st.handler.mFlushSize + logMessageSize
    mDataVolume := st.handler.mDataVolume + logMessageSize } }
  if st.handler.mFlushSize ≥ st.handler.mBufferSize then
    let st := st.flush
    { st with handler := { st.handler with mFlushSize := 0 } }
  else
    st

/-- A message and its line end. -/
def writeLine (st : LogFiles) (logMessage : List UInt8) : Option LogFiles := do
  let st := st.write (← st.handler.mWriter) logMessage
  return st.write (← st.handler.mWriter) FileHandler.CRLF

/-- The `logMessageSize` of a message. -/
def logMessageSize (logMessage : List UInt8) : Int32 :=
  Int32.ofNat (logMessage.length + FileHandler.CRLF.length)

/-- Whether a record with a priority and a message is not written. -/
def dropped (st : LogFiles) (priority : BitVec 32) (logMessage : List UInt8) : Bool :=
  priority.slt st.handler.mPriority ||
    (st.handler.mDataVolumeLimit > 0 &&
      st.handler.mDataVolume + logMessageSize logMessage > st.handler.mDataVolumeLimit)

/-- `publish` of a record.  A null pointer is used after `close`. -/
def publish (time : BitVec 64 → List UInt8) (st : LogFiles) (record : LogRecord) :
    Option LogFiles := do
  let logMessage := record.toString time
  if st.dropped record.mPriority logMessage then
    return st
  else
    let writer ← st.handler.mWriter
    let st :=
      if st.handler.mLimit > 0 ∧ writer.size + logMessageSize logMessage ≥ st.handler.mLimit then
        st.findNextGeneration
      else
        st
    return (← st.writeLine logMessage).written (logMessageSize logMessage)

/-! ## What the operations do -/

/-- The settings of the handler stay. -/
structure Keeps (st st' : LogFiles) : Prop where
  mFiles : st'.handler.mFiles = st.handler.mFiles
  mCount : st'.handler.mCount = st.handler.mCount
  mAppend : st'.handler.mAppend = st.handler.mAppend
  mLimit : st'.handler.mLimit = st.handler.mLimit
  mDataVolumeLimit : st'.handler.mDataVolumeLimit = st.handler.mDataVolumeLimit
  mPriority : st'.handler.mPriority = st.handler.mPriority

theorem Keeps.trans {st st' st'' : LogFiles} (first : Keeps st st') (second : Keeps st' st'') :
    Keeps st st'' where
  mFiles := second.mFiles.trans first.mFiles
  mCount := second.mCount.trans first.mCount
  mAppend := second.mAppend.trans first.mAppend
  mLimit := second.mLimit.trans first.mLimit
  mDataVolumeLimit := second.mDataVolumeLimit.trans first.mDataVolumeLimit
  mPriority := second.mPriority.trans first.mPriority

/-- The newest file is open and has a content. -/
structure Opened (st : LogFiles) (content : List UInt8) : Prop where
  mWriter : st.handler.mWriter =
    some { file := st.handler.mFiles 0, mSize := Int64.ofNat content.length }
  file : st.disk (st.handler.mFiles 0) = some content

theorem keeps_flush (st : LogFiles) : Keeps st st.flush := by
  unfold flush
  split <;> exact ⟨rfl, rfl, rfl, rfl, rfl, rfl⟩

theorem disk_flush (st : LogFiles) : st.flush.disk = st.disk := by
  unfold flush
  split <;> rfl

theorem mWriter_flush (st : LogFiles) : st.flush.handler.mWriter = st.handler.mWriter := by
  unfold flush
  split <;> rfl

theorem keeps_written (st : LogFiles) (size : Int32) : Keeps st (st.written size) := by
  unfold written
  simp only
  split
  · have kept := keeps_flush { st with handler := { st.handler with
      mFlushSize := st.handler.mFlushSize + size
      mDataVolume := st.handler.mDataVolume + size } }
    exact ⟨kept.mFiles, kept.mCount, kept.mAppend, kept.mLimit, kept.mDataVolumeLimit,
    kept.mPriority⟩
  · exact ⟨rfl, rfl, rfl, rfl, rfl, rfl⟩

theorem disk_written (st : LogFiles) (size : Int32) : (st.written size).disk = st.disk := by
  unfold written
  simp only
  split
  · exact disk_flush _
  · rfl

theorem mWriter_written (st : LogFiles) (size : Int32) :
    (st.written size).handler.mWriter = st.handler.mWriter := by
  unfold written
  simp only
  split
  · exact mWriter_flush _
  · rfl

theorem openFile_self (disk : FileSystem) (file : Path) (append : Bool) :
    FileHandler.openFile disk file append file =
      some (if append then File.content disk file else []) := by
  unfold FileHandler.openFile File.exists File.content File.createNewFile
  cases append with
  | false =>
      simp
  | true =>
      cases present : disk file with
      | none => simp
      | some content => simp [present]

theorem openFile_of_ne {disk : FileSystem} {file other : Path} (append : Bool)
    (ne : other ≠ file) : FileHandler.openFile disk file append other = disk other := by
  have created : (if File.exists disk file then disk else File.createNewFile disk file) other =
      disk other := by
    split
    · rfl
    · rw [File.createNewFile, Function.update_of_ne ne]
  unfold FileHandler.openFile
  cases append with
  | false =>
      simp only [Bool.false_eq_true, if_false]
      rw [Function.update_of_ne ne, created]
  | true => exact created

theorem opened_openWriter (st : LogFiles) :
    st.openWriter.Opened
      (if st.handler.mAppend then File.content st.disk (st.handler.mFiles 0) else []) := by
  have file := openFile_self st.disk (st.handler.mFiles 0) st.handler.mAppend
  refine ⟨?_, file⟩
  have length : File.length
      (FileHandler.openFile st.disk (st.handler.mFiles 0) st.handler.mAppend)
      (st.handler.mFiles 0) = _ := congrArg (fun content => (content.getD []).length) file
  simp only [openWriter, length, Option.getD_some]

/-- A message is added to the newest file. -/
theorem writeLine_opened {st : LogFiles} {content : List UInt8} (opened : st.Opened content)
    (logMessage : List UInt8) :
    ∃ st', st.writeLine logMessage = some st' ∧
      st'.Opened (content ++ logMessage ++ FileHandler.CRLF) ∧ Keeps st st' ∧
      ∀ path, path ≠ st.handler.mFiles 0 → st'.disk path = st.disk path := by
  rw [writeLine, opened.mWriter]
  refine ⟨_, rfl, ⟨?_, ?_⟩, ⟨rfl, rfl, rfl, rfl, rfl, rfl⟩, ?_⟩
  · simp only [write, List.length_append, Int64.ofNat_add]
  · simp only [write, File.append, opened.file, Function.update_self, Option.map_some]
  · intro path ne
    simp only [write, File.append, Function.update_of_ne ne]

theorem keeps_close (st : LogFiles) : Keeps st st.close := by
  have kept := keeps_flush st
  exact ⟨kept.mFiles, kept.mCount, kept.mAppend, kept.mLimit, kept.mDataVolumeLimit,
    kept.mPriority⟩

theorem disk_close (st : LogFiles) : st.close.disk = st.disk :=
  disk_flush st

theorem keeps_findNextGeneration (st : LogFiles) : Keeps st st.findNextGeneration := by
  have kept := keeps_close st
  exact ⟨kept.mFiles, kept.mCount, kept.mAppend, kept.mLimit, kept.mDataVolumeLimit,
    kept.mPriority⟩

/-- What is left in the newest file when the files have been moved up. -/
def nextContent (st : LogFiles) (content : List UInt8) : List UInt8 :=
  if 1 < st.handler.mCount ∨ ¬st.handler.mAppend then [] else content

/-- A single file is not moved, and it is truncated only if its content is not to be kept. -/
theorem opened_findNextGeneration {st : LogFiles} {content : List UInt8}
    (opened : st.Opened content) : st.findNextGeneration.Opened (st.nextContent content) := by
  have kept := keeps_close st
  have reopened := opened_openWriter (rotate (close st))
  have same : nextContent st content =
      if (rotate (close st)).handler.mAppend then
        File.content (rotate (close st)).disk ((rotate (close st)).handler.mFiles 0)
      else
        [] := by
    change _ = if st.close.handler.mAppend then
      File.content (FileHandler.rotate st.close.handler.mFiles (st.close.handler.mCount - 1)
        st.close.disk) (st.close.handler.mFiles 0) else []
    rw [kept.mAppend, kept.mFiles, kept.mCount, disk_close, nextContent]
    cases append : st.handler.mAppend with
    | false => simp
    | true =>
        cases several : st.handler.mCount - 1 with
        | zero =>
            rw [if_neg (by simp; omega), FileHandler.rotate, File.content, opened.file]
            rfl
        | succ generation =>
            rw [if_pos (.inl (by omega)), File.content, FileHandler.rotate_newest]
            rfl
  rw [same]
  exact reopened

theorem size_mWriter (content logMessage : List UInt8) (file : Path) :
    Writer.size { file := file, mSize := Int64.ofNat content.length } +
        logMessageSize logMessage =
      Int32.ofNat (content ++ logMessage ++ FileHandler.CRLF).length := by
  change (Int64.ofNat content.length).toInt32 + _ = _
  rw [Int64.toInt32_ofNat', logMessageSize, ← Int32.ofNat_add, List.length_append,
    List.length_append, Nat.add_assoc]

/-- Whether the files are moved up before a message is written. -/
def Rotates (st : LogFiles) (content logMessage : List UInt8) : Prop :=
  st.handler.mLimit > 0 ∧
    Int32.ofNat (content ++ logMessage ++ FileHandler.CRLF).length ≥ st.handler.mLimit

instance (st : LogFiles) (content logMessage : List UInt8) :
    Decidable (st.Rotates content logMessage) :=
  inferInstanceAs (Decidable (_ ∧ _))

/-- What a record that is written is added to. -/
def base (st : LogFiles) (content logMessage : List UInt8) : List UInt8 :=
  if st.Rotates content logMessage then st.nextContent content else content

theorem publish_dropped {st : LogFiles} {time : BitVec 64 → List UInt8} {record : LogRecord}
    (drops : st.dropped record.mPriority (record.toString time) = true) :
    st.publish time record = some st := by
  rw [publish, if_pos drops]
  rfl

/-- The state in which the line of a record is written. -/
def target (st : LogFiles) (content logMessage : List UInt8) : LogFiles :=
  if st.Rotates content logMessage then st.findNextGeneration else st

section Publish

variable {st : LogFiles} {content : List UInt8} {time : BitVec 64 → List UInt8}
  {record : LogRecord}

theorem target_opened (opened : st.Opened content) (logMessage : List UInt8) :
    (st.target content logMessage).Opened (st.base content logMessage) := by
  unfold target base
  split
  · exact opened_findNextGeneration opened
  · exact opened

theorem keeps_target (st : LogFiles) (content logMessage : List UInt8) :
    Keeps st (st.target content logMessage) := by
  unfold target
  split
  · exact keeps_findNextGeneration st
  · exact ⟨rfl, rfl, rfl, rfl, rfl, rfl⟩

theorem publish_written (opened : st.Opened content)
    (writes : st.dropped record.mPriority (record.toString time) = false) :
    ∃ st', st.publish time record = some st' ∧
      st'.Opened (st.base content (record.toString time) ++ record.toString time ++
        FileHandler.CRLF) ∧
      Keeps st st' ∧
      ∀ path, path ≠ st.handler.mFiles 0 →
        st'.disk path = (st.target content (record.toString time)).disk path := by
  rcases writeLine_opened (target_opened opened (record.toString time)) (record.toString time)
    with ⟨st', writesLine, opened', kept, others⟩
  have kept' := keeps_target st content (record.toString time)
  have finishes := keeps_written st' (logMessageSize (record.toString time))
  refine ⟨st'.written (logMessageSize (record.toString time)), ?_, ⟨?_, ?_⟩,
    (kept'.trans kept).trans finishes, ?_⟩
  · rw [publish, if_neg (by rw [writes]; decide), opened.mWriter]
    simp only [Option.bind_eq_bind, Option.bind_some, size_mWriter]
    change (writeLine (st.target content (record.toString time)) _).bind _ = _
    rw [writesLine]
    rfl
  · rw [mWriter_written, opened'.mWriter, finishes.mFiles]
  · rw [disk_written, finishes.mFiles, opened'.file]
  · intro path ne
    rw [disk_written]
    exact others path (by rwa [kept'.mFiles])

end Publish

theorem initPreferences_eq (st : LogFiles) :
    ∃ volume, st.initPreferences =
      { st with handler := { st.handler with mDataVolume := volume } } := by
  unfold initPreferences
  split
  · exact ⟨st.dataVolume, rfl⟩
  · exact ⟨st.handler.mDataVolume, rfl⟩

/-- The state before the newest file is opened by the constructor. -/
def starting (files : Nat → Path) (settings : Settings) (disk : FileSystem)
    (dataVolume : Int32) : LogFiles :=
  let st : LogFiles :=
    { handler := initProperties files settings, disk := disk, dataVolume := dataVolume }
  if st.startsOver then st.rotate else st

section New

variable {files : Nat → Path} {settings : Settings} {disk : FileSystem} {dataVolume : Int32}
  {st : LogFiles}

theorem handler_starting : (starting files settings disk dataVolume).handler =
    initProperties files settings := by
  unfold starting
  simp only
  split <;> rfl

theorem settings_new (created : new files settings disk dataVolume = .ok st) :
    ¬(settings.limit < 0 ∨ settings.count < 1) := by
  unfold new at created
  split at created
  · cases created
  · assumption

/-- The constructor opens the newest file, if it does not throw. -/
theorem new_eq_ok (created : new files settings disk dataVolume = .ok st) :
    Keeps (starting files settings disk dataVolume) st ∧
      st.disk = (starting files settings disk dataVolume).openWriter.disk ∧
      st.Opened (if settings.append then
        File.content (starting files settings disk dataVolume).disk (files 0) else []) := by
  unfold new at created
  split at created
  · cases created
  split at created
  · cases created
  have opened := opened_openWriter (starting files settings disk dataVolume)
  rw [handler_starting] at opened
  rcases initPreferences_eq (starting files settings disk dataVolume).openWriter with
    ⟨volume, same⟩
  obtain rfl := (Except.ok.inj created).symm.trans same
  exact ⟨⟨rfl, rfl, rfl, rfl, rfl, rfl⟩, rfl, opened.mWriter, opened.file⟩

end New

end LogFiles

end Mindroid
