import Mindroid.Foundation.Generations
import Mindroid.Util.Logging.FileLimit

/-!
# What the log files have kept

From the oldest file to the newest one, the files have the end of everything that has ever been in
them, and every record is in one of them as a whole.
-/

set_option autoImplicit false

namespace Mindroid

open Foundation Generations

/-- What a file consists of: bytes that were there before, and lines of records. -/
inductive FileEntry where
  | before (byte : UInt8)
  | line (text : List UInt8)

def FileEntry.bytes : FileEntry → List UInt8
  | before byte => [byte]
  | line text => text

namespace LogFiles

/-- The content of all files, from the oldest one to the newest one. -/
def contents (files : Nat → Path) (count : Nat) (disk : FileSystem) : List UInt8 :=
  joined (fun generation => File.content disk (files generation)) count

/-- The files consist of whole entries. -/
def Shows (files : Nat → Path) (count : Nat) (disk : FileSystem)
    (parts : Nat → List FileEntry) : Prop :=
  ∀ generation, generation < count →
    File.content disk (files generation) = (parts generation).flatMap FileEntry.bytes

/-- The files consist of the last entries of a history. -/
def Kept (files : Nat → Path) (count : Nat) (history : List FileEntry) (disk : FileSystem) :
    Prop :=
  ∃ parts, Shows files count disk parts ∧ Keep parts count history

/-- The names of the files are distinct. -/
def Distinct (files : Nat → Path) (count : Nat) : Prop :=
  ∀ i j, i < count → j < count → files i = files j → i = j

section Disk

variable {files : Nat → Path} {count : Nat} {history : List FileEntry} {disk disk' : FileSystem}

theorem kept_start (files : Nat → Path) (count : Nat) (disk : FileSystem) :
    Kept files count ((contents files count disk).map .before) disk := by
  refine ⟨fun generation => (File.content disk (files generation)).map .before, ?_, ?_⟩
  · intro generation _
    rw [List.flatMap_map]
    exact (List.flatMap_singleton' _).symm
  · rw [Keep, joined_map]
    exact List.suffix_refl _

/-- The bytes of the files are the last bytes of the history. -/
theorem Kept.contents (kept : Kept files count history disk) :
    LogFiles.contents files count disk <:+ history.flatMap FileEntry.bytes := by
  obtain ⟨parts, shows_, keep⟩ := kept
  rw [LogFiles.contents, joined_congr shows_]
  exact keep.flatMap FileEntry.bytes

/-- Only what can be read matters. -/
theorem Kept.congr (kept : Kept files count history disk)
    (same : ∀ generation, generation < count →
      File.content disk' (files generation) = File.content disk (files generation)) :
    Kept files count history disk' := by
  obtain ⟨parts, shows_, keep⟩ := kept
  exact ⟨parts, fun generation below => (same generation below).trans (shows_ generation below),
    keep⟩

/-- The newest file stays as it is if it is appended to, or empty. -/
theorem Kept.openFile (kept : Kept files (count + 1) history disk)
    (distinct : Distinct files (count + 1)) {append : Bool}
    (safe : append = true ∨ File.content disk (files 0) = []) :
    Kept files (count + 1) history (FileHandler.openFile disk (files 0) append) := by
  refine kept.congr fun generation below => ?_
  by_cases newest : generation = 0
  · subst newest
    have opened := openFile_self disk (files 0) append
    rw [File.content, opened, Option.getD_some]
    rcases safe with rfl | empty
    · exact if_pos rfl
    · rw [empty, ite_self]
  · have ne : files generation ≠ files 0 := fun same =>
      newest (distinct generation 0 below (Nat.succ_pos count) same)
    rw [File.content, openFile_of_ne append ne]
    rfl

/-- A single file can be truncated. -/
theorem kept_single (kept : Kept files 1 history disk)
    (append : Bool) : Kept files 1 history (FileHandler.openFile disk (files 0) append) := by
  cases append with
  | true => exact kept.openFile (fun i j first second _ => by omega) (.inl rfl)
  | false =>
      obtain ⟨parts, _, _⟩ := kept
      refine ⟨renewed parts [], fun generation below => ?_, Keep.drop parts history⟩
      obtain rfl := Nat.lt_one_iff.mp below
      rw [File.content, openFile_self, renewed, Function.update_self]
      rfl

theorem Kept.rotate (kept : Kept files (count + 1) history disk)
    (distinct : Distinct files (count + 1)) (several : 0 < count) :
    Kept files (count + 1) history (FileHandler.rotate files count disk) := by
  obtain ⟨parts, shows_, keep⟩ := kept
  refine ⟨shifted parts, fun generation below => ?_, keep.shift⟩
  cases generation with
  | zero =>
      obtain ⟨older, rfl⟩ := Nat.exists_eq_succ_of_ne_zero (Nat.ne_of_gt several)
      rw [File.content, FileHandler.rotate_newest]
      rfl
  | succ generation =>
      have distinct' : ∀ i j, i ≤ count → j ≤ count → files i = files j → i = j :=
        fun i j first second => distinct i j (by omega) (by omega)
      rw [File.content, FileHandler.rotate_apply distinct' (by omega)]
      exact shows_ generation (by omega)

/-- The files are moved up, and the newest one is opened. -/
theorem Kept.reopen (kept : Kept files (count + 1) history disk)
    (distinct : Distinct files (count + 1)) (append : Bool) :
    Kept files (count + 1) history
      (FileHandler.openFile (FileHandler.rotate files count disk) (files 0) append) := by
  cases count with
  | zero => exact kept_single kept append
  | succ older =>
      refine (kept.rotate distinct (Nat.succ_pos older)).openFile distinct (.inr ?_)
      rw [File.content, FileHandler.rotate_newest]
      rfl

/-- A line is added to the newest file. -/
theorem Kept.addLine (kept : Kept files (count + 1) history disk)
    (distinct : Distinct files (count + 1)) (text : List UInt8)
    (newest : File.content disk' (files 0) = File.content disk (files 0) ++ text)
    (others : ∀ path, path ≠ files 0 → disk' path = disk path) :
    Kept files (count + 1) (history ++ [.line text]) disk' := by
  obtain ⟨parts, shows_, keep⟩ := kept
  refine ⟨renewed parts (parts 0 ++ [.line text]), fun generation below => ?_, keep.add _⟩
  by_cases isNewest : generation = 0
  · subst isNewest
    rw [newest, renewed, Function.update_self, List.flatMap_append, shows_ 0 below,
      List.flatMap_singleton]
    rfl
  · have ne : files generation ≠ files 0 := fun same =>
      isNewest (distinct generation 0 below (Nat.succ_pos count) same)
    rw [File.content, others _ ne, renewed, Function.update_of_ne isNewest]
    exact shows_ generation below

end Disk

/-! ## Runs -/

/-- What is done with the handler of the files.  A handler that is created takes the place of the
previous one. -/
inductive FileOp where
  | publish (record : LogRecord)
  | flush
  | close
  | setPriority (priority : BitVec 32)
  | create (limit : Int32) (append : Bool) (bufferSize : Int32)

section Runs

variable (time : BitVec 64 → List UInt8) (files : Nat → Path) (count : Int32)

/-- The state after an operation, without a limit of the data volume.  There is none if a null
pointer is used or the constructor throws. -/
def step (st : LogFiles) : FileOp → Option LogFiles
  | .publish record => st.publish time record
  | .flush => some st.flush
  | .close => some st.close
  | .setPriority priority =>
      some { st with handler := { st.handler with mPriority := priority } }
  | .create limit append bufferSize =>
      (new files { limit, count, append, bufferSize, dataVolumeLimit := 0 } st.disk
        st.dataVolume).toOption

/-- The lines of the records of sufficient priority that are published. -/
def publishedBy (st : LogFiles) : FileOp → List (List UInt8)
  | .publish record =>
      if record.mPriority.slt st.handler.mPriority then
        []
      else
        [line time record]
  | _ => []

/-- The lines that are published by a run. -/
def published : LogFiles → List FileOp → List (List UInt8)
  | _, [] => []
  | st, op :: ops =>
      publishedBy time st op ++
        match step time files count st op with
        | none => []
        | some next => published next ops

/-- What holds between the operations. -/
structure Running (history : List FileEntry) (st : LogFiles) : Prop where
  mFiles : st.handler.mFiles = files
  mCount : st.handler.mCount = count.toNatClampNeg
  mDataVolumeLimit : st.handler.mDataVolumeLimit = 0
  opened : st.handler.mWriter = none ∨ ∃ content, st.Opened content
  kept : Kept files count.toNatClampNeg history st.disk

end Runs

section Steps

variable {time : BitVec 64 → List UInt8} {files : Nat → Path} {count : Int32}
  {history : List FileEntry} {st st' : LogFiles}

theorem Running.dropped_eq (running : Running files count history st) (priority : BitVec 32)
    (logMessage : List UInt8) :
    st.dropped priority logMessage = priority.slt st.handler.mPriority := by
  rw [dropped, running.mDataVolumeLimit]
  exact Bool.or_false _

theorem Running.target (running : Running files count history st)
    (distinct : Distinct files count.toNatClampNeg) (positive : 0 < count.toNatClampNeg)
    (content logMessage : List UInt8) :
    Kept files count.toNatClampNeg history (st.target content logMessage).disk := by
  unfold LogFiles.target
  split
  · have kept := keeps_close st
    obtain ⟨older, isCount⟩ := Nat.exists_eq_succ_of_ne_zero (Nat.ne_of_gt positive)
    change Kept files count.toNatClampNeg history
      (FileHandler.openFile (FileHandler.rotate st.close.handler.mFiles
        (st.close.handler.mCount - 1) st.close.disk) (st.close.handler.mFiles 0)
        st.close.handler.mAppend)
    rw [kept.mFiles, kept.mCount, disk_close, running.mFiles, running.mCount]
    have files' := running.kept
    rw [isCount] at files' distinct ⊢
    exact files'.reopen distinct _
  · exact running.kept

theorem Running.publish {record : LogRecord} (running : Running files count history st)
    (distinct : Distinct files count.toNatClampNeg) (positive : 0 < count.toNatClampNeg)
    (published : st.publish time record = some st') :
    Running files count (history ++ (publishedBy time st (.publish record)).map .line) st' := by
  rw [publishedBy, ← running.dropped_eq record.mPriority (record.toString time)]
  cases drops : st.dropped record.mPriority (record.toString time) with
  | true =>
      rw [publish_dropped drops] at published
      cases published
      rw [if_pos rfl, List.map_nil, List.append_nil]
      exact running
  | false =>
      rw [if_neg Bool.false_ne_true, List.map_singleton]
      rcases running.opened with closed | ⟨content, opened⟩
      · rw [LogFiles.publish, if_neg (by rw [drops]; decide), closed] at published
        cases published
      · rcases publish_written opened drops with ⟨next, publishes, opened', kept, others⟩
        obtain rfl := Option.some.inj (published.symm.trans publishes)
        have target := running.target distinct positive content (record.toString time)
        have before := (target_opened opened (record.toString time)).file
        rw [(keeps_target st content _).mFiles, running.mFiles] at before
        have after := opened'.file
        rw [kept.mFiles, running.mFiles] at after
        refine ⟨kept.mFiles.trans running.mFiles, kept.mCount.trans running.mCount,
          kept.mDataVolumeLimit.trans running.mDataVolumeLimit, .inr ⟨_, opened'⟩, ?_⟩
        obtain ⟨older, isCount⟩ := Nat.exists_eq_succ_of_ne_zero (Nat.ne_of_gt positive)
        rw [isCount] at target distinct ⊢
        refine target.addLine distinct _ ?_ (fun path ne => others path (by rwa [running.mFiles]))
        rw [File.content, File.content, after, before, Option.getD_some, Option.getD_some, line,
          List.append_assoc]

/-- The number of files, if the constructor does not throw. -/
theorem count_new {disk : FileSystem} {dataVolume : Int32} {settings : Settings}
    (created : new files settings disk dataVolume = .ok st) :
    0 < settings.count.toNatClampNeg ∧
      (initProperties files settings).mCount = settings.count.toNatClampNeg := by
  have valid : ¬settings.count < 1 := fun less => settings_new created (.inr less)
  constructor
  · rw [Int32.lt_iff_toInt_lt] at valid
    change ¬_ < (1 : Int) at valid
    change 0 < settings.count.toInt.toNat
    omega
  · rw [initProperties]
    simp only [if_neg valid]

theorem running_new {disk : FileSystem} {dataVolume : Int32} {settings : Settings}
    (created : new files settings disk dataVolume = .ok st)
    (noVolume : settings.dataVolumeLimit = 0)
    (distinct : Distinct files settings.count.toNatClampNeg)
    (kept : Kept files settings.count.toNatClampNeg history disk) :
    Running files settings.count history st := by
  rcases new_eq_ok created with ⟨keeps, sameDisk, opened⟩
  obtain ⟨positive, sameCount⟩ := count_new created
  have handler : (starting files settings disk dataVolume).handler = _ := handler_starting
  refine ⟨?_, ?_, ?_, .inr ⟨_, opened⟩, ?_⟩
  · rw [keeps.mFiles, handler]
    rfl
  · rw [keeps.mCount, handler, sameCount]
  · rw [keeps.mDataVolumeLimit, handler, initProperties]
    simp only
    rw [noVolume]
    rfl
  · rw [sameDisk]
    change Kept _ _ _ (FileHandler.openFile (starting files settings disk dataVolume).disk
      ((starting files settings disk dataVolume).handler.mFiles 0)
      (starting files settings disk dataVolume).handler.mAppend)
    rw [handler]
    obtain ⟨older, isCount⟩ := Nat.exists_eq_succ_of_ne_zero (Nat.ne_of_gt positive)
    rw [isCount] at kept distinct sameCount ⊢
    unfold starting
    simp only
    split
    · change Kept _ _ _ (FileHandler.openFile (FileHandler.rotate files
        ((initProperties files settings).mCount - 1) disk) (files 0) settings.append)
      rw [sameCount]
      exact kept.reopen distinct settings.append
    · rename_i stays
      refine kept.openFile distinct ?_
      by_cases isEmpty : File.content disk (files 0) = []
      · exact .inr isEmpty
      · left
        by_contra truncates
        have absent : ¬File.exists disk (files 0) := fun present =>
          stays ⟨present, .inl truncates⟩
        rw [File.exists, Option.not_isSome_iff_eq_none] at absent
        rw [File.content, absent] at isEmpty
        exact isEmpty rfl

theorem Running.step {op : FileOp} (running : Running files count history st)
    (distinct : Distinct files count.toNatClampNeg) (positive : 0 < count.toNatClampNeg)
    (taken : step time files count st op = some st') :
    Running files count (history ++ (publishedBy time st op).map .line) st' := by
  cases op with
  | publish record => exact running.publish distinct positive taken
  | flush =>
      cases taken
      have kept := keeps_flush st
      change Running files count (history ++ []) _
      rw [List.append_nil]
      refine ⟨kept.mFiles.trans running.mFiles, kept.mCount.trans running.mCount,
        kept.mDataVolumeLimit.trans running.mDataVolumeLimit, ?_, ?_⟩
      · rw [mWriter_flush]
        rcases running.opened with closed | ⟨content, opened⟩
        · exact .inl closed
        · refine .inr ⟨content, ?_, ?_⟩
          · rw [mWriter_flush, kept.mFiles, opened.mWriter]
          · rw [disk_flush, kept.mFiles, opened.file]
      · rw [disk_flush]
        exact running.kept
  | close =>
      cases taken
      have kept := keeps_close st
      change Running files count (history ++ []) _
      rw [List.append_nil]
      refine ⟨kept.mFiles.trans running.mFiles, kept.mCount.trans running.mCount,
        kept.mDataVolumeLimit.trans running.mDataVolumeLimit, .inl rfl, ?_⟩
      rw [disk_close]
      exact running.kept
  | setPriority priority =>
      cases taken
      change Running files count (history ++ []) _
      rw [List.append_nil]
      refine ⟨running.mFiles, running.mCount, running.mDataVolumeLimit, ?_, running.kept⟩
      rcases running.opened with closed | ⟨content, opened⟩
      · exact .inl closed
      · exact .inr ⟨content, opened.mWriter, opened.file⟩
  | create limit append bufferSize =>
      change Running files count (history ++ []) _
      rw [List.append_nil]
      rw [LogFiles.step] at taken
      cases created : new files { limit, count, append, bufferSize, dataVolumeLimit := 0 }
          st.disk st.dataVolume with
      | error message =>
          rw [created] at taken
          cases taken
      | ok next =>
          rw [created] at taken
          cases taken
          exact running_new created rfl distinct running.kept

/-- A run adds the lines that it publishes to the history. -/
theorem Running.run {ops : List FileOp} (running : Running files count history st)
    (distinct : Distinct files count.toNatClampNeg) (positive : 0 < count.toNatClampNeg)
    (runs : runAll (LogFiles.step time files count) st ops = some st') :
    Running files count (history ++ (published time files count st ops).map .line) st' := by
  induction ops generalizing st history with
  | nil =>
      cases runs
      rw [published, List.map_nil, List.append_nil]
      exact running
  | cons op ops ih =>
      rw [runAll] at runs
      cases taken : LogFiles.step time files count st op with
      | none =>
          rw [taken] at runs
          cases runs
      | some next =>
          rw [taken] at runs
          have later := ih (running.step distinct positive taken) runs
          rw [List.append_assoc, ← List.map_append] at later
          rw [published, taken]
          exact later

/-- After every run, the files from the oldest to the newest one have the end of what they had at
first, followed by all lines that were published, and every file consists of whole lines apart from
what it had at first. -/
theorem history_kept (time : BitVec 64 → List UInt8) {settings : Settings} {disk : FileSystem}
    {dataVolume : Int32} {start : LogFiles}
    (distinct : Distinct files settings.count.toNatClampNeg)
    (noVolume : settings.dataVolumeLimit = 0)
    (created : new files settings disk dataVolume = .ok start) (ops : List FileOp)
    (runs : runAll (LogFiles.step time files settings.count) start ops = some st) :
    contents files settings.count.toNatClampNeg st.disk <:+
        contents files settings.count.toNatClampNeg disk ++
          (published time files settings.count start ops).flatten ∧
      ∃ parts, Shows files settings.count.toNatClampNeg st.disk parts ∧
        joined parts settings.count.toNatClampNeg <:+
          (contents files settings.count.toNatClampNeg disk).map .before ++
            (published time files settings.count start ops).map .line := by
  have running := (running_new created noVolume distinct (kept_start files _ disk)).run distinct
    (count_new created).1 runs
  refine ⟨?_, running.kept⟩
  have suffix := running.kept.contents
  rw [List.flatMap_append, List.flatMap_map, List.flatMap_map] at suffix
  have before (content : List UInt8) :
      content.flatMap (fun byte => (FileEntry.before byte).bytes) = content :=
    List.flatMap_singleton' content
  have lines (texts : List (List UInt8)) :
      texts.flatMap (fun text => (FileEntry.line text).bytes) = texts.flatten :=
    List.flatMap_id
  rw [before, lines] at suffix
  exact suffix

end Steps

/-- Two files that are appended to. -/
def twoFiles : Settings where
  limit := 50
  count := 2
  append := true
  bufferSize := 0
  dataVolumeLimit := 0

theorem history_kept_twoFiles :
    ∃ start st : LogFiles,
      new (fun generation => [UInt8.ofNat generation]) twoFiles (fun _ => none) 0 = .ok start ∧
        runAll (step epoch (fun generation => [UInt8.ofNat generation]) 2) start
          [.publish shortRecord, .publish shortRecord] = some st ∧
        contents (fun generation => [UInt8.ofNat generation]) 2 st.disk <:+
          [] ++ [line epoch shortRecord, line epoch shortRecord].flatten := by
  have distinct : Distinct (fun generation => [UInt8.ofNat generation])
      twoFiles.count.toNatClampNeg := by
    intro i j first second same
    change i < 2 at first
    change j < 2 at second
    have isFirst : i = 0 ∨ i = 1 := by omega
    have isSecond : j = 0 ∨ j = 1 := by omega
    rcases isFirst with rfl | rfl
    · rcases isSecond with rfl | rfl
      · rfl
      · exact absurd same (by decide)
    · rcases isSecond with rfl | rfl
      · exact absurd same (by decide)
      · rfl
  have kept := @history_kept _ _ epoch twoFiles (fun _ => none) 0 _ distinct rfl rfl
    [.publish shortRecord, .publish shortRecord] rfl
  exact ⟨_, _, rfl, rfl, kept.1⟩

end LogFiles

end Mindroid
