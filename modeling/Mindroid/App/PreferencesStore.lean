import Mathlib.Logic.Function.Basic
import Mindroid.Foundation.CrashPrograms

/-!
# Storing shared preferences

`storeSharedPrefs` keeps the old file as a backup until the new one is written, and
`loadSharedPrefs` goes back to a backup that is still there.  Either may crash at any time.  What
is kept then is what was stored or loaded last, or what was about to be stored.
-/

set_option autoImplicit false

namespace Mindroid

open Foundation

namespace SharedPreferencesImpl

variable {C : Type}

/-! ## The disk -/

/-- What is in a file: a whole document, or something that the XML parser rejects. -/
inductive Stored (C : Type) where
  | whole (map : C)
  | partly

inductive FileName where
  | mFile
  | mBackupFile
  deriving DecidableEq

/-- The files that exist. -/
abbrev Disk (C : Type) : Type :=
  FileName → Option (Stored C)

/-- The operations on files and on their directory. -/
inductive FileOp (C : Type) where
  | exists (name : FileName)
  | canRead (name : FileName)
  | remove (name : FileName)
  | renameTo (name newName : FileName)
  | saveFile (name : FileName) (map : C)
  | loadFile (name : FileName)
  | fsync (name : FileName)
  | fsyncParent

/-- `loadFile` returns a map or `nullptr`, every other operation whether it succeeded. -/
def Response : FileOp C → Type
  | .loadFile _ => Option C
  | _ => Bool

/-- The map that is read of a file. -/
def readStored : Option (Stored C) → Option C
  | some (.whole map) => some map
  | _ => none

/-- What can be in a file after it was written, successfully or not.  `SaveFile` does not truncate
the file, so that only a new one is a whole document. -/
def Saved (disk : Disk C) (name : FileName) (map : C) : Bool → Option (Stored C) → Prop
  | true, stored => stored = some (if (disk name).isNone then .whole map else .partly)
  | false, stored =>
      stored = disk name ∨ stored = some .partly ∨
        (disk name).isNone ∧ stored = some (.whole map)

/-- What the operations do.  Files that exist can be read, removed and renamed, and only the
writing of a file is not atomic. -/
def fileSystem : Effects (Disk C) (FileOp C) Response where
  effect := fun op disk response disk' =>
    match op, response with
    | .exists name, success => success = (disk name).isSome ∧ disk' = disk
    | .canRead name, success => success = (disk name).isSome ∧ disk' = disk
    | .remove name, success =>
        success = (disk name).isSome ∧ disk' = Function.update disk name none
    | .renameTo name newName, success =>
        success = (disk name).isSome ∧
          disk' = if (disk name).isSome then
            Function.update (Function.update disk newName (disk name)) name none
          else
            disk
    | .saveFile name map, success =>
        ∃ stored, Saved disk name map success stored ∧ disk' = Function.update disk name stored
    | .loadFile name, map => map = readStored (disk name) ∧ disk' = disk
    | .fsync _, _ => disk' = disk
    | .fsyncParent, _ => disk' = disk
  torn := fun op disk disk' =>
    match op with
    | .saveFile name _ => disk' = Function.update disk name (some .partly)
    | _ => False

/-! ## The two programs -/

abbrev FileProgram (C α : Type) : Type :=
  Program (FileOp C) Response α

def fileExists (name : FileName) : FileProgram C Bool :=
  Program.call (FileOp.exists name)

def canRead (name : FileName) : FileProgram C Bool :=
  Program.call (FileOp.canRead name)

def remove (name : FileName) : FileProgram C Bool :=
  Program.call (FileOp.remove name)

def renameTo (name newName : FileName) : FileProgram C Bool :=
  Program.call (FileOp.renameTo name newName)

def saveFile (name : FileName) (map : C) : FileProgram C Bool :=
  Program.call (FileOp.saveFile name map)

def loadFile (name : FileName) : FileProgram C (Option C) :=
  Program.call (FileOp.loadFile name)

def fsync (name : FileName) : FileProgram C Bool :=
  Program.call (FileOp.fsync name)

def fsyncParent : FileProgram C Bool :=
  Program.call FileOp.fsyncParent

/-- The end of `loadSharedPrefs`.  None is the empty map. -/
def readSharedPrefs : FileProgram C (Option C) := do
  if ← canRead .mFile then
    loadFile .mFile
  else
    pure none

/-- Only the constructor calls `loadSharedPrefs`, with `mMap` still `nullptr`. -/
def loadSharedPrefs : FileProgram C (Option C) := do
  if ← fileExists .mBackupFile then
    let _ ← remove .mFile
    let _ ← renameTo .mBackupFile .mFile
    readSharedPrefs
  else
    readSharedPrefs

/-- The end of `storeSharedPrefs`, after the file was moved away. -/
def writeSharedPrefs (map : C) : FileProgram C Bool := do
  if ← saveFile .mFile map then
    let _ ← fsync .mFile
    if ← fileExists .mBackupFile then
      let _ ← remove .mBackupFile
      let _ ← fsyncParent
      pure true
    else
      let _ ← fsyncParent
      pure true
  else
    if ← fileExists .mFile then
      let _ ← remove .mFile
      let _ ← fsyncParent
      pure false
    else
      let _ ← fsyncParent
      pure false

def storeSharedPrefs (map : C) : FileProgram C Bool := do
  if ← fileExists .mFile then
    if ← fileExists .mBackupFile then
      let _ ← remove .mFile
      writeSharedPrefs map
    else
      if ← renameTo .mFile .mBackupFile then
        writeSharedPrefs map
      else
        pure false
  else
    writeSharedPrefs map

/-! ## What is recovered -/

/-- What `loadSharedPrefs` would read. -/
def recover (disk : Disk C) : Option C :=
  if (disk .mBackupFile).isSome then readStored (disk .mBackupFile) else readStored (disk .mFile)

@[simp] theorem recover_backup {disk : Disk C} (there : (disk .mBackupFile).isSome) :
    recover disk = readStored (disk .mBackupFile) :=
  if_pos there

@[simp] theorem recover_file {disk : Disk C} (absent : disk .mBackupFile = none) :
    recover disk = readStored (disk .mFile) := by
  simp [recover, absent]

theorem recover_remove_file {disk : Disk C} (there : (disk .mBackupFile).isSome) :
    recover (Function.update disk .mFile none) = recover disk := by
  have kept : (Function.update disk .mFile none) .mBackupFile = disk .mBackupFile :=
    Function.update_of_ne (by decide) _ _
  rw [recover_backup there, recover_backup (by rw [kept]; exact there), kept]

theorem recover_remove_backup (disk : Disk C) :
    recover (Function.update disk .mBackupFile none) = readStored (disk .mFile) := by
  rw [recover_file (Function.update_self _ _ _), Function.update_of_ne (by decide)]

theorem recover_rename_file {disk : Disk C} (there : (disk .mFile).isSome) :
    recover (Function.update (Function.update disk .mBackupFile (disk .mFile)) .mFile none) =
      readStored (disk .mFile) := by
  rw [recover_remove_file (by simpa using there), recover_backup (by simpa using there),
    Function.update_self]

/-- Whatever gets into a new file, what was kept before can be recovered, or all of the new map. -/
theorem recover_write_file (disk : Disk C) (stored : Option (Stored C)) {kept : Option C} {map : C}
    (same : disk .mFile = none ∧ recover disk = kept)
    (what : stored = none ∨ stored = some .partly ∨ stored = some (.whole map)) :
    recover (Function.update disk .mFile stored) = kept ∨
      recover (Function.update disk .mFile stored) = some map := by
  have backup : (Function.update disk .mFile stored) .mBackupFile = disk .mBackupFile :=
    Function.update_of_ne (by decide) _ _
  cases there : disk .mBackupFile with
  | some old =>
      left
      rw [← same.2, recover_backup (by rw [backup, there]; rfl), backup,
        recover_backup (by rw [there]; rfl)]
  | none =>
      have nothing : kept = none := by rw [← same.2, recover_file there, same.1]; rfl
      rw [recover_file (by rw [backup, there]), Function.update_self, nothing]
      rcases what with rfl | rfl | rfl
      · exact .inl rfl
      · exact .inl rfl
      · exact .inr rfl

/-! ## Specifications of the operations -/

section Operations

variable {holds crash : Disk C → Prop} {name newName : FileName}

theorem fileExists_spec (safe : ∀ disk, holds disk → crash disk) :
    Program.Spec fileSystem holds (fileExists name)
      (fun found disk => holds disk ∧ found = (disk name).isSome) crash :=
  Program.Spec.observe (fun _ _ _ start does => ⟨does.2, start, does.1⟩) (fun _ _ => id) safe

theorem canRead_spec (safe : ∀ disk, holds disk → crash disk) :
    Program.Spec fileSystem holds (canRead name)
      (fun found disk => holds disk ∧ found = (disk name).isSome) crash :=
  Program.Spec.observe (fun _ _ _ start does => ⟨does.2, start, does.1⟩) (fun _ _ => id) safe

theorem loadFile_spec (safe : ∀ disk, holds disk → crash disk) :
    Program.Spec fileSystem holds (loadFile name)
      (fun map disk => holds disk ∧ map = readStored (disk name)) crash :=
  Program.Spec.observe (fun _ _ _ start does => ⟨does.2, start, does.1⟩) (fun _ _ => id) safe

theorem fsync_spec (safe : ∀ disk, holds disk → crash disk) :
    Program.Spec fileSystem holds (fsync name) (fun _ => holds) crash :=
  Program.Spec.observe (fun _ _ _ start does => ⟨does, start⟩) (fun _ _ => id) safe

theorem fsyncParent_spec (safe : ∀ disk, holds disk → crash disk) :
    Program.Spec fileSystem holds fsyncParent (fun _ => holds) crash :=
  Program.Spec.observe (fun _ _ _ start does => ⟨does, start⟩) (fun _ _ => id) safe

variable (after : Disk C → Prop)

theorem remove_spec (safe : ∀ disk, holds disk → crash disk)
    (removed : ∀ disk, holds disk → after (Function.update disk name none))
    (safeAfter : ∀ disk, after disk → crash disk) :
    Program.Spec fileSystem holds (remove name) (fun _ => after) crash := by
  refine Program.Spec.call ?_ (fun _ _ _ torn => torn.elim) safe
  rintro disk _ _ start ⟨rfl, rfl⟩
  exact ⟨removed disk start, safeAfter _ (removed disk start)⟩

/-- A file that exists is renamed. -/
theorem renameTo_spec (safe : ∀ disk, holds disk → crash disk)
    (there : ∀ disk, holds disk → (disk name).isSome)
    (renamed : ∀ disk, holds disk →
      after (Function.update (Function.update disk newName (disk name)) name none))
    (safeAfter : ∀ disk, after disk → crash disk) :
    Program.Spec fileSystem holds (renameTo name newName)
      (fun success disk => success = true ∧ after disk) crash := by
  refine Program.Spec.call ?_ (fun _ _ _ torn => torn.elim) safe
  rintro disk _ _ start ⟨rfl, rfl⟩
  rw [if_pos (there disk start)]
  exact ⟨⟨there disk start, renamed disk start⟩, safeAfter _ (renamed disk start)⟩

/-- A file that does not exist is written. -/
theorem saveFile_spec (failed : Disk C → Prop) {map : C}
    (safe : ∀ disk, holds disk → crash disk)
    (absent : ∀ disk, holds disk → disk name = none)
    (written : ∀ disk, holds disk → after (Function.update disk name (some (.whole map))))
    (notWritten : ∀ disk stored, holds disk →
      stored = none ∨ stored = some .partly ∨ stored = some (.whole map) →
        failed (Function.update disk name stored))
    (safeAfter : ∀ disk, after disk → crash disk)
    (safeFailed : ∀ disk, failed disk → crash disk) :
    Program.Spec fileSystem holds (saveFile name map)
      (fun success disk => if success then after disk else failed disk) crash := by
  refine Program.Spec.call ?_ ?_ safe
  · rintro disk success _ start ⟨stored, saved, rfl⟩
    have new := absent disk start
    cases success with
    | true =>
        simp only [Saved, new, Option.isNone_none, if_true] at saved
        subst saved
        exact ⟨written disk start, safeAfter _ (written disk start)⟩
    | false =>
        simp only [Saved, new, Option.isNone_none, true_and] at saved
        have failure := notWritten disk stored start saved
        exact ⟨failure, safeFailed _ failure⟩
  · rintro disk _ start rfl
    exact safeFailed _ (notWritten disk _ start (.inr (.inl rfl)))

end Operations

/-! ## Specifications of the programs -/

section Programs

variable (kept : Option C)

/-- What is kept is read from the file when there is no backup. -/
theorem readSharedPrefs_spec :
    Program.Spec fileSystem (fun disk => disk .mBackupFile = none ∧ recover disk = kept)
      readSharedPrefs (fun map disk => map = kept ∧ recover disk = kept)
      (fun disk => recover disk = kept) := by
  refine (canRead_spec fun _ start => start.2).bind fun found => .branch ?_ ?_
  · intro there
    refine ((loadFile_spec fun _ start => start.2).bind fun map =>
      Program.Spec.pure ?_ fun _ start => start.1.2).weaken fun _ start => start.1
    rintro disk ⟨⟨absent, same⟩, rfl⟩
    exact ⟨by rw [← same, recover_file absent], same⟩
  · rintro notThere
    refine Program.Spec.pure ?_ fun _ start => start.1.2
    rintro disk ⟨⟨absent, same⟩, found⟩
    have missing : disk .mFile = none := by simpa [notThere] using found
    exact ⟨by rw [← same, recover_file absent, missing]; rfl, same⟩

/-- What is kept is read, and still kept after a crash. -/
theorem loadSharedPrefs_spec :
    Program.Spec fileSystem (fun disk => recover disk = kept) loadSharedPrefs
      (fun map disk => map = kept ∧ recover disk = kept) (fun disk => recover disk = kept) := by
  refine (fileExists_spec fun _ start => start).bind fun found => .branch ?_ ?_
  · rintro rfl
    refine (remove_spec (fun disk => (disk .mBackupFile).isSome ∧ recover disk = kept)
      ?_ ?_ ?_).bind fun _ => ?_
    · exact fun _ start => start.1
    · rintro disk ⟨same, there⟩
      exact ⟨by simpa using there.symm, by rw [recover_remove_file there.symm, same]⟩
    · exact fun _ start => start.2
    refine (renameTo_spec (fun disk => disk .mBackupFile = none ∧ recover disk = kept)
      ?_ ?_ ?_ ?_).bind fun _ => (readSharedPrefs_spec kept).weaken fun _ start => start.2
    · exact fun _ start => start.2
    · exact fun _ start => start.1
    · rintro disk ⟨there, same⟩
      refine ⟨Function.update_self _ _ _, ?_⟩
      rw [recover_remove_backup, Function.update_self, ← same, recover_backup there]
    · exact fun _ start => start.2
  · rintro rfl
    refine (readSharedPrefs_spec kept).weaken ?_
    rintro disk ⟨same, absent⟩
    exact ⟨by simpa using absent.symm, same⟩

variable (map : C)

/-- The new map is kept when it is written, and what was kept before when it is not. -/
theorem writeSharedPrefs_spec :
    Program.Spec fileSystem (fun disk => disk .mFile = none ∧ recover disk = kept)
      (writeSharedPrefs map) (fun success disk => recover disk = if success then some map else kept)
      (fun disk => recover disk = kept ∨ recover disk = some map) := by
  refine (saveFile_spec
    (fun disk => disk .mFile = some (.whole map) ∧
      (recover disk = kept ∨ recover disk = some map))
    (fun disk => recover (Function.update disk .mFile none) = kept ∧
      (recover disk = kept ∨ recover disk = some map))
    ?_ ?_ ?_ ?_ ?_ ?_).bind fun success => .branch ?_ ?_
  · exact fun _ start => .inl start.2
  · exact fun _ start => start.1
  · intro disk start
    exact ⟨Function.update_self _ _ _, recover_write_file disk _ start (.inr (.inr rfl))⟩
  · intro disk stored start what
    refine ⟨?_, recover_write_file disk stored start what⟩
    rw [Function.update_idem, ← start.1, Function.update_eq_self, start.2]
  · exact fun _ start => start.2
  · exact fun _ start => start.2
  · rintro rfl
    refine (fsync_spec fun _ start => start.2).bind fun _ =>
      (fileExists_spec fun _ start => start.2).bind fun found => .branch ?_ ?_
    · rintro rfl
      refine (remove_spec (fun disk => recover disk = some map) ?_ ?_ ?_).bind fun _ =>
        (fsyncParent_spec fun _ done => .inr done).bind fun _ =>
          .pure (fun _ done => done) fun _ done => .inr done
      · exact fun _ start => start.1.2
      · rintro disk ⟨⟨written, _⟩, _⟩
        rw [recover_remove_backup, written]
        rfl
      · exact fun _ done => .inr done
    · rintro rfl
      refine (fsyncParent_spec fun _ start => start.1.2).bind fun _ =>
        .pure ?_ fun _ start => start.1.2
      rintro disk ⟨⟨written, _⟩, absent⟩
      rw [recover_file (by simpa using absent.symm), written]
      rfl
  · rintro rfl
    refine (fileExists_spec fun _ start => start.2).bind fun found => .branch ?_ ?_
    · rintro rfl
      refine (remove_spec (fun disk => recover disk = kept) ?_ ?_ ?_).bind fun _ =>
        (fsyncParent_spec fun _ done => .inl done).bind fun _ =>
          .pure (fun _ done => done) fun _ done => .inl done
      · exact fun _ start => start.1.2
      · exact fun _ start => start.1.1
      · exact fun _ done => .inl done
    · rintro rfl
      refine (fsyncParent_spec fun _ start => start.1.2).bind fun _ =>
        .pure ?_ fun _ start => start.1.2
      rintro disk ⟨⟨same, _⟩, absent⟩
      have missing : disk .mFile = none := by simpa using absent.symm
      rwa [← missing, Function.update_eq_self] at same

/-- A file is moved away before it is written. -/
theorem storeSharedPrefs_spec :
    Program.Spec fileSystem (fun disk => recover disk = kept) (storeSharedPrefs map)
      (fun success disk => recover disk = if success then some map else kept)
      (fun disk => recover disk = kept ∨ recover disk = some map) := by
  refine (fileExists_spec fun _ start => .inl start).bind fun found => .branch ?_ ?_
  · rintro rfl
    refine (fileExists_spec fun _ start => .inl start.1).bind fun found => .branch ?_ ?_
    · rintro rfl
      refine (remove_spec _ ?_ ?_ ?_).bind fun _ => writeSharedPrefs_spec kept map
      · exact fun _ start => .inl start.1.1
      · rintro disk ⟨⟨same, _⟩, there⟩
        exact ⟨Function.update_self _ _ _, by rw [recover_remove_file there.symm, same]⟩
      · exact fun _ start => .inl start.2
    · rintro rfl
      refine (renameTo_spec (fun disk => disk .mFile = none ∧ recover disk = kept)
        ?_ ?_ ?_ ?_).bind fun renamed => .branch ?_ ?_
      · exact fun _ start => .inl start.1.1
      · exact fun _ start => start.1.2.symm
      · rintro disk ⟨⟨same, there⟩, absent⟩
        refine ⟨Function.update_self _ _ _, ?_⟩
        rw [recover_rename_file there.symm, ← same, recover_file (by simpa using absent.symm)]
      · exact fun _ start => .inl start.2
      · exact fun _ => (writeSharedPrefs_spec kept map).weaken fun _ start => start.2
      · rintro rfl
        exact .pure (fun _ start => absurd start.1 (by decide)) fun _ start => .inl start.2.2
  · rintro rfl
    refine (writeSharedPrefs_spec kept map).weaken ?_
    rintro disk ⟨same, absent⟩
    exact ⟨by simpa using absent.symm, same⟩

end Programs

/-! ## Runs -/

/-- What happens to the preferences.  A load ends with a map, a store of a map succeeds or fails,
and both may crash. -/
inductive Event (C : Type) where
  | load (map : Option C)
  | loadCrash
  | store (map : C) (success : Bool)
  | storeCrash (map : C)

/-- What has happened, the latest first, whether the preferences are loaded since the last crash,
and the disk. -/
inductive Run : List (Event C) → Bool → Disk C → Prop where
  | start : Run [] false fun _ => none
  | load {history : List (Event C)} {loaded : Bool} {disk disk' : Disk C} {map : Option C}
      (run : Run history loaded disk)
      (ends : Program.Ends fileSystem loadSharedPrefs disk map disk') :
      Run (.load map :: history) true disk'
  | loadCrash {history : List (Event C)} {loaded : Bool} {disk disk' : Disk C}
      (run : Run history loaded disk)
      (crashes : Program.Crashes fileSystem loadSharedPrefs disk disk') :
      Run (.loadCrash :: history) false disk'
  | store {history : List (Event C)} {disk disk' : Disk C} {map : C} {success : Bool}
      (run : Run history true disk)
      (ends : Program.Ends fileSystem (storeSharedPrefs map) disk success disk') :
      Run (.store map success :: history) true disk'
  | storeCrash {history : List (Event C)} {disk disk' : Disk C} {map : C}
      (run : Run history true disk)
      (crashes : Program.Crashes fileSystem (storeSharedPrefs map) disk disk') :
      Run (.storeCrash map :: history) false disk'

/-- The map of the last store that succeeded. -/
def lastStored : List (Event C) → Option C
  | [] => none
  | .store map true :: _ => some map
  | _ :: history => lastStored history

/-- The map of the last store that succeeded, or what was loaded since. -/
def kept : List (Event C) → Option C
  | [] => none
  | .load map :: _ => map
  | .store map true :: _ => some map
  | _ :: history => kept history

/-- The map of the store that crashed, when nothing but crashes of loads has happened since. -/
def inFlight : List (Event C) → Option C
  | .storeCrash map :: _ => some map
  | .loadCrash :: history => inFlight history
  | _ => none

/-- The maps of the stores that crashed since the last one that succeeded. -/
def crashed : List (Event C) → List C
  | [] => []
  | .store _ true :: _ => []
  | .storeCrash map :: history => map :: crashed history
  | _ :: history => crashed history

/-- What can be recovered is kept, or was in flight when the store crashed. -/
def Recovers (history : List (Event C)) (loaded : Bool) (disk : Disk C) : Prop :=
  recover disk = kept history ∨
    loaded = false ∧ ∃ map, inFlight history = some map ∧ recover disk = some map

theorem Run.recovers {history : List (Event C)} {loaded : Bool} {disk : Disk C}
    (run : Run history loaded disk) : Recovers history loaded disk := by
  induction run with
  | start => exact .inl rfl
  | load _ ends _ => exact .inl ((loadSharedPrefs_spec _).ends _ _ _ rfl ends |>.elim
      fun read same => same.trans read.symm)
  | loadCrash _ crashes ih =>
      have same := (loadSharedPrefs_spec _).crashes _ _ rfl crashes
      cases ih with
      | inl before => exact .inl (same.trans before)
      | inr before =>
          rcases before with ⟨_, map, flying, before⟩
          exact .inr ⟨rfl, map, flying, same.trans before⟩
  | @store history disk disk' map success _ ends ih =>
      have before : recover disk = kept history := ih.resolve_right (by simp)
      have after := (storeSharedPrefs_spec _ _).ends _ _ _ before ends
      cases success with
      | true => exact .inl after
      | false => exact .inl after
  | @storeCrash history disk disk' map _ crashes ih =>
      have before : recover disk = kept history := ih.resolve_right (by simp)
      cases (storeSharedPrefs_spec _ _).crashes _ _ before crashes with
      | inl same => exact .inl same
      | inr new => exact .inr ⟨rfl, map, rfl, new⟩

/-- A load reads what is kept, or what was in flight. -/
theorem Run.loaded {history : List (Event C)} {map : Option C} {loaded : Bool} {disk : Disk C}
    (run : Run (.load map :: history) loaded disk) :
    map = kept history ∨ ∃ new, inFlight history = some new ∧ map = some new := by
  cases run with
  | load run ends =>
      have read := ((loadSharedPrefs_spec _).ends _ _ _ rfl ends).1
      cases run.recovers with
      | inl same => exact .inl (read.trans same)
      | inr flying =>
          rcases flying with ⟨_, new, flying, new_eq⟩
          exact .inr ⟨new, flying, read.trans new_eq⟩

theorem inFlight_crashed {history : List (Event C)} {map : C}
    (flying : inFlight history = some map) : map ∈ crashed history := by
  induction history with
  | nil => simp [inFlight] at flying
  | cons event history ih =>
      cases event with
      | load _ => simp [inFlight] at flying
      | loadCrash => exact ih flying
      | store _ _ => simp [inFlight] at flying
      | storeCrash new =>
          obtain rfl : new = map := by simpa [inFlight] using flying
          exact List.mem_cons_self

/-- What is kept was stored last, or was being stored when a later store crashed. -/
theorem Run.kept_stored {history : List (Event C)} {loaded : Bool} {disk : Disk C}
    (run : Run history loaded disk) :
    kept history = lastStored history ∨ ∃ map ∈ crashed history, kept history = some map := by
  induction run with
  | start => exact .inl rfl
  | load run ends ih =>
      cases (Run.load run ends).loaded with
      | inl same =>
          simpa only [kept, lastStored, crashed, same] using ih
      | inr new =>
          rcases new with ⟨map, flying, rfl⟩
          have member := inFlight_crashed flying
          exact .inr ⟨map, member, rfl⟩
  | loadCrash _ _ ih => exact ih
  | @store _ _ _ _ success _ _ ih =>
      cases success with
      | true => exact .inl rfl
      | false => exact ih
  | storeCrash _ _ ih => exact ih.imp_right fun ⟨map, member, same⟩ =>
      ⟨map, List.mem_cons_of_mem _ member, same⟩

/-- Nothing is kept only when nothing was ever stored. -/
theorem Run.kept_none {history : List (Event C)} {loaded : Bool} {disk : Disk C}
    (run : Run history loaded disk) (nothing : kept history = none) :
    lastStored history = none := by
  cases run.kept_stored with
  | inl same => exact same.symm.trans nothing
  | inr crashed =>
      rcases crashed with ⟨map, _, same⟩
      exact absurd (nothing.symm.trans same) (by simp)

/-- Whatever crashed before, `loadSharedPrefs` reads what is kept or all that was in flight.  It
reads nothing only when no store ever succeeded. -/
theorem loadSharedPrefs_reads {history : List (Event C)} {map : Option C} {loaded : Bool}
    {disk : Disk C} (run : Run (.load map :: history) loaded disk) :
    (map = kept history ∨ ∃ new, inFlight history = some new ∧ map = some new) ∧
      (map = lastStored history ∨ ∃ new ∈ crashed history, map = some new) ∧
      (map = none → lastStored history = none) :=
  ⟨run.loaded, run.kept_stored, run.kept_none⟩

/-! ## Two crashes -/

/-- Every operation succeeds. -/
def succeed : (op : FileOp C) → Disk C → Response op × Disk C
  | .exists name, disk => ((disk name).isSome, disk)
  | .canRead name, disk => ((disk name).isSome, disk)
  | .remove name, disk => ((disk name).isSome, Function.update disk name none)
  | .renameTo name newName, disk =>
      ((disk name).isSome, if (disk name).isSome then
        Function.update (Function.update disk newName (disk name)) name none else disk)
  | .saveFile name map, disk =>
      (true, Function.update disk name
        (some (if (disk name).isNone then .whole map else .partly)))
  | .loadFile name, disk => (readStored (disk name), disk)
  | .fsync _, disk => (true, disk)
  | .fsyncParent, disk => (true, disk)

theorem succeed_effect (op : FileOp C) (disk : Disk C) :
    fileSystem.effect op disk (succeed op disk).1 (succeed op disk).2 := by
  cases op with
  | saveFile name map => exact ⟨_, rfl, rfl⟩
  | fsync _ => rfl
  | fsyncParent => rfl
  | _ => exact ⟨rfl, rfl⟩

/-- A store crashes right before its end, and after a restart the next one when it has moved the
file away.  What is left is neither from the last store that succeeded nor from the last one. -/
theorem run_two_crashes : ∃ disk, Run (C := Nat) [.load (some 2), .storeCrash 3, .load (some 2),
    .storeCrash 2, .store 1 true, .load none] true disk :=
  ⟨_, .load (.storeCrash (.load (.storeCrash (.store (.load .start
    (Program.ends_run succeed_effect _ _))
    (Program.ends_run succeed_effect _ _))
    (Program.crashes_runFor succeed_effect 7 _ _))
    (Program.ends_run succeed_effect _ _))
    (Program.crashes_runFor succeed_effect 3 _ _))
    (Program.ends_run succeed_effect _ _)⟩

/-- After the second crash the last map that was stored is not read, and not the one that was in
flight either. -/
theorem second_crash_reads_neither : ¬ ∀ (history : List (Event Nat)) (map : Option Nat)
    (loaded : Bool) (disk : Disk Nat), Run (.load map :: history) loaded disk →
      map = lastStored history ∨ ∃ new, inFlight history = some new ∧ map = some new := by
  intro claim
  rcases run_two_crashes with ⟨disk, run⟩
  have reads := claim _ _ _ _ run
  simp [lastStored, inFlight] at reads

/-- What the load before the second crash had read is read again. -/
theorem loadSharedPrefs_reads_instance :
    ∃ history : List (Event Nat), lastStored history = some 1 ∧ inFlight history = some 3 ∧
      (some 2 = kept history ∨ ∃ new, inFlight history = some new ∧ some 2 = some new) ∧
      (some 2 = lastStored history ∨ ∃ new ∈ crashed history, some 2 = some new) := by
  rcases run_two_crashes with ⟨disk, run⟩
  have reads := loadSharedPrefs_reads run
  exact ⟨_, rfl, rfl, reads.1, reads.2.1⟩

end SharedPreferencesImpl

end Mindroid
