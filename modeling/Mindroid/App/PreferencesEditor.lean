import Mindroid.App.PreferencesFile
import Mindroid.App.PreferencesStore
import Mindroid.Foundation.Transition

/-!
# Commits of shared preferences

`commit` changes the map in memory, and stores it if there was a change.  The file system may fail
at every operation of a store, and a commit that is repeated because its store has failed finds
its changes in memory already.
-/

set_option autoImplicit false

namespace Mindroid

open Foundation

namespace SharedPreferencesImpl

/-! ## The editor -/

/-- What an editor has collected.  A null value is the one of a key to be removed. -/
structure Editor where
  mModifications : Preferences
  mClearMap : Bool

/-- A number of the type `float` that is not a number. -/
def isNaN (bits : UInt32) : Bool :=
  0x7f800000 < bits &&& 0x7fffffff

/-- `==` of numbers of the type `float`. -/
def equalFloats (bits other : UInt32) : Bool :=
  !isNaN bits && !isNaN other &&
    (bits == other || bits &&& 0x7fffffff == 0 && other &&& 0x7fffffff == 0)

/-- `Variant::equals` of two preferences. -/
def equalValues : Variant → Variant → Bool
  | .float bits, .float other => equalFloats bits other
  | value, other => equalVariants value other

/-- One iteration of the loop in `commit`, with the map and with what `modifications` is. -/
def modifyEntry (state : Preferences × Bool) (entry : String.Text × Option Variant) :
    Preferences × Bool :=
  match entry.2 with
  | none | some .null =>
      if state.1.containsKey (some entry.1) then (state.1.erase entry.1, true) else state
  | some value =>
      match state.1.find entry.1 with
      | some (some existingValue) =>
          if equalValues existingValue value then state
          else ((state.1.putObject entry.1 (some value)).1, true)
      | _ => ((state.1.putObject entry.1 (some value)).1, true)

/-- The first half of `commit`: the changes to the map in memory, and whether there are any. -/
def Editor.modify (editor : Editor) (map : Preferences) : Preferences × Bool :=
  let cleared := if editor.mClearMap && !map.isEmpty then (map.clear, true) else (map, false)
  editor.mModifications.entries.foldl modifyEntry cleared

/-- The modification of a key is one of the map. -/
def changesEntry (map : Preferences) (entry : String.Text × Option Variant) : Bool :=
  match entry.2 with
  | none | some .null => map.containsKey (some entry.1)
  | some value =>
      match map.find entry.1 with
      | some (some existingValue) => !equalValues existingValue value
      | _ => true

/-- There is something to be cleared, or a key is removed or gets another value. -/
def Editor.Changes (editor : Editor) (map : Preferences) : Prop :=
  (editor.mClearMap = true ∧ map.isEmpty = false) ∨
    ∃ entry ∈ editor.mModifications.entries, changesEntry map entry = true

/-! ## A file system that may fail -/

/-- The bytes of the files that exist. -/
abbrev Files : Type :=
  FileName → Option (List UInt8)

/-- What becomes of `SaveFile`: the file cannot be opened, but may be created, or some of the bytes
of the document are written to it. -/
inductive Save where
  | notOpened (created : Bool)
  | opened (written : Nat)

/-- What the file system does during a store: which of the operations, in the order in which they
are called, succeed in removing or renaming a file, and what becomes of `SaveFile`. -/
structure Storage where
  permits : Nat → Bool
  save : Save

/-- Bytes that are written to the beginning of a file, which is not truncated. -/
def writeOver (old written : List UInt8) : List UInt8 :=
  written ++ old.drop written.length

/-- What `writeMap` prints to the file. -/
def document (floats : FloatText) (print : List XMLNode → List UInt8) (map : Preferences) :
    List UInt8 :=
  print (writeMap floats map)

section Store

variable (text : Preferences → List UInt8)

/-- An operation, and the number of operations before it. -/
def Storage.act (storage : Storage) :
    (op : FileOp Preferences) → Files × Nat → Response op × (Files × Nat)
  | .exists name, (files, count) => ((files name).isSome, (files, count + 1))
  | .canRead name, (files, count) => ((files name).isSome, (files, count + 1))
  | .remove name, (files, count) =>
      if (files name).isSome && storage.permits count then
        (true, (Function.update files name none, count + 1))
      else
        (false, (files, count + 1))
  | .renameTo name newName, (files, count) =>
      if (files name).isSome && storage.permits count then
        (true, (Function.update (Function.update files newName (files name)) name none, count + 1))
      else
        (false, (files, count + 1))
  | .saveFile name map, (files, count) =>
      match storage.save with
      | .notOpened created =>
          (false, (if created && (files name).isNone then Function.update files name (some [])
            else files, count + 1))
      | .opened written =>
          (true, (Function.update files name
            (some (writeOver ((files name).getD []) ((text map).take written))), count + 1))
  | .loadFile _, (files, count) => (none, (files, count + 1))
  | .fsync _, (files, count) => (storage.permits count, (files, count + 1))
  | .fsyncParent, (files, count) => (storage.permits count, (files, count + 1))

/-- `storeSharedPrefs` on a file system that may fail. -/
def Storage.store (storage : Storage) (map : Preferences) (files : Files) : Bool × Files :=
  let ends := (storeSharedPrefs map).run (storage.act text) (files, 0)
  (ends.1, ends.2.1)

/-- The map in memory, the files, and the editors whose store has failed. -/
structure Session where
  mMap : Preferences
  files : Files
  failed : List Editor

/-- `commit`. -/
def commit (session : Session) (commit : Editor × Storage) : Bool × Session :=
  let modified := commit.1.modify session.mMap
  if modified.2 then
    let stored := commit.2.store text modified.1 session.files
    (stored.1, { mMap := modified.1
                 files := stored.2
                 failed := if stored.1 then session.failed else commit.1 :: session.failed })
  else
    (false, { session with mMap := modified.1 })

def step (session : Session) (edits : Editor × Storage) : Option Session :=
  some (commit text session edits).2

/-- The file is the document of the map in memory. -/
def Session.Stored (session : Session) : Prop :=
  session.files .mFile = some (text session.mMap)

/-- Nothing fails, and all of the document is written. -/
def Storage.Works (storage : Storage) (map : Preferences) : Prop :=
  (∀ count, storage.permits count = true) ∧
    ∃ written, storage.save = .opened written ∧ (text map).length ≤ written

/-- A commit that returns true has stored the map, and so has one of edits whose store has failed
before, once nothing fails anymore. -/
structure Durable (before : Session) (edits : Editor × Storage) (after : Session) : Prop where
  returned : (commit text before edits).1 = true → after.Stored text
  retried : edits.1 ∈ before.failed → edits.2.Works text after.mMap → after.Stored text

/-- The bytes of the file that is there when the document is written to it. -/
def Storage.left (storage : Storage) (files : Files) : List UInt8 :=
  match files .mFile, files .mBackupFile with
  | some old, some _ => if storage.permits 2 then [] else old
  | _, _ => []

/-- The old file does not stay in its place, for lack of a backup. -/
def Storage.Moves (storage : Storage) (files : Files) : Prop :=
  (files .mFile).isSome → files .mBackupFile = none → storage.permits 2 = true

/-- When `SaveFile` opens the file, what it does not write is there already, and edits that are
committed again change the map again, or the file is the document of the map. -/
structure Retrievable (before : Session) (edits : Editor × Storage) : Prop where
  complete : ∀ written, edits.1.Changes before.mMap → edits.2.Moves before.files →
    edits.2.save = .opened written →
      (edits.2.left before.files).drop (min written (text (edits.1.modify before.mMap).1).length) =
        (text (edits.1.modify before.mMap).1).drop written
  changed : edits.1 ∈ before.failed → edits.2.Works text (edits.1.modify before.mMap).1 →
    edits.1.Changes before.mMap ∨ before.Stored text

end Store

/-! ## What a store leaves -/

section Operations

variable {text : Preferences → List UInt8} {storage : Storage} {name newName : FileName}
  {map : Preferences} {st : Files × Nat}

/-- What is done next depends on whether a file exists. -/
theorem run_ifExists {α : Type} (there absent : FileProgram Preferences α) :
    Program.run (storage.act text) (do if ← fileExists name then there else absent) st =
      if (st.1 name).isSome then there.run (storage.act text) (st.1, st.2 + 1)
      else absent.run (storage.act text) (st.1, st.2 + 1) := by
  rw [Program.run_bind]
  show Program.run _ (if (st.1 name).isSome then there else absent) (st.1, st.2 + 1) = _
  rw [Program.run_ite]

theorem run_remove : (remove name).run (storage.act text) st =
    if (st.1 name).isSome && storage.permits st.2 then
      (true, (Function.update st.1 name none, st.2 + 1))
    else
      (false, (st.1, st.2 + 1)) :=
  rfl

theorem run_renameTo : (renameTo name newName).run (storage.act text) st =
    if (st.1 name).isSome && storage.permits st.2 then
      (true, (Function.update (Function.update st.1 newName (st.1 name)) name none, st.2 + 1))
    else
      (false, (st.1, st.2 + 1)) :=
  rfl

/-- Other files than the one to be removed stay as they are. -/
theorem remove_other {other : FileName} (different : other ≠ name) :
    ((remove name).run (storage.act text) st).2.1 other = st.1 other := by
  rw [run_remove]
  split <;> simp [different]

@[simp] theorem run_fsync : (fsync name).run (storage.act text) st =
    (storage.permits st.2, (st.1, st.2 + 1)) :=
  rfl

@[simp] theorem run_fsyncParent : fsyncParent.run (storage.act text) st =
    (storage.permits st.2, (st.1, st.2 + 1)) :=
  rfl

theorem run_saveFile_opened {written : Nat} (opened : storage.save = .opened written) :
    (saveFile name map).run (storage.act text) st =
      (true, (Function.update st.1 name
        (some (writeOver ((st.1 name).getD []) ((text map).take written))), st.2 + 1)) := by
  show storage.act text (.saveFile name map) st = _
  simp only [Storage.act, opened]
  rfl

theorem saveFile_notOpened {created : Bool} (notOpened : storage.save = .notOpened created) :
    ((saveFile name map).run (storage.act text) st).1 = false := by
  show (storage.act text (.saveFile name map) st).1 = _
  simp only [Storage.act, notOpened]
  rfl

end Operations

section Stores

variable {text : Preferences → List UInt8} {storage : Storage} {map : Preferences}
  {st : Files × Nat}

theorem writeSharedPrefs_opened {written : Nat} (opened : storage.save = .opened written) :
    ((writeSharedPrefs map).run (storage.act text) st).1 = true ∧
      ((writeSharedPrefs map).run (storage.act text) st).2.1 .mFile =
        some (writeOver ((st.1 .mFile).getD []) ((text map).take written)) := by
  have other : FileName.mFile ≠ .mBackupFile := by decide
  unfold writeSharedPrefs
  rw [Program.run_bind, run_saveFile_opened opened, if_pos rfl, Program.run_bind, run_ifExists]
  split <;> simp [remove_other other]

theorem writeSharedPrefs_notOpened {created : Bool}
    (notOpened : storage.save = .notOpened created) :
    ((writeSharedPrefs map).run (storage.act text) st).1 = false := by
  unfold writeSharedPrefs
  rw [Program.run_bind, saveFile_notOpened notOpened, if_neg Bool.false_ne_true, run_ifExists]
  split <;> simp

theorem storeSharedPrefs_new (absent : st.1 .mFile = none) :
    (storeSharedPrefs map).run (storage.act text) st =
      (writeSharedPrefs map).run (storage.act text) (st.1, st.2 + 1) := by
  unfold storeSharedPrefs
  rw [run_ifExists, if_neg (by simp [absent])]

/-- The old file is removed where there is a backup, if it can be removed. -/
theorem storeSharedPrefs_again (there : (st.1 .mFile).isSome) (kept : (st.1 .mBackupFile).isSome) :
    (storeSharedPrefs map).run (storage.act text) st =
      (writeSharedPrefs map).run (storage.act text)
        ((remove .mFile).run (storage.act text) (st.1, st.2 + 1 + 1)).2 := by
  unfold storeSharedPrefs
  rw [run_ifExists, if_pos there, run_ifExists, if_pos kept, Program.run_bind]

/-- The old file becomes the backup, if it can be renamed. -/
theorem storeSharedPrefs_renames (there : (st.1 .mFile).isSome)
    (absent : st.1 .mBackupFile = none) :
    (storeSharedPrefs map).run (storage.act text) st =
      if storage.permits (st.2 + 1 + 1) then
        (writeSharedPrefs map).run (storage.act text)
          (Function.update (Function.update st.1 .mBackupFile (st.1 .mFile)) .mFile none,
            st.2 + 1 + 1 + 1)
      else
        (false, (st.1, st.2 + 1 + 1 + 1)) := by
  unfold storeSharedPrefs
  rw [run_ifExists, if_pos there, run_ifExists, if_neg (by simp [absent]), Program.run_bind,
    run_renameTo, there, Bool.true_and]
  split <;> rfl

end Stores

section Results

variable {text : Preferences → List UInt8} {storage : Storage} {map : Preferences}
  {files : Files}

variable (text map) in
/-- Where the old file does not stay in its place, the document is written over what is left. -/
theorem store_writes (moves : storage.Moves files) : ∃ cleared : Files × Nat,
    (cleared.1 .mFile).getD [] = storage.left files ∧
      (storeSharedPrefs map).run (storage.act text) (files, 0) =
        (writeSharedPrefs map).run (storage.act text) cleared := by
  cases file : files .mFile with
  | none =>
      refine ⟨_, ?_, storeSharedPrefs_new file⟩
      simp [Storage.left, file]
  | some old =>
      cases backup : files .mBackupFile with
      | some kept =>
          refine ⟨_, ?_, storeSharedPrefs_again (by simp [file]) (by simp [backup])⟩
          cases permitted : storage.permits 2 <;>
            simp [run_remove, Storage.left, file, backup, permitted]
      | none =>
          have permitted := moves (by simp [file]) backup
          refine ⟨_, ?_, (storeSharedPrefs_renames (by simp [file]) backup).trans
            (if_pos permitted)⟩
          simp [Storage.left, file, backup]

theorem store_fails_of_stays (stays : ¬ storage.Moves files) :
    (storage.store text map files).1 = false := by
  have blocked : (files .mFile).isSome ∧ files .mBackupFile = none ∧ storage.permits 2 = false := by
    simpa [Storage.Moves] using stays
  unfold Storage.store
  rw [storeSharedPrefs_renames blocked.1 blocked.2.1, if_neg (by simp [blocked.2.2])]

theorem store_fails_of_notOpened {created : Bool} (notOpened : storage.save = .notOpened created) :
    (storage.store text map files).1 = false := by
  by_cases moves : storage.Moves files
  · obtain ⟨cleared, _, writes⟩ := store_writes text map moves
    unfold Storage.store
    rw [writes, writeSharedPrefs_notOpened notOpened]
  · exact store_fails_of_stays moves

/-- A store returns true when it has opened the file, whatever it has written then. -/
theorem store_opened {written : Nat} (moves : storage.Moves files)
    (opened : storage.save = .opened written) :
    (storage.store text map files).1 = true ∧
      (storage.store text map files).2 .mFile =
        some (writeOver (storage.left files) ((text map).take written)) := by
  obtain ⟨cleared, left, writes⟩ := store_writes text map moves
  unfold Storage.store
  rw [writes, ← left]
  exact writeSharedPrefs_opened opened

theorem store_iff : (storage.store text map files).1 = true ↔
    storage.Moves files ∧ ∃ written, storage.save = .opened written := by
  constructor
  · intro stored
    cases saved : storage.save with
    | notOpened created => simp [store_fails_of_notOpened saved] at stored
    | opened written =>
        refine ⟨?_, written, rfl⟩
        by_contra stays
        simp [store_fails_of_stays stays] at stored
  · rintro ⟨moves, written, opened⟩
    exact (store_opened moves opened).1

/-- All of the document, and nothing else, is in the file where what is not written is there
already. -/
theorem writeOver_take_iff (old whole : List UInt8) (written : Nat) :
    writeOver old (whole.take written) = whole ↔
      old.drop (min written whole.length) = whole.drop written := by
  rw [writeOver, List.length_take]
  constructor
  · intro same
    have parts := same.trans (List.take_append_drop written whole).symm
    exact List.append_cancel_left parts
  · intro same
    rw [same, List.take_append_drop]

theorem modifyEntry_unchanged (state : Preferences × Bool)
    (entry : String.Text × Option Variant) :
    modifyEntry state entry = state ∨ (modifyEntry state entry).2 = true := by
  unfold modifyEntry
  split
  · split <;> simp
  · split <;> simp
  · split
    · split <;> simp
    · simp

theorem modifyEntry_changes (state : Preferences × Bool) (entry : String.Text × Option Variant) :
    (modifyEntry state entry).2 = (state.2 || changesEntry state.1 entry) := by
  unfold modifyEntry changesEntry
  split
  · split <;> simp [*]
  · split <;> simp [*]
  · split
    · split <;> simp [*]
    · simp

theorem modifyEntries_unchanged (entries : List (String.Text × Option Variant))
    (state : Preferences × Bool) :
    entries.foldl modifyEntry state = state ∨ (entries.foldl modifyEntry state).2 = true := by
  induction entries generalizing state with
  | nil => simp
  | cons entry entries ih =>
      cases ih (modifyEntry state entry) with
      | inl same =>
          rw [List.foldl_cons, same]
          exact modifyEntry_unchanged state entry
      | inr changed => exact .inr changed

/-- The first entry that changes the map finds it as it was at the beginning. -/
theorem modifyEntries_changes (entries : List (String.Text × Option Variant))
    (state : Preferences × Bool) :
    (entries.foldl modifyEntry state).2 = true ↔
      state.2 = true ∨ ∃ entry ∈ entries, changesEntry state.1 entry = true := by
  induction entries generalizing state with
  | nil => simp
  | cons entry entries ih =>
      rw [List.foldl_cons, ih, List.exists_mem_cons_iff, ← or_assoc]
      have changes := modifyEntry_changes state entry
      cases modifyEntry_unchanged state entry with
      | inl same =>
          rw [same] at changes ⊢
          cases known : state.2 <;> simp_all
      | inr changed =>
          rw [changed, eq_comm, Bool.or_eq_true] at changes
          simp [changed, changes]

/-- A map that is not modified is the map as it was. -/
theorem modify_unchanged {editor : Editor} {map : Preferences}
    (unchanged : (editor.modify map).2 = false) : (editor.modify map).1 = map := by
  unfold Editor.modify at unchanged ⊢
  split at unchanged
  · rename_i clears
    cases modifyEntries_unchanged editor.mModifications.entries (map.clear, true) with
    | inl same => simp [same] at unchanged
    | inr changed => simp [changed] at unchanged
  · rename_i keeps
    rw [if_neg keeps]
    cases modifyEntries_unchanged editor.mModifications.entries (map, false) with
    | inl same => rw [same]
    | inr changed => simp [changed] at unchanged

theorem modify_changes_iff (editor : Editor) (map : Preferences) :
    (editor.modify map).2 = true ↔ editor.Changes map := by
  unfold Editor.modify Editor.Changes
  rw [modifyEntries_changes]
  cases editor.mClearMap <;> cases map.isEmpty <;> simp

end Results

/-! ## Commits -/

section Commits

variable {text : Preferences → List UInt8}

variable (text) in
theorem commit_modified {session : Session} {edits : Editor × Storage}
    (modified : (edits.1.modify session.mMap).2 = true) :
    (commit text session edits).1 =
        (edits.2.store text (edits.1.modify session.mMap).1 session.files).1 ∧
      (commit text session edits).2.mMap = (edits.1.modify session.mMap).1 ∧
      (commit text session edits).2.files =
        (edits.2.store text (edits.1.modify session.mMap).1 session.files).2 := by
  unfold commit
  rw [if_pos modified]
  exact ⟨rfl, rfl, rfl⟩

theorem commit_unchanged {session : Session} {edits : Editor × Storage}
    (unchanged : (edits.1.modify session.mMap).2 = false) :
    commit text session edits = (false, session) := by
  unfold commit
  rw [if_neg (by simp [unchanged]), modify_unchanged unchanged]

/-- The document is in the file when what is not written of it is there already. -/
theorem stored_iff_complete {session : Session} {edits : Editor × Storage} {written : Nat}
    (modified : (edits.1.modify session.mMap).2 = true) (moves : edits.2.Moves session.files)
    (opened : edits.2.save = .opened written) :
    (commit text session edits).2.Stored text ↔
      (edits.2.left session.files).drop
          (min written (text (edits.1.modify session.mMap).1).length) =
        (text (edits.1.modify session.mMap).1).drop written := by
  obtain ⟨_, map, files⟩ := commit_modified text modified
  rw [Session.Stored, map, files, (store_opened moves opened).2, Option.some_inj,
    writeOver_take_iff]

/-- A file that is written on a file system that works is the document. -/
theorem Storage.Works.stores {session : Session} {edits : Editor × Storage}
    (works : edits.2.Works text (edits.1.modify session.mMap).1)
    (modified : (edits.1.modify session.mMap).2 = true) :
    (commit text session edits).2.Stored text := by
  obtain ⟨permits, written, opened, whole⟩ := works
  rw [stored_iff_complete modified (fun _ _ => permits 2) opened, List.drop_eq_nil_of_le whole,
    Nat.min_eq_right whole]
  have nothing : edits.2.left session.files = [] := by
    unfold Storage.left
    split
    · exact if_pos (permits 2)
    · rfl
  rw [nothing, List.drop_nil]

theorem durable_iff_retrievable (session : Session) (edits : Editor × Storage) :
    Durable text session edits (commit text session edits).2 ↔
      Retrievable text session edits := by
  have changes := modify_changes_iff edits.1 session.mMap
  cases modified : (edits.1.modify session.mMap).2 with
  | false =>
      have same := modify_unchanged modified
      have unchanged : ¬ edits.1.Changes session.mMap := by simp [← changes, modified]
      rw [commit_unchanged modified]
      constructor
      · rintro ⟨_, retried⟩
        refine ⟨fun _ changed => absurd changed unchanged, fun again works => .inr ?_⟩
        rw [same] at works
        exact retried again works
      · intro retrievable
        refine ⟨fun returned => by simp [commit_unchanged modified] at returned,
          fun again works => ?_⟩
        have works' : edits.2.Works text (edits.1.modify session.mMap).1 := by
          rw [same]
          exact works
        exact (retrievable.changed again works').resolve_left unchanged
  | true =>
      have changed := changes.mp modified
      constructor
      · rintro ⟨returned, retried⟩
        refine ⟨fun written _ moves opened => ?_, fun _ _ => .inl changed⟩
        rw [← stored_iff_complete modified moves opened]
        apply returned
        rw [(commit_modified text modified).1, store_iff]
        exact ⟨moves, written, opened⟩
      · intro retrievable
        refine ⟨fun returned => ?_, fun _ works => ?_⟩
        · rw [(commit_modified text modified).1, store_iff] at returned
          obtain ⟨moves, written, opened⟩ := returned
          rw [stored_iff_complete modified moves opened]
          exact retrievable.complete written changed moves opened
        · rw [(commit_modified text modified).2.1] at works
          exact works.stores modified

end Commits

/-- Commits store what they have changed, and what they could not store when they are repeated, if
and only if `SaveFile` writes all of the document that is not there already, and edits whose store
has failed change the map again when they are repeated. -/
theorem commits_durable_iff (floats : FloatText) (print : List XMLNode → List UInt8)
    (session : Session) (commits : List (Editor × Storage)) :
    Relates (step (document floats print)) (Durable (document floats print)) session commits ↔
      Meets (step (document floats print)) (Retrievable (document floats print)) session
        commits := by
  have keeps : ∀ (session : Session) (edits : Editor × Storage) (after : Session), True →
      step (document floats print) session edits = some after → True :=
    fun _ _ _ _ _ => trivial
  apply relates_iff_meets keeps
  · intro session edits after _ taken
    obtain rfl := Option.some.inj taken
    exact durable_iff_retrievable session edits
  · exact trivial

/-- A preference is put, but the file cannot be opened.  When it is put again, nothing is stored,
since it is in the map already. -/
theorem failed_commit_is_not_repeated : ¬ ∀ (floats : FloatText)
    (print : List XMLNode → List UInt8) (session : Session) (commits : List (Editor × Storage)),
    session.failed = [] → session.Stored (document floats print) →
      Relates (step (document floats print)) (Durable (document floats print)) session commits := by
  intro claim
  let floats : FloatText := ⟨fun _ => [], fun _ => 0⟩
  let print : List XMLNode → List UInt8 := fun nodes => nodes.flatMap XMLNode.value
  let put : Editor := ⟨single [107] (.bool true), false⟩
  let session : Session := ⟨HashMap.new preferences,
    fun name => if name = .mFile then some (document floats print (HashMap.new preferences))
      else none, []⟩
  let fails : Storage := ⟨fun _ => true, .notOpened false⟩
  let works : Storage := ⟨fun _ => true, .opened 100⟩
  have durable := claim floats print session [(put, fails), (put, works)] rfl rfl
  have again := ((durable _ rfl).2 _ rfl).1
  have stored := again.retried List.mem_cons_self ⟨fun _ => rfl, 100, rfl, by decide⟩
  have absent : (commit (document floats print)
      (commit (document floats print) session (put, fails)).2 (put, works)).2.files .mFile =
        none := rfl
  exact absurd (absent.symm.trans stored) (by simp)

end SharedPreferencesImpl

end Mindroid
