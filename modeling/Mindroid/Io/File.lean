import Mathlib.Logic.Function.Basic

/-!
# Files

A disk maps a path to the content of the regular file that has it.  Calls of the operating system
only fail if there is no such file.
-/

set_option autoImplicit false

namespace Mindroid

abbrev Path : Type :=
  List UInt8

abbrev FileSystem : Type :=
  Path → Option (List UInt8)

namespace File

def «exists» (disk : FileSystem) (path : Path) : Bool :=
  (disk path).isSome

def length (disk : FileSystem) (path : Path) : Nat :=
  ((disk path).getD []).length

def remove (disk : FileSystem) (path : Path) : FileSystem :=
  Function.update disk path none

/-- Nothing is done if there is no file with the old path. -/
def renameTo (disk : FileSystem) (path newPath : Path) : FileSystem :=
  match disk path with
  | none => disk
  | some content => Function.update (Function.update disk path none) newPath (some content)

/-- A file that there is already is truncated. -/
def createNewFile (disk : FileSystem) (path : Path) : FileSystem :=
  Function.update disk path (some [])

/-- The `write` of a file that is opened with `O_APPEND`. -/
def append (disk : FileSystem) (path : Path) (data : List UInt8) : FileSystem :=
  Function.update disk path ((disk path).map (· ++ data))

/-- What can be read from a path. -/
def content (disk : FileSystem) (path : Path) : List UInt8 :=
  (disk path).getD []

section Remove

variable {disk : FileSystem} {path other : Path}

@[simp] theorem remove_self (disk : FileSystem) (path : Path) : remove disk path path = none := by
  rw [remove, Function.update_self]

theorem remove_of_ne (ne : other ≠ path) : remove disk path other = disk other := by
  rw [remove, Function.update_of_ne ne]

theorem renameTo_none (absent : disk path = none) (newPath : Path) :
    renameTo disk path newPath = disk := by
  rw [renameTo, absent]

theorem renameTo_new {newPath : Path} (absent : disk newPath = none) :
    renameTo disk path newPath newPath = disk path := by
  cases present : disk path with
  | none => rw [renameTo_none present, absent]
  | some content =>
      rw [renameTo, present]
      simp only
      rw [Function.update_self]

theorem renameTo_old {newPath : Path} (absent : disk newPath = none) :
    renameTo disk path newPath path = none := by
  cases present : disk path with
  | none => rw [renameTo_none present, present]
  | some content =>
      have ne : path ≠ newPath := by
        rintro rfl
        rw [present] at absent
        cases absent
      rw [renameTo, present]
      simp only
      rw [Function.update_of_ne ne, Function.update_self]

theorem renameTo_of_ne {newPath : Path} (old : other ≠ path) (new : other ≠ newPath) :
    renameTo disk path newPath other = disk other := by
  cases present : disk path with
  | none => rw [renameTo_none present]
  | some content =>
      rw [renameTo, present]
      simp only
      rw [Function.update_of_ne new, Function.update_of_ne old]

end Remove

end File

end Mindroid
