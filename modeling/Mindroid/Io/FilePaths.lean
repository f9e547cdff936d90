import Mindroid.Io.File
import Mindroid.Lang.String

/-!
# The paths of files

A file has a path, from which its name and its parent are cut at the last separator.  A path without
a NUL, that is not the root and does not end with two separators, is the parent of what is in it.
-/

set_option autoImplicit false

namespace Mindroid

namespace File

def separatorChar : UInt8 := 47

def separator : List UInt8 :=
  [separatorChar]

/-- The constructor with a path, with the path of the new file. -/
def ofPath (path : List UInt8) : Except Failure Path :=
  if !String.equals path separator && String.endsWith path separator then
    String.substring path 0 (path.length - 1)
  else
    .ok path

/-- The constructor with a directory and a name. -/
def ofDir (dir : Path) (name : List UInt8) : Path :=
  let pathName := if !String.endsWith dir separator then String.append dir separator else dir
  String.append pathName name

def getName (path : Path) : Except Failure (List UInt8) :=
  match String.lastIndexOf path separatorChar with
  | some i => String.substringFrom path (i + 1)
  | none => .ok path

def getParent (path : Path) : Except Failure (Option (List UInt8)) :=
  if !String.equals path separator then
    match String.lastIndexOf path separatorChar with
    | some i => some <$> String.substring path 0 i
    | none => .ok none
  else
    .ok none

def getParentFile (path : Path) : Except Failure (Option Path) := do
  match ← getParent path with
  | some parent => some <$> ofPath parent
  | none => return none

/-- A name and the directory that it is in can be found out from the path of the file. -/
def Rejoins (path name : List UInt8) : Prop :=
  ∃ dir, ofPath path = .ok dir ∧
    getName (ofDir dir name) = .ok name ∧
      getParent (ofDir dir name) = .ok (some dir) ∧ getParentFile (ofDir dir name) = .ok (some dir)

/-- There is no NUL, and the path is not the root and does not end with two separators. -/
def Separates (path name : List UInt8) : Prop :=
  (∀ c ∈ path ++ name, c ≠ 0) ∧ path ≠ separator ∧ ¬separator ++ separator <:+ path

instance (path name : List UInt8) : Decidable (Separates path name) :=
  inferInstanceAs (Decidable (_ ∧ _))

/-! ## Cutting a path -/

section Paths

variable {path dir name : List UInt8}

theorem separatorChar_ne : separatorChar ≠ 0 := by decide

theorem cStr_separator : String.cStr separator = separator := by decide

theorem endsWith_separator_iff : String.endsWith path separator = true ↔ separator <:+ path :=
  String.endsWith_singleton_iff separatorChar_ne

theorem equals_separator_iff (nonzero : ∀ c ∈ path, c ≠ 0) :
    String.equals path separator = true ↔ path = separator := by
  rw [String.equals, String.cStr_of_nonzero nonzero, cStr_separator, beq_iff_eq]

/-- A separator at the end is not a part of the path, unless it is the root. -/
theorem ofPath_eq (path : List UInt8) :
    ofPath path = .ok (if String.equals path separator = false ∧ separator <:+ path then
      path.dropLast else path) := by
  rw [ofPath]
  by_cases strips : String.equals path separator = false ∧ separator <:+ path
  · rw [if_pos strips, if_pos (by simp [strips.1, endsWith_separator_iff.mpr strips.2]),
      String.substring_ok (Nat.zero_le _) (Nat.sub_le _ _), List.drop_zero, Nat.sub_zero,
      List.dropLast_eq_take]
  · rw [if_neg strips, if_neg]
    intro both
    rw [Bool.and_eq_true, Bool.not_eq_true', endsWith_separator_iff] at both
    exact strips both

theorem ofPath_other (plain : ¬separator <:+ path) : ofPath path = .ok path := by
  rw [ofPath_eq, if_neg fun strips => plain strips.2]

theorem ofDir_eq (plain : ¬separator <:+ dir) (name : List UInt8) :
    ofDir dir name = dir ++ separatorChar :: String.cStr name := by
  have lacks : String.endsWith dir separator = false := by
    rw [← Bool.not_eq_true, endsWith_separator_iff]
    exact plain
  rw [ofDir, lacks]
  simp only [Bool.not_false, if_true]
  rw [String.append, String.append, cStr_separator, List.append_assoc]
  rfl

theorem ofDir_ending (ends : separator <:+ dir) (name : List UInt8) :
    ofDir dir name = dir ++ String.cStr name := by
  rw [ofDir, endsWith_separator_iff.mpr ends]
  rfl

/-! ## Names and parents -/

theorem nonzero_joined (nonzero : ∀ c ∈ dir, c ≠ 0) (visible : ∀ c ∈ name, c ≠ 0) :
    ∀ c ∈ dir ++ separatorChar :: name, c ≠ 0 := by
  intro c member
  rcases List.mem_append.mp member with inDir | member
  · exact nonzero c inDir
  · rcases List.mem_cons.mp member with rfl | inName
    · exact separatorChar_ne
    · exact visible c inName

theorem lastIndexOf_joined (nonzero : ∀ c ∈ dir, c ≠ 0) (visible : ∀ c ∈ name, c ≠ 0)
    (noSeparator : separatorChar ∉ name) :
    String.lastIndexOf (dir ++ separatorChar :: name) separatorChar = some dir.length :=
  String.lastIndexOf_some separatorChar_ne
    (String.cStr_of_nonzero (nonzero_joined nonzero visible))
    fun _ member same => noSeparator (same ▸ member)

/-- What is behind the last separator is the name. -/
theorem getName_joined (nonzero : ∀ c ∈ dir, c ≠ 0) (visible : ∀ c ∈ name, c ≠ 0)
    (noSeparator : separatorChar ∉ name) : getName (dir ++ separatorChar :: name) = .ok name := by
  rw [getName, lastIndexOf_joined nonzero visible noSeparator]
  simp only
  rw [String.substringFrom_ok (by simp), ← List.drop_drop, List.drop_left, List.drop_one,
    List.tail_cons]

theorem getParent_joined (nonzero : ∀ c ∈ dir, c ≠ 0) (visible : ∀ c ∈ name, c ≠ 0)
    (noSeparator : separatorChar ∉ name) (named : name ≠ []) :
    getParent (dir ++ separatorChar :: name) = .ok (some dir) := by
  have notRoot : String.equals (dir ++ separatorChar :: name) separator = false := by
    rw [← Bool.not_eq_true, equals_separator_iff (nonzero_joined nonzero visible)]
    intro same
    have size := congrArg List.length same
    rw [List.length_append, List.length_cons] at size
    have isLonger := List.length_pos_iff.mpr named
    change _ = 1 at size
    omega
  rw [getParent, notRoot, lastIndexOf_joined nonzero visible noSeparator]
  simp only [Bool.not_false, if_true]
  rw [String.substring_ok (Nat.zero_le _) (by simp), List.drop_zero, Nat.sub_zero, List.take_left]
  rfl

/-- A parent has no NUL, and a separator and no others come behind it. -/
theorem getParent_some {parent : List UInt8} (found : getParent path = .ok (some parent)) :
    (∀ c ∈ parent, c ≠ 0) ∧ ∃ behind, path = parent ++ separatorChar :: behind := by
  rw [getParent] at found
  split at found
  case isFalse => cases found
  case isTrue =>
    cases index : String.lastIndexOf path separatorChar with
    | none =>
        rw [index] at found
        cases found
    | some i =>
        rcases String.lastIndexOf_eq_some separatorChar_ne index with
          ⟨before, behind, visible, lacks, rfl⟩
        rcases String.cStr_is_front path with ⟨rest, split⟩
        rw [visible, List.append_assoc, List.cons_append] at split
        rw [index] at found
        simp only at found
        rw [String.substring_ok (Nat.zero_le _) (by simp [← split]), List.drop_zero, Nat.sub_zero,
          ← split, List.take_left] at found
        cases found
        refine ⟨fun c member => ?_, behind ++ rest, split.symm⟩
        apply String.nonzero_cStr path
        rw [visible]
        exact List.mem_append_left _ member

/-- What is in a directory leads back to it if the path of the directory has no NUL and does not
end with a separator. -/
theorem rejoins_dir_iff (named : name ≠ []) (noSeparator : separatorChar ∉ name) :
    getName (ofDir dir name) = .ok name ∧ getParent (ofDir dir name) = .ok (some dir) ∧
        getParentFile (ofDir dir name) = .ok (some dir) ↔
      (∀ c ∈ dir, c ≠ 0) ∧ (∀ c ∈ name, c ≠ 0) ∧ ¬separator <:+ dir := by
  constructor
  · rintro ⟨sameName, sameParent, _⟩
    obtain ⟨nonzero, behind, split⟩ := getParent_some sameParent
    have plain : ¬separator <:+ dir := by
      intro ends
      rw [ofDir_ending ends, List.append_cancel_left_eq] at split
      have member : separatorChar ∈ String.cStr name := by
        rw [split]
        exact List.mem_cons_self
      exact noSeparator ((String.cStr_is_front name).subset member)
    have visible : separatorChar ∉ String.cStr name := fun member =>
      noSeparator ((String.cStr_is_front name).subset member)
    rw [ofDir_eq plain, getName_joined nonzero (String.nonzero_cStr name) visible] at sameName
    refine ⟨nonzero, ?_, plain⟩
    rw [← Except.ok.inj sameName]
    exact String.nonzero_cStr name
  · rintro ⟨nonzero, visible, plain⟩
    have parent := getParent_joined nonzero visible noSeparator named
    rw [ofDir_eq plain, String.cStr_of_nonzero visible]
    refine ⟨getName_joined nonzero visible noSeparator, parent, ?_⟩
    rw [getParentFile, parent]
    change some <$> ofPath dir = _
    rw [ofPath_other plain]
    rfl

/-- At most a separator is stripped from a path. -/
theorem nonzero_ofPath_iff (isDir : ofPath path = .ok dir) :
    (∀ c ∈ dir, c ≠ 0) ↔ ∀ c ∈ path, c ≠ 0 := by
  rw [ofPath_eq, Except.ok.injEq] at isDir
  split at isDir
  case isTrue strips =>
    obtain ⟨front, rfl⟩ := strips.2
    have isFront : front = dir := List.dropLast_concat.symm.trans isDir
    subst isFront
    constructor
    · intro nonzero c member
      rcases List.mem_append.mp member with inFront | isLast
      · exact nonzero c inFront
      · rw [List.mem_singleton.mp isLast]
        exact separatorChar_ne
    · exact fun nonzero c member => nonzero c (List.mem_append_left _ member)
  case isFalse => rw [isDir]

theorem plain_ofPath_iff (nonzero : ∀ c ∈ path, c ≠ 0) (isDir : ofPath path = .ok dir) :
    ¬separator <:+ dir ↔ path ≠ separator ∧ ¬separator ++ separator <:+ path := by
  rw [ofPath_eq, Except.ok.injEq] at isDir
  by_cases ends : separator <:+ path
  · obtain ⟨front, rfl⟩ := ends
    by_cases isRoot : front = []
    · subst isRoot
      have same : String.equals ([] ++ separator) separator = true := rfl
      rw [if_neg fun strips => by cases same.symm.trans strips.1] at isDir
      subst isDir
      exact iff_of_false (not_not_intro (List.suffix_refl _)) fun both => both.1 rfl
    · have other : front ++ separator ≠ separator := fun same =>
        isRoot (List.append_left_eq_self.mp same)
      have notEqual : String.equals (front ++ separator) separator = false := by
        rw [← Bool.not_eq_true, equals_separator_iff nonzero]
        exact other
      rw [if_pos ⟨notEqual, List.suffix_append _ _⟩] at isDir
      have isFront : front = dir := List.dropLast_concat.symm.trans isDir
      subst isFront
      rw [List.suffix_append_self_iff]
      exact ⟨fun plain => ⟨other, plain⟩, fun both => both.2⟩
  · rw [if_neg fun strips => ends strips.2] at isDir
    subst isDir
    refine iff_of_true ends ⟨?_, fun twice => ?_⟩
    · rintro rfl
      exact ends (List.suffix_refl _)
    · exact ends ((List.suffix_append separator separator).trans twice)

end Paths

/-- A name that is put into a directory, and the directory, are found out from the path if and only
if there is no NUL and the path of the directory is not the root and does not end with two
separators. -/
theorem rejoins_iff {path name : List UInt8} (named : name ≠ [])
    (noSeparator : separatorChar ∉ name) : Rejoins path name ↔ Separates path name := by
  obtain ⟨dir, isDir⟩ : ∃ dir, ofPath path = .ok dir := ⟨_, ofPath_eq path⟩
  have rejoins : Rejoins path name ↔
      (∀ c ∈ dir, c ≠ 0) ∧ (∀ c ∈ name, c ≠ 0) ∧ ¬separator <:+ dir := by
    rw [← rejoins_dir_iff named noSeparator]
    constructor
    · rintro ⟨other, isOther, back⟩
      cases isDir.symm.trans isOther
      exact back
    · exact fun back => ⟨dir, isDir, back⟩
  rw [rejoins, Separates, nonzero_ofPath_iff isDir, List.forall_mem_append, and_assoc]
  exact and_congr_right fun nonzero => and_congr_right fun _ => plain_ofPath_iff nonzero isDir

/-- A directory with a separator at the end. -/
theorem rejoins_iff_logs :
    Rejoins [108, 111, 103, 115, 47] [97] ↔ Separates [108, 111, 103, 115, 47] [97] :=
  rejoins_iff (by decide) (by decide)

/-- The parent of a file in the root is the empty path. -/
theorem root_not_parent : ¬Rejoins separator [97] := by
  rintro ⟨dir, isDir, _, sameParent, _⟩
  have isRoot : ofPath separator = .ok separator := rfl
  cases isRoot.symm.trans isDir
  have empty : getParent (ofDir separator [97]) = .ok (some []) := rfl
  cases empty.symm.trans sameParent

end File

end Mindroid
