import Mindroid.Io.FilePaths
import Mindroid.Lang.Integer
import Mindroid.Util.Logging.FileHistory

/-!
# Clearing and dumping the log files

`clear` removes the newest file only, again and again, so the older ones keep their content.  `dump`
copies the lines of the files without their ends, by way of a temporary file.
-/

set_option autoImplicit false

namespace Mindroid

open Foundation Generations

namespace File

/-- `join`, where there may be no path to begin with. -/
def join (base : Option (List UInt8)) (suffix : List UInt8) : Except Failure (List UInt8) :=
  match base with
  | none => .ok suffix
  | some base => do
      let mut base := base
      let mut suffix := suffix
      if suffix.length > 0 then
        if String.endsWith base separator && String.startsWith suffix separator then
          suffix ← String.substringFrom suffix 1
        if !String.endsWith base separator && !String.startsWith suffix separator then
          base := String.cStr base ++ String.cStr separator
      return String.cStr base ++ String.cStr suffix

def isAbsolute (path : Path) : Bool :=
  path.head? == some separatorChar

/-- The property `user.dir` may be missing. -/
def getAbsolutePath (userDir : Option (List UInt8)) (path : Path) :
    Except Failure (Option (List UInt8)) :=
  if isAbsolute path then
    .ok (some path)
  else if path.isEmpty then
    .ok userDir
  else
    some <$> join userDir path

theorem join_ok (base : Option (List UInt8)) (suffix : List UInt8) :
    ∃ path, join base suffix = .ok path := by
  cases base with
  | none => exact ⟨suffix, rfl⟩
  | some base =>
      by_cases nonempty : suffix.length > 0
      · have rest : String.substringFrom suffix 1 = pure (suffix.drop 1) :=
          String.substringFrom_ok (Nat.succ_le_of_lt nonempty)
        simp only [join, if_pos nonempty, rest, pure_bind]
        split
        · split <;> exact ⟨_, rfl⟩
        · split <;> exact ⟨_, rfl⟩
      · simp only [join, if_neg nonempty]
        exact ⟨_, rfl⟩

theorem getAbsolutePath_some {path : Path} (nonempty : path ≠ []) (userDir : Option (List UInt8)) :
    ∃ absolute, getAbsolutePath userDir path = .ok (some absolute) := by
  unfold getAbsolutePath
  split
  · exact ⟨path, rfl⟩
  · rw [if_neg fun empty => nonempty (List.isEmpty_iff.mp empty)]
    obtain ⟨absolute, joined⟩ := join_ok userDir path
    rw [joined]
    exact ⟨absolute, rfl⟩

end File

namespace LogFiles

/-! ## Clearing -/

/-- The loop of `clear`. -/
def removeNewest (files : Nat → Path) : Nat → FileSystem → FileSystem
  | 0, disk => disk
  | i + 1, disk =>
      removeNewest files i
        (if File.exists disk (files 0) then File.remove disk (files 0) else disk)

def clear (st : LogFiles) : LogFiles :=
  let st := st.close
  openWriter { st with disk := removeNewest st.handler.mFiles st.handler.mCount st.disk }

/-- There are no files but the newest one, which is empty. -/
def Clears (st : LogFiles) : Prop :=
  ∀ i, i < st.handler.mCount →
    st.clear.disk (st.handler.mFiles i) = if i = 0 then some [] else none

section Clear

variable {files : Nat → Path} {disk : FileSystem}

theorem removeNewest_newest (files : Nat → Path) (disk : FileSystem) (n : Nat) :
    removeNewest files (n + 1) disk (files 0) = none := by
  induction n generalizing disk with
  | zero => exact FileHandler.removed_self disk (files 0)
  | succ n ih => exact ih _

theorem removeNewest_of_ne {path : Path} (ne : path ≠ files 0) (n : Nat) :
    removeNewest files n disk path = disk path := by
  induction n generalizing disk with
  | zero => rfl
  | succ n ih => exact (ih).trans (FileHandler.removed_of_ne ne)

theorem disk_clear (st : LogFiles) : st.clear.disk =
    FileHandler.openFile (removeNewest st.handler.mFiles st.handler.mCount st.disk)
      (st.handler.mFiles 0) st.handler.mAppend := by
  have kept := keeps_close st
  change FileHandler.openFile (removeNewest st.close.handler.mFiles st.close.handler.mCount
    st.close.disk) (st.close.handler.mFiles 0) st.close.handler.mAppend = _
  rw [kept.mFiles, kept.mCount, kept.mAppend, disk_close]

theorem clear_newest {st : LogFiles} (some_ : 0 < st.handler.mCount) :
    st.clear.disk (st.handler.mFiles 0) = some [] := by
  obtain ⟨n, isCount⟩ := Nat.exists_eq_succ_of_ne_zero (Nat.ne_of_gt some_)
  have removed := removeNewest_newest st.handler.mFiles st.disk n
  rw [disk_clear, openFile_self, isCount, File.content, removed]
  exact congrArg some (ite_self _)

theorem clear_of_ne {st : LogFiles} {path : Path} (ne : path ≠ st.handler.mFiles 0) :
    st.clear.disk path = st.disk path := by
  rw [disk_clear, openFile_of_ne _ ne, removeNewest_of_ne ne]

/-- The older files are as they were, so that they must not have been there. -/
theorem clears_iff (st : LogFiles) : st.Clears ↔
    ∀ i, 0 < i → i < st.handler.mCount →
      st.disk (st.handler.mFiles i) = none ∧ st.handler.mFiles i ≠ st.handler.mFiles 0 := by
  constructor
  · intro clears i older known
    have absent := clears i known
    rw [if_neg (Nat.ne_of_gt older)] at absent
    have ne : st.handler.mFiles i ≠ st.handler.mFiles 0 := by
      intro same
      rw [same, clear_newest (Nat.zero_lt_of_lt known)] at absent
      cases absent
    exact ⟨(clear_of_ne ne).symm.trans absent, ne⟩
  · intro absent i known
    split
    case isTrue isNewest =>
      subst isNewest
      exact clear_newest known
    case isFalse older =>
      obtain ⟨missing, ne⟩ := absent i (Nat.pos_of_ne_zero older) known
      exact (clear_of_ne ne).trans missing

end Clear

/-! ## Dumping -/

/-- The `\n` at which `std::getline` stops. -/
def newLine : UInt8 := 10

/-- `std::getline`: a line without its end, and what is behind it. -/
def getline (input : List UInt8) : Option (List UInt8 × List UInt8) :=
  if input = [] then
    none
  else
    some (input.takeWhile (· != newLine), (input.dropWhile (· != newLine)).drop 1)

theorem getline_shorter {input line rest : List UInt8} (gets : getline input = some (line, rest)) :
    rest.length < input.length := by
  unfold getline at gets
  split at gets
  case isTrue => cases gets
  case isFalse nonempty =>
    cases gets
    have known := List.length_pos_iff.mpr nonempty
    have shorter := (List.dropWhile_suffix (l := input) (· != newLine)).length_le
    rw [List.length_drop]
    omega

/-- What the loop writes for the rest of a file. -/
def copyLines (input : List UInt8) : List UInt8 :=
  match _gets : getline input with
  | none => []
  | some (logMessage, rest) => logMessage ++ copyLines rest
termination_by input.length
decreasing_by exact getline_shorter _gets

/-- The loop over the generations from a count downwards, with what has been written already.  Of
that, a part has reached the temporary file when a generation is read. -/
def copyFiles (reached : Nat → Nat) (files : Nat → Path) (disk : FileSystem) (tempFile : Path) :
    Nat → List UInt8 → List UInt8
  | 0, written => written
  | i + 1, written =>
      let disk' := Function.update disk tempFile (some (written.take (reached i)))
      if !File.exists disk' (files i) then
        copyFiles reached files disk tempFile i written
      else
        copyFiles reached files disk tempFile i
          (written ++ copyLines (File.content disk' (files i)))

/-- The file of `dump` that is renamed in the end. -/
def tempFile (userDir : Option (List UInt8)) (file : Path) : Except Failure Path := do
  match ← File.getParentFile file, ← File.getAbsolutePath userDir file with
  | some dir, some path =>
      let hash := (String.hashCode path).toUInt32
      return File.ofDir dir
        ((Nat.toDigits 16 hash.toNat).map (fun digit => UInt8.ofNat digit.toNat) ++
          String.valueOf ".tmp")
  | _, _ => .error .nullPointer

def dump (reached : Nat → Nat) (userDir : Option (List UInt8)) (logDirectory : Path)
    (st : LogFiles) (fileName : Option (List UInt8)) : Except Failure (Bool × LogFiles) :=
  match fileName with
  | none => .ok (false, st)
  | some fileName => do
      let temp ← tempFile userDir (st.handler.mFiles 0)
      let st := flush { st with disk := File.createNewFile st.disk temp }
      let written := copyFiles reached st.handler.mFiles st.disk temp st.handler.mCount []
      let disk := Function.update st.disk temp (some written)
      return (File.exists disk temp,
        { st with disk := File.renameTo disk temp (File.ofDir logDirectory fileName) })

/-- What the files have is, without a change, under the new name. -/
def Dumps (userDir : Option (List UInt8)) (logDirectory : Path) (fileName : List UInt8)
    (st : LogFiles) : Prop :=
  ∀ reached, ∃ st', st.dump reached userDir logDirectory (some fileName) = .ok (true, st') ∧
    st'.disk (File.ofDir logDirectory fileName) =
      some (contents st.handler.mFiles st.handler.mCount st.disk)

/-- The files are in a directory and have no line ends, and the temporary file is none of them,
unless there is nothing to read from it and from the older ones. -/
structure Copyable (userDir : Option (List UInt8)) (st : LogFiles) : Prop where
  parent : ∃ dir, File.getParentFile (st.handler.mFiles 0) = .ok (some dir)
  lines : newLine ∉ contents st.handler.mFiles st.handler.mCount st.disk
  apart : ∀ i j, i ≤ j → j < st.handler.mCount →
    tempFile userDir (st.handler.mFiles 0) = .ok (st.handler.mFiles i) →
      File.content st.disk (st.handler.mFiles j) = []

/-! ### Copying -/

/-- A line has no line end, and what is left out behind it is one. -/
theorem filter_getline {input line rest : List UInt8} (gets : getline input = some (line, rest)) :
    input.filter (· != newLine) = line ++ rest.filter (· != newLine) := by
  unfold getline at gets
  split at gets
  case isTrue => cases gets
  case isFalse =>
    cases gets
    have ofLine : (input.takeWhile (· != newLine)).filter (· != newLine) =
        input.takeWhile (· != newLine) := by
      apply List.filter_eq_self.mpr
      intro c member
      exact @List.mem_takeWhile_imp _ (· != newLine) _ _ member
    have behind : ((input.dropWhile (· != newLine)).drop 1).filter (· != newLine) =
        (input.dropWhile (· != newLine)).filter (· != newLine) := by
      cases rest : input.dropWhile (· != newLine) with
      | nil => rfl
      | cons c others =>
          have ends : ¬(c != newLine) = true := by
            have found := List.head?_dropWhile_not (· != newLine) input
            rw [rest] at found
            exact ne_true_of_eq_false found
          exact (@List.filter_cons_of_neg _ (· != newLine) c others ends).symm
    rw [behind, ← ofLine, ← List.filter_append, List.takeWhile_append_dropWhile]

/-- All bytes but the line ends are written. -/
theorem copyLines_eq (input : List UInt8) : copyLines input = input.filter (· != newLine) := by
  induction input using copyLines.induct with
  | case1 input gets =>
      have empty : input = [] := by
        unfold getline at gets
        split at gets
        · assumption
        · cases gets
      subst empty
      rw [copyLines]
      rfl
  | case2 input line rest gets ih =>
      rw [copyLines, gets]
      exact (congrArg (line ++ ·) ih).trans (filter_getline gets).symm

section Copy

variable {reached : Nat → Nat} {files : Nat → Path} {disk : FileSystem} {temp : Path}
  {written : List UInt8} {n : Nat}

/-- What is read from a generation. -/
def seen (reached : Nat → Nat) (files : Nat → Path) (disk : FileSystem) (temp : Path)
    (written : List UInt8) (i : Nat) : List UInt8 :=
  if files i = temp then written.take (reached i) else File.content disk (files i)

theorem copyFiles_succ : copyFiles reached files disk temp (n + 1) written =
    copyFiles reached files disk temp n
      (written ++ (seen reached files disk temp written n).filter (· != newLine)) := by
  have reads : seen reached files disk temp written n =
      File.content (Function.update disk temp (some (written.take (reached n)))) (files n) := by
    rw [seen]
    split
    case isTrue same => rw [File.content, same, Function.update_self, Option.getD_some]
    case isFalse other => rw [File.content, File.content, Function.update_of_ne other]
  rw [copyFiles, reads, copyLines_eq]
  split
  case isTrue absent =>
    rw [Bool.not_eq_true', File.exists, Option.isSome_eq_false_iff, Option.isNone_iff_eq_none]
      at absent
    rw [File.content, absent, Option.getD_none, List.filter_nil, List.append_nil]
  case isFalse => rfl

theorem filter_lines {content : List UInt8} (lines : newLine ∉ content) :
    content.filter (· != newLine) = content := by
  apply List.filter_eq_self.mpr
  intro c member
  exact bne_iff_ne.mpr fun isEnd => lines (isEnd ▸ member)

/-- Everything is copied as it is. -/
theorem copyFiles_eq
    (lines : ∀ i, i < n → newLine ∉ File.content disk (files i))
    (apart : ∀ i j, i ≤ j → j < n → files i = temp → File.content disk (files j) = [])
    (nothing : (∃ i, i < n ∧ files i = temp) → written = []) :
    copyFiles reached files disk temp n written =
      written ++ joined (fun i => File.content disk (files i)) n := by
  induction n generalizing written with
  | zero => exact (List.append_nil written).symm
  | succ n ih =>
      have reads : seen reached files disk temp written n = File.content disk (files n) := by
        rw [seen]
        split
        case isTrue same =>
          rw [nothing ⟨n, Nat.lt_succ_self n, same⟩, List.take_nil]
          exact (apart n n (Nat.le_refl n) (Nat.lt_succ_self n) same).symm
        case isFalse => rfl
      rw [copyFiles_succ, reads, filter_lines (lines n (Nat.lt_succ_self n)), ih, joined,
        List.append_assoc]
      · exact fun i below => lines i (Nat.lt_succ_of_lt below)
      · exact fun i j newer below => apart i j newer (Nat.lt_succ_of_lt below)
      · rintro ⟨i, below, same⟩
        rw [nothing ⟨i, Nat.lt_succ_of_lt below, same⟩,
          apart i n (Nat.le_of_lt below) (Nat.lt_succ_self n) same]
        rfl

/-- Nothing is read from the temporary file as long as nothing has reached it. -/
theorem copyFiles_unreached : copyFiles (fun _ => 0) files disk temp n written =
    written ++ joined (fun i => (if files i = temp then [] else
      File.content disk (files i)).filter (· != newLine)) n := by
  induction n generalizing written with
  | zero => exact (List.append_nil written).symm
  | succ n ih =>
      rw [copyFiles_succ, ih, joined, seen, List.take_zero, List.append_assoc]

/-- At least the files are copied. -/
theorem length_copyFiles
    (lines : ∀ i, i < n → newLine ∉ File.content disk (files i))
    (empty : ∀ i, i < n → files i = temp → File.content disk (files i) = []) :
    written.length + (joined (fun i => File.content disk (files i)) n).length ≤
      (copyFiles reached files disk temp n written).length := by
  induction n generalizing written with
  | zero => exact Nat.le_refl _
  | succ n ih =>
      have reads : (File.content disk (files n)).length ≤
          ((seen reached files disk temp written n).filter (· != newLine)).length := by
        rw [seen]
        split
        case isTrue same =>
          rw [empty n (Nat.lt_succ_self n) same]
          exact Nat.zero_le _
        case isFalse => rw [filter_lines (lines n (Nat.lt_succ_self n))]
      have later := @ih (written ++ (seen reached files disk temp written n).filter
        (· != newLine)) (fun i below => lines i (Nat.lt_succ_of_lt below))
        (fun i below => empty i (Nat.lt_succ_of_lt below))
      rw [List.length_append] at later
      rw [copyFiles_succ, joined, List.length_append]
      omega

/-- If a byte of the output is read again from the temporary file, too much is copied. -/
theorem nothing_reached
    (lines : ∀ i, i < n → newLine ∉ File.content disk (files i)) (visible : newLine ∉ written)
    (empty : ∀ i, i < n → files i = temp → File.content disk (files i) = [])
    (exact_ : copyFiles (fun _ => 1) files disk temp n written =
      written ++ joined (fun i => File.content disk (files i)) n) :
    ∀ i, i < n → files i = temp →
      written = [] ∧ ∀ j, i ≤ j → j < n → File.content disk (files j) = [] := by
  induction n generalizing written with
  | zero => exact fun i below => absurd below (Nat.not_lt_zero i)
  | succ n ih =>
      have lines' : ∀ i, i < n → newLine ∉ File.content disk (files i) :=
        fun i below => lines i (Nat.lt_succ_of_lt below)
      have empty' : ∀ i, i < n → files i = temp → File.content disk (files i) = [] :=
        fun i below => empty i (Nat.lt_succ_of_lt below)
      have ofNewest := filter_lines (lines n (Nat.lt_succ_self n))
      rw [copyFiles_succ, joined] at exact_
      have size := @length_copyFiles (fun _ => 1) files disk temp
        (written ++ (seen (fun _ => 1) files disk temp written n).filter (· != newLine)) n
        lines' empty'
      rw [exact_, List.length_append, List.length_append, List.length_append] at size
      -- No more is read from this generation than it has had.
      have reads : (seen (fun _ => 1) files disk temp written n).filter (· != newLine) =
          File.content disk (files n) ∧ (files n = temp → written = []) := by
        by_cases same : files n = temp
        · have isEmpty := empty n (Nat.lt_succ_self n) same
          have front : newLine ∉ written.take 1 := fun member =>
            visible (List.mem_of_mem_take member)
          rw [seen, if_pos same, filter_lines front, isEmpty, List.length_nil] at size
          have nothing : written.take 1 = [] := List.eq_nil_of_length_eq_zero (by omega)
          have unwritten : written = [] := by
            cases written with
            | nil => rfl
            | cons => cases nothing
          rw [seen, if_pos same, nothing, isEmpty]
          exact ⟨rfl, fun _ => unwritten⟩
        · rw [seen, if_neg same]
          exact ⟨ofNewest, fun same' => absurd same' same⟩
      rw [reads.1, ← List.append_assoc] at exact_
      have visible' : newLine ∉ written ++ File.content disk (files n) := by
        rw [List.mem_append, not_or]
        exact ⟨visible, lines n (Nat.lt_succ_self n)⟩
      have older := ih lines' visible' empty' exact_
      intro i below same
      rcases Nat.lt_succ_iff_lt_or_eq.mp below with known | rfl
      · obtain ⟨nothing, between⟩ := older i known same
        rw [List.append_eq_nil_iff] at nothing
        refine ⟨nothing.1, fun j newer below' => ?_⟩
        rcases Nat.lt_succ_iff_lt_or_eq.mp below' with known' | rfl
        · exact between j newer known'
        · exact nothing.2
      · refine ⟨reads.2 same, fun j newer below' => ?_⟩
        obtain rfl := Nat.le_antisymm (Nat.le_of_lt_succ below') newer
        exact empty j below same

/-- The temporary file is truncated before anything is read. -/
theorem copyFiles_created : copyFiles reached files (File.createNewFile disk temp) temp n written =
    copyFiles reached files disk temp n written := by
  induction n generalizing written with
  | zero => rfl
  | succ n ih =>
      have reads : seen reached files (File.createNewFile disk temp) temp written n =
          seen reached files disk temp written n := by
        rw [seen, seen]
        split
        case isTrue => rfl
        case isFalse other =>
          rw [File.content, File.createNewFile, Function.update_of_ne other, File.content]
      rw [copyFiles_succ, copyFiles_succ, reads, ih]

theorem mem_contents_iff {byte : UInt8} : byte ∈ contents files n disk ↔
    ∃ i, i < n ∧ byte ∈ File.content disk (files i) := by
  induction n with
  | zero => exact iff_of_false List.not_mem_nil fun ⟨i, below, _⟩ => Nat.not_lt_zero i below
  | succ n ih =>
      rw [contents] at ih ⊢
      rw [joined, List.mem_append, ih]
      constructor
      · rintro (inOldest | ⟨i, below, member⟩)
        · exact ⟨n, Nat.lt_succ_self n, inOldest⟩
        · exact ⟨i, Nat.lt_succ_of_lt below, member⟩
      · rintro ⟨i, below, member⟩
        rcases Nat.lt_succ_iff_lt_or_eq.mp below with known | rfl
        · exact .inr ⟨i, known, member⟩
        · exact .inl member

/-- The files are copied as they are, whatever has reached the temporary file, if and only if they
have no line ends and nothing is read from the temporary file. -/
theorem copies_iff : (∀ reached, copyFiles reached files disk temp n [] = contents files n disk) ↔
    newLine ∉ contents files n disk ∧
      ∀ i j, i ≤ j → j < n → files i = temp → File.content disk (files j) = [] := by
  constructor
  · intro copies
    have unreached : joined (fun i => (if files i = temp then [] else
        File.content disk (files i)).filter (· != newLine)) n = contents files n disk := by
      rw [← copies fun _ => 0, copyFiles_unreached, List.nil_append]
    have parts := eq_of_joined_eq (fun i _ => by
      split
      · exact List.nil_sublist _
      · exact List.filter_sublist) unreached
    have empty : ∀ i, i < n → files i = temp → File.content disk (files i) = [] := by
      intro i below same
      have part := parts i below
      rw [if_pos same] at part
      exact part.symm
    have lines : ∀ i, i < n → newLine ∉ File.content disk (files i) := by
      intro i below member
      have part := parts i below
      rw [← part] at member
      exact bne_iff_ne.mp (List.mem_filter.mp member).2 rfl
    refine ⟨?_, fun i j newer below same => ?_⟩
    · rw [mem_contents_iff]
      exact fun ⟨i, below, member⟩ => lines i below member
    · exact (nothing_reached lines List.not_mem_nil empty (copies fun _ => 1) i
        (Nat.lt_of_le_of_lt newer below) same).2 j newer below
  · rintro ⟨lines, apart⟩ reached
    rw [copyFiles_eq (fun i below member => lines (mem_contents_iff.mpr ⟨i, below, member⟩)) apart
      (fun _ => rfl), List.nil_append]
    rfl

end Copy

section Dump

variable {userDir : Option (List UInt8)} {logDirectory : Path} {fileName : List UInt8}
  {st : LogFiles}

theorem dump_ok {temp : Path} (isTemp : tempFile userDir (st.handler.mFiles 0) = .ok temp)
    (reached : Nat → Nat) :
    ∃ st', st.dump reached userDir logDirectory (some fileName) = .ok (true, st') ∧
      st'.disk (File.ofDir logDirectory fileName) =
        some (copyFiles reached st.handler.mFiles st.disk temp st.handler.mCount []) := by
  have kept := keeps_flush { st with disk := File.createNewFile st.disk temp }
  have present (content : List UInt8) (disk : FileSystem) :
      File.exists (Function.update disk temp (some content)) temp = true := by
    rw [File.exists, Function.update_self]
    rfl
  rw [dump, isTemp]
  refine ⟨_, congrArg (fun renamed => Except.ok (renamed, _)) (present _ _), ?_⟩
  rw [disk_flush, kept.mFiles, kept.mCount, copyFiles_created, File.renameTo, Function.update_self]
  exact Function.update_self _ _ _

/-- There is a path for the temporary file if the newest file is in a directory. -/
theorem tempFile_ok_iff (userDir : Option (List UInt8)) (file : Path) :
    (∃ temp, tempFile userDir file = .ok temp) ↔
      ∃ dir, File.getParentFile file = .ok (some dir) := by
  cases parent : File.getParentFile file with
  | error thrown =>
      rw [tempFile, parent]
      exact iff_of_false (fun ⟨_, isTemp⟩ => by cases isTemp) fun ⟨_, isDir⟩ => by cases isDir
  | ok found =>
      have nonempty : found ≠ none → file ≠ [] := by
        rintro some_ rfl
        cases parent
        exact some_ rfl
      cases found with
      | none =>
          refine iff_of_false (fun ⟨temp, isTemp⟩ => ?_) fun ⟨_, isDir⟩ => by cases isDir
          rw [tempFile, parent] at isTemp
          cases absolute : File.getAbsolutePath userDir file with
          | error thrown =>
              rw [absolute] at isTemp
              cases isTemp
          | ok path =>
              rw [absolute] at isTemp
              cases isTemp
      | some dir =>
          obtain ⟨path, absolute⟩ :=
            File.getAbsolutePath_some (nonempty (Option.some_ne_none dir)) userDir
          rw [tempFile, parent, absolute]
          exact iff_of_true ⟨_, rfl⟩ ⟨dir, rfl⟩

theorem dumps_iff : st.Dumps userDir logDirectory fileName ↔ Copyable userDir st := by
  by_cases parent : ∃ dir, File.getParentFile (st.handler.mFiles 0) = .ok (some dir)
  · obtain ⟨temp, isTemp⟩ := (tempFile_ok_iff userDir _).mpr parent
    have copies : st.Dumps userDir logDirectory fileName ↔
        ∀ reached, copyFiles reached st.handler.mFiles st.disk temp st.handler.mCount [] =
          contents st.handler.mFiles st.handler.mCount st.disk := by
      refine forall_congr' fun reached => ?_
      obtain ⟨st', dumped, content⟩ := @dump_ok userDir logDirectory fileName st temp isTemp reached
      constructor
      · rintro ⟨other, dumped', content'⟩
        cases dumped.symm.trans dumped'
        exact Option.some.inj (content.symm.trans content')
      · intro same
        exact ⟨st', dumped, content.trans (congrArg some same)⟩
    have isFile (i : Nat) : tempFile userDir (st.handler.mFiles 0) = .ok (st.handler.mFiles i) ↔
        st.handler.mFiles i = temp := by
      rw [isTemp, Except.ok.injEq, eq_comm]
    rw [copies, copies_iff]
    constructor
    · rintro ⟨lines, apart⟩
      exact ⟨parent, lines, fun i j newer below same => apart i j newer below ((isFile i).mp same)⟩
    · rintro ⟨_, lines, apart⟩
      exact ⟨lines, fun i j newer below same => apart i j newer below ((isFile i).mpr same)⟩
  · refine iff_of_false (fun dumps => ?_) fun copyable => parent copyable.parent
    obtain ⟨st', dumped, _⟩ := dumps fun _ => 0
    cases isTemp : tempFile userDir (st.handler.mFiles 0) with
    | ok temp => exact parent ((tempFile_ok_iff userDir _).mp ⟨temp, isTemp⟩)
    | error thrown =>
        rw [dump, isTemp] at dumped
        cases dumped

end Dump

/-- `clear` leaves the newest file only if there are no older ones, and `dump` copies the files as
they are if and only if they have no line ends, are in a directory, and none of them is used as the
temporary file. -/
theorem clears_and_dumps_iff (userDir : Option (List UInt8)) (logDirectory : Path)
    (fileName : List UInt8) (st : LogFiles) :
    (st.Clears ↔ ∀ i, 0 < i → i < st.handler.mCount →
      st.disk (st.handler.mFiles i) = none ∧ st.handler.mFiles i ≠ st.handler.mFiles 0) ∧
    (st.Dumps userDir logDirectory fileName ↔ Copyable userDir st) :=
  ⟨clears_iff st, dumps_iff⟩

/-- Two files with a line each. -/
def twoLines : LogFiles where
  handler := {
    mFiles := fun generation => String.valueOf "/logs/" ++ Integer.decimal generation
    mCount := 2
    mAppend := true
    mLimit := 100
    mBufferSize := 0
    mDataVolumeLimit := 0
    mPriority := FileHandler.INFO
    mFlushSize := 0
    mDataVolume := 0
    mWriter := some { file := String.valueOf "/logs/0", mSize := 3 } }
  disk := fun path =>
    if path = String.valueOf "/logs/0" then some (String.valueOf "b\r\n")
    else if path = String.valueOf "/logs/1" then some (String.valueOf "a\r\n")
    else none
  dataVolume := 0

/-- The older file stays when the files are cleared, and the lines are dumped without their ends. -/
theorem older_stays_and_lines_join :
    ¬twoLines.Clears ∧
      ¬twoLines.Dumps none (String.valueOf "/logs") (String.valueOf "dump") := by
  constructor
  · intro clears
    have absent := (clears_iff twoLines).mp clears 1 (by decide) (by decide)
    cases absent.1
  · intro dumps
    exact (dumps_iff.mp dumps).lines (by decide)

end LogFiles

end Mindroid
