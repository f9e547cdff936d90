import Mindroid.Util.Logging.FileHistory
import Mindroid.Util.Logging.FileNames

/-!
# The files of the generations

The names of two generations are one template that is filled with two numbers.
-/

set_option autoImplicit false

namespace Mindroid

open Foundation

namespace FileHandler

/-- The file that `initOutputFiles` adds for a generation. -/
def outputFile (homePath pattern : List UInt8) (mCount : Int32) (fuel : Nat)
    (generation : UInt32) : Except Failure Path := do
  File.ofPath (← parseFileName homePath pattern mCount fuel generation)

/-- The loop in `parseFileName` ends with `hasGeneration`. -/
def FindsGeneration (homePath pattern : List UInt8) (fuel : Nat) (gen : UInt32) : Prop :=
  ∃ last, loop (parseNext homePath pattern gen) .endless fuel .start = .ok last ∧
    last.hasGeneration = true

/-- Two texts are one template with the numbers of two generations, and it has holes on a
condition. -/
def Filled (g h : UInt32) (holed : Prop) (text text' : List UInt8) : Prop :=
  ∃ template, text = fill template (Integer.decimal g.toNat) ∧
    text' = fill template (Integer.decimal h.toNat) ∧ (.hole ∈ template ↔ holed)

/-- What the loop has done for two generations. -/
structure SameScan (g h : UInt32) (st st' : NameScan) : Prop where
  curChar : st.curChar = st'.curChar
  hasGeneration : st.hasGeneration = st'.hasGeneration
  filled : Filled g h (st.hasGeneration = true) st.s st'.s
  visible : ∀ c ∈ st.s ++ st'.s, c ≠ 0

section Templates

variable {g h : UInt32} {holed : Prop} {text text' rest : List UInt8}

theorem Filled.same_iff (filled : Filled g h holed text text') (different : g ≠ h) :
    text = text' ↔ ¬holed := by
  rcases filled with ⟨template, rfl, rfl, hasHole⟩
  rw [← hasHole]
  constructor
  · intro same some
    have numbers := Integer.decimal_injective (fill_injective some same)
    exact different (UInt32.toNat_inj.mp numbers)
  · exact fun none => fill_of_no_hole none _ _

theorem separatorChar_not_mem_decimal (n : Nat) : File.separatorChar ∉ Integer.decimal n := by
  intro member
  rcases Integer.mem_decimal member with ⟨digit, bounded, same⟩
  have other : ∀ digit < 10, File.separatorChar ≠ Integer.digitChar digit := by decide
  exact other digit bounded same

/-- There are as many separators in the one text as in the other. -/
theorem Filled.count_separator (filled : Filled g h holed text text') :
    text.count File.separatorChar = text'.count File.separatorChar := by
  rcases filled with ⟨template, rfl, rfl, _⟩
  exact count_fill (separatorChar_not_mem_decimal _) (separatorChar_not_mem_decimal _)

theorem Filled.append_text (filled : Filled g h holed text text') (rest : List UInt8) :
    Filled g h holed (text ++ rest) (text' ++ rest) := by
  rcases filled with ⟨template, rfl, rfl, hasHole⟩
  refine ⟨template ++ [.text rest], ?_, ?_, ?_⟩
  · simp [Piece.fill]
  · simp [Piece.fill]
  · rw [List.mem_append, List.mem_singleton, hasHole]
    simp

theorem Filled.append_hole (filled : Filled g h holed text text') :
    Filled g h True (text ++ Integer.decimal g.toNat) (text' ++ Integer.decimal h.toNat) := by
  rcases filled with ⟨template, rfl, rfl, _⟩
  refine ⟨template ++ [.hole], ?_, ?_, ?_⟩
  · simp [Piece.fill]
  · simp [Piece.fill]
  · simp

end Templates

/-! ## The loop -/

section Scan

variable {homePath pattern before : List UInt8} {c : UInt8} {g h : UInt32} {st st' : NameScan}

theorem hole_mem_pieces : .hole ∈ pieces homePath before c ↔ c = 103 := by
  rw [pieces]
  by_cases isGeneration : c = 103
  · simp [isGeneration]
  · rw [if_neg isGeneration]
    split
    · simp [isGeneration]
    · split <;> simp [isGeneration]

theorem visible_pieces (plain : Plain before) {chars : List UInt8}
    (member : .text chars ∈ pieces homePath before c) : ∀ c ∈ chars, c ≠ 0 := by
  have visible : ∀ c ∈ before, c ≠ 0 := fun c member => (plain c member).2
  have percentVisible : ∀ c ∈ [percent], c ≠ 0 := by simp [percent]
  have separatorVisible : ∀ c ∈ File.separator, c ≠ 0 := by
    simp [File.separator, File.separatorChar]
  rw [pieces] at member
  split at member
  · simp only [List.mem_cons, Piece.text.injEq, reduceCtorEq, List.not_mem_nil, or_false] at member
    rcases member with rfl
    exact visible
  · split at member
    · simp only [List.mem_cons, Piece.text.injEq, List.not_mem_nil, or_false] at member
      rcases member with rfl | rfl | rfl
      · exact visible
      · exact String.nonzero_cStr homePath
      · split
        · exact fun c none => absurd none List.not_mem_nil
        · exact separatorVisible
    · split at member
      · simp only [List.mem_cons, Piece.text.injEq, List.not_mem_nil, or_false] at member
        rcases member with rfl | rfl
        · exact visible
        · exact percentVisible
      · simp only [List.mem_cons, Piece.text.injEq, List.not_mem_nil, or_false] at member
        rcases member with rfl
        exact List.forall_mem_append.mpr ⟨visible, percentVisible⟩

theorem visible_fill (plain : Plain before) (n : Nat) :
    ∀ other ∈ fill (pieces homePath before c) (Integer.decimal n), other ≠ 0 := by
  intro other member
  rcases mem_fill member with inNumber | ⟨chars, isPiece, inText⟩
  · exact Integer.nonzero_decimal n other inNumber
  · exact visible_pieces plain isPiece other inText

/-- The loops for two generations go on together. -/
theorem sameScan_next (same : SameScan g h st st') :
    Related (SameScan g h) (SameScan g h) (parseNext homePath pattern g st)
      (parseNext homePath pattern h st') := by
  rcases plain_or_found (pattern.drop st.curChar.toNat) with absent | ⟨before, behind, split, plain⟩
  · rw [parseNext_ends absent, parseNext_ends (same.curChar ▸ absent)]
    exact same
  cases behind with
  | nil =>
      rw [parseNext_stuck split plain, parseNext_stuck (same.curChar ▸ split) plain]
      exact same
  | cons c behind =>
      rw [parseNext_escape split plain, parseNext_escape (same.curChar ▸ split) plain]
      refine ⟨congrArg UInt32.ofNat ?_, congrArg (· || c == 103) same.hasGeneration, ?_, ?_⟩
      · rw [same.curChar]
      · rcases same.filled with ⟨template, isName, isName', hasHole⟩
        refine ⟨template ++ pieces homePath before c, ?_, ?_, ?_⟩
        · rw [fill_append, isName]
        · rw [fill_append, isName']
        · rw [List.mem_append, hasHole, hole_mem_pieces, Bool.or_eq_true, beq_iff_eq]
      · have visible := List.forall_mem_append.mp same.visible
        simp only [List.forall_mem_append]
        exact ⟨⟨visible.1, visible_fill plain _⟩, visible.2, visible_fill plain _⟩

theorem sameScan_start (g h : UInt32) : SameScan g h .start .start where
  curChar := rfl
  hasGeneration := rfl
  filled := ⟨[], rfl, rfl, iff_of_false List.not_mem_nil Bool.false_ne_true⟩
  visible := fun _ none => absurd none List.not_mem_nil

end Scan

/-! ## The names -/

section Names

variable {homePath pattern : List UInt8} {mCount : Int32} {g h : UInt32} {last last' : NameScan}
variable {name name' : List UInt8}

/-- The name that the end of `parseFileName` makes. -/
def lastName (pattern : List UInt8) (gen : UInt32) (last : NameScan) : List UInt8 :=
  if last.hasGeneration then
    last.s ++ pattern.drop last.curChar.toNat
  else
    last.s ++ pattern.drop last.curChar.toNat ++ [46] ++ Integer.decimal gen.toNat

theorem parseFileName_ok (many : 1 < mCount) {fuel : Nat}
    (returns : parseFileName homePath pattern mCount fuel g = .ok name) :
    ∃ last, loop (parseNext homePath pattern g) .endless fuel .start = .ok last ∧
      name = lastName pattern g last := by
  cases ends : loop (parseNext homePath pattern g) .endless fuel .start with
  | error thrown =>
      rw [parseFileName, replace_self, ends] at returns
      cases returns
  | ok last =>
      refine ⟨last, rfl, ?_⟩
      by_cases inside : last.curChar.toNat ≤ pattern.length
      · rw [parseFileName_of_loop ends inside, Except.ok.injEq] at returns
        rw [lastName, ← returns]
        have decimal := String.cStr_of_nonzero (Integer.nonzero_decimal g.toNat)
        have dot : String.cStr [46] = [46] := by decide
        cases last.hasGeneration with
        | true => rfl
        | false => simp [many, String.append, decimal, dot]
      · have thrown : String.appendPart last.s pattern last.curChar.toNat
            (pattern.length - last.curChar.toNat) = .error .indexOutOfBoundsException :=
          if_pos (by omega)
        rw [parseFileName, replace_self, ends] at returns
        change String.appendPart _ _ _ _ >>= _ = _ at returns
        rw [thrown] at returns
        cases returns

/-- The whole name depends on the generation. -/
theorem lastName_filled (same : SameScan g h last last') :
    Filled g h True (lastName pattern g last) (lastName pattern h last') := by
  rw [lastName, lastName, ← same.hasGeneration, ← same.curChar]
  split
  case isTrue found =>
    rcases same.filled.append_text (pattern.drop last.curChar.toNat) with
      ⟨template, isName, isName', hasHole⟩
    exact ⟨template, isName, isName', hasHole.trans (iff_true_intro found)⟩
  case isFalse => exact ((same.filled.append_text _).append_text [46]).append_hole

/-- What the functions of the C library see of it does if the generation is in front of a NUL. -/
theorem cStr_lastName_filled (same : SameScan g h last last') :
    Filled g h (last.hasGeneration = true ∨ 0 ∉ lastName pattern g last)
      (String.cStr (lastName pattern g last)) (String.cStr (lastName pattern h last')) := by
  have visible := List.forall_mem_append.mp same.visible
  have seen := same.filled.append_text (String.cStr (pattern.drop last.curChar.toNat))
  by_cases found : last.hasGeneration = true
  · rw [lastName, lastName, ← same.hasGeneration, ← same.curChar, if_pos found, if_pos found,
      String.cStr_append visible.1, String.cStr_append visible.2]
    rcases seen with ⟨template, isName, isName', hasHole⟩
    exact ⟨template, isName, isName', hasHole.trans (iff_of_true found (.inl found))⟩
  · by_cases hasNul : 0 ∈ pattern.drop last.curChar.toNat
    · have hidden : ∀ {front : List UInt8} (number : List UInt8), (∀ c ∈ front, c ≠ 0) →
          String.cStr (front ++ pattern.drop last.curChar.toNat ++ [46] ++ number) =
            front ++ String.cStr (pattern.drop last.curChar.toNat) := by
        intro front number nonzero
        rw [List.append_assoc, List.append_assoc, String.cStr_append nonzero,
          String.cStr_append_of_nul hasNul]
      have inName : 0 ∈ lastName pattern g last := by
        rw [lastName, if_neg found]
        simp [hasNul]
      rw [lastName, lastName, ← same.hasGeneration, ← same.curChar, if_neg found, if_neg found,
        hidden _ visible.1, hidden _ visible.2]
      rcases seen with ⟨template, isName, isName', hasHole⟩
      refine ⟨template, isName, isName', hasHole.trans (iff_of_false found ?_)⟩
      rintro (isFound | lacks)
      · exact found isFound
      · rw [lastName, if_neg found] at inName
        exact lacks inName
    · have nonzero : ∀ {front : List UInt8} (n : Nat), (∀ c ∈ front, c ≠ 0) →
          ∀ c ∈ front ++ pattern.drop last.curChar.toNat ++ [46] ++ Integer.decimal n, c ≠ 0 := by
        intro front n nonzero
        simp only [List.forall_mem_append]
        refine ⟨⟨⟨nonzero, fun c member isNul => hasNul (isNul ▸ member)⟩, ?_⟩,
          Integer.nonzero_decimal n⟩
        simp
      have first : ∀ c ∈ lastName pattern g last, c ≠ 0 := by
        rw [lastName, if_neg found]
        exact nonzero _ visible.1
      have second : ∀ c ∈ lastName pattern h last', c ≠ 0 := by
        rw [lastName, ← same.hasGeneration, ← same.curChar, if_neg found]
        exact nonzero _ visible.2
      rw [String.cStr_of_nonzero first, String.cStr_of_nonzero second]
      rcases lastName_filled same with ⟨template, isName, isName', hasHole⟩
      exact ⟨template, isName, isName', hasHole.trans
        (iff_of_true trivial (.inr fun isNul => first 0 isNul rfl))⟩

end Names

/-! ## The paths -/

section Paths

variable {name path other : List UInt8}

theorem ofPath_cases (isPath : File.ofPath name = .ok path) :
    name = path ∨ name = path ++ File.separator := by
  rw [File.ofPath_eq, Except.ok.injEq] at isPath
  split at isPath
  case isTrue strips =>
    obtain ⟨front, rfl⟩ := strips.2
    right
    rw [← isPath]
    exact congrArg (· ++ File.separator) List.dropLast_concat.symm
  case isFalse => exact .inl isPath

theorem cStr_ofPath_cases (isPath : File.ofPath name = .ok path) :
    String.cStr name = String.cStr path ∨
      String.cStr name = String.cStr path ++ File.separator := by
  rcases ofPath_cases isPath with rfl | rfl
  · exact .inl rfl
  · by_cases hasNul : 0 ∈ path
    · exact .inl (String.cStr_append_of_nul hasNul _)
    · have nonzero : ∀ c ∈ path, c ≠ 0 := fun c member isNul => hasNul (isNul ▸ member)
      right
      rw [String.cStr_append nonzero, String.cStr_of_nonzero nonzero, File.cStr_separator]

/-- A separator at the end of only one of two names is one more in it. -/
theorem eq_of_count {name' : List UInt8} (first : name = path ∨ name = path ++ File.separator)
    (second : name' = path ∨ name' = path ++ File.separator)
    (same : name.count File.separatorChar = name'.count File.separatorChar) : name = name' := by
  have more : (path ++ File.separator).count File.separatorChar =
      path.count File.separatorChar + 1 := by
    rw [List.count_append]
    rfl
  rcases first with rfl | rfl
  · rcases second with rfl | rfl
    · rfl
    · rw [more] at same
      omega
  · rcases second with rfl | rfl
    · rw [more] at same
      omega
    · rfl

end Paths

/-- What two generations have, when both names are made. -/
theorem names_filled {homePath pattern name name' : List UInt8} {mCount : Int32} (many : 1 < mCount)
    {fuel fuel' : Nat} {g h : UInt32}
    (first : parseFileName homePath pattern mCount fuel g = .ok name)
    (second : parseFileName homePath pattern mCount fuel' h = .ok name') :
    Filled g h True name name' ∧
      Filled g h (FindsGeneration homePath pattern fuel g ∨ 0 ∉ name) (String.cStr name)
        (String.cStr name') ∧
      (FindsGeneration homePath pattern fuel g ∨
        (∃ front, name = front ++ Integer.decimal g.toNat) ∧
          ∃ front, name' = front ++ Integer.decimal h.toNat) := by
  rcases parseFileName_ok many first with ⟨last, ends, rfl⟩
  rcases parseFileName_ok many second with ⟨last', ends', rfl⟩
  have same : SameScan g h last last' :=
    loop_related (SameScan g h) (SameScan g h) (fun _ _ same => sameScan_next same)
      (sameScan_start g h) (loop_mono (Nat.le_max_left fuel fuel') ends)
      (loop_mono (Nat.le_max_right fuel fuel') ends')
  have finds : FindsGeneration homePath pattern fuel g ↔ last.hasGeneration = true := by
    constructor
    · rintro ⟨_, alsoEnds, found⟩
      rw [ends, Except.ok.injEq] at alsoEnds
      rwa [alsoEnds]
    · exact fun found => ⟨last, ends, found⟩
  rw [finds]
  refine ⟨lastName_filled same, cStr_lastName_filled same, ?_⟩
  by_cases found : last.hasGeneration = true
  · exact .inl found
  · rw [lastName, lastName, ← same.hasGeneration, if_neg found, if_neg found]
    exact .inr ⟨⟨_, rfl⟩, _, rfl⟩

/-- A NUL in a name comes from the pattern. -/
theorem nul_not_mem_name {homePath pattern name : List UInt8} {mCount : Int32} (many : 1 < mCount)
    {fuel : Nat} {g : UInt32} (named : parseFileName homePath pattern mCount fuel g = .ok name)
    (lacks : 0 ∉ pattern) : 0 ∉ name := by
  rcases parseFileName_ok many named with ⟨last, ends, rfl⟩
  have same : SameScan g g last last :=
    loop_related (SameScan g g) (SameScan g g) (fun _ _ same => sameScan_next same)
      (sameScan_start g g) ends ends
  have inScan : 0 ∉ last.s := fun member => same.visible 0 (List.mem_append_left _ member) rfl
  have inRest : 0 ∉ pattern.drop last.curChar.toNat := fun member =>
    lacks (List.mem_of_mem_drop member)
  have inNumber : 0 ∉ Integer.decimal g.toNat := fun member => Integer.nonzero_decimal _ 0 member rfl
  rw [lastName]
  split <;> simp [inScan, inRest, inNumber]

section Files

variable {homePath pattern name name' path path' : List UInt8} {mCount : Int32} {fuel fuel' : Nat}
variable {g h : UInt32}

theorem outputFile_eq (named : parseFileName homePath pattern mCount fuel g = .ok name) :
    outputFile homePath pattern mCount fuel g = File.ofPath name := by
  rw [outputFile, named]
  rfl

theorem outputFile_ok (made : outputFile homePath pattern mCount fuel g = .ok path) :
    ∃ name, parseFileName homePath pattern mCount fuel g = .ok name ∧
      File.ofPath name = .ok path := by
  cases named : parseFileName homePath pattern mCount fuel g with
  | error thrown =>
      rw [outputFile, named] at made
      cases made
  | ok name => exact ⟨name, rfl, (outputFile_eq named).symm.trans made⟩

/-- A path that ends with a number is kept as it is. -/
theorem ofPath_decimal (front : List UInt8) (n : Nat) :
    File.ofPath (front ++ Integer.decimal n) = .ok (front ++ Integer.decimal n) := by
  apply File.ofPath_other
  intro ends
  have isLast : File.separator <:+ Integer.decimal n :=
    List.suffix_of_suffix_length_le ends (List.suffix_append _ _)
      (List.length_pos_iff.mpr (Integer.decimal_ne_nil n))
  exact separatorChar_not_mem_decimal n (isLast.subset (List.mem_singleton_self _))

/-- Two generations with the same path are one. -/
theorem outputFile_injective (many : 1 < mCount)
    (first : outputFile homePath pattern mCount fuel g = .ok path)
    (second : outputFile homePath pattern mCount fuel' h = .ok path) : g = h := by
  rcases outputFile_ok first with ⟨name, named, isPath⟩
  rcases outputFile_ok second with ⟨name', named', isPath'⟩
  have filled := (names_filled many named named').1
  have sameName := eq_of_count (ofPath_cases isPath) (ofPath_cases isPath') filled.count_separator
  by_contra different
  exact (filled.same_iff different).mp sameName trivial

/-- The files of a handler are distinct. -/
theorem distinct_outputFiles {files : Nat → Path} {count : Int32}
    (made : ∀ i < count.toNatClampNeg,
      outputFile homePath pattern count fuel (UInt32.ofNat i) = .ok (files i)) :
    LogFiles.Distinct files count.toNatClampNeg := by
  intro i j known known' same
  have bounded : count.toNatClampNeg < 2 ^ 31 := by
    have := count.toInt_lt
    change count.toInt.toNat < 2 ^ 31
    omega
  by_cases several : count.toNatClampNeg ≤ 1
  · omega
  · have many : 1 < count := by
      rw [Int32.lt_iff_toInt_lt]
      change ¬count.toInt.toNat ≤ 1 at several
      change (1 : Int) < _
      omega
    have sameGeneration := outputFile_injective many (made i known) (same ▸ made j known')
    have numbers := congrArg UInt32.toNat sameGeneration
    have small : ∀ {k : Nat}, k < count.toNatClampNeg → k < 2 ^ 32 := fun less => by omega
    rwa [UInt32.toNat_ofNat_of_lt' (small known), UInt32.toNat_ofNat_of_lt' (small known')]
      at numbers

/-- Two generations have different names and paths.  They are different files for the operating
system too, unless no `%g` is found and there is a NUL in front of the generation. -/
theorem generations_differ (many : 1 < mCount) (different : g ≠ h)
    (first : parseFileName homePath pattern mCount fuel g = .ok name)
    (second : parseFileName homePath pattern mCount fuel' h = .ok name') :
    name ≠ name' ∧ ∃ path path', outputFile homePath pattern mCount fuel g = .ok path ∧
      outputFile homePath pattern mCount fuel' h = .ok path' ∧ path ≠ path' ∧
        (0 ∉ pattern → String.cStr path ≠ String.cStr path') ∧
        (String.cStr path ≠ String.cStr path' ↔
          FindsGeneration homePath pattern fuel g ∨ 0 ∉ name) := by
  rcases names_filled many first second with ⟨whole, seen, ends⟩
  obtain ⟨path, isPath⟩ : ∃ path, File.ofPath name = .ok path := ⟨_, File.ofPath_eq name⟩
  obtain ⟨path', isPath'⟩ : ∃ path', File.ofPath name' = .ok path' := ⟨_, File.ofPath_eq name'⟩
  have made := (outputFile_eq first).trans isPath
  have made' := (outputFile_eq second).trans isPath'
  have exact_when : String.cStr path ≠ String.cStr path' ↔
      FindsGeneration homePath pattern fuel g ∨ 0 ∉ name := by
    constructor
    · intro differ
      by_contra hidden
      have sameNames := (seen.same_iff different).mpr hidden
      rcases ends with found | ⟨⟨front, rfl⟩, front', rfl⟩
      · exact hidden (.inl found)
      · rw [ofPath_decimal, Except.ok.injEq] at isPath isPath'
        subst isPath isPath'
        exact differ sameNames
    · intro shown same
      have cases' := cStr_ofPath_cases isPath'
      rw [← same] at cases'
      have sameNames := eq_of_count (cStr_ofPath_cases isPath) cases' seen.count_separator
      exact (seen.same_iff different).mp sameNames shown
  refine ⟨fun same => (whole.same_iff different).mp same trivial, path, path', made, made', ?_, ?_,
    exact_when⟩
  · rintro rfl
    exact different (outputFile_injective many made made')
  · exact fun lacks => exact_when.mpr (.inr (nul_not_mem_name many first lacks))

/-- A pattern with two escapes. -/
theorem generations_differ_app :
    ([47, 97, 48] : List UInt8) ≠ [47, 97, 49] ∧ ∃ path path',
      outputFile [47] [37, 104, 97, 37, 103] 2 3 0 = .ok path ∧
      outputFile [47] [37, 104, 97, 37, 103] 2 3 1 = .ok path' ∧ path ≠ path' ∧
        ((0 : UInt8) ∉ [37, 104, 97, 37, 103] → String.cStr path ≠ String.cStr path') ∧
        (String.cStr path ≠ String.cStr path' ↔
          FindsGeneration [47] [37, 104, 97, 37, 103] 3 0 ∨ (0 : UInt8) ∉ [47, 97, 48]) := by
  have many : (1 : Int32) < 2 := by decide
  have different : (0 : UInt32) ≠ 1 := by decide
  have first : parseFileName [47] [37, 104, 97, 37, 103] 2 3 0 = .ok [47, 97, 48] := by
    decide +kernel
  have second : parseFileName [47] [37, 104, 97, 37, 103] 2 3 1 = .ok [47, 97, 49] := by
    decide +kernel
  exact generations_differ many different first second

/-- The generation is behind the NUL that ends the names. -/
theorem same_behind_nul : ∃ path path', outputFile [47] [97, 0] 2 1 0 = .ok path ∧
    outputFile [47] [97, 0] 2 1 1 = .ok path' ∧ String.cStr path = String.cStr path' :=
  ⟨[97, 0, 46, 48], [97, 0, 46, 49], by decide +kernel, by decide +kernel, by decide⟩

end Files

end FileHandler

end Mindroid
