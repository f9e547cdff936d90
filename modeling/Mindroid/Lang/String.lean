import Mathlib.Algebra.GroupWithZero.Nat
import Mathlib.Algebra.Ring.Int.Defs
import Mathlib.Data.List.Basic
import Mathlib.Data.List.TakeWhile
import Mindroid.Foundation.Loop

/-!
# Strings

A string is the list of its bytes.  `length` counts all of them, but the functions of the C
library see only those before the first NUL.
-/

set_option autoImplicit false

namespace Mindroid

open Foundation

/-- What ends a function that does not return: an exception, the use of a null pointer or a
loop without an end. -/
inductive Failure where
  | indexOutOfBoundsException
  | numberFormatException (message : List UInt8)
  | illegalArgumentException (message : List UInt8)
  | uriSyntaxException (message : List UInt8)
  | remoteException (message : List UInt8)
  | nullPointer
  | endless
  deriving DecidableEq

namespace String

/-- `String::valueOf` of a literal. -/
def valueOf (literal : String) : List UInt8 :=
  literal.toList.map fun c => UInt8.ofNat c.toNat

/-- What `%s` prints, and what the functions of the C library see. -/
def cStr (string : List UInt8) : List UInt8 :=
  string.takeWhile fun c => c != 0

def equals (string other : List UInt8) : Bool :=
  cStr string == cStr other

/-- A `char` as a number of the type `size_t`. -/
def ofChar (c : UInt8) : UInt64 :=
  c.toInt8.toInt64.toUInt64

def hashCode (string : List UInt8) : UInt64 :=
  string.foldl (fun hash c => 31 * hash + ofChar c) 0

def tolower (c : UInt8) : UInt8 :=
  if 65 ≤ c && c ≤ 90 then c + 32 else c

def toLowerCase (string : List UInt8) : List UInt8 :=
  string.map tolower

def equalsIgnoreCase (string other : List UInt8) : Bool :=
  equals (toLowerCase string) (toLowerCase other)

def charAt (string : List UInt8) (index : Nat) : Except Failure UInt8 :=
  match string[index]? with
  | none => .error .indexOutOfBoundsException
  | some c => .ok c

def substringFrom (string : List UInt8) (beginIndex : Nat) : Except Failure (List UInt8) :=
  if beginIndex > string.length then
    .error .indexOutOfBoundsException
  else
    .ok (string.drop beginIndex)

def substring (string : List UInt8) (beginIndex endIndex : Nat) :
    Except Failure (List UInt8) :=
  if beginIndex > string.length ∨ beginIndex > endIndex ∨ endIndex > string.length then
    .error .indexOutOfBoundsException
  else
    .ok ((string.drop beginIndex).take (endIndex - beginIndex))

/-- `strchr`, which finds the NUL at the end too. -/
def indexOf (string : List UInt8) (c : UInt8) : Option Nat :=
  (cStr string ++ [0]).findIdx? (· == c)

/-- `indexOf` of a character, from an index on. -/
def indexOfFrom (string : List UInt8) (c : UInt8) (fromIndex : Nat) : Option Nat :=
  if fromIndex < string.length then
    (indexOf (string.drop fromIndex) c).map (fromIndex + ·)
  else
    none

/-- `strrchr`. -/
def lastIndexOf (string : List UInt8) (c : UInt8) : Option Nat :=
  ((cStr string ++ [0]).reverse.findIdx? (· == c)).map fun index => (cStr string).length - index

/-- `strstr`. -/
def strstr (needle : List UInt8) : List UInt8 → Option Nat
  | [] => if needle = [] then some 0 else none
  | c :: rest =>
      if needle.isPrefixOf (c :: rest) then some 0 else (strstr needle rest).map (· + 1)

/-- `indexOf` of a string. -/
def indexOfString (string separator : List UInt8) : Option Nat :=
  strstr separator (cStr string)

/-- `indexOf` of a string, from an index on. -/
def indexOfStringFrom (string separator : List UInt8) (fromIndex : Nat) : Option Nat :=
  if fromIndex < string.length then
    (strstr separator (cStr (string.drop fromIndex))).map (fromIndex + ·)
  else
    none

/-- The difference of two numbers of the type `size_t`. -/
def sizeSub (size offset : Nat) : Nat :=
  if offset ≤ size then size - offset else 2 ^ 64 - (offset - size)

/-- `strncmp` finds no difference. -/
def sameChars (string other : List UInt8) (len : Nat) : Bool :=
  (cStr string).take len == (cStr other).take len

def regionMatches (string : List UInt8) (toffset : Nat) (other : List UInt8)
    (ooffset len : Nat) : Bool :=
  if sizeSub other.length ooffset < len then
    false
  else if sizeSub string.length toffset < len then
    false
  else
    sameChars (string.drop toffset) (other.drop ooffset) len

/-- Whether a string starts with another one, as `strncmp` sees it. -/
def startsWith (string front : List UInt8) : Bool :=
  if string.length ≥ front.length then
    sameChars string front front.length
  else
    false

def endsWith (string suffix : List UInt8) : Bool :=
  if string.length ≥ suffix.length then
    sameChars (string.drop (string.length - suffix.length)) suffix suffix.length
  else
    false

/-- `append` of a string, which is read up to its first NUL. -/
def append (string other : List UInt8) : List UInt8 :=
  string ++ cStr other

/-- `append` of a part of a string, which is copied as it is. -/
def appendPart (string other : List UInt8) (offset size : Nat) : Except Failure (List UInt8) :=
  if offset + size > other.length then
    .error .indexOutOfBoundsException
  else
    .ok (string ++ (other.drop offset).take size)

/-- `isspace`. -/
def isspace (c : UInt8) : Bool :=
  c == 32 || (9 ≤ c && c ≤ 13)

def trim (string : List UInt8) : List UInt8 :=
  ((string.dropWhile isspace).reverse.dropWhile isspace).reverse

/-- The local variables of `split`.  No index is -1. -/
structure Splitting where
  curIndex : Option Nat
  strings : List (List UInt8)

/-- One iteration of the loop in `split`. -/
def splitNext (string separator : List UInt8) (st : Splitting) :
    Except Failure (List (List UInt8) ⊕ Splitting) :=
  match st.curIndex with
  | none => .ok (.inl st.strings)
  | some prevCurIndex =>
      if prevCurIndex < string.length then
        match indexOfStringFrom string separator prevCurIndex with
        | some curIndex => do
            let piece ← substring string prevCurIndex curIndex
            pure (.inr ⟨some (curIndex + separator.length), st.strings ++ [piece]⟩)
        | none => do
            let piece ← substring string prevCurIndex string.length
            pure (.inr ⟨none, st.strings ++ [piece]⟩)
      else
        .ok (.inl st.strings)

def split (string separator : List UInt8) : Except Failure (List (List UInt8)) :=
  loop (splitNext string separator) .endless (string.length + 2) ⟨some 0, []⟩

/-! ## What is found -/

theorem cStr_cons (c : UInt8) (string : List UInt8) :
    cStr (c :: string) = if c = 0 then [] else c :: cStr string := by
  rw [cStr, List.takeWhile_cons]
  split
  case isTrue found =>
    rw [if_neg (bne_iff_ne.mp found)]
    rfl
  case isFalse found => rw [if_pos (bne_eq_false_iff_eq.mp (Bool.not_eq_true _ |>.mp found))]

theorem nonzero_cStr (text : List UInt8) : ∀ c ∈ cStr text, c ≠ 0 := by
  intro c member
  have visible : (c != 0) = true := List.mem_takeWhile_imp (p := fun c => c != 0) member
  exact bne_iff_ne.mp visible

theorem length_cStr_le (string : List UInt8) : (cStr string).length ≤ string.length :=
  (List.takeWhile_sublist _).length_le

theorem cStr_is_front (text : List UInt8) : cStr text <+: text :=
  List.takeWhile_prefix _

theorem substringFrom_ok {string : List UInt8} {beginIndex : Nat}
    (inside : beginIndex ≤ string.length) :
    substringFrom string beginIndex = .ok (string.drop beginIndex) :=
  if_neg (Nat.not_lt.mpr inside)

theorem substring_ok {string : List UInt8} {beginIndex endIndex : Nat}
    (ordered : beginIndex ≤ endIndex) (inside : endIndex ≤ string.length) :
    substring string beginIndex endIndex =
      .ok ((string.drop beginIndex).take (endIndex - beginIndex)) := by
  apply if_neg
  rintro (beyond | swapped | beyond)
  · exact absurd (Nat.le_trans ordered inside) (Nat.not_le.mpr beyond)
  · exact absurd ordered (Nat.not_le.mpr swapped)
  · exact absurd inside (Nat.not_le.mpr beyond)

/-- What is found ends inside the string. -/
theorem strstr_inside {needle string : List UInt8} {index : Nat}
    (found : strstr needle string = some index) : index + needle.length ≤ string.length := by
  induction string generalizing index with
  | nil =>
      rw [strstr] at found
      split at found
      case isTrue empty =>
        cases found
        rw [empty]
        exact Nat.le_refl 0
      case isFalse => cases found
  | cons c rest ih =>
      rw [strstr] at found
      split at found
      case isTrue isPrefix =>
        cases found
        rw [Nat.zero_add]
        exact (List.isPrefixOf_iff_prefix.mp isPrefix).length_le
      case isFalse =>
        rcases Option.map_eq_some_iff.mp found with ⟨before, foundBefore, rfl⟩
        rw [List.length_cons, Nat.add_right_comm]
        exact Nat.succ_le_succ (ih foundBefore)

theorem indexOfString_inside {string separator : List UInt8} {index : Nat}
    (found : indexOfString string separator = some index) :
    index + separator.length ≤ string.length :=
  Nat.le_trans (strstr_inside found) (length_cStr_le string)

theorem indexOfStringFrom_inside {string separator : List UInt8} {fromIndex index : Nat}
    (found : indexOfStringFrom string separator fromIndex = some index) :
    fromIndex ≤ index ∧ index + separator.length ≤ string.length := by
  rw [indexOfStringFrom] at found
  split at found
  case isTrue starts =>
    rcases Option.map_eq_some_iff.mp found with ⟨distance, foundAfter, rfl⟩
    have inside := Nat.le_trans (strstr_inside foundAfter)
      (length_cStr_le (string.drop fromIndex))
    rw [List.length_drop] at inside
    refine ⟨Nat.le_add_right _ _, ?_⟩
    rw [Nat.add_assoc, Nat.add_comm]
    exact Nat.add_le_of_le_sub (Nat.le_of_lt starts) inside
  case isFalse => cases found

/-- The loop of `split` ends if every iteration gets past a separator. -/
theorem split_returns {separator : List UInt8} (nonempty : separator ≠ [])
    (string : List UInt8) : ∃ pieces, split string separator = .ok pieces := by
  have positive : 0 < separator.length := List.length_pos_iff.mpr nonempty
  let measure : Splitting → Nat := fun st =>
    match st.curIndex with
    | none => 0
    | some curIndex => string.length + 1 - curIndex
  have iterates : ∀ st : Splitting, True →
      (∃ pieces, splitNext string separator st = .ok (.inl pieces) ∧ True) ∨
        ∃ next, splitNext string separator st = .ok (.inr next) ∧ True ∧
          measure next < measure st := by
    intro st _
    rcases st with ⟨_ | prevCurIndex, strings⟩
    · exact .inl ⟨strings, rfl, trivial⟩
    · by_cases starts : prevCurIndex < string.length
      · right
        cases found : indexOfStringFrom string separator prevCurIndex with
        | none =>
            refine ⟨⟨none, strings ++ [string.drop prevCurIndex]⟩, ?_, trivial, ?_⟩
            · rw [splitNext]
              simp only [starts, if_true, found]
              rw [substring_ok (Nat.le_of_lt starts) (Nat.le_refl _), ← List.length_drop,
                List.take_length]
              rfl
            · exact Nat.sub_pos_of_lt (Nat.lt_succ_of_lt starts)
        | some curIndex =>
            rcases indexOfStringFrom_inside found with ⟨after, inside⟩
            refine ⟨⟨some (curIndex + separator.length),
              strings ++ [(string.drop prevCurIndex).take (curIndex - prevCurIndex)]⟩,
              ?_, trivial, ?_⟩
            · rw [splitNext]
              simp only [starts, if_true, found]
              rw [substring_ok after (Nat.le_trans (Nat.le_add_right _ _) inside)]
              rfl
            · change string.length + 1 - (curIndex + separator.length) <
                string.length + 1 - prevCurIndex
              omega
      · left
        refine ⟨strings, ?_, trivial⟩
        rw [splitNext]
        simp only [starts, if_false]
  have enough : measure ⟨some 0, []⟩ < string.length + 2 := Nat.lt_succ_self _
  have returned : ∃ pieces, split string separator = .ok pieces ∧ True :=
    loop_returns (fun _ => True) measure (fun _ => True) iterates trivial enough
  rcases returned with ⟨pieces, returns, _⟩
  exact ⟨pieces, returns⟩

/-! ## Strings with and without a separator -/

/-- What can be decided of every character of a string. -/
theorem forall_of_all {p : UInt8 → Prop} [DecidablePred p] {string : List UInt8}
    (all : string.all (fun c => decide (p c)) = true) : ∀ c ∈ string, p c := fun c member =>
  of_decide_eq_true (List.all_eq_true.mp all c member)

theorem cStr_of_nonzero {string : List UInt8} (nonzero : ∀ c ∈ string, c ≠ 0) :
    cStr string = string :=
  List.takeWhile_eq_self_iff.mpr fun c member => bne_iff_ne.mpr (nonzero c member)

/-- What is behind characters that are not NUL is seen too. -/
theorem cStr_append {before : List UInt8} (nonzero : ∀ c ∈ before, c ≠ 0) (rest : List UInt8) :
    cStr (before ++ rest) = before ++ cStr rest :=
  List.takeWhile_append_of_pos fun c member => bne_iff_ne.mpr (nonzero c member)

/-- What is behind a NUL is not seen. -/
theorem cStr_append_of_nul {before : List UInt8} (hasNul : 0 ∈ before) (rest : List UInt8) :
    cStr (before ++ rest) = cStr before := by
  obtain ⟨front, behind, rfl, lacks⟩ := List.eq_append_cons_of_mem hasNul
  have nonzero : ∀ c ∈ front, c ≠ 0 := fun c member isNul => lacks (isNul ▸ member)
  rw [List.append_assoc, List.cons_append, cStr_append nonzero, cStr_append nonzero, cStr_cons,
    cStr_cons, if_pos rfl, if_pos rfl]

theorem strstr_none {c : UInt8} {string : List UInt8} (lacks : ∀ other ∈ string, other ≠ c) :
    strstr [c] string = none := by
  induction string with
  | nil => exact if_neg (List.cons_ne_nil _ _)
  | cons other rest ih =>
      have different : (c == other) = false :=
        beq_false_of_ne (lacks other List.mem_cons_self).symm
      rw [strstr, ih fun later member => lacks later (List.mem_cons_of_mem _ member),
        List.isPrefixOf, different]
      rfl

theorem strstr_some {c : UInt8} {before : List UInt8} (lacks : ∀ other ∈ before, other ≠ c)
    (rest : List UInt8) : strstr [c] (before ++ c :: rest) = some before.length := by
  induction before with
  | nil =>
      rw [List.nil_append, strstr, List.isPrefixOf, beq_self_eq_true]
      rfl
  | cons other before ih =>
      have different : (c == other) = false :=
        beq_false_of_ne (lacks other List.mem_cons_self).symm
      rw [List.cons_append, strstr, ih fun later member => lacks later (List.mem_cons_of_mem _ member),
        List.isPrefixOf, different]
      rfl

/-- A string without a NUL starts with a string if that is in front of it. -/
theorem startsWith_iff {string front : List UInt8} (nonzero : ∀ c ∈ string, c ≠ 0) :
    startsWith string front = true ↔ front <+: string := by
  have seen : startsWith string front = true ↔
      front.length ≤ string.length ∧ string.take front.length = cStr front := by
    rw [startsWith, sameChars, cStr_of_nonzero nonzero,
      List.take_of_length_le (length_cStr_le front)]
    split
    case isTrue longer => rw [beq_iff_eq, and_iff_right longer]
    case isFalse shorter => exact iff_of_false Bool.false_ne_true fun both => shorter both.1
  rw [seen]
  constructor
  · rintro ⟨longer, same⟩
    have size := congrArg List.length same
    rw [List.length_take, Nat.min_eq_left longer] at size
    have whole : cStr front = front := (cStr_is_front front).eq_of_length size.symm
    rw [whole] at same
    exact ⟨_, (congrArg (· ++ string.drop front.length) same).symm.trans (List.take_append_drop _ _)⟩
  · rintro ⟨rest, rfl⟩
    have visible : ∀ c ∈ front, c ≠ 0 := fun c member => nonzero c (List.mem_append_left _ member)
    rw [cStr_of_nonzero visible, List.take_left, List.length_append]
    exact ⟨Nat.le_add_right _ _, rfl⟩

section Last

variable {c : UInt8} {string before behind : List UInt8}

theorem lastIndexOf_none (nonzero : c ≠ 0) (lacks : ∀ other ∈ cStr string, other ≠ c) :
    lastIndexOf string c = none := by
  have absent : (cStr string ++ [0]).reverse.findIdx? (· == c) = none := by
    rw [List.findIdx?_eq_none_iff]
    intro other member
    rcases List.mem_append.mp (List.mem_reverse.mp member) with inString | isZero
    · exact beq_false_of_ne (lacks other inString)
    · rw [List.mem_singleton.mp isZero]
      exact beq_false_of_ne nonzero.symm
  rw [lastIndexOf, absent]
  rfl

/-- The last of the characters is found. -/
theorem lastIndexOf_some (nonzero : c ≠ 0) (visible : cStr string = before ++ c :: behind)
    (lacks : ∀ other ∈ behind, other ≠ c) : lastIndexOf string c = some before.length := by
  have backwards : (before ++ c :: behind ++ [0]).reverse =
      (0 :: behind.reverse) ++ c :: before.reverse := by
    simp
  have found : ((0 :: behind.reverse) ++ c :: before.reverse).findIdx? (· == c) =
      some (behind.length + 1) := by
    rw [List.findIdx?_append]
    have absent : (0 :: behind.reverse).findIdx? (· == c) = none := by
      rw [List.findIdx?_eq_none_iff]
      intro other member
      rcases List.mem_cons.mp member with rfl | inBehind
      · exact beq_false_of_ne nonzero.symm
      · exact beq_false_of_ne (lacks other (List.mem_reverse.mp inBehind))
    rw [absent, List.findIdx?_cons, beq_self_eq_true]
    simp
  rw [lastIndexOf, visible, backwards, found, Option.map_some, List.length_append,
    List.length_cons, Nat.add_sub_cancel]

/-- What is found is the last one that the functions of the C library see. -/
theorem lastIndexOf_eq_some {index : Nat} (nonzero : c ≠ 0)
    (found : lastIndexOf string c = some index) :
    ∃ before behind, cStr string = before ++ c :: behind ∧ (∀ other ∈ behind, other ≠ c) ∧
      index = before.length := by
  have member : c ∈ (cStr string).reverse := by
    by_contra absent
    rw [lastIndexOf_none nonzero] at found
    · cases found
    · rintro other isOther rfl
      exact absent (List.mem_reverse.mpr isOther)
  rcases List.eq_append_cons_of_mem member with ⟨behind, before, split, lacks⟩
  have visible : cStr string = before.reverse ++ c :: behind.reverse := by
    rw [← List.reverse_reverse (cStr string), split]
    simp
  have others : ∀ other ∈ behind.reverse, other ≠ c := by
    rintro other isOther rfl
    exact lacks (List.mem_reverse.mp isOther)
  rw [lastIndexOf_some nonzero visible others] at found
  exact ⟨before.reverse, behind.reverse, visible, others, (Option.some.inj found).symm⟩

/-- A string ends with a character, as the last one of all its characters. -/
theorem endsWith_singleton_iff (nonzero : c ≠ 0) : endsWith string [c] = true ↔ [c] <:+ string := by
  rcases List.eq_nil_or_concat string with rfl | ⟨front, last, rfl⟩
  · exact iff_of_false Bool.false_ne_true fun suffix => by cases List.suffix_nil.mp suffix
  · rw [List.concat_eq_append, endsWith, if_pos (by simp), sameChars, List.length_append,
      List.length_singleton, List.length_singleton, Nat.add_sub_cancel, List.drop_left, cStr_cons,
      cStr_cons, if_neg nonzero, beq_iff_eq]
    have isLast : [c] <:+ front ++ [last] ↔ last = c := by
      constructor
      · rintro ⟨before, same⟩
        exact (List.append_inj_right' same rfl |> List.singleton_inj.mp).symm
      · rintro rfl
        exact List.suffix_append front [last]
    rw [isLast]
    split
    · rename_i isNul
      simp [isNul, nonzero.symm]
    · simp [cStr]

end Last

section Split

variable {c : UInt8} {string before piece : List UInt8}

/-- The last iteration that finds a piece: there is no separator in the rest. -/
theorem splitNext_last (split : string = before ++ piece) (nonempty : piece ≠ [])
    (lacks : ∀ other ∈ piece, other ≠ c) (strings : List (List UInt8)) :
    splitNext string [c] ⟨some before.length, strings⟩ =
      .ok (.inr ⟨none, strings ++ [piece]⟩) := by
  have behind : string.drop before.length = piece := by
    rw [split, List.drop_left]
  have inside : before.length < string.length := by
    rw [split, List.length_append]
    exact Nat.lt_add_of_pos_right (List.length_pos_iff.mpr nonempty)
  have absent : indexOfStringFrom string [c] before.length = none := by
    rw [indexOfStringFrom, if_pos inside, behind, strstr_none]
    · rfl
    · intro other member
      exact lacks other ((List.takeWhile_sublist _).subset member)
  rw [splitNext]
  simp only [inside, if_true, absent]
  rw [substring_ok (Nat.le_of_lt inside) (Nat.le_refl _), behind]
  have size := congrArg List.length behind
  rw [List.length_drop] at size
  rw [size, List.take_length]
  rfl

/-- A string without the separator is the only piece. -/
theorem split_one (nonempty : piece ≠ []) (lacks : ∀ other ∈ piece, other ≠ c) :
    split piece [c] = .ok [piece] := by
  have first : splitNext piece [c] ⟨some 0, []⟩ = .ok (.inr ⟨none, [piece]⟩) :=
    splitNext_last (List.nil_append piece).symm nonempty lacks []
  rw [split, loop, first]
  dsimp only
  rw [loop, splitNext]

/-- A string with one separator that is not at its end has two pieces. -/
theorem split_two (nonzero : c ≠ 0) (frontLacks : ∀ other ∈ before, other ≠ c ∧ other ≠ 0)
    (nonempty : piece ≠ []) (lacks : ∀ other ∈ piece, other ≠ c) :
    split (before ++ c :: piece) [c] = .ok [before, piece] := by
  have inside : 0 < (before ++ c :: piece).length := by
    rw [List.length_append]
    exact Nat.add_pos_right _ (Nat.succ_pos _)
  have found : indexOfStringFrom (before ++ c :: piece) [c] 0 = some before.length := by
    have front : cStr (before ++ c :: piece) = before ++ c :: cStr piece := by
      have isNonzero : (c != 0) = true := bne_iff_ne.mpr nonzero
      rw [cStr, List.takeWhile_append_of_pos fun other member =>
        bne_iff_ne.mpr (frontLacks other member).2, List.takeWhile_cons_of_pos (by exact isNonzero)]
      rfl
    rw [indexOfStringFrom, if_pos inside, List.drop_zero, front,
      strstr_some fun other member => (frontLacks other member).1]
    exact congrArg some (Nat.zero_add _)
  have first : splitNext (before ++ c :: piece) [c] ⟨some 0, []⟩ =
      .ok (.inr ⟨some (before ++ [c]).length, [before]⟩) := by
    rw [splitNext]
    simp only [inside, if_true, found]
    rw [substring_ok (Nat.zero_le _) (by rw [List.length_append]; exact Nat.le_add_right _ _),
      List.drop_zero, Nat.sub_zero, List.take_left, List.length_append]
    rfl
  have rest : before ++ c :: piece = (before ++ [c]) ++ piece := by
    rw [List.append_assoc]
    rfl
  rw [split, loop, first]
  dsimp only
  rw [List.length_append, List.length_cons]
  change loop _ _ (before.length + piece.length + 2) _ = _
  rw [loop, splitNext_last rest nonempty lacks]
  dsimp only
  rw [loop, splitNext]
  rfl

end Split

end String

end Mindroid
