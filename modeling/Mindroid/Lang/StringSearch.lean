import Mindroid.Foundation.Occurrences
import Mindroid.Lang.StringKeys

/-!
# Searches in a string

The overloads of `indexOf` and `lastIndexOf` search with functions of the C library, from the
beginning of a string up to its first NUL.
-/

set_option autoImplicit false

namespace Mindroid

open Foundation

namespace String

/-! ## What the functions of the C library find -/

theorem strstr_findsFirst (needle text : List UInt8) :
    FindsFirst needle text 0 (strstr needle text) := by
  induction text with
  | nil =>
      rw [strstr]
      split
      case isTrue empty =>
        exact ⟨Nat.le_refl 0, occursAt_nil.mpr ⟨rfl, empty⟩, fun _ _ _ => Nat.zero_le _⟩
      case isFalse nonempty =>
        exact fun p _ occurs => nonempty (occursAt_nil.mp occurs).2
  | cons c rest ih =>
      rw [strstr]
      split
      case isTrue isPrefix =>
        refine ⟨Nat.le_refl 0, ?_, fun _ _ _ => Nat.zero_le _⟩
        exact occursAt_zero.mpr (List.isPrefixOf_iff_prefix.mp isPrefix)
      case isFalse notPrefix =>
        have notHere : ¬OccursAt needle (c :: rest) 0 := by
          rw [occursAt_zero, ← List.isPrefixOf_iff_prefix]
          exact notPrefix
        cases found : strstr needle rest with
        | none =>
            rw [found] at ih
            intro p _ occurs
            cases p with
            | zero => exact notHere occurs
            | succ p => exact ih p (Nat.zero_le p) ((occursAt_cons_succ c).mp occurs)
        | some p =>
            rw [found] at ih
            refine ⟨Nat.zero_le _, (occursAt_cons_succ c).mpr ih.occurs, fun q _ occurs => ?_⟩
            cases q with
            | zero => exact absurd occurs notHere
            | succ q =>
                have before := ih.least q (Nat.zero_le q) ((occursAt_cons_succ c).mp occurs)
                exact Nat.succ_le_succ before

/-- `strchr` of a character other than NUL is `strstr` of a string of it. -/
theorem indexOf_eq_strstr {c : UInt8} (nonzero : c ≠ 0) (text : List UInt8) :
    indexOf text c = strstr [c] (cStr text) := by
  rw [indexOf]
  induction cStr text with
  | nil => simp [strstr, nonzero.symm]
  | cons d rest ih =>
      rw [List.cons_append, List.findIdx?_cons, ih, strstr]
      by_cases same : d = c
      · subst same
        simp
      · have different : c ≠ d := fun equal => same equal.symm
        simp [same, different]

/-- The search from the end for a character other than NUL. -/
theorem lastIndexOf_eq {c : UInt8} (nonzero : c ≠ 0) (text : List UInt8) :
    lastIndexOf text c =
      ((cStr text).reverse.findIdx? (· == c)).map fun index =>
        (cStr text).length - (index + 1) := by
  have different : ((0 : UInt8) == c) = false := beq_false_of_ne nonzero.symm
  rw [lastIndexOf, List.reverse_append, List.reverse_singleton, List.singleton_append,
    List.findIdx?_cons, different]
  simp [Function.comp_def]

/-- `strrchr` of a character other than NUL. -/
theorem lastIndexOf_findsLast {c : UInt8} (nonzero : c ≠ 0) (text : List UInt8) :
    FindsLast [c] (cStr text) (lastIndexOf text c) := by
  rw [lastIndexOf_eq nonzero]
  induction cStr text using List.reverseRecOn with
  | nil => simp [FindsLast]
  | append_singleton front d ih =>
      rw [List.reverse_append, List.reverse_singleton, List.singleton_append, List.findIdx?_cons]
      by_cases same : d = c
      · subst same
        rw [beq_self_eq_true, if_pos rfl]
        refine ⟨occursAt_concat.mpr (.inr ⟨by simp, rfl⟩), fun q occurs => ?_⟩
        have fits := occurs.fits
        simp at fits ⊢
        omega
      · have different : (d == c) = false := beq_false_of_ne same
        rw [different]
        cases found : front.reverse.findIdx? (· == c) with
        | none =>
            rw [found] at ih
            intro p occurs
            rcases occursAt_concat.mp occurs with before | ⟨-, equal⟩
            · exact ih p before
            · exact same equal
        | some index =>
            rw [found] at ih
            have position : (front ++ [d]).length - (index + 1 + 1) =
                front.length - (index + 1) := by
              simp
            change LastAt [c] (front ++ [d]) ((front ++ [d]).length - (index + 1 + 1))
            rw [position]
            refine ⟨occursAt_concat.mpr (.inl ih.occurs), fun q occurs => ?_⟩
            rcases occursAt_concat.mp occurs with before | ⟨-, equal⟩
            · exact ih.greatest q before
            · exact absurd equal same

/-! ## What is visible -/

/-- An occurrence is found by the functions of the C library if no NUL is before it. -/
theorem fits_cStr_iff {needle text : List UInt8} {p : Nat} (nonzero : ∀ c ∈ needle, c ≠ 0)
    (occurs : OccursAt needle text p) :
    p + needle.length ≤ (cStr text).length ↔ ∀ c ∈ text.take p, c ≠ 0 := by
  constructor
  · intro fits c member
    obtain ⟨rest, split⟩ := cStr_is_front text
    have front : text.take p = (cStr text).take p := by
      conv => lhs; rw [← split]
      exact List.take_append_of_le_length (by omega)
    rw [front] at member
    exact nonzero_cStr text c (List.mem_of_mem_take member)
  · intro visible
    obtain ⟨inside, rest, begins⟩ := occurs
    have split : text = text.take p ++ needle ++ rest := by
      rw [List.append_assoc, begins, List.take_append_drop]
    have whole : cStr text = text.take p ++ needle ++ cStr rest := by
      conv => lhs; rw [split]
      apply List.takeWhile_append_of_pos
      intro c member
      rw [bne_iff_ne]
      rcases List.mem_append.mp member with before | part
      · exact visible c before
      · exact nonzero c part
    rw [whole, List.length_append, List.length_append, List.length_take, Nat.min_eq_left inside]
    exact Nat.le_add_right _ _

theorem occursAt_cStr_iff {needle text : List UInt8} {p : Nat} (nonzero : ∀ c ∈ needle, c ≠ 0) :
    OccursAt needle (cStr text) p ↔ OccursAt needle text p ∧ ∀ c ∈ text.take p, c ≠ 0 := by
  rw [occursAt_front (cStr_is_front text)]
  exact and_congr_right fun occurs => fits_cStr_iff nonzero occurs

/-- A search in the visible part finds the first occurrence in all of a text, if and only if no
NUL is before that. -/
theorem findsFirst_visible_iff {needle text : List UInt8} (nonzero : ∀ c ∈ needle, c ≠ 0) :
    FindsFirst needle text 0 (strstr needle (cStr text)) ↔
      ∀ p, FirstAt needle text 0 p → ∀ c ∈ text.take p, c ≠ 0 := by
  have finds := strstr_findsFirst needle (cStr text)
  cases found : strstr needle (cStr text) with
  | none =>
      rw [found] at finds
      constructor
      · intro absent p first
        exact absurd first.occurs (absent p first.behind)
      · intro visible p behind occurs
        obtain ⟨q, first⟩ := exists_firstAt behind occurs
        exact finds q (Nat.zero_le q)
          ((occursAt_cStr_iff nonzero).mpr ⟨first.occurs, visible q first⟩)
  | some index =>
      rw [found] at finds
      have known := (occursAt_cStr_iff nonzero).mp finds.occurs
      constructor
      · intro first p other
        rw [other.unique first]
        exact known.2
      · intro visible
        obtain ⟨q, first⟩ := exists_firstAt (Nat.zero_le index) known.1
        have seen := (occursAt_cStr_iff nonzero).mpr ⟨first.occurs, visible q first⟩
        have same : q = index := Nat.le_antisymm (first.least index (Nat.zero_le _) known.1)
          (finds.least q (Nat.zero_le _) seen)
        rw [← same]
        exact first

theorem findsLast_visible_iff {c : UInt8} (nonzero : c ≠ 0) (text : List UInt8) :
    FindsLast [c] text (lastIndexOf text c) ↔
      ∀ p, LastAt [c] text p → ∀ d ∈ text.take p, d ≠ 0 := by
  have single : ∀ d ∈ [c], d ≠ 0 := by simp [nonzero]
  have finds := lastIndexOf_findsLast nonzero text
  cases found : lastIndexOf text c with
  | none =>
      rw [found] at finds
      constructor
      · intro absent p last
        exact absurd last.occurs (absent p)
      · intro visible p occurs
        obtain ⟨q, last⟩ := exists_lastAt occurs
        exact finds q ((occursAt_cStr_iff single).mpr ⟨last.occurs, visible q last⟩)
  | some index =>
      rw [found] at finds
      have known := (occursAt_cStr_iff single).mp finds.occurs
      constructor
      · intro last p other
        rw [other.unique last]
        exact known.2
      · intro visible
        obtain ⟨q, last⟩ := exists_lastAt known.1
        have seen := (occursAt_cStr_iff single).mpr ⟨last.occurs, visible q last⟩
        have same : q = index := Nat.le_antisymm (finds.greatest q seen)
          (last.greatest index known.1)
        rw [← same]
        exact last

/-- There is a character at the index, and no NUL between it and the first occurrence. -/
def VisibleFrom (needle text : List UInt8) (fromIndex : Nat) : Prop :=
  ∀ p, FirstAt needle text fromIndex p →
    fromIndex < text.length ∧ ∀ c ∈ (text.drop fromIndex).take (p - fromIndex), c ≠ 0

theorem findsFirst_from_iff {needle text : List UInt8} (nonzero : ∀ c ∈ needle, c ≠ 0)
    (fromIndex : Nat) :
    FindsFirst needle text fromIndex (indexOfStringFrom text needle fromIndex) ↔
      VisibleFrom needle text fromIndex := by
  rw [indexOfStringFrom]
  split
  case isTrue inside =>
    rw [← findsFirst_drop (Nat.le_of_lt inside), findsFirst_visible_iff nonzero]
    constructor
    · intro visible p first
      refine ⟨inside, visible (p - fromIndex) ?_⟩
      rw [firstAt_drop (Nat.le_of_lt inside), Nat.add_sub_cancel' first.behind]
      exact first
    · intro visible p first
      have seen := (visible _ ((firstAt_drop (Nat.le_of_lt inside)).mp first)).2
      rwa [Nat.add_sub_cancel_left] at seen
  case isFalse beyond =>
    constructor
    · intro absent p first
      exact absurd first.occurs (absent p first.behind)
    · intro visible p behind occurs
      obtain ⟨q, first⟩ := exists_firstAt behind occurs
      exact beyond (visible q first).1

/-- From an index on, `strchr` is `strstr` too. -/
theorem indexOfFrom_eq_indexOfStringFrom {c : UInt8} (nonzero : c ≠ 0) (text : List UInt8)
    (fromIndex : Nat) :
    indexOfFrom text c fromIndex = indexOfStringFrom text [c] fromIndex := by
  rw [indexOfFrom, indexOfStringFrom, indexOf_eq_strstr nonzero]

/-! ## The overloads -/

/-- What makes a search undefined: a null pointer for the haystack, or an address behind the end
of the needle. -/
inductive Undefined where
  | nullPointer
  | behindEnd
  deriving DecidableEq

namespace Buffer

/-- The memory that the functions of the C library read. -/
def memory (string : Buffer) : Except Undefined (List UInt8) :=
  match string.mData with
  | none => .error .nullPointer
  | some bytes => .ok bytes

/-- `indexOf(const char)`. -/
def indexOfChar (string : Buffer) (c : UInt8) : Except Undefined (Option Nat) :=
  string.memory.map fun bytes => String.indexOf bytes c

/-- `indexOf(const char*)`. -/
def indexOfCString (string : Buffer) (needle : List UInt8) : Except Undefined (Option Nat) :=
  string.memory.map fun bytes => String.indexOfString bytes needle

/-- `indexOf(const sp<String>&)`. -/
def indexOfText (string : Buffer) (needle : List UInt8) : Except Undefined (Option Nat) :=
  string.indexOfCString (cStr needle)

/-- `indexOf(const char, size_t)`, which looks at the length first. -/
def indexOfCharFrom (string : Buffer) (c : UInt8) (fromIndex : Nat) :
    Except Undefined (Option Nat) :=
  .ok (String.indexOfFrom string.bytes c fromIndex)

/-- `indexOf(const char*, size_t)`, which looks at the length first. -/
def indexOfCStringFrom (string : Buffer) (needle : List UInt8) (fromIndex : Nat) :
    Except Undefined (Option Nat) :=
  .ok (String.indexOfStringFrom string.bytes needle fromIndex)

/-- `indexOf(const sp<String>&, size_t)`, which moves the pointer to the needle. -/
def indexOfTextFrom (string : Buffer) (needle : List UInt8) (fromIndex : Nat) :
    Except Undefined (Option Nat) :=
  if fromIndex ≤ needle.length then
    string.indexOfCString (cStr (needle.drop fromIndex))
  else
    .error .behindEnd

/-- `lastIndexOf(const char)`. -/
def lastIndexOfChar (string : Buffer) (c : UInt8) : Except Undefined (Option Nat) :=
  string.memory.map fun bytes => String.lastIndexOf bytes c

/-- `lastIndexOf(const char*)`. -/
def lastIndexOfCString (_string : Buffer) (_needle : List UInt8) : Except Undefined (Option Nat) :=
  .ok none

/-- `lastIndexOf(const sp<String>&)`. -/
def lastIndexOfText (_string : Buffer) (_needle : List UInt8) : Except Undefined (Option Nat) :=
  .ok none

/-- `lastIndexOf(const char, size_t)`. -/
def lastIndexOfCharFrom (string : Buffer) (c : UInt8) (fromIndex : Nat) :
    Except Undefined (Option Nat) :=
  if fromIndex < string.bytes.length then
    .ok ((String.lastIndexOf (string.bytes.drop fromIndex) c).map (fromIndex + ·))
  else
    .ok none

/-- `lastIndexOf(const char*, size_t)`. -/
def lastIndexOfCStringFrom (_string : Buffer) (_needle : List UInt8) (_fromIndex : Nat) :
    Except Undefined (Option Nat) :=
  .ok none

/-- `lastIndexOf(const sp<String>&, size_t)`. -/
def lastIndexOfTextFrom (_string : Buffer) (_needle : List UInt8) (_fromIndex : Nat) :
    Except Undefined (Option Nat) :=
  .ok none

end Buffer

/-- What is searched for. -/
inductive Needle where
  | char (c : UInt8) (nonzero : c ≠ 0)
  | cString (needle : Text)
  | string (needle : Text)

def Needle.bytes : Needle → List UInt8
  | .char c _ => [c]
  | .cString needle => needle.bytes
  | .string needle => needle.bytes

theorem Needle.nonzero (needle : Needle) : ∀ c ∈ needle.bytes, c ≠ 0 := by
  cases needle with
  | char c nonzero => simpa [bytes] using nonzero
  | cString needle => exact needle.nonzero
  | string needle => exact needle.nonzero

/-- A function that searches, with its index if it has one. -/
inductive Search where
  | indexOf
  | indexOfFrom (fromIndex : Nat)
  | lastIndexOf
  | lastIndexOfFrom (fromIndex : Nat)

/-- The overload that is called. -/
def Buffer.search (string : Buffer) : Needle → Search → Except Undefined (Option Nat)
  | .char c _, .indexOf => string.indexOfChar c
  | .cString needle, .indexOf => string.indexOfCString needle.bytes
  | .string needle, .indexOf => string.indexOfText needle.bytes
  | .char c _, .indexOfFrom fromIndex => string.indexOfCharFrom c fromIndex
  | .cString needle, .indexOfFrom fromIndex => string.indexOfCStringFrom needle.bytes fromIndex
  | .string needle, .indexOfFrom fromIndex => string.indexOfTextFrom needle.bytes fromIndex
  | .char c _, .lastIndexOf => string.lastIndexOfChar c
  | .cString needle, .lastIndexOf => string.lastIndexOfCString needle.bytes
  | .string needle, .lastIndexOf => string.lastIndexOfText needle.bytes
  | .char c _, .lastIndexOfFrom fromIndex => string.lastIndexOfCharFrom c fromIndex
  | .cString needle, .lastIndexOfFrom fromIndex =>
      string.lastIndexOfCStringFrom needle.bytes fromIndex
  | .string needle, .lastIndexOfFrom fromIndex =>
      string.lastIndexOfTextFrom needle.bytes fromIndex

/-- A search gives the first occurrence from its index on, or the last occurrence of all. -/
def Finds (string : Buffer) (needle : Needle) : Search → Prop
  | .indexOf => ∃ found, string.search needle .indexOf = .ok found ∧
      FindsFirst needle.bytes string.bytes 0 found
  | .indexOfFrom fromIndex => ∃ found, string.search needle (.indexOfFrom fromIndex) = .ok found ∧
      FindsFirst needle.bytes string.bytes fromIndex found
  | .lastIndexOf => ∃ found, string.search needle .lastIndexOf = .ok found ∧
      FindsLast needle.bytes string.bytes found
  | .lastIndexOfFrom _ => True

/-- The overload for strings gives what the one for C strings does. -/
def Agrees (string : Buffer) : Needle → Search → Prop
  | .char _ _, _ => True
  | .cString _, _ => True
  | .string needle, search =>
      string.search (.string needle) search = string.search (.cString needle) search

/-- What a search expects of the strings and the index. -/
def Suits (string : Buffer) (needle : Needle) : Search → Prop
  | .indexOf => string.mData ≠ none ∧
      ∀ p, FirstAt needle.bytes string.bytes 0 p → ∀ c ∈ string.bytes.take p, c ≠ 0
  | .indexOfFrom fromIndex =>
      match needle with
      | .char c _ => VisibleFrom [c] string.bytes fromIndex
      | .cString needle => VisibleFrom needle.bytes string.bytes fromIndex
      | .string needle =>
          string.mData ≠ none ∧ fromIndex ≤ needle.bytes.length ∧
            VisibleFrom needle.bytes string.bytes fromIndex ∧
              ∀ p, FirstAt (needle.bytes.drop fromIndex) (cStr string.bytes) 0 p ↔
                FirstAt needle.bytes string.bytes fromIndex p
  | .lastIndexOf =>
      match needle with
      | .char c _ => string.mData ≠ none ∧
          ∀ p, LastAt [c] string.bytes p → ∀ d ∈ string.bytes.take p, d ≠ 0
      | .cString needle => ∀ p, ¬OccursAt needle.bytes string.bytes p
      | .string needle => ∀ p, ¬OccursAt needle.bytes string.bytes p
  | .lastIndexOfFrom _ => True

/-! ## When the overloads are right -/

namespace Buffer

variable {string : Buffer}

/-- A search of the C library in a string that has memory. -/
theorem map_memory_eq_ok_iff {β : Type} {f : List UInt8 → β} {found : β} :
    string.memory.map f = .ok found ↔ string.mData ≠ none ∧ f string.bytes = found := by
  unfold memory bytes
  cases string.mData with
  | none => simp [Except.map]
  | some bytes => simp [Except.map]

end Buffer

section Overloads

variable {string : Buffer} {needle : List UInt8}

theorem indexOfCString_finds_iff (nonzero : ∀ c ∈ needle, c ≠ 0) :
    (∃ found, string.indexOfCString needle = .ok found ∧
        FindsFirst needle string.bytes 0 found) ↔
      string.mData ≠ none ∧
        ∀ p, FirstAt needle string.bytes 0 p → ∀ c ∈ string.bytes.take p, c ≠ 0 := by
  unfold Buffer.indexOfCString
  simp only [Buffer.map_memory_eq_ok_iff]
  rw [← findsFirst_visible_iff nonzero]
  constructor
  · rintro ⟨found, ⟨present, rfl⟩, finds⟩
    exact ⟨present, finds⟩
  · rintro ⟨present, finds⟩
    exact ⟨_, ⟨present, rfl⟩, finds⟩

theorem indexOfChar_eq {c : UInt8} (nonzero : c ≠ 0) :
    string.indexOfChar c = string.indexOfCString [c] := by
  unfold Buffer.indexOfChar Buffer.indexOfCString
  congr 1
  funext bytes
  exact indexOf_eq_strstr nonzero bytes

theorem indexOfText_eq (nonzero : ∀ c ∈ needle, c ≠ 0) :
    string.indexOfText needle = string.indexOfCString needle := by
  rw [Buffer.indexOfText, cStr_of_nonzero nonzero]

/-- The overload with the pointer moved into the needle. -/
theorem indexOfTextFrom_finds_iff (nonzero : ∀ c ∈ needle, c ≠ 0) (fromIndex : Nat) :
    (∃ found, string.indexOfTextFrom needle fromIndex = .ok found ∧
        FindsFirst needle string.bytes fromIndex found) ∧
          string.indexOfTextFrom needle fromIndex = string.indexOfCStringFrom needle fromIndex ↔
      string.mData ≠ none ∧ fromIndex ≤ needle.length ∧
        VisibleFrom needle string.bytes fromIndex ∧
          ∀ p, FirstAt (needle.drop fromIndex) (cStr string.bytes) 0 p ↔
            FirstAt needle string.bytes fromIndex p := by
  have rest : cStr (needle.drop fromIndex) = needle.drop fromIndex :=
    cStr_of_nonzero fun c member => nonzero c (List.mem_of_mem_drop member)
  have tail := findsFirst_iff.mp (strstr_findsFirst (needle.drop fromIndex) (cStr string.bytes))
  rw [← findsFirst_from_iff nonzero, Buffer.indexOfCStringFrom, Buffer.indexOfTextFrom, rest]
  constructor
  · rintro ⟨⟨found, returns, finds⟩, agrees⟩
    rw [returns] at agrees
    split at returns
    · rename_i inside
      obtain ⟨present, rfl⟩ := Buffer.map_memory_eq_ok_iff.mp returns
      rw [← Except.ok.inj agrees]
      refine ⟨present, inside, finds, fun p => ?_⟩
      rw [← tail p, ← findsFirst_iff.mp finds p]
      exact Iff.rfl
    · cases returns
  · rintro ⟨present, inside, finds, same⟩
    rw [if_pos inside]
    have found : string.indexOfCString (needle.drop fromIndex) =
        .ok (strstr (needle.drop fromIndex) (cStr string.bytes)) :=
      Buffer.map_memory_eq_ok_iff.mpr ⟨present, rfl⟩
    have finds' : FindsFirst needle string.bytes fromIndex
        (strstr (needle.drop fromIndex) (cStr string.bytes)) :=
      findsFirst_iff.mpr fun p => (tail p).trans (same p)
    rw [found]
    exact ⟨⟨_, rfl, finds'⟩, congrArg Except.ok (finds'.unique finds)⟩

theorem lastIndexOfChar_finds_iff {c : UInt8} (nonzero : c ≠ 0) :
    (∃ found, string.lastIndexOfChar c = .ok found ∧ FindsLast [c] string.bytes found) ↔
      string.mData ≠ none ∧
        ∀ p, LastAt [c] string.bytes p → ∀ d ∈ string.bytes.take p, d ≠ 0 := by
  unfold Buffer.lastIndexOfChar
  simp only [Buffer.map_memory_eq_ok_iff]
  rw [← findsLast_visible_iff nonzero]
  constructor
  · rintro ⟨found, ⟨present, rfl⟩, finds⟩
    exact ⟨present, finds⟩
  · rintro ⟨present, finds⟩
    exact ⟨_, ⟨present, rfl⟩, finds⟩

/-- What is always answered with -1 is right if there is nothing to find. -/
theorem ok_none_finds_iff {text : List UInt8} {result : Except Undefined (Option Nat)}
    (isNone : result = .ok none) :
    (∃ found, result = .ok found ∧ FindsLast needle text found) ↔
      ∀ p, ¬OccursAt needle text p := by
  constructor
  · rintro ⟨found, returns, finds⟩
    rw [isNone] at returns
    cases returns
    exact finds
  · intro absent
    exact ⟨none, isNone, absent⟩

theorem ok_finds_iff {text : List UInt8} {fromIndex : Nat} {answer : Option Nat} :
    (∃ found, (Except.ok answer : Except Undefined (Option Nat)) = .ok found ∧
        FindsFirst needle text fromIndex found) ↔
      FindsFirst needle text fromIndex answer := by
  constructor
  · rintro ⟨found, returns, finds⟩
    cases returns
    exact finds
  · exact fun finds => ⟨answer, rfl, finds⟩

end Overloads

/-- An overload finds what it shall find, and those for strings agree with those for C strings,
if and only if the strings and the index suit the search. -/
theorem finds_and_agrees_iff (string : Buffer) (needle : Needle) (search : Search) :
    Finds string needle search ∧ Agrees string needle search ↔ Suits string needle search := by
  have nonzero := needle.nonzero
  cases search with
  | indexOf =>
      cases needle with
      | char c notNul =>
          have same : string.search (.char c notNul) .indexOf = string.indexOfCString [c] :=
            indexOfChar_eq notNul
          rw [Finds, same, Agrees, and_true]
          exact indexOfCString_finds_iff nonzero
      | cString needle =>
          rw [Agrees, and_true]
          exact indexOfCString_finds_iff nonzero
      | string needle =>
          have same : string.search (.string needle) .indexOf =
              string.indexOfCString needle.bytes := indexOfText_eq nonzero
          rw [Finds, same, Agrees, same]
          exact (and_iff_left rfl).trans (indexOfCString_finds_iff nonzero)
  | indexOfFrom fromIndex =>
      cases needle with
      | char c notNul =>
          have same : string.search (.char c notNul) (.indexOfFrom fromIndex) =
              .ok (indexOfStringFrom string.bytes [c] fromIndex) :=
            congrArg Except.ok (indexOfFrom_eq_indexOfStringFrom notNul string.bytes fromIndex)
          rw [Finds, same, Agrees, and_true, ok_finds_iff]
          exact findsFirst_from_iff nonzero fromIndex
      | cString needle =>
          rw [Agrees, and_true]
          exact ok_finds_iff.trans (findsFirst_from_iff nonzero fromIndex)
      | string needle => exact indexOfTextFrom_finds_iff nonzero fromIndex
  | lastIndexOf =>
      cases needle with
      | char c notNul =>
          rw [Agrees, and_true]
          exact lastIndexOfChar_finds_iff notNul
      | cString needle =>
          rw [Agrees, and_true]
          exact ok_none_finds_iff rfl
      | string needle => exact (and_iff_left rfl).trans (ok_none_finds_iff rfl)
  | lastIndexOfFrom fromIndex =>
      cases needle with
      | char c notNul => exact iff_of_true ⟨trivial, trivial⟩ trivial
      | cString needle => exact iff_of_true ⟨trivial, trivial⟩ trivial
      | string needle => exact iff_of_true ⟨trivial, rfl⟩ trivial

/-- The first "b" from 1 on of "abb" is searched with an empty string, and the last one is not
searched at all. -/
theorem string_not_found :
    let haystack := Buffer.Construction.build (.ofPointer (some [97, 98, 98]))
    let needle : Text := ⟨[98], forall_of_all rfl⟩
    haystack.search (.string needle) (.indexOfFrom 1) = .ok (some 0) ∧
      haystack.search (.cString needle) (.indexOfFrom 1) = .ok (some 1) ∧
        haystack.search (.string needle) .lastIndexOf = .ok none ∧
          ¬(Finds haystack (.string needle) (.indexOfFrom 1) ∧
            Agrees haystack (.string needle) (.indexOfFrom 1)) ∧
              ¬Finds haystack (.string needle) .lastIndexOf := by
  intro haystack needle
  refine ⟨rfl, rfl, rfl, ?_, ?_⟩
  · rintro ⟨-, agrees⟩
    change (.ok (some 0) : Except Undefined (Option Nat)) = .ok (some 1) at agrees
    cases agrees
  · rintro ⟨found, returns, finds⟩
    cases returns
    exact finds 2 ⟨by decide, by decide⟩

end String

end Mindroid
