import Mindroid.Lang.StringBuilder
import Mindroid.Lang.StringSearch

/-!
# Searches in a string builder

`indexOf` and `lastIndexOf` leave the search to `find_first_of` and `find_last_of`, which look for
a character that is one of those of the string, and not for the string.
-/

set_option autoImplicit false

namespace Mindroid

open Foundation

namespace StringBuilder

open Mindroid.String (Buffer Search Undefined cStr)

/-! ## The methods -/

/-- `std::string::find_first_of`. -/
def findFirstOf (mString chars : List UInt8) (pos : Nat) : Option Nat :=
  ((mString.drop pos).findIdx? chars.contains).map (pos + ·)

/-- `std::string::find_last_of`. -/
def findLastOf (mString chars : List UInt8) (pos : Nat) : Option Nat :=
  ((mString.take (pos + 1)).reverse.findIdx? chars.contains).map fun index =>
    (mString.take (pos + 1)).length - (index + 1)

section Methods

variable (mString : List UInt8) (string : Buffer)

def indexOf : Except Undefined (Option Nat) :=
  string.memory.map fun memory => findFirstOf mString (cStr memory) 0

def indexOfFrom (fromIndex : Nat) : Except Undefined (Option Nat) :=
  string.memory.map fun memory => findFirstOf mString (cStr memory) fromIndex

/-- `lastIndexOf(const sp<String>&)`.  The position `npos` is behind all characters. -/
def lastIndexOf : Except Undefined (Option Nat) :=
  string.memory.map fun memory => findLastOf mString (cStr memory) mString.length

def lastIndexOfFrom (fromIndex : Nat) : Except Undefined (Option Nat) :=
  string.memory.map fun memory => findLastOf mString (cStr memory) fromIndex

/-- Call a method that searches. -/
def search : Search → Except Undefined (Option Nat)
  | .indexOf => indexOf mString string
  | .indexOfFrom fromIndex => indexOfFrom mString string fromIndex
  | .lastIndexOf => lastIndexOf mString string
  | .lastIndexOfFrom fromIndex => lastIndexOfFrom mString string fromIndex

end Methods

/-! ## What they are for -/

/-- A string without NUL. -/
structure Needle where
  string : Buffer
  nonzero : ∀ c ∈ string.bytes, c ≠ 0

/-- A position at which a search may find something that is at some positions. -/
def Candidate (isAt : Nat → Prop) : Search → Nat → Prop
  | .indexOf, p => isAt p
  | .indexOfFrom fromIndex, p => fromIndex ≤ p ∧ isAt p
  | .lastIndexOf, p => isAt p
  | .lastIndexOfFrom fromIndex, p => p ≤ fromIndex ∧ isAt p

/-- What a search for something that is at some positions shall give. -/
def FindsAt (isAt : Nat → Prop) (search : Search) : Option Nat → Prop :=
  match search with
  | .indexOf | .indexOfFrom _ => FindsLeast (Candidate isAt search)
  | .lastIndexOf | .lastIndexOfFrom _ => FindsGreatest (Candidate isAt search)

/-- The position that a search shall give. -/
def IsFirstAt (isAt : Nat → Prop) (search : Search) : Nat → Prop :=
  match search with
  | .indexOf | .indexOfFrom _ => IsLeast {p | Candidate isAt search p}
  | .lastIndexOf | .lastIndexOfFrom _ => IsGreatest {p | Candidate isAt search p}

/-- A search gives the first or last occurrence, or -1 if there is none. -/
def Finds (text : List UInt8) (needle : Needle) (kind : Search) : Prop :=
  ∃ found, search text needle.string kind = .ok found ∧
    FindsAt (OccursAt needle.string.bytes text) kind found

/-- One of the characters stands at a position. -/
def CharacterAt (chars text : List UInt8) : Nat → Prop :=
  AcceptedAt chars.contains text

/-- The first character that is one of those of the string begins the string.  The empty string
is not found, where it is at all positions of the text. -/
def SearchSuits (text : List UInt8) (needle : Needle) (kind : Search) : Prop :=
  needle.string.mData ≠ none ∧
    if needle.string.bytes = [] then
      ∀ p ≤ text.length, ¬Candidate (fun _ => True) kind p
    else
      ∀ p, IsFirstAt (CharacterAt needle.string.bytes text) kind p →
        OccursAt needle.string.bytes text p

/-! ## When they find it -/

section Searches

variable {text chars : List UInt8} {kind : Search}

/-- The function of `std::string` that a method calls. -/
def findOf (mString chars : List UInt8) : Search → Option Nat
  | .indexOf => findFirstOf mString chars 0
  | .indexOfFrom fromIndex => findFirstOf mString chars fromIndex
  | .lastIndexOf => findLastOf mString chars mString.length
  | .lastIndexOfFrom fromIndex => findLastOf mString chars fromIndex

theorem search_eq_ok_iff (needle : Needle) {found : Option Nat} :
    search text needle.string kind = .ok found ↔
      needle.string.mData ≠ none ∧ findOf text needle.string.bytes kind = found := by
  have visible := String.cStr_of_nonzero needle.nonzero
  have reads : search text needle.string kind =
      needle.string.memory.map fun memory => findOf text (cStr memory) kind := by
    cases kind <;> rfl
  rw [reads, String.Buffer.map_memory_eq_ok_iff, visible]

/-- The standard library looks for one of the characters. -/
theorem findOf_findsAt (chars : List UInt8) :
    FindsAt (CharacterAt chars text) kind (findOf text chars kind) := by
  cases kind with
  | indexOf =>
      have finds := findsLeast_findIdx chars.contains text 0
      simp only [Nat.zero_le, true_and] at finds
      exact finds
  | indexOfFrom fromIndex => exact findsLeast_findIdx chars.contains text fromIndex
  | lastIndexOf =>
      have finds := findsGreatest_findIdx_reverse chars.contains text
      have all : text.take (text.length + 1) = text := List.take_of_length_le (Nat.le_succ _)
      unfold findOf findLastOf
      rw [all]
      exact finds
  | lastIndexOfFrom fromIndex =>
      have finds := findsGreatest_findIdx_reverse chars.contains (text.take (fromIndex + 1))
      have front : AcceptedAt chars.contains (text.take (fromIndex + 1)) =
          Candidate (CharacterAt chars text) (.lastIndexOfFrom fromIndex) :=
        funext fun _ => propext acceptedAt_take_iff
      rw [front] at finds
      exact finds

/-- The first character of an occurrence is one of the string. -/
theorem characterAt_of_occursAt (nonempty : chars ≠ []) {p : Nat}
    (occurs : OccursAt chars text p) : CharacterAt chars text p := by
  obtain ⟨c, rest, rfl⟩ := List.exists_cons_of_ne_nil nonempty
  have first : OccursAt [c] text p :=
    ⟨occurs.1, (List.prefix_append [c] rest).trans occurs.2⟩
  exact ⟨c, occursAt_singleton.mp first, by simp⟩

theorem Candidate.weaken {isAt weaker : Nat → Prop} (weaken : ∀ p, isAt p → weaker p) (p : Nat)
    (candidate : Candidate isAt kind p) : Candidate weaker kind p := by
  cases kind with
  | indexOf => exact weaken p candidate
  | indexOfFrom fromIndex => exact ⟨candidate.1, weaken p candidate.2⟩
  | lastIndexOf => exact weaken p candidate
  | lastIndexOfFrom fromIndex => exact ⟨candidate.1, weaken p candidate.2⟩

/-- The first of the characters is the first occurrence if the string is there. -/
theorem findsAt_iff_of_weaker {isAt weaker : Nat → Prop} (weaken : ∀ p, isAt p → weaker p)
    {found : Option Nat} (finds : FindsAt weaker kind found) :
    FindsAt isAt kind found ↔ ∀ p, IsFirstAt weaker kind p → isAt p := by
  have same : FindsAt isAt kind found ↔
      ∀ p, IsFirstAt weaker kind p → Candidate isAt kind p := by
    cases kind with
    | indexOf => exact findsLeast_iff_of_weaker (Candidate.weaken weaken) finds
    | indexOfFrom _ => exact findsLeast_iff_of_weaker (Candidate.weaken weaken) finds
    | lastIndexOf => exact findsGreatest_iff_of_weaker (Candidate.weaken weaken) finds
    | lastIndexOfFrom _ => exact findsGreatest_iff_of_weaker (Candidate.weaken weaken) finds
  rw [same]
  apply forall_congr'
  intro p
  apply imp_congr_right
  intro first
  cases kind with
  | indexOf => exact Iff.rfl
  | indexOfFrom _ => exact and_iff_right first.1.1
  | lastIndexOf => exact Iff.rfl
  | lastIndexOfFrom _ => exact and_iff_right first.1.1

/-- No search finds the empty string. -/
theorem findsAt_nil_iff :
    FindsAt (OccursAt [] text) kind (findOf text [] kind) ↔
      ∀ p ≤ text.length, ¬Candidate (fun _ => True) kind p := by
  have none : findOf text [] kind = none := by
    have nowhere : List.contains ([] : List UInt8) = fun _ => false := rfl
    cases kind <;> simp [findOf, findFirstOf, findLastOf, nowhere]
  have occurs : ∀ p, OccursAt [] text p ↔ p ≤ text.length := fun p =>
    and_iff_left (List.nil_prefix)
  rw [none]
  cases kind <;>
    · change (∀ p, ¬_) ↔ _
      simp only [Candidate, occurs]
      grind

end Searches

/-- A search in a string builder finds the string if and only if the characters suit it. -/
theorem finds_iff (text : List UInt8) (needle : Needle) (kind : Search) :
    Finds text needle kind ↔ SearchSuits text needle kind := by
  unfold Finds SearchSuits
  simp only [search_eq_ok_iff]
  constructor
  · rintro ⟨found, ⟨present, rfl⟩, finds⟩
    refine ⟨present, ?_⟩
    split
    case isTrue empty =>
      rw [empty] at finds
      exact findsAt_nil_iff.mp finds
    case isFalse nonempty =>
      exact (findsAt_iff_of_weaker (fun p => characterAt_of_occursAt nonempty)
        (findOf_findsAt _)).mp finds
  · rintro ⟨present, suits⟩
    refine ⟨_, ⟨present, rfl⟩, ?_⟩
    split at suits
    case isTrue empty =>
      rw [empty]
      exact findsAt_nil_iff.mpr suits
    case isFalse nonempty =>
      exact (findsAt_iff_of_weaker (fun p => characterAt_of_occursAt nonempty)
        (findOf_findsAt _)).mpr suits

/-- "ba" is found in "cab" where one of its characters is first, and last. -/
theorem characters_found_for_string :
    let needle : Needle := ⟨stringOf [98, 97], by simp [stringOf, Buffer.bytes]⟩
    (search [99, 97, 98] needle.string .indexOf = .ok (some 1) ∧
        ¬Finds [99, 97, 98] needle .indexOf) ∧
      (search [99, 97, 98] needle.string .lastIndexOf = .ok (some 2) ∧
        ¬Finds [99, 97, 98] needle .lastIndexOf) := by
  intro needle
  refine ⟨⟨rfl, ?_⟩, rfl, ?_⟩
  · rintro ⟨found, returns, finds⟩
    cases returns
    have occurs : OccursAt [98, 97] ([99, 97, 98] : List UInt8) 1 := finds.1
    exact absurd occurs.2 (by decide)
  · rintro ⟨found, returns, finds⟩
    cases returns
    have occurs : OccursAt [98, 97] ([99, 97, 98] : List UInt8) 2 := finds.1
    exact absurd occurs.2 (by decide)

end StringBuilder

end Mindroid
