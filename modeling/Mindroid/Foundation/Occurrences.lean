import Mathlib.Data.List.Basic
import Mathlib.Order.Bounds.Basic
import Mathlib.Order.Nat

/-!
# Occurrences of a list in another one

Where a list occurs in another one, and which occurrence is the first from an index on or the
last of all.
-/

set_option autoImplicit false

namespace Foundation

variable {α : Type}

/-- The needle begins at this position of the text; an empty one also begins at its end. -/
def OccursAt (needle text : List α) (p : Nat) : Prop :=
  p ≤ text.length ∧ needle <+: text.drop p

/-- The first occurrence that is not before an index. -/
structure FirstAt (needle text : List α) (fromIndex p : Nat) : Prop where
  behind : fromIndex ≤ p
  occurs : OccursAt needle text p
  least : ∀ q, fromIndex ≤ q → OccursAt needle text q → p ≤ q

structure LastAt (needle text : List α) (p : Nat) : Prop where
  occurs : OccursAt needle text p
  greatest : ∀ q, OccursAt needle text q → q ≤ p

/-- What a search for the first occurrence shall give. -/
def FindsFirst (needle text : List α) (fromIndex : Nat) : Option Nat → Prop
  | some p => FirstAt needle text fromIndex p
  | none => ∀ p, fromIndex ≤ p → ¬OccursAt needle text p

/-- What a search for the last occurrence shall give. -/
def FindsLast (needle text : List α) : Option Nat → Prop
  | some p => LastAt needle text p
  | none => ∀ p, ¬OccursAt needle text p

section Occurrences

variable {needle text : List α} {fromIndex p q : Nat}

theorem OccursAt.fits (occurs : OccursAt needle text p) :
    p + needle.length ≤ text.length := by
  have part := occurs.2.length_le
  have inside := occurs.1
  rw [List.length_drop] at part
  omega

/-- A text from an index on: what is before an occurrence, the occurrence, and what is behind. -/
theorem OccursAt.split (occurs : OccursAt needle text p) (behind : fromIndex ≤ p) :
    text.drop fromIndex =
      (text.drop fromIndex).take (p - fromIndex) ++ (needle ++ text.drop (p + needle.length)) := by
  obtain ⟨-, rest, begins⟩ := occurs
  have behindNeedle : text.drop (p + needle.length) = rest := by
    rw [← List.drop_drop, ← begins, List.drop_left]
  rw [behindNeedle, begins]
  conv => lhs; rw [← List.take_append_drop (p - fromIndex) (text.drop fromIndex)]
  rw [List.drop_drop, Nat.add_sub_cancel' behind]

@[simp] theorem occursAt_nil : OccursAt needle [] p ↔ p = 0 ∧ needle = [] := by
  simp [OccursAt]

@[simp] theorem occursAt_zero : OccursAt needle text 0 ↔ needle <+: text := by
  simp [OccursAt]

@[simp] theorem occursAt_cons_succ (c : α) :
    OccursAt needle (c :: text) (p + 1) ↔ OccursAt needle text p := by
  simp [OccursAt]

/-- A single element occurs where it stands. -/
theorem occursAt_singleton {a : α} : OccursAt [a] text p ↔ text[p]? = some a := by
  rw [OccursAt, ← List.head?_drop]
  cases rest : text.drop p with
  | nil => simp
  | cons b others =>
      have inside : p ≤ text.length := by
        have size := congrArg List.length rest
        rw [List.length_drop, List.length_cons] at size
        omega
      simp [inside, eq_comm]

theorem occursAt_concat {a b : α} :
    OccursAt [a] (text ++ [b]) p ↔ OccursAt [a] text p ∨ p = text.length ∧ b = a := by
  rw [occursAt_singleton, occursAt_singleton, List.getElem?_append]
  split
  · rename_i before
    exact (or_iff_left fun last => Nat.ne_of_lt before last.1).symm
  · rename_i behind
    rw [List.getElem?_eq_none (Nat.not_lt.mp behind)]
    rw [Nat.not_lt] at behind
    by_cases last : p = text.length
    · simp [last]
    · rw [List.getElem?_eq_none (by rw [List.length_singleton]; omega)]
      simp [last]

/-- An occurrence in the rest of a text. -/
theorem occursAt_drop (inside : fromIndex ≤ text.length) :
    OccursAt needle (text.drop fromIndex) p ↔ OccursAt needle text (fromIndex + p) := by
  rw [OccursAt, OccursAt, List.drop_drop, List.length_drop]
  exact and_congr_left' (by omega)

/-- An occurrence in the front of a text is one that ends there. -/
theorem occursAt_front {front : List α} (isFront : front <+: text) :
    OccursAt needle front p ↔ OccursAt needle text p ∧ p + needle.length ≤ front.length := by
  obtain ⟨rest, rfl⟩ := isFront
  constructor
  · intro occurs
    have inside := occurs.1
    refine ⟨⟨?_, ?_⟩, occurs.fits⟩
    · rw [List.length_append]
      omega
    · rw [List.drop_append_of_le_length inside]
      exact occurs.2.trans (List.prefix_append _ _)
  · rintro ⟨occurs, fits⟩
    have inside : p ≤ front.length := by omega
    refine ⟨inside, ?_⟩
    have begins := occurs.2
    rw [List.drop_append_of_le_length inside] at begins
    apply List.prefix_of_prefix_length_le begins (List.prefix_append _ _)
    rw [List.length_drop]
    omega

theorem FirstAt.unique (first : FirstAt needle text fromIndex p)
    (other : FirstAt needle text fromIndex q) : p = q :=
  Nat.le_antisymm (first.least q other.behind other.occurs)
    (other.least p first.behind first.occurs)

theorem LastAt.unique (last : LastAt needle text p) (other : LastAt needle text q) : p = q :=
  Nat.le_antisymm (other.greatest p last.occurs) (last.greatest q other.occurs)

/-- If there is an occurrence, there is a first one. -/
theorem exists_firstAt (behind : fromIndex ≤ p) (occurs : OccursAt needle text p) :
    ∃ q, FirstAt needle text fromIndex q := by
  classical
  have some : ∃ q, fromIndex ≤ q ∧ OccursAt needle text q := ⟨p, behind, occurs⟩
  have found := Nat.find_spec some
  refine ⟨Nat.find some, ?_⟩
  exact {
    behind := found.1
    occurs := found.2
    least := fun q behind occurs => Nat.find_min' some ⟨behind, occurs⟩ }

/-- If there is an occurrence, there is a last one, for the text ends. -/
theorem exists_lastAt (occurs : OccursAt needle text p) : ∃ q, LastAt needle text q := by
  classical
  have some : ∃ left, ∃ q, OccursAt needle text q ∧ q + left = text.length := by
    exact ⟨text.length - p, p, occurs, Nat.add_sub_cancel' occurs.1⟩
  obtain ⟨q, last, sum⟩ := Nat.find_spec some
  refine ⟨q, last, fun other occurs => ?_⟩
  have least := Nat.find_min' some ⟨other, occurs, Nat.add_sub_cancel' occurs.1⟩
  have inside := occurs.1
  omega

/-- A search gives the position of the first occurrence, if there is one. -/
theorem findsFirst_iff {found : Option Nat} :
    FindsFirst needle text fromIndex found ↔
      ∀ p, found = some p ↔ FirstAt needle text fromIndex p := by
  cases found with
  | none =>
      constructor
      · intro absent p
        exact iff_of_false (by simp) fun first => absent p first.behind first.occurs
      · intro same p behind occurs
        obtain ⟨q, first⟩ := exists_firstAt behind occurs
        cases (same q).mpr first
  | some found =>
      constructor
      · intro first p
        constructor
        · intro isFound
          cases isFound
          exact first
        · exact fun other => congrArg some (FirstAt.unique first other)
      · exact fun same => (same found).mp rfl

/-- Two searches for the same first occurrence give the same. -/
theorem FindsFirst.unique {found other : Option Nat}
    (finds : FindsFirst needle text fromIndex found)
    (others : FindsFirst needle text fromIndex other) : found = other := by
  rw [findsFirst_iff] at finds others
  apply Option.ext
  intro p
  rw [finds p, others p]

theorem firstAt_drop (inside : fromIndex ≤ text.length) :
    FirstAt needle (text.drop fromIndex) 0 p ↔ FirstAt needle text fromIndex (fromIndex + p) := by
  constructor
  · intro first
    refine ⟨Nat.le_add_right _ _, (occursAt_drop inside).mp first.occurs, fun q behind occurs => ?_⟩
    have least := first.least (q - fromIndex) (Nat.zero_le _)
    rw [occursAt_drop inside, Nat.add_sub_cancel' behind] at least
    have before := least occurs
    omega
  · intro first
    refine ⟨Nat.zero_le _, (occursAt_drop inside).mpr first.occurs, fun q _ occurs => ?_⟩
    have least := first.least (fromIndex + q) (Nat.le_add_right _ _)
      ((occursAt_drop inside).mp occurs)
    omega

/-- What is before the first occurrence does not contain the needle. -/
theorem FirstAt.lacks (first : FirstAt needle text fromIndex p) (nonempty : needle ≠ []) :
    ¬OccursAt needle ((text.drop fromIndex).take (p - fromIndex)) q := by
  intro occurs
  have positive : 0 < needle.length := List.length_pos_iff.mpr nonempty
  have inside := first.occurs.1
  have behind := first.behind
  have fits := occurs.fits
  rw [occursAt_front (List.take_prefix _ _), occursAt_drop (by omega)] at occurs
  have least := first.least (fromIndex + q) (Nat.le_add_right _ _) occurs.1
  rw [List.length_take] at fits
  omega

/-- A search in the rest of a text. -/
theorem findsFirst_drop {found : Option Nat} (inside : fromIndex ≤ text.length) :
    FindsFirst needle (text.drop fromIndex) 0 found ↔
      FindsFirst needle text fromIndex (found.map (fromIndex + ·)) := by
  cases found with
  | some p => exact firstAt_drop inside
  | none =>
      constructor
      · intro absent q behind occurs
        rw [← Nat.add_sub_cancel' behind, ← occursAt_drop inside] at occurs
        exact absent _ (Nat.zero_le _) occurs
      · intro absent q _ occurs
        rw [occursAt_drop inside] at occurs
        exact absent _ (Nat.le_add_right _ _) occurs

end Occurrences

/-! ## Positions with a property -/

/-- What a search for the least position with a property shall give. -/
def FindsLeast {ι : Type} [Preorder ι] (property : ι → Prop) : Option ι → Prop
  | some p => IsLeast {q | property q} p
  | none => ∀ p, ¬property p

/-- What a search for the greatest position with a property shall give. -/
def FindsGreatest {ι : Type} [Preorder ι] (property : ι → Prop) : Option ι → Prop
  | some p => IsGreatest {q | property q} p
  | none => ∀ p, ¬property p

section Least

variable {ι : Type} [PartialOrder ι] {property weaker : ι → Prop} {found : Option ι}

/-- The least position with a weaker property is the one that is searched for if and only if it
has the property. -/
theorem findsLeast_iff_of_weaker (weaken : ∀ p, property p → weaker p)
    (finds : FindsLeast weaker found) :
    FindsLeast property found ↔ ∀ p, IsLeast {q | weaker q} p → property p := by
  cases found with
  | none =>
      refine iff_of_true (fun p holds => finds p (weaken p holds)) fun p least => ?_
      exact absurd least.1 (finds p)
  | some p =>
      constructor
      · intro least q other
        rw [other.unique finds]
        exact least.1
      · exact fun holds => ⟨holds p finds, fun q has => finds.2 (weaken q has)⟩

theorem findsGreatest_iff_of_weaker (weaken : ∀ p, property p → weaker p)
    (finds : FindsGreatest weaker found) :
    FindsGreatest property found ↔ ∀ p, IsGreatest {q | weaker q} p → property p :=
  @findsLeast_iff_of_weaker (OrderDual ι) _ property weaker found weaken finds

end Least

section Elements

variable {accepts : α → Bool} {text : List α} {bound : Nat}

/-- An element that is accepted stands at this position. -/
def AcceptedAt (accepts : α → Bool) (text : List α) (p : Nat) : Prop :=
  ∃ a, text[p]? = some a ∧ accepts a = true

/-- The search for the first element that is accepted, from a position on. -/
theorem findsLeast_findIdx (accepts : α → Bool) (text : List α) (bound : Nat) :
    FindsLeast (fun p => bound ≤ p ∧ AcceptedAt accepts text p)
      (((text.drop bound).findIdx? accepts).map (bound + ·)) := by
  cases found : (text.drop bound).findIdx? accepts with
  | none =>
      rintro p ⟨behind, a, stands, accepted⟩
      rw [← Nat.add_sub_cancel' behind, ← List.getElem?_drop] at stands
      have rejected := List.findIdx?_eq_none_iff.mp found a (List.mem_of_getElem? stands)
      rw [rejected] at accepted
      cases accepted
  | some index =>
      obtain ⟨inside, accepted, first⟩ := List.findIdx?_eq_some_iff_getElem.mp found
      refine ⟨⟨Nat.le_add_right _ _, _, ?_, accepted⟩, ?_⟩
      · rw [← List.getElem?_drop]
        exact List.getElem?_eq_getElem inside
      · rintro p ⟨behind, a, stands, isAccepted⟩
        rw [← Nat.add_sub_cancel' behind, ← List.getElem?_drop] at stands
        change bound + index ≤ p
        by_contra before
        obtain ⟨known, isElement⟩ := List.getElem?_eq_some_iff.mp stands
        apply first (p - bound) (by omega)
        rw [isElement]
        exact isAccepted

/-- The search for the last element that is accepted, from the end of a text. -/
theorem findsGreatest_findIdx_reverse (accepts : α → Bool) (text : List α) :
    FindsGreatest (AcceptedAt accepts text)
      ((text.reverse.findIdx? accepts).map fun index => text.length - (index + 1)) := by
  cases found : text.reverse.findIdx? accepts with
  | none =>
      rintro p ⟨a, stands, accepted⟩
      have member := List.mem_reverse.mpr (List.mem_of_getElem? stands)
      rw [List.findIdx?_eq_none_iff.mp found a member] at accepted
      cases accepted
  | some index =>
      obtain ⟨inside, accepted, last⟩ := List.findIdx?_eq_some_iff_getElem.mp found
      have bounded := inside
      rw [List.length_reverse] at bounded
      have same : text.reverse[index]? = text[text.length - (index + 1)]? :=
        List.getElem?_reverse' (by omega)
      constructor
      · exact ⟨_, same.symm.trans (List.getElem?_eq_getElem inside), accepted⟩
      · rintro p ⟨a, stands, isAccepted⟩
        change p ≤ text.length - (index + 1)
        by_contra behind
        have known := (List.getElem?_eq_some_iff.mp stands).1
        have mirrored := stands
        rw [← @List.getElem?_reverse' _ _ (text.length - (p + 1)) p (by omega)] at mirrored
        obtain ⟨_, isElement⟩ := List.getElem?_eq_some_iff.mp mirrored
        apply last (text.length - (p + 1)) (by omega)
        rw [isElement]
        exact isAccepted

theorem acceptedAt_take_iff {p : Nat} :
    AcceptedAt accepts (text.take (bound + 1)) p ↔ p ≤ bound ∧ AcceptedAt accepts text p := by
  unfold AcceptedAt
  rw [List.getElem?_take]
  split
  case isTrue before => exact (and_iff_right (Nat.le_of_lt_succ before)).symm
  case isFalse behind =>
    refine iff_of_false (by simp) fun both => behind (Nat.lt_succ_of_le both.1)

end Elements

end Foundation
