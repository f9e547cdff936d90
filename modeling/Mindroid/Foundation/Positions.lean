import Mathlib.Data.List.Basic

/-!
# Positions in collections

A collection holds a sequence of elements.  A position in it is at an element or at the end, can be
moved to the next element, and goes to the next one when its element is erased.
-/

set_option autoImplicit false

namespace Foundation

variable {C P E ε : Type}

/-- The operations on positions. -/
structure Positions (C P E ε : Type) where
  start : C → P
  isEnd : C → P → Bool
  advance : C → P → Except ε P
  get : C → P → Except ε E
  /-- The collection without the element, and the position that is behind it. -/
  erase : C → P → Except ε (C × P)

namespace Positions

/-- What the operations do to the elements before a position and to those from there on. -/
structure Lawful (positions : Positions C P E ε) (elements : C → List E)
    (At : C → P → List E → List E → Prop) : Prop where
  start : ∀ c, At c (positions.start c) [] (elements c)
  elements : ∀ {c p front back}, At c p front back → elements c = front ++ back
  isEnd : ∀ {c p front back}, At c p front back → positions.isEnd c p = back.isEmpty
  advance : ∀ {c p front element back}, At c p front (element :: back) →
    ∃ next, positions.advance c p = .ok next ∧ At c next (front ++ [element]) back
  get : ∀ {c p front element back}, At c p front (element :: back) →
    positions.get c p = .ok element
  erase : ∀ {c p front element back}, At c p front (element :: back) →
    ∃ erased next, positions.erase c p = .ok (erased, next) ∧ At erased next front back

/-- Positions that are indices. -/
def indexed (elements : C → List E) (eraseAt : C → Nat → C) (fault : ε) :
    Positions C Nat E ε where
  start := fun _ => 0
  isEnd := fun c index => index == (elements c).length
  advance := fun c index => if index < (elements c).length then .ok (index + 1) else .error fault
  get := fun c index =>
    match (elements c)[index]? with
    | some element => .ok element
    | none => .error fault
  erase := fun c index =>
    if index < (elements c).length then .ok (eraseAt c index, index) else .error fault

def AtIndex (elements : C → List E) (c : C) (index : Nat) (front back : List E) : Prop :=
  elements c = front ++ back ∧ index = front.length

variable {elements : C → List E} {eraseAt : C → Nat → C} {fault : ε}

theorem indexed_lawful
    (erases : ∀ c index, elements (eraseAt c index) = (elements c).eraseIdx index) :
    (indexed elements eraseAt fault).Lawful elements (AtIndex elements) where
  start := fun _ => ⟨rfl, rfl⟩
  elements := And.left
  isEnd := by
    rintro c _ front back ⟨parts, rfl⟩
    cases back <;> simp [indexed, parts]
  advance := by
    rintro c _ front element back ⟨parts, rfl⟩
    have inside : front.length < (elements c).length := by simp [parts]
    refine ⟨front.length + 1, if_pos inside, ?_, by simp⟩
    rw [parts, List.append_assoc, List.singleton_append]
  get := by
    rintro c _ front element back ⟨parts, rfl⟩
    simp [indexed, parts]
  erase := by
    rintro c _ front element back ⟨parts, rfl⟩
    have inside : front.length < (elements c).length := by simp [parts]
    refine ⟨_, _, if_pos inside, ?_, rfl⟩
    rw [erases, parts, List.eraseIdx_append_of_length_le (Nat.le_refl _), Nat.sub_self,
      List.eraseIdx_cons_zero]

end Positions

end Foundation
