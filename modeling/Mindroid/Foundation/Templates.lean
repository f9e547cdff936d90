import Mathlib.Data.List.Basic

/-!
# Templates

A template is a text with holes.  Whatever is put into all of its holes can be told from the text if
there is a hole.
-/

set_option autoImplicit false

namespace Foundation

variable {α : Type}

inductive Piece (α : Type) where
  | text (chars : List α)
  | hole

def Piece.fill (value : List α) : Piece α → List α
  | text chars => chars
  | hole => value

/-- The text with something in its holes. -/
def fill (template : List (Piece α)) (value : List α) : List α :=
  template.flatMap (Piece.fill value)

section Fill

variable {template : List (Piece α)} {first second : List α}

@[simp] theorem fill_nil (value : List α) : fill [] value = [] := rfl

@[simp] theorem fill_cons (piece : Piece α) (template : List (Piece α)) (value : List α) :
    fill (piece :: template) value = piece.fill value ++ fill template value :=
  List.flatMap_cons

@[simp] theorem fill_append (template later : List (Piece α)) (value : List α) :
    fill (template ++ later) value = fill template value ++ fill later value :=
  List.flatMap_append

theorem hole_mem_cons {chars : List α} (some : .hole ∈ .text chars :: template) :
    .hole ∈ template := by
  rcases List.mem_cons.mp some with same | later
  · cases same
  · exact later

theorem mem_fill {value : List α} {a : α} (member : a ∈ fill template value) :
    a ∈ value ∨ ∃ chars, .text chars ∈ template ∧ a ∈ chars := by
  rcases List.mem_flatMap.mp member with ⟨piece, inTemplate, inPiece⟩
  cases piece with
  | text chars => exact .inr ⟨chars, inTemplate, inPiece⟩
  | hole => exact .inl inPiece

/-- A longer value makes a longer text. -/
theorem length_fill_le (shorter : first.length ≤ second.length) :
    (fill template first).length ≤ (fill template second).length := by
  induction template with
  | nil => exact Nat.le_refl _
  | cons piece template ih =>
      rw [fill_cons, fill_cons, List.length_append, List.length_append]
      cases piece with
      | text chars => exact Nat.add_le_add_left ih _
      | hole => exact Nat.add_le_add shorter ih

theorem length_fill_lt (some : .hole ∈ template) (shorter : first.length < second.length) :
    (fill template first).length < (fill template second).length := by
  induction template with
  | nil => cases some
  | cons piece template ih =>
      rw [fill_cons, fill_cons, List.length_append, List.length_append]
      cases piece with
      | text chars => exact Nat.add_lt_add_left (ih (hole_mem_cons some)) _
      | hole => exact Nat.add_lt_add_of_lt_of_le shorter (length_fill_le (Nat.le_of_lt shorter))

/-- Nothing is put into a text without holes. -/
theorem fill_of_no_hole (none : .hole ∉ template) (first second : List α) :
    fill template first = fill template second := by
  induction template with
  | nil => rfl
  | cons piece template ih =>
      rw [List.mem_cons, not_or] at none
      rw [fill_cons, fill_cons, ih none.2]
      cases piece with
      | text chars => rfl
      | hole => exact absurd rfl none.1

/-- The value is behind the text before the first hole. -/
theorem fill_injective (some : .hole ∈ template) : Function.Injective (fill template) := by
  intro first second same
  have sameLength : first.length = second.length := by
    rcases Nat.lt_trichotomy first.length second.length with shorter | equal | longer
    · exact absurd (congrArg List.length same) (Nat.ne_of_lt (length_fill_lt some shorter))
    · exact equal
    · exact absurd (congrArg List.length same) (Nat.ne_of_gt (length_fill_lt some longer))
  induction template with
  | nil => cases some
  | cons piece template ih =>
      rw [fill_cons, fill_cons] at same
      cases piece with
      | text chars => exact ih (hole_mem_cons some) (List.append_cancel_left same)
      | hole => exact (List.append_inj same sameLength).1

/-- What is not in the values is in the text, as often as the template has it. -/
theorem count_fill [BEq α] [LawfulBEq α] {a : α} (absent : a ∉ first) (alsoAbsent : a ∉ second) :
    (fill template first).count a = (fill template second).count a := by
  induction template with
  | nil => rfl
  | cons piece template ih =>
      rw [fill_cons, fill_cons, List.count_append, List.count_append, ih]
      cases piece with
      | text chars => rfl
      | hole =>
          rw [Piece.fill, Piece.fill, List.count_eq_zero_of_not_mem absent,
            List.count_eq_zero_of_not_mem alsoAbsent]

end Fill

end Foundation
