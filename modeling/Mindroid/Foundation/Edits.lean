import Mathlib.Data.List.Basic
import Mathlib.Order.Lattice

/-!
# Edits of a list

Every edit of a text puts a part in the place of a range of it.  Insertion is the edit of an empty
range.
-/

set_option autoImplicit false

namespace Foundation

variable {α : Type}

/-- Put a part in the place of the range from a start to a stop. -/
def splice (text : List α) (start stop : Nat) (part : List α) : List α :=
  text.take start ++ (part ++ text.drop stop)

/-- What is between two positions, whichever is the first. -/
def between (text : List α) (i j : Nat) : List α :=
  (text.drop (min i j)).take (max i j - min i j)

variable {text part other : List α} {start stop i j : Nat}

@[simp] theorem splice_inj :
    splice text start stop part = splice text start stop other ↔ part = other := by
  rw [splice, splice, List.append_cancel_left_eq, List.append_cancel_right_eq]

theorem splice_eq_of_le (ordered : i ≤ j) :
    splice text i i part = splice text j j part ↔
      part ++ (text.drop i).take (j - i) = (text.drop i).take (j - i) ++ part := by
  have front : text.take j = text.take i ++ (text.drop i).take (j - i) := by
    rw [← List.take_add, Nat.add_sub_cancel' ordered]
  have rest : text.drop i = (text.drop i).take (j - i) ++ text.drop j := by
    conv => lhs; rw [← List.take_append_drop (j - i) (text.drop i)]
    rw [List.drop_drop, Nat.add_sub_cancel' ordered]
  rw [splice, splice, front, List.append_assoc, List.append_cancel_left_eq]
  conv => lhs; lhs; rw [rest]
  rw [← List.append_assoc, ← List.append_assoc, List.append_cancel_right_eq]

/-- A part can as well be inserted at another position, if it commutes with what is between. -/
theorem splice_eq_iff :
    splice text i i part = splice text j j part ↔
      part ++ between text i j = between text i j ++ part := by
  rcases Nat.le_total i j with ordered | ordered
  · rw [between, min_eq_left ordered, max_eq_right ordered]
    exact splice_eq_of_le ordered
  · rw [between, min_eq_right ordered, max_eq_left ordered]
    exact eq_comm.trans (splice_eq_of_le ordered)

end Foundation
