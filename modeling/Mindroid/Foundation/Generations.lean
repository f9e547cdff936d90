import Mathlib.Data.List.Infix
import Mathlib.Logic.Function.Basic

/-!
# Generations

A history is kept in some generations, of which the first one is the newest.  What is added to the
history is added to the newest generation, and the oldest generation is lost when the generations
are shifted.  What is left is always a suffix of the history.
-/

set_option autoImplicit false

namespace Foundation

variable {α β : Type}

namespace Generations

/-- The first generations, from the oldest one to the newest one. -/
def joined (parts : Nat → List α) : Nat → List α
  | 0 => []
  | count + 1 => parts count ++ joined parts count

/-- Every generation becomes an older one, and the newest one is empty. -/
def shifted (parts : Nat → List α) : Nat → List α
  | 0 => []
  | generation + 1 => parts generation

/-- The newest generation is replaced. -/
def renewed (parts : Nat → List α) (newest : List α) : Nat → List α :=
  Function.update parts 0 newest

section Parts

variable {parts parts' : Nat → List α} {history more : List α} {count : Nat}

theorem joined_congr (same : ∀ generation, generation < count →
    parts generation = parts' generation) : joined parts count = joined parts' count := by
  induction count with
  | zero => rfl
  | succ count ih =>
      rw [joined, joined, same count (Nat.lt_succ_self count),
        ih fun generation below => same generation (Nat.lt_succ_of_lt below)]

theorem joined_sublist (within : ∀ generation, generation < count →
    (parts' generation).Sublist (parts generation)) :
    (joined parts' count).Sublist (joined parts count) := by
  induction count with
  | zero => exact List.Sublist.refl []
  | succ count ih =>
      exact (within count (Nat.lt_succ_self count)).append
        (ih fun generation below => within generation (Nat.lt_succ_of_lt below))

/-- Nothing is missing from any of the generations if nothing is missing from all of them. -/
theorem eq_of_joined_eq (within : ∀ generation, generation < count →
    (parts' generation).Sublist (parts generation))
    (same : joined parts' count = joined parts count) :
    ∀ generation, generation < count → parts' generation = parts generation := by
  induction count with
  | zero => exact fun generation below => absurd below (Nat.not_lt_zero generation)
  | succ count ih =>
      have newer (generation : Nat) (below : generation < count) :=
        within generation (Nat.lt_succ_of_lt below)
      have size := congrArg List.length same
      have oldest := (within count (Nat.lt_succ_self count)).length_le
      have others := (joined_sublist newer).length_le
      rw [joined, joined, List.length_append, List.length_append] at size
      obtain ⟨last, rest⟩ := List.append_inj same (by omega)
      intro generation below
      rcases Nat.lt_succ_iff_lt_or_eq.mp below with known | rfl
      · exact ih newer rest generation known
      · exact last

/-- All generations but the newest one come before it. -/
theorem joined_succ (parts : Nat → List α) (count : Nat) :
    joined parts (count + 1) =
      joined (fun generation => parts (generation + 1)) count ++ parts 0 := by
  induction count with
  | zero => rw [joined, joined, joined, List.append_nil, List.nil_append]
  | succ count ih => rw [joined, ih, joined, List.append_assoc]

theorem joined_shifted (parts : Nat → List α) (count : Nat) :
    joined (shifted parts) (count + 1) = joined parts count := by
  rw [joined_succ, shifted, List.append_nil]
  rfl

theorem joined_renewed (parts : Nat → List α) (newest : List α) (count : Nat) :
    joined (renewed parts newest) (count + 1) =
      joined (fun generation => parts (generation + 1)) count ++ newest := by
  rw [joined_succ, renewed, Function.update_self]
  rfl

/-- The generations are the end of a history. -/
def Keep (parts : Nat → List α) (count : Nat) (history : List α) : Prop :=
  joined parts count <:+ history

theorem Keep.add (keep : Keep parts (count + 1) history) (more : List α) :
    Keep (renewed parts (parts 0 ++ more)) (count + 1) (history ++ more) := by
  obtain ⟨lost, whole⟩ := keep
  refine ⟨lost, ?_⟩
  rw [joined_renewed, ← whole, joined_succ, List.append_assoc, List.append_assoc]

theorem Keep.shift (keep : Keep parts (count + 1) history) :
    Keep (shifted parts) (count + 1) history := by
  rw [Keep, joined_shifted]
  exact (List.suffix_append _ _).trans keep

/-- A single generation can be dropped. -/
theorem Keep.drop (parts : Nat → List α) (history : List α) :
    Keep (renewed parts []) 1 history := by
  rw [Keep, joined_renewed]
  exact List.nil_suffix

theorem joined_map (f : α → β) (parts : Nat → List α) (count : Nat) :
    joined (fun generation => (parts generation).map f) count = (joined parts count).map f := by
  induction count with
  | zero => rfl
  | succ count ih => rw [joined, joined, ih, List.map_append]

theorem joined_flatMap (f : α → List β) (parts : Nat → List α) (count : Nat) :
    joined (fun generation => (parts generation).flatMap f) count =
      (joined parts count).flatMap f := by
  induction count with
  | zero => rfl
  | succ count ih => rw [joined, joined, ih, List.flatMap_append]

/-- Every entry is replaced by what it stands for. -/
theorem Keep.flatMap (keep : Keep parts count history) (f : α → List β) :
    Keep (fun generation => (parts generation).flatMap f) count (history.flatMap f) := by
  obtain ⟨lost, whole⟩ := keep
  refine ⟨lost.flatMap f, ?_⟩
  rw [joined_flatMap, ← whole, List.flatMap_append]

end Parts

end Generations

end Foundation
