import Mathlib.Data.List.Induction
import Mathlib.Data.Nat.Digits.Defs

/-!
# Numerals

Lists of digits of a radix, the most significant one first, and the numbers that they are.
-/

set_option autoImplicit false

namespace Foundation

section Numerals

variable {α : Type} (digitOf : α → Option Nat) {radix : Nat} {chars : List α} {n m : Nat}

/-- Each of these characters is a digit of the radix, and there is one. -/
structure Digits (radix : Nat) (chars : List α) (n : Nat) : Prop where
  filled : chars ≠ []
  denotes : ∃ digits : List Nat,
    chars.map digitOf = digits.map some ∧ (∀ digit ∈ digits, digit < radix) ∧
      Nat.ofDigits radix digits.reverse = n

/-- The number that is put together digit by digit.  Other characters count as 0. -/
def positional (radix : Nat) (chars : List α) : Nat :=
  chars.foldl (fun value c => value * radix + (digitOf c).getD 0) 0

/-- A loop over digits puts their number together. -/
theorem positional_eq {digits : List Nat} (values : chars.map digitOf = digits.map some) :
    positional digitOf radix chars = Nat.ofDigits radix digits.reverse := by
  induction chars using List.reverseRecOn generalizing digits with
  | nil =>
      have none : digits = [] := List.map_eq_nil_iff.mp values.symm
      rw [none]
      rfl
  | append_singleton chars c ih =>
      cases digits using List.reverseRecOn with
      | nil => simp at values
      | append_singleton digits digit =>
          rw [List.map_append, List.map_append] at values
          obtain ⟨front, last⟩ := List.append_inj' values rfl
          have isDigit : digitOf c = some digit := List.head_eq_of_cons_eq last
          have before := ih front
          rw [positional] at before ⊢
          rw [List.foldl_append, List.foldl_cons, List.foldl_nil, before, isDigit,
            List.reverse_append, List.reverse_singleton, List.singleton_append, Nat.ofDigits_cons,
            Option.getD_some, Nat.mul_comm, Nat.add_comm]

theorem digits_iff :
    Digits digitOf radix chars n ↔
      chars ≠ [] ∧ (∀ c ∈ chars, ∃ digit < radix, digitOf c = some digit) ∧
        positional digitOf radix chars = n := by
  constructor
  · rintro ⟨filled, digits, values, bounded, rfl⟩
    refine ⟨filled, fun c member => ?_, positional_eq digitOf values⟩
    have isValue : digitOf c ∈ digits.map some := values ▸ List.mem_map_of_mem member
    obtain ⟨digit, isDigit, value⟩ := List.mem_map.mp isValue
    exact ⟨digit, bounded digit isDigit, value.symm⟩
  · rintro ⟨filled, all, rfl⟩
    have values : chars.map digitOf = (chars.map fun c => (digitOf c).getD 0).map some := by
      rw [List.map_map]
      apply List.map_congr_left
      intro c member
      obtain ⟨digit, -, value⟩ := all c member
      rw [Function.comp_apply, value, Option.getD_some]
    refine ⟨filled, _, values, ?_, (positional_eq digitOf values).symm⟩
    intro digit isDigit
    obtain ⟨c, member, rfl⟩ := List.mem_map.mp isDigit
    obtain ⟨digit, bounded, value⟩ := all c member
    rw [value, Option.getD_some]
    exact bounded

variable {digitOf}

theorem Digits.head {c : α} (digits : Digits digitOf radix (c :: chars) n) :
    ∃ digit < radix, digitOf c = some digit :=
  ((digits_iff digitOf).mp digits).2.1 c List.mem_cons_self

theorem Digits.unique (digits : Digits digitOf radix chars n)
    (others : Digits digitOf radix chars m) : n = m :=
  ((digits_iff digitOf).mp digits).2.2.symm.trans ((digits_iff digitOf).mp others).2.2

end Numerals

/-! ## Ranges -/

/-- The low bits of a number are the number if and only if it is in the range of the type. -/
theorem bmod_eq_self_iff {width : Nat} (positive : 0 < width) {n : Int} :
    n.bmod (2 ^ width) = n ↔ -2 ^ (width - 1) ≤ n ∧ n < 2 ^ (width - 1) := by
  obtain ⟨width, rfl⟩ := Nat.exists_eq_add_of_lt positive
  have double : (2 ^ (0 + width + 1) : Nat) = 2 * 2 ^ width := by
    rw [Nat.zero_add, Nat.pow_succ, Nat.mul_comm]
  have some : 0 < 2 ^ width := Nat.two_pow_pos width
  rw [double, Nat.zero_add, Nat.add_sub_cancel]
  have cast : ((2 ^ width : Nat) : Int) = 2 ^ width := Nat.cast_pow 2 width
  rw [← cast]
  generalize 2 ^ width = half at some
  constructor
  · intro same
    have low := @Int.le_bmod n (2 * half) (by omega)
    have high := @Int.bmod_lt n (2 * half) (by omega)
    omega
  · rintro ⟨low, high⟩
    apply Int.bmod_eq_of_le <;> omega

end Foundation
