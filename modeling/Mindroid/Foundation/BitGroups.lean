import Mathlib.Algebra.Group.Nat.Defs
import Mathlib.Data.List.Basic
import Mathlib.Data.Nat.Bitwise

/-!
# Regrouping bits

A sequence of numbers of one width is turned into a sequence of numbers of another width.  Bits are
collected in an accumulator, whose lowest bits have not been grouped yet, and whose other bits do
not matter any more.
-/

set_option autoImplicit false

namespace Foundation

/-- The lowest bits of a number, the most significant one first. -/
def bits : Nat → Nat → List Bool
  | 0, _ => []
  | width + 1, n => n.testBit width :: bits width n

section Bits

variable {width other n m : Nat}

@[simp] theorem length_bits (width n : Nat) : (bits width n).length = width := by
  induction width with
  | zero => rfl
  | succ width ih => rw [bits, List.length_cons, ih]

/-- Only the lowest bits matter. -/
theorem bits_congr (same : ∀ index, index < width → m.testBit index = n.testBit index) :
    bits width m = bits width n := by
  induction width with
  | zero => rfl
  | succ width ih =>
      rw [bits, bits, same width (Nat.lt_succ_self width),
        ih fun index below => same index (Nat.lt_succ_of_lt below)]

theorem bits_mod (fits : width ≤ other) : bits width (n % 2 ^ other) = bits width n := by
  apply bits_congr
  intro index below
  rw [Nat.testBit_mod_two_pow, decide_eq_true (Nat.lt_of_lt_of_le below fits), Bool.true_and]

theorem bits_zero (width : Nat) : bits width 0 = List.replicate width false := by
  induction width with
  | zero => rfl
  | succ width ih => rw [bits, Nat.zero_testBit, ih, List.replicate_succ]

/-- The higher bits come before the lower ones. -/
theorem bits_add (front back n : Nat) :
    bits (front + back) n = bits front (n / 2 ^ back) ++ bits back n := by
  induction front with
  | zero => rw [Nat.zero_add, bits, List.nil_append]
  | succ front ih =>
      rw [Nat.succ_add, bits, ih, bits, List.cons_append, Nat.testBit_div_two_pow, Nat.add_comm]

/-- Numbers with the same bits are the same if they have no others. -/
theorem bits_injective (same : bits width m = bits width n) (fits : m < 2 ^ width)
    (otherFits : n < 2 ^ width) : m = n := by
  induction width generalizing m n with
  | zero =>
      rw [Nat.pow_zero, Nat.lt_one_iff] at fits otherFits
      rw [fits, otherFits]
  | succ width ih =>
      rw [bits, bits, List.cons.injEq] at same
      obtain ⟨highest, lower⟩ := same
      have low : m % 2 ^ width = n % 2 ^ width := by
        apply ih
        · rw [bits_mod (Nat.le_refl width), bits_mod (Nat.le_refl width), lower]
        · exact Nat.mod_lt m (Nat.two_pow_pos width)
        · exact Nat.mod_lt n (Nat.two_pow_pos width)
      apply Nat.eq_of_testBit_eq
      intro index
      rcases Nat.lt_trichotomy index width with below | rfl | above
      · have bit := congrArg (fun number => number.testBit index) low
        simpa [Nat.testBit_mod_two_pow, below] using bit
      · exact highest
      · have far : 2 ^ (width + 1) ≤ 2 ^ index := Nat.pow_le_pow_right Nat.two_pos above
        rw [Nat.testBit_lt_two_pow (Nat.lt_of_lt_of_le fits far),
          Nat.testBit_lt_two_pow (Nat.lt_of_lt_of_le otherFits far)]

end Bits

/-- The bits of all numbers of a sequence. -/
def allBits (width : Nat) (numbers : List Nat) : List Bool :=
  numbers.flatMap (bits width)

section AllBits

variable {width : Nat} {numbers others : List Nat}

@[simp] theorem allBits_nil (width : Nat) : allBits width [] = [] := rfl

@[simp] theorem allBits_append (width : Nat) (numbers others : List Nat) :
    allBits width (numbers ++ others) = allBits width numbers ++ allBits width others :=
  List.flatMap_append

@[simp] theorem allBits_cons (width n : Nat) (numbers : List Nat) :
    allBits width (n :: numbers) = bits width n ++ allBits width numbers := rfl

theorem allBits_singleton (width n : Nat) : allBits width [n] = bits width n :=
  List.append_nil _

@[simp] theorem length_allBits (width : Nat) (numbers : List Nat) :
    (allBits width numbers).length = width * numbers.length := by
  induction numbers with
  | nil => rfl
  | cons n numbers ih =>
      rw [allBits_cons, List.length_append, length_bits, ih, List.length_cons, Nat.mul_succ,
        Nat.add_comm]

theorem allBits_replicate_zero (width count : Nat) :
    allBits width (List.replicate count 0) = List.replicate (width * count) false := by
  induction count with
  | zero => rfl
  | succ count ih =>
      rw [List.replicate_succ, allBits_cons, ih, bits_zero, List.replicate_append_replicate,
        Nat.mul_succ, Nat.add_comm]

/-- Sequences with the same bits are the same. -/
theorem allBits_injective (positive : width ≠ 0)
    (same : allBits width numbers = allBits width others)
    (fits : ∀ n ∈ numbers, n < 2 ^ width) (otherFits : ∀ n ∈ others, n < 2 ^ width) :
    numbers = others := by
  induction numbers generalizing others with
  | nil =>
      cases others with
      | nil => rfl
      | cons n others =>
          have length := congrArg List.length same
          rw [allBits_nil, allBits_cons, List.length_append, length_bits] at length
          exact absurd (Nat.eq_zero_of_add_eq_zero_right length.symm) positive
  | cons n numbers ih =>
      cases others with
      | nil =>
          have length := congrArg List.length same
          rw [allBits_nil, allBits_cons, List.length_append, length_bits] at length
          exact absurd (Nat.eq_zero_of_add_eq_zero_right length) positive
      | cons m others =>
          rw [allBits_cons, allBits_cons] at same
          have parts := List.append_inj same (by rw [length_bits, length_bits])
          rw [List.forall_mem_cons] at fits otherFits
          rw [bits_injective parts.1 fits.1 otherFits.1, ih parts.2 fits.2 otherFits.2]

end AllBits

/-! ## The accumulator -/

/-- The numbers that were emitted and the bits that are still pending in the accumulator are the
bits of the input. -/
structure Regroups (width : Nat) (input : List Bool) (emitted : List Nat) (pending acc : Nat) :
    Prop where
  fits : ∀ n ∈ emitted, n < 2 ^ width
  same : allBits width emitted ++ bits pending acc = input

namespace Regroups

variable {width pending acc acc' : Nat} {input : List Bool} {emitted : List Nat}

theorem start (width acc : Nat) : Regroups width [] [] 0 acc where
  fits := fun _ member => absurd member List.not_mem_nil
  same := rfl

/-- Another number is collected. -/
theorem push (regroups : Regroups width input emitted pending acc) {added n : Nat}
    (small : n < 2 ^ added) (collects : ∀ index, index < pending + added →
      acc'.testBit index = (acc * 2 ^ added + n).testBit index) :
    Regroups width (input ++ bits added n) emitted (pending + added) acc' where
  fits := regroups.fits
  same := by
    have front : (acc * 2 ^ added + n) / 2 ^ added = acc := by
      rw [Nat.mul_comm, Nat.mul_add_div (Nat.two_pow_pos added), Nat.div_eq_of_lt small,
        Nat.add_zero]
    have back : bits added (acc * 2 ^ added + n) = bits added n := by
      rw [← bits_mod (Nat.le_refl added), Nat.mul_comm, Nat.mul_add_mod,
        Nat.mod_eq_of_lt small]
    rw [bits_congr collects, bits_add, front, back, ← List.append_assoc, regroups.same]

/-- As many bits as a number of the output has are emitted. -/
theorem emit {rest : Nat} (regroups : Regroups width input emitted (width + rest) acc) :
    Regroups width input (emitted ++ [acc / 2 ^ rest % 2 ^ width]) rest acc where
  fits := by
    intro n member
    rcases List.mem_append.mp member with before | last
    · exact regroups.fits n before
    · rw [List.mem_singleton.mp last]
      exact Nat.mod_lt _ (Nat.two_pow_pos width)
  same := by
    rw [allBits_append, allBits_singleton, bits_mod (Nat.le_refl width), List.append_assoc,
      ← bits_add, regroups.same]

end Regroups

end Foundation
