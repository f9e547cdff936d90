import Mathlib.Data.List.Forall2

/-!
# Texts with escapes

The characters behind an escape character are read in their own way: here they are folded, for
example to lower case.  How many of them are still to come behind a text decides how the text that
follows is read.
-/

set_option autoImplicit false

namespace Foundation

namespace Escapes

variable {α : Type} (isEscape : α → Bool) (width : Nat) (fold : α → α)

/-- How many characters are still to be folded behind a text. -/
def pending : Nat → List α → Nat
  | count, [] => count
  | 0, c :: text => pending (if isEscape c then width else 0) text
  | count + 1, _ :: text => pending count text

/-- A text whose first characters, and all behind an escape character, are folded. -/
def folded : Nat → List α → List α
  | _, [] => []
  | 0, c :: text => c :: folded (if isEscape c then width else 0) text
  | count + 1, c :: text => fold c :: folded count text

/-- Parts of a text none of which begins with folded characters one of which is an escape
character, and which is not too short. -/
def Aligned : Nat → List (List α) → Prop
  | count, [] => count = 0
  | count, part :: parts =>
      (∀ c ∈ part.take count, isEscape c = false) ∧ Aligned (pending isEscape width count part) parts

instance decidableAligned : (count : Nat) → (parts : List (List α)) →
    Decidable (Aligned isEscape width count parts)
  | count, [] => inferInstanceAs (Decidable (count = 0))
  | count, part :: parts =>
      have := decidableAligned (pending isEscape width count part) parts
      inferInstanceAs (Decidable (_ ∧ _))

variable {isEscape width fold}

theorem pending_append (count : Nat) (text rest : List α) :
    pending isEscape width count (text ++ rest) =
      pending isEscape width (pending isEscape width count text) rest := by
  induction text generalizing count with
  | nil => rfl
  | cons c text ih =>
      cases count with
      | zero => exact ih _
      | succ count => exact ih count

theorem folded_append (count : Nat) (text rest : List α) :
    folded isEscape width fold count (text ++ rest) =
      folded isEscape width fold count text ++
        folded isEscape width fold (pending isEscape width count text) rest := by
  induction text generalizing count with
  | nil => rfl
  | cons c text ih =>
      cases count with
      | zero => exact congrArg (c :: ·) (ih _)
      | succ count => exact congrArg (fold c :: ·) (ih count)

/-- Nothing is folded in a text without an escape character. -/
theorem plain {text : List α} (lacks : ∀ c ∈ text, isEscape c = false) :
    pending isEscape width 0 text = 0 ∧ folded isEscape width fold 0 text = text := by
  induction text with
  | nil => exact ⟨rfl, rfl⟩
  | cons c text ih =>
      have parts := List.forall_mem_cons.mp lacks
      rw [pending, folded, parts.1, if_neg Bool.false_ne_true]
      exact ⟨(ih parts.2).1, congrArg (c :: ·) (ih parts.2).2⟩

/-- Texts that are folded to the same text end alike. -/
theorem pending_eq_of_folded {count : Nat} {text other : List α}
    (same : folded isEscape width fold count text = folded isEscape width fold count other) :
    pending isEscape width count text = pending isEscape width count other := by
  induction text generalizing count other with
  | nil =>
      cases other with
      | nil => rfl
      | cons d other => cases count <;> cases same
  | cons c text ih =>
      cases other with
      | nil => cases count <;> cases same
      | cons d other =>
          cases count with
          | zero =>
              rcases List.cons.inj same with ⟨rfl, rest⟩
              exact ih rest
          | succ count => exact ih (List.cons.inj same).2

/-- If the characters that are folded first are no escape characters, it does not matter for
texts that are the same that these are folded. -/
theorem folded_shift {count : Nat} {text other : List α}
    (same : folded isEscape width fold 0 text = folded isEscape width fold 0 other)
    (lacks : ∀ c ∈ text.take count, isEscape c = false) :
    folded isEscape width fold count text = folded isEscape width fold count other := by
  induction count generalizing text other with
  | zero => exact same
  | succ count ih =>
      cases text with
      | nil =>
          cases other with
          | nil => rfl
          | cons d other => cases same
      | cons c text =>
          cases other with
          | nil => cases same
          | cons d other =>
              rcases List.cons.inj same with ⟨rfl, rest⟩
              have parts := List.forall_mem_cons.mp lacks
              rw [parts.1, if_neg Bool.false_ne_true] at rest
              exact congrArg (fold c :: ·) (ih rest parts.2)

/-- Parts that are the same make up texts that are the same. -/
theorem folded_flatten {count : Nat} {parts others : List (List α)}
    (aligned : Aligned isEscape width count parts)
    (same : List.Forall₂ (fun part other => folded isEscape width fold 0 part =
      folded isEscape width fold 0 other) parts others) :
    folded isEscape width fold count parts.flatten =
      folded isEscape width fold count others.flatten := by
  induction same generalizing count with
  | nil => rfl
  | cons first _ ih =>
      have shifted := folded_shift first aligned.1
      rw [List.flatten_cons, List.flatten_cons, folded_append, folded_append, shifted,
        ← pending_eq_of_folded shifted, ih aligned.2]

/-- The last escape character of aligned parts is not too close to the end. -/
theorem Aligned.pending_flatten {count : Nat} {parts : List (List α)}
    (aligned : Aligned isEscape width count parts) :
    pending isEscape width count parts.flatten = 0 := by
  induction parts generalizing count with
  | nil => exact aligned
  | cons part parts ih =>
      rw [List.flatten_cons, pending_append]
      exact ih aligned.2

end Escapes

end Foundation
