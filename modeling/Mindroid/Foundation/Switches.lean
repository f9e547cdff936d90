import Mathlib.Data.List.Basic

/-!
# Pending switches

Items of a queue turn something on, turn it off, or do neither.  It is not turned on while it is
on already.
-/

set_option autoImplicit false

namespace Foundation

variable {α : Type} {kind : α → Option Bool}

/-- The items lead from one position to the other. -/
def Turns (kind : α → Option Bool) : Bool → List α → Bool → Prop
  | before, [], after => before = after
  | before, item :: items, after =>
      match kind item with
      | some true => before = false ∧ Turns kind true items after
      | some false => Turns kind false items after
      | none => Turns kind before items after

namespace Turns

variable {before after : Bool} {items : List α} {item : α}

theorem cons_none (neither : kind item = none) :
    Turns kind before (item :: items) after ↔ Turns kind before items after := by
  rw [Turns, neither]

theorem cons_on (turnsOn : kind item = some true) :
    Turns kind before (item :: items) after ↔
      before = false ∧ Turns kind true items after := by
  rw [Turns, turnsOn]

theorem cons_off (turnsOff : kind item = some false) :
    Turns kind before (item :: items) after ↔ Turns kind false items after := by
  rw [Turns, turnsOff]

/-- More items. -/
theorem append {more : List α} {last : Bool} (turns : Turns kind before items after)
    (later : Turns kind after more last) : Turns kind before (items ++ more) last := by
  induction items generalizing before with
  | nil =>
      rw [Turns] at turns
      rw [turns]
      exact later
  | cons item items ih =>
      rw [List.cons_append]
      cases switch : kind item with
      | none => exact (cons_none switch).mpr (ih ((cons_none switch).mp turns))
      | some turnsOn =>
          cases turnsOn with
          | true =>
              have turned := (cons_on switch).mp turns
              exact (cons_on switch).mpr ⟨turned.1, ih turned.2⟩
          | false => exact (cons_off switch).mpr (ih ((cons_off switch).mp turns))

/-- Items that turn nothing on or off. -/
theorem of_quiet (quiet : ∀ item ∈ items, kind item = none) : Turns kind before items before := by
  induction items with
  | nil => rfl
  | cons item items ih =>
      apply (cons_none (quiet item List.mem_cons_self)).mpr
      exact ih fun other member => quiet other (List.mem_cons_of_mem _ member)

theorem eq_of_quiet (turns : Turns kind before items after)
    (quiet : ∀ item ∈ items, kind item = none) : before = after := by
  induction items with
  | nil => exact turns
  | cons item items ih =>
      have later := (cons_none (quiet item List.mem_cons_self)).mp turns
      exact ih later fun other member => quiet other (List.mem_cons_of_mem _ member)

/-- Items that turn something off, if anything. -/
theorem of_offs (offs : ∀ item ∈ items, kind item = none ∨ kind item = some false) :
    Turns kind false items false := by
  induction items with
  | nil => rfl
  | cons item items ih =>
      have later := ih fun other member => offs other (List.mem_cons_of_mem _ member)
      rcases offs item List.mem_cons_self with neither | turnsOff
      · exact (cons_none neither).mpr later
      · exact (cons_off turnsOff).mpr later

end Turns

end Foundation
