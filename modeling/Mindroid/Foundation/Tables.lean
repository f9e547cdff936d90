import Mathlib.Logic.Function.Basic

/-!
# Tables of records

Objects are numbered, and a table has the record of each.  Most changes of a table replace one
record and keep some of its fields.
-/

set_option autoImplicit false

namespace Foundation

variable {ι ρ δ : Type} [DecidableEq ι] (table : ι → ρ) (index : ι) (record : ρ)

theorem field_update_self (field : ρ → δ) :
    field (Function.update table index record index) = field record := by
  rw [Function.update_self]

variable {index}

theorem field_update_of_ne (field : ρ → δ) {other : ι} (apart : other ≠ index) :
    field (Function.update table index record other) = field (table other) := by
  rw [Function.update_of_ne apart]

variable {table record}

/-- A field that the new record has from the old one is the same in the whole table. -/
theorem field_update_kept (field : ρ → δ) (kept : field record = field (table index)) (other : ι) :
    field (Function.update table index record other) = field (table other) := by
  by_cases same : other = index
  · rw [same, Function.update_self, kept]
  · rw [Function.update_of_ne same]

end Foundation
