import Mathlib.Data.List.Basic

/-!
# Several writers on one wire

What is on a wire is labelled with who wrote it.  A block is written by one writer without the
others in between, and is all that the writer wrote.
-/

set_option autoImplicit false

namespace Foundation

variable {ω β : Type}

/-- All that a writer wrote is at the end of the wire. -/
def Ends (wire : List (ω × β)) (writer : ω) (block : List β) : Prop :=
  ∃ before, wire = before ++ block.map (Prod.mk writer) ∧ ∀ item ∈ before, item.1 ≠ writer

/-- All that a writer wrote is somewhere on the wire, in one piece. -/
def Within (wire : List (ω × β)) (writer : ω) (block : List β) : Prop :=
  ∃ before after, wire = before ++ block.map (Prod.mk writer) ++ after ∧
    (∀ item ∈ before, item.1 ≠ writer) ∧ ∀ item ∈ after, item.1 ≠ writer

variable {wire : List (ω × β)} {writer other : ω} {block more : List β}

theorem ends_nil (absent : ∀ item ∈ wire, item.1 ≠ writer) : Ends wire writer ([] : List β) :=
  ⟨wire, (List.append_nil wire).symm, absent⟩

theorem Ends.absent (ends : Ends wire writer ([] : List β)) : ∀ item ∈ wire, item.1 ≠ writer := by
  rcases ends with ⟨before, rfl, absent⟩
  rw [List.map_nil, List.append_nil]
  exact absent

/-- A writer goes on. -/
theorem Ends.append (ends : Ends wire writer block) :
    Ends (wire ++ more.map (Prod.mk writer)) writer (block ++ more) := by
  rcases ends with ⟨before, rfl, absent⟩
  exact ⟨before, by rw [List.map_append, List.append_assoc], absent⟩

theorem Ends.within (ends : Ends wire writer block) : Within wire writer block := by
  rcases ends with ⟨before, rfl, absent⟩
  exact ⟨before, [], (List.append_nil _).symm, absent, fun _ member => absurd member List.not_mem_nil⟩

theorem absent_map (apart : other ≠ writer) :
    ∀ item ∈ more.map (Prod.mk other), item.1 ≠ writer := by
  intro item member
  rcases List.mem_map.mp member with ⟨value, _, rfl⟩
  exact apart

/-- Another writer goes on, while one has written nothing. -/
theorem Ends.append_other (ends : Ends wire writer ([] : List β)) (apart : other ≠ writer) :
    Ends (wire ++ more.map (Prod.mk other)) writer ([] : List β) := by
  apply ends_nil
  intro item member
  cases List.mem_append.mp member with
  | inl before => exact ends.absent item before
  | inr after => exact absent_map apart item after

/-- Another writer goes on, after one has written a block. -/
theorem Within.append_other (within : Within wire writer block) (apart : other ≠ writer) :
    Within (wire ++ more.map (Prod.mk other)) writer block := by
  rcases within with ⟨before, after, rfl, absentBefore, absentAfter⟩
  refine ⟨before, after ++ more.map (Prod.mk other), List.append_assoc _ _ _, absentBefore, ?_⟩
  intro item member
  cases List.mem_append.mp member with
  | inl earlier => exact absentAfter item earlier
  | inr later => exact absent_map apart item later

end Foundation
