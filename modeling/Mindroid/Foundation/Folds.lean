import Mathlib.Data.List.Basic

/-!
# Folds that throw

Elements of a list that change nothing may be left out of a fold, and two folds whose steps keep a
relation end in related states.
-/

set_option autoImplicit false

namespace Foundation

variable {ε σ α : Type} {step : σ → α → Except ε σ} {list : List α} {st st' : σ}

theorem foldlM_cons_ok {a : α} {next : σ} (steps : step st a = .ok next) (list : List α) :
    (a :: list).foldlM step st = list.foldlM step next := by
  rw [List.foldlM_cons, steps]
  rfl

/-- What every step keeps holds at the end. -/
theorem foldlM_keeps {last : σ} (inv : σ → Prop)
    (keeps : ∀ a ∈ list, ∀ st next, inv st → step st a = .ok next → inv next) (starts : inv st)
    (ends : list.foldlM step st = .ok last) : inv last := by
  induction list generalizing st with
  | nil =>
      cases ends
      exact starts
  | cons a list ih =>
      rw [List.foldlM_cons] at ends
      cases steps : step st a with
      | error thrown =>
          rw [steps] at ends
          cases ends
      | ok next =>
          rw [steps] at ends
          exact ih (fun b member => keeps b (List.mem_cons_of_mem a member))
            (keeps a List.mem_cons_self st next starts steps) ends

/-- A fold that gets to the end has made every step, from a state with what all steps keep. -/
theorem foldlM_ok_step {a : α} {last : σ} (inv : σ → Prop)
    (keeps : ∀ a ∈ list, ∀ st next, inv st → step st a = .ok next → inv next) (starts : inv st)
    (member : a ∈ list) (ends : list.foldlM step st = .ok last) :
    ∃ before after, inv before ∧ step before a = .ok after := by
  induction list generalizing st with
  | nil => cases member
  | cons b list ih =>
      rw [List.foldlM_cons] at ends
      cases steps : step st b with
      | error thrown =>
          rw [steps] at ends
          cases ends
      | ok next =>
          rw [steps] at ends
          rcases List.mem_cons.mp member with rfl | later
          · exact ⟨st, next, starts, steps⟩
          · exact ih (fun c member => keeps c (List.mem_cons_of_mem b member))
              (keeps b List.mem_cons_self st next starts steps) later ends

/-- A fold over the elements that are not skipped, each of them replaced, is related to the fold
over all of them. -/
theorem foldlM_related {valid : α → Bool} {change : α → α} (rel : σ → σ → Prop)
    (skips : ∀ a ∈ list, valid a = false → ∀ st st', rel st st' → step st a = .ok st)
    (keeps : ∀ a ∈ list, valid a = true → ∀ st st', rel st st' →
      ∃ next next', step st a = .ok next ∧ step st' (change a) = .ok next' ∧ rel next next')
    (starts : rel st st') :
    ∃ last last', list.foldlM step st = .ok last ∧
      ((list.filter valid).map change).foldlM step st' = .ok last' ∧ rel last last' := by
  induction list generalizing st st' with
  | nil => exact ⟨st, st', rfl, rfl, starts⟩
  | cons a list ih =>
      have later : ∀ {next next' : σ}, rel next next' →
          ∃ last last', list.foldlM step next = .ok last ∧
            ((list.filter valid).map change).foldlM step next' = .ok last' ∧ rel last last' :=
        fun related => ih (fun b member => skips b (List.mem_cons_of_mem a member))
          (fun b member => keeps b (List.mem_cons_of_mem a member)) related
      cases isValid : valid a with
      | false =>
          have unchanged := skips a List.mem_cons_self isValid st st' starts
          rw [foldlM_cons_ok unchanged, List.filter_cons_of_neg (by rw [isValid]; decide)]
          exact later starts
      | true =>
          rcases keeps a List.mem_cons_self isValid st st' starts with
            ⟨next, next', steps, steps', related⟩
          rw [foldlM_cons_ok steps, List.filter_cons_of_pos isValid, List.map_cons,
            foldlM_cons_ok steps']
          exact later related

end Foundation
