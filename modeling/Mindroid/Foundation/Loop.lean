import Mathlib.Init

/-!
# Loops that return from their body

One iteration of a loop either returns, or goes on in another state, or throws.
-/

set_option autoImplicit false

namespace Foundation

variable {τ ρ ε : Type}

/-- Iterate the body, at most `fuel` times. -/
def loop (body : τ → Except ε (ρ ⊕ τ)) (outOfFuel : ε) : Nat → τ → Except ε ρ
  | 0, _ => .error outOfFuel
  | fuel + 1, st =>
      match body st with
      | .ok (.inl result) => .ok result
      | .ok (.inr next) => loop body outOfFuel fuel next
      | .error thrown => .error thrown

/-- The states in which iterations begin. -/
inductive Visits (body : τ → Except ε (ρ ⊕ τ)) (st : τ) : τ → Prop where
  | start : Visits body st st
  | next {st' st'' : τ} (visits : Visits body st st') (goesOn : body st' = .ok (.inr st'')) :
      Visits body st st''

variable {body : τ → Except ε (ρ ⊕ τ)}

theorem Visits.head {st next st' : τ} (goesOn : body st = .ok (.inr next))
    (visits : Visits body next st') : Visits body st st' := by
  induction visits with
  | start => exact .next .start goesOn
  | next _ later ih => exact .next ih later

/-- An iteration is the first one, or comes after it. -/
theorem Visits.first {st st' : τ} (visits : Visits body st st') :
    st' = st ∨ ∃ next, body st = .ok (.inr next) ∧ Visits body next st' := by
  induction visits with
  | start => exact .inl rfl
  | next _ goesOn ih =>
      rcases ih with rfl | ⟨next, first, later⟩
      · exact .inr ⟨_, goesOn, .start⟩
      · exact .inr ⟨next, first, .next later goesOn⟩

/-- What every iteration keeps holds wherever an iteration begins. -/
theorem Visits.keeps {st st' : τ} (inv : τ → Prop)
    (iterates : ∀ st next, inv st → body st = .ok (.inr next) → inv next) (starts : inv st)
    (visits : Visits body st st') : inv st' := by
  induction visits with
  | start => exact starts
  | next _ goesOn ih => exact iterates _ _ ih goesOn

/-- A loop returns what its postcondition says if every iteration that begins with the
invariant either returns that, or keeps the invariant and lowers the measure. -/
theorem loop_returns {outOfFuel : ε} (inv : τ → Prop) (measure : τ → Nat) (post : ρ → Prop)
    (iterates : ∀ st, inv st →
      (∃ result, body st = .ok (.inl result) ∧ post result) ∨
        ∃ next, body st = .ok (.inr next) ∧ inv next ∧ measure next < measure st)
    {fuel : Nat} {st : τ} (starts : inv st) (enough : measure st < fuel) :
    ∃ result, loop body outOfFuel fuel st = .ok result ∧ post result := by
  induction fuel generalizing st with
  | zero => exact absurd enough (Nat.not_lt_zero _)
  | succ fuel ih =>
      rcases iterates st starts with ⟨result, returns, holds⟩ | ⟨next, goesOn, kept, less⟩
      · exact ⟨result, by rw [loop, returns], holds⟩
      · rw [loop, goesOn]
        exact ih kept (Nat.lt_of_lt_of_le less (Nat.le_of_lt_succ enough))

/-- A loop whose iterations all go on never gets to its end. -/
theorem loop_endless {outOfFuel : ε} (inv : τ → Prop)
    (goesOn : ∀ st, inv st → ∃ next, body st = .ok (.inr next) ∧ inv next) {st : τ}
    (starts : inv st) (fuel : Nat) : loop body outOfFuel fuel st = .error outOfFuel := by
  induction fuel generalizing st with
  | zero => rfl
  | succ fuel ih =>
      obtain ⟨next, iterates, kept⟩ := goesOn st starts
      rw [loop, iterates]
      exact ih kept

/-- What every iteration keeps or gives for the result holds of the result of a loop. -/
theorem loop_post {outOfFuel : ε} (inv : τ → Prop) (post : ρ → Prop)
    (returns : ∀ st result, inv st → body st = .ok (.inl result) → post result)
    (keeps : ∀ st next, inv st → body st = .ok (.inr next) → inv next)
    {fuel : Nat} {st : τ} {result : ρ} (starts : inv st)
    (ends : loop body outOfFuel fuel st = .ok result) : post result := by
  induction fuel generalizing st with
  | zero => cases ends
  | succ fuel ih =>
      rw [loop] at ends
      split at ends
      case h_1 returned =>
        cases ends
        exact returns st result starts returned
      case h_2 next goesOn => exact ih (keeps st next starts goesOn) ends
      case h_3 => cases ends

/-- Results of one iteration of two loops, or of the loops, are related. -/
def Related {τ' ρ' : Type} (rel : τ → τ' → Prop) (relResult : ρ → ρ' → Prop) :
    Except ε (ρ ⊕ τ) → Except ε (ρ' ⊕ τ') → Prop
  | .ok (.inl result), .ok (.inl result') => relResult result result'
  | .ok (.inr next), .ok (.inr next') => rel next next'
  | .error thrown, .error thrown' => thrown = thrown'
  | _, _ => False

/-- Two loops whose iterations are related go on together, and end with related results. -/
theorem loop_related {τ' ρ' : Type} {body' : τ' → Except ε (ρ' ⊕ τ')} {outOfFuel : ε}
    (rel : τ → τ' → Prop) (relResult : ρ → ρ' → Prop)
    (iterates : ∀ st st', rel st st' → Related rel relResult (body st) (body' st'))
    {fuel : Nat} {st : τ} {st' : τ'} {result : ρ} {result' : ρ'} (starts : rel st st')
    (ends : loop body outOfFuel fuel st = .ok result)
    (ends' : loop body' outOfFuel fuel st' = .ok result') : relResult result result' := by
  induction fuel generalizing st st' with
  | zero => cases ends
  | succ fuel ih =>
      have related := iterates st st' starts
      rw [loop] at ends ends'
      split at ends
      case h_1 returned returns =>
        rw [returns] at related
        split at ends'
        case h_1 returns' =>
          rw [returns'] at related
          cases ends
          cases ends'
          exact related
        case h_2 goesOn' =>
          rw [goesOn'] at related
          cases related
        case h_3 => cases ends'
      case h_2 next goesOn =>
        rw [goesOn] at related
        split at ends'
        case h_1 returns' =>
          rw [returns'] at related
          cases related
        case h_2 goesOn' =>
          rw [goesOn'] at related
          exact ih related ends ends'
        case h_3 => cases ends'
      case h_3 => cases ends

/-- More fuel does not change what a loop returns. -/
theorem loop_mono {outOfFuel : ε} {fuel more : Nat} {st : τ} {result : ρ} (enough : fuel ≤ more)
    (ends : loop body outOfFuel fuel st = .ok result) :
    loop body outOfFuel more st = .ok result := by
  induction fuel generalizing st more with
  | zero => cases ends
  | succ fuel ih =>
      cases more with
      | zero => exact absurd enough (Nat.not_succ_le_zero _)
      | succ more =>
          rw [loop] at ends ⊢
          split at ends
          case h_1 => exact ends
          case h_2 => exact ih (Nat.le_of_succ_le_succ enough) ends
          case h_3 => cases ends

end Foundation
