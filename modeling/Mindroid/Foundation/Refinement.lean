import Mindroid.Foundation.Transition

/-!
# Components that answer calls

A component answers every call with a reply and goes on in another state.  What it is
for is said by a relation between calls and replies that may allow more than one reply.
-/

set_option autoImplicit false

namespace Foundation

variable {σ τ γ ρ : Type}

/-- The replies to a list of calls, and the state after them. -/
def answer (call : σ → γ → ρ × σ) : σ → List γ → List ρ × σ
  | st, [] => ([], st)
  | st, next :: calls =>
      let (reply, st) := call st next
      let (replies, st) := answer call st calls
      (reply :: replies, st)

theorem answer_concat (call : σ → γ → ρ × σ) (st : σ) (calls : List γ) (last : γ) :
    answer call st (calls ++ [last]) =
      let before := answer call st calls
      (before.1 ++ [(call before.2 last).1], (call before.2 last).2) := by
  induction calls generalizing st with
  | nil => rfl
  | cons next calls ih =>
      have later := ih (call st next).2
      change (_ :: (answer call (call st next).2 (calls ++ [last])).1, _) = _
      rw [List.append_eq, later]
      rfl

/-- Every call is made in a state in which it is permitted. -/
def Permitted (call : σ → γ → ρ × σ) (permits : σ → γ → Prop) : σ → List γ → Prop
  | _, [] => True
  | st, next :: calls => permits st next ∧ Permitted call permits (call st next).2 calls

theorem permitted_always (call : σ → γ → ρ × σ) (st : σ) (calls : List γ) :
    Permitted call (fun _ _ => True) st calls := by
  induction calls generalizing st with
  | nil => exact trivial
  | cons next calls ih => exact ⟨trivial, ih _⟩

/-- The replies are allowed. -/
inductive Trace (allows : τ → γ → ρ → τ → Prop) : τ → List γ → List ρ → τ → Prop where
  | nil (st : τ) : Trace allows st [] [] st
  | cons {st st' st'' : τ} {next : γ} {reply : ρ} {calls : List γ} {replies : List ρ}
      (allowed : allows st next reply st') (later : Trace allows st' calls replies st'') :
      Trace allows st (next :: calls) (reply :: replies) st''

variable {call : σ → γ → ρ × σ} {permits : σ → γ → Prop} {allows : τ → γ → ρ → τ → Prop}

theorem Permitted.mono {permits' : σ → γ → Prop} {calls : List γ} {st : σ}
    (implies : ∀ st, ∀ next ∈ calls, permits st next → permits' st next)
    (permitted : Permitted call permits st calls) : Permitted call permits' st calls := by
  induction calls generalizing st with
  | nil => exact trivial
  | cons next calls ih =>
      refine ⟨implies st next List.mem_cons_self permitted.1, ih ?_ permitted.2⟩
      exact fun st later member => implies st later (List.mem_cons_of_mem _ member)

theorem Trace.uncons {abstract abstract' : τ} {next : γ} {reply : ρ} {calls : List γ}
    {replies : List ρ} (trace : Trace allows abstract (next :: calls) (reply :: replies) abstract') :
    ∃ middle, allows abstract next reply middle ∧ Trace allows middle calls replies abstract' := by
  cases trace with
  | cons allowed later => exact ⟨_, allowed, later⟩

/-- A component refines what it is for if it does so call by call. -/
theorem Trace.of_simulation (represents : σ → τ → Prop)
    (simulates : ∀ st abstract next, represents st abstract → permits st next →
      ∃ abstract', allows abstract next (call st next).1 abstract' ∧
        represents (call st next).2 abstract')
    {calls : List γ} {st : σ} {abstract : τ} (starts : represents st abstract)
    (permitted : Permitted call permits st calls) :
    ∃ abstract', Trace allows abstract calls (answer call st calls).1 abstract' ∧
      represents (answer call st calls).2 abstract' := by
  induction calls generalizing st abstract with
  | nil => exact ⟨abstract, .nil abstract, starts⟩
  | cons next calls ih =>
      obtain ⟨middle, allowed, kept⟩ := simulates st abstract next starts permitted.1
      obtain ⟨last, later, represented⟩ := ih kept permitted.2
      exact ⟨last, .cons allowed later, represented⟩

/-! ## Calls that may fail -/

section Attempts

variable {ε : Type}

/-- The replies to a list of calls, each with the state after it. -/
def history (call : σ → γ → ρ × σ) : σ → List γ → List (ρ × σ)
  | _, [] => []
  | st, next :: calls => call st next :: history call (call st next).2 calls

/-- The same of calls that may fail, if none of them does. -/
def attempts (attempt : σ → γ → Except ε (ρ × σ)) : σ → List γ → Except ε (List (ρ × σ))
  | _, [] => .ok []
  | st, next :: calls =>
      match attempt st next with
      | .error failure => .error failure
      | .ok replied => (attempts attempt replied.2 calls).map (replied :: ·)

/-- Calls have the history that they are to have if and only if each of them suits, where that is
exact for single calls. -/
theorem attempts_eq_history_iff {attempt : σ → γ → Except ε (ρ × σ)} {suits : σ → γ → Prop}
    (exact : ∀ st next, permits st next → (attempt st next = .ok (call st next) ↔ suits st next))
    {st : σ} {calls : List γ} (permitted : Permitted call permits st calls) :
    attempts attempt st calls = .ok (history call st calls) ↔ Permitted call suits st calls := by
  induction calls generalizing st with
  | nil => exact iff_of_true rfl trivial
  | cons next calls ih =>
      rw [attempts, history, Permitted, ← exact st next permitted.1, ← ih permitted.2]
      cases attempted : attempt st next with
      | error failure => exact iff_of_false nofun fun both => nomatch both.1
      | ok replied =>
          dsimp only
          constructor
          · intro whole
            cases later : attempts attempt replied.2 calls with
            | error failure =>
                rw [later] at whole
                cases whole
            | ok replies =>
                rw [later] at whole
                obtain ⟨first, rest⟩ := List.cons.inj (Except.ok.inj whole)
                rw [rest, first] at later
                exact ⟨congrArg _ first, later⟩
          · rintro ⟨first, rest⟩
            rw [Except.ok.inj first, rest]
            rfl

end Attempts

/-! ## Actions that are possible where they are permitted -/

section Actions

variable {α : Type} {step : σ → α → Option σ} {act : τ → α → τ} {allowed : τ → α → Prop}
  {represents : σ → τ → Prop}

/-- Every action is made where it is allowed. -/
def AllAllowed (act : τ → α → τ) (allowed : τ → α → Prop) : τ → List α → Prop :=
  Permitted (fun abstract action => ((), act abstract action)) allowed

/-- An action is possible where it is allowed, and then does what it is to do. -/
def Realizes (step : σ → α → Option σ) (act : τ → α → τ) (allowed : τ → α → Prop)
    (represents : σ → τ → Prop) : Prop :=
  ∀ st abstract action, represents st abstract →
    (allowed abstract action →
      ∃ next, step st action = some next ∧ represents next (act abstract action)) ∧
    (¬allowed abstract action → step st action = none)

/-- All of the actions are possible if and only if they are allowed, and they do then what they are
to do. -/
theorem Realizes.runAll (realizes : Realizes step act allowed represents) {st : σ} {abstract : τ}
    (starts : represents st abstract) (actions : List α) :
    (AllAllowed act allowed abstract actions →
      ∃ final, runAll step st actions = some final ∧
        represents final (actions.foldl act abstract)) ∧
    (¬AllAllowed act allowed abstract actions → Foundation.runAll step st actions = none) := by
  induction actions generalizing st abstract with
  | nil => exact ⟨fun _ => ⟨st, rfl, starts⟩, fun refused => absurd trivial refused⟩
  | cons action actions ih =>
      have single := realizes st abstract action starts
      rw [Foundation.runAll]
      by_cases possible : allowed abstract action
      · obtain ⟨next, taken, represented⟩ := single.1 possible
        have later := ih represented
        rw [taken]
        refine ⟨fun all => later.1 all.2, fun refused => later.2 fun rest => refused ?_⟩
        exact ⟨possible, rest⟩
      · rw [single.2 possible]
        exact ⟨fun all => absurd all.1 possible, fun _ => rfl⟩

end Actions

end Foundation
