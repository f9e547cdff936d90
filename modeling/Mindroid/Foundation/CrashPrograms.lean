import Mathlib.Init

/-!
# Programs that may crash

A program performs operations one after the other, and what it does next depends on their
responses.  It may crash before, between and behind its operations, and in the middle of those that
are not atomic.  A specification says what holds when a program ends and what when it crashes.
-/

set_option autoImplicit false

namespace Foundation

/-- A program with a result. -/
inductive Program (Op : Type) (Response : Op → Type) (α : Type) where
  | pure (value : α)
  | perform (op : Op) (next : Response op → Program Op Response α)

/-- What operations do to a state: from where to where they get with which response, and what is
left by a crash in the middle of them. -/
structure Effects (σ Op : Type) (Response : Op → Type) where
  effect : (op : Op) → σ → Response op → σ → Prop
  torn : Op → σ → σ → Prop

namespace Program

variable {σ Op : Type} {Response : Op → Type} {α β : Type}

def bind : Program Op Response α → (α → Program Op Response β) → Program Op Response β
  | pure value, next => next value
  | perform op next, later => perform op fun response => bind (next response) later

instance : Monad (Program Op Response) where
  pure := Program.pure
  bind := Program.bind

/-- The program of a single operation. -/
def call (op : Op) : Program Op Response (Response op) :=
  perform op pure

variable (effects : Effects σ Op Response)

/-- A program gets to its end. -/
inductive Ends : Program Op Response α → σ → α → σ → Prop where
  | pure {value : α} {st : σ} : Ends (.pure value) st value st
  | perform {op : Op} {next : Response op → Program Op Response α} {st st' st'' : σ}
      {response : Response op} {value : α} (does : effects.effect op st response st')
      (rest : Ends (next response) st' value st'') : Ends (.perform op next) st value st''

/-- A program crashes. -/
inductive Crashes : Program Op Response α → σ → σ → Prop where
  | here {program : Program Op Response α} {st : σ} : Crashes program st st
  | within {op : Op} {next : Response op → Program Op Response α} {st st' : σ}
      (tears : effects.torn op st st') : Crashes (.perform op next) st st'
  | later {op : Op} {next : Response op → Program Op Response α} {st st' st'' : σ}
      {response : Response op} (does : effects.effect op st response st')
      (rest : Crashes (next response) st' st'') : Crashes (.perform op next) st st''

variable {effects}

theorem Ends.bind {program : Program Op Response α} {later : α → Program Op Response β}
    {st st' : σ} {value : β} (ends : Ends effects (program.bind later) st value st') :
    ∃ middle between, Ends effects program st middle between ∧
      Ends effects (later middle) between value st' := by
  induction program generalizing st with
  | pure middle => exact ⟨middle, st, .pure, ends⟩
  | perform op next ih =>
      cases ends with
      | perform does rest =>
          rcases ih _ rest with ⟨middle, between, first, second⟩
          exact ⟨middle, between, .perform does first, second⟩

theorem Crashes.bind {program : Program Op Response α} {later : α → Program Op Response β}
    {st st' : σ} (crashes : Crashes effects (program.bind later) st st') :
    Crashes effects program st st' ∨
      ∃ middle between, Ends effects program st middle between ∧
        Crashes effects (later middle) between st' := by
  induction program generalizing st with
  | pure middle => exact .inr ⟨middle, st, .pure, crashes⟩
  | perform op next ih =>
      cases crashes with
      | here => exact .inl .here
      | within tears => exact .inl (.within tears)
      | later does rest =>
          cases ih _ rest with
          | inl first => exact .inl (.later does first)
          | inr second =>
              rcases second with ⟨middle, between, first, second⟩
              exact .inr ⟨middle, between, .perform does first, second⟩

/-! ## Execution -/

section Execution

variable (act : (op : Op) → σ → Response op × σ)

/-- The result and the state at the end, when every operation acts in one way. -/
def run : Program Op Response α → σ → α × σ
  | pure value, st => (value, st)
  | perform op next, st => run (next (act op st).1) (act op st).2

/-- The state after some of the operations. -/
def runFor : Nat → Program Op Response α → σ → σ
  | 0, _, st => st
  | _ + 1, pure _, st => st
  | count + 1, perform op next, st => runFor count (next (act op st).1) (act op st).2

@[simp] theorem run_pure (value : α) (st : σ) :
    (Pure.pure value : Program Op Response α).run act st = (value, st) :=
  rfl

@[simp] theorem run_call (op : Op) (st : σ) : (call op).run act st = act op st :=
  rfl

@[simp] theorem run_ite (condition : Prop) [Decidable condition]
    (first second : Program Op Response α) (st : σ) :
    (if condition then first else second).run act st =
      if condition then first.run act st else second.run act st := by
  split <;> rfl

/-- The second program runs from where the first one ends. -/
@[simp] theorem run_bind (program : Program Op Response α) (later : α → Program Op Response β)
    (st : σ) :
    (program >>= later).run act st =
      (later (program.run act st).1).run act (program.run act st).2 := by
  induction program generalizing st with
  | pure value => rfl
  | perform op next ih => exact ih (act op st).1 (act op st).2

variable {act} (does : ∀ op st, effects.effect op st (act op st).1 (act op st).2)

include does

theorem ends_run (program : Program Op Response α) (st : σ) :
    Ends effects program st (program.run act st).1 (program.run act st).2 := by
  induction program generalizing st with
  | pure _ => exact .pure
  | perform op next ih => exact .perform (does op st) (ih _ _)

theorem crashes_runFor (count : Nat) (program : Program Op Response α) (st : σ) :
    Crashes effects program st (program.runFor act count st) := by
  induction count generalizing program st with
  | zero =>
      cases program with
      | pure _ => exact .here
      | perform _ _ => exact .here
  | succ count ih =>
      cases program with
      | pure _ => exact .here
      | perform op next => exact .later (does op st) (ih _ _)

end Execution

/-! ## Specifications -/

/-- What holds when a program ends, and when it crashes. -/
structure Spec (effects : Effects σ Op Response) (pre : σ → Prop)
    (program : Program Op Response α) (post : α → σ → Prop) (crash : σ → Prop) : Prop where
  ends : ∀ st value st', pre st → Ends effects program st value st' → post value st'
  crashes : ∀ st st', pre st → Crashes effects program st st' → crash st'

namespace Spec

variable {pre : σ → Prop} {crash : σ → Prop}

theorem pure {value : α} {post : α → σ → Prop} (holds : ∀ st, pre st → post value st)
    (safe : ∀ st, pre st → crash st) : Spec effects pre (.pure value) post crash where
  ends := by
    intro st _ _ start ends
    cases ends
    exact holds st start
  crashes := by
    intro st _ start crashes
    cases crashes
    exact safe st start

theorem call {op : Op} {post : Response op → σ → Prop}
    (does : ∀ st response st', pre st → effects.effect op st response st' →
      post response st' ∧ crash st')
    (torn : ∀ st st', pre st → effects.torn op st st' → crash st')
    (safe : ∀ st, pre st → crash st) : Spec effects pre (.call op) post crash where
  ends := by
    intro st _ _ start ends
    cases ends with
    | perform effect rest =>
        cases rest
        exact (does st _ _ start effect).1
  crashes := by
    intro st _ start crashes
    cases crashes with
    | here => exact safe st start
    | within tears => exact torn st _ start tears
    | later effect rest =>
        cases rest
        exact (does st _ _ start effect).2

/-- An operation that is atomic and changes nothing. -/
theorem observe {op : Op} {post : Response op → σ → Prop}
    (keeps : ∀ st response st', pre st → effects.effect op st response st' →
      st' = st ∧ post response st)
    (atomic : ∀ st st', ¬effects.torn op st st')
    (safe : ∀ st, pre st → crash st) : Spec effects pre (.call op) post crash := by
  refine call ?_ (fun st st' _ torn => absurd torn (atomic st st')) safe
  intro st response st' start does
  obtain ⟨rfl, holds⟩ := keeps st response st' start does
  exact ⟨holds, safe _ start⟩

theorem bind {program : Program Op Response α} {later : α → Program Op Response β}
    {middle : α → σ → Prop} {post : β → σ → Prop}
    (first : Spec effects pre program middle crash)
    (second : ∀ value, Spec effects (middle value) (later value) post crash) :
    Spec effects pre (program >>= later) post crash where
  ends := by
    intro st value st' start ends
    rcases Ends.bind ends with ⟨between, st'', endsFirst, endsSecond⟩
    exact (second between).ends st'' value st' (first.ends st between st'' start endsFirst)
      endsSecond
  crashes := by
    intro st st' start crashes
    cases Crashes.bind crashes with
    | inl early => exact first.crashes st st' start early
    | inr late =>
        rcases late with ⟨between, st'', endsFirst, crashesSecond⟩
        exact (second between).crashes st'' st' (first.ends st between st'' start endsFirst)
          crashesSecond

/-- A program that does one of two things. -/
theorem branch {condition : Bool} {program other : Program Op Response α}
    {post : α → σ → Prop} (taken : condition = true → Spec effects pre program post crash)
    (notTaken : condition = false → Spec effects pre other post crash) :
    Spec effects pre (if condition then program else other) post crash := by
  cases condition with
  | true => exact taken rfl
  | false => exact notTaken rfl

/-- Less is known before. -/
theorem weaken {program : Program Op Response α} {pre' : σ → Prop} {post : α → σ → Prop}
    (spec : Spec effects pre' program post crash) (implies : ∀ st, pre st → pre' st) :
    Spec effects pre program post crash where
  ends := fun st value st' start => spec.ends st value st' (implies st start)
  crashes := fun st st' start => spec.crashes st st' (implies st start)

end Spec

end Program

end Foundation
