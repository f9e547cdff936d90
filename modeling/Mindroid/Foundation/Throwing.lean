import Mathlib.Init

/-!
# Calls that return or throw

A call reads and writes a state, and keeps what it has written when it throws.  What it guarantees
is stated with one condition for the case that it returns and another one for the case that it
throws, and the rules follow the program text.
-/

set_option autoImplicit false

namespace Foundation

/-- A call on a state: a result or what was thrown, and the state after it. -/
abbrev Throwing (ε σ α : Type) : Type :=
  ExceptT ε (StateM σ) α

namespace Throwing

variable {ε σ α β : Type}

/-- The call, executed in a state. -/
def outcome (call : Throwing ε σ α) (st : σ) : Except ε α × σ :=
  call.run.run st

/-- The condition on the state before a call for what shall hold after it. -/
def Leads (call : Throwing ε σ α) (returns : α → σ → Prop) (throws : ε → σ → Prop) (st : σ) :
    Prop :=
  match outcome call st with
  | (.ok result, st') => returns result st'
  | (.error thrown, st') => throws thrown st'

section Rules

variable {returns : α → σ → Prop} {returns' : β → σ → Prop} {throws : ε → σ → Prop} {st : σ}

@[simp] theorem leads_pure (result : α) :
    Leads (pure result : Throwing ε σ α) returns throws st ↔ returns result st :=
  Iff.rfl

@[simp] theorem leads_throw (thrown : ε) :
    Leads (throw thrown : Throwing ε σ α) returns throws st ↔ throws thrown st :=
  Iff.rfl

@[simp] theorem leads_get {returns : σ → σ → Prop} :
    Leads (get : Throwing ε σ σ) returns throws st ↔ returns st st :=
  Iff.rfl

@[simp] theorem leads_modify {returns : PUnit → σ → Prop} (update : σ → σ) :
    Leads (modify update : Throwing ε σ PUnit) returns throws st ↔ returns ⟨⟩ (update st) :=
  Iff.rfl

@[simp] theorem leads_set {returns : PUnit → σ → Prop} (written : σ) :
    Leads (set written : Throwing ε σ PUnit) returns throws st ↔ returns ⟨⟩ written :=
  Iff.rfl

@[simp] theorem leads_bind (call : Throwing ε σ α) (next : α → Throwing ε σ β) :
    Leads (call >>= next) returns' throws st ↔
      Leads call (fun result => Leads (next result) returns' throws) throws st := by
  change Leads (ExceptT.bind call next) returns' throws st ↔ _
  simp only [Leads, outcome, ExceptT.run, ExceptT.bind, ExceptT.mk, StateT.run, bind, StateT.bind]
  rcases call st with ⟨result | result, st'⟩
  · exact Iff.rfl
  · exact Iff.rfl

@[simp] theorem leads_map (f : α → β) (call : Throwing ε σ α) :
    Leads (f <$> call) returns' throws st ↔
      Leads call (fun result => returns' (f result)) throws st := by
  rw [← bind_pure_comp, leads_bind]
  exact Iff.rfl

@[simp] theorem leads_discard {returns : PUnit → σ → Prop} (call : Throwing ε σ α) :
    Leads (discard call) returns throws st ↔ Leads call (fun _ => returns ⟨⟩) throws st :=
  leads_map (Function.const α PUnit.unit) call

@[simp] theorem leads_ite (condition : Prop) [Decidable condition] (call other : Throwing ε σ α) :
    Leads (if condition then call else other) returns throws st ↔
      (condition → Leads call returns throws st) ∧
        (¬condition → Leads other returns throws st) := by
  by_cases holds : condition
  · rw [if_pos holds]
    exact ⟨fun leads => ⟨fun _ => leads, fun not => absurd holds not⟩, fun both => both.1 holds⟩
  · rw [if_neg holds]
    exact ⟨fun leads => ⟨fun does => absurd does holds, fun _ => leads⟩, fun both => both.2 holds⟩

@[simp] theorem leads_tryCatch (call : Throwing ε σ α) (handle : ε → Throwing ε σ α) :
    Leads (tryCatch call handle) returns throws st ↔
      Leads call returns (fun thrown => Leads (handle thrown) returns throws) st := by
  change Leads (ExceptT.tryCatch call handle) returns throws st ↔ _
  simp only [Leads, outcome, ExceptT.run, ExceptT.tryCatch, ExceptT.mk, StateT.run, bind,
    StateT.bind]
  rcases call st with ⟨thrown | result, st'⟩
  · exact Iff.rfl
  · exact Iff.rfl

theorem outcome_get : outcome (get : Throwing ε σ σ) st = (.ok st, st) :=
  rfl

theorem outcome_bind_ok {call : Throwing ε σ α} {next : α → Throwing ε σ β} {result : α} {st' : σ}
    (ran : outcome call st = (.ok result, st')) :
    outcome (call >>= next) st = outcome (next result) st' := by
  change outcome (ExceptT.bind call next) st = _
  simp only [outcome, ExceptT.run, ExceptT.bind, ExceptT.mk, StateT.run, bind, StateT.bind] at ran ⊢
  rw [ran]
  rfl

theorem outcome_bind_error {call : Throwing ε σ α} {next : α → Throwing ε σ β} {thrown : ε}
    {st' : σ} (ran : outcome call st = (.error thrown, st')) :
    outcome (call >>= next) st = (.error thrown, st') := by
  change outcome (ExceptT.bind call next) st = _
  simp only [outcome, ExceptT.run, ExceptT.bind, ExceptT.mk, StateT.run, bind, StateT.bind] at ran ⊢
  rw [ran]
  rfl

theorem outcome_map_ok {call : Throwing ε σ α} {result : α} {st' : σ} (f : α → β)
    (ran : outcome call st = (.ok result, st')) :
    outcome (f <$> call) st = (.ok (f result), st') := by
  rw [← bind_pure_comp, outcome_bind_ok ran]
  rfl

theorem outcome_map_error {call : Throwing ε σ α} {thrown : ε} {st' : σ} (f : α → β)
    (ran : outcome call st = (.error thrown, st')) :
    outcome (f <$> call) st = (.error thrown, st') := by
  rw [← bind_pure_comp, outcome_bind_error ran]

/-- The result of a call is changed in the end. -/
theorem outcome_map (f : α → β) (call : Throwing ε σ α) (st : σ) :
    outcome (f <$> call) st = (f <$> (outcome call st).1, (outcome call st).2) := by
  rcases ran : outcome call st with ⟨thrown | result, st'⟩
  · exact outcome_map_error f ran
  · exact outcome_map_ok f ran

theorem leads_threw {call : Throwing ε σ α} {thrown : ε} {st' : σ}
    (ran : outcome call st = (.error thrown, st')) :
    Leads call returns throws st ↔ throws thrown st' := by
  unfold Leads
  rw [ran]

/-- A call that is known to return. -/
theorem leads_returned {call : Throwing ε σ α} {result : α} {st' : σ}
    (ran : outcome call st = (.ok result, st')) :
    Leads call returns throws st ↔ returns result st' := by
  unfold Leads
  rw [ran]

/-- The rules for what is said of the reply and of the state after a call. -/
theorem leads_iff_outcome {call : Throwing ε σ α} {post : Except ε α → σ → Prop} :
    Leads call (fun result => post (.ok result)) (fun thrown => post (.error thrown)) st ↔
      post (outcome call st).1 (outcome call st).2 := by
  unfold Leads
  rcases outcome call st with ⟨thrown | result, st'⟩
  · exact Iff.rfl
  · exact Iff.rfl

/-- The rules also tell what a call returns. -/
theorem outcome_eq_iff {call : Throwing ε σ α} {result : α} {st' : σ} :
    outcome call st = (.ok result, st') ↔
      Leads call (fun returned after => returned = result ∧ after = st') (fun _ _ => False) st := by
  unfold Leads
  rcases outcome call st with ⟨thrown | returned, after⟩
  · exact ⟨fun same => (by cases same), False.elim⟩
  · constructor
    · intro same
      cases same
      exact ⟨rfl, rfl⟩
    · rintro ⟨rfl, rfl⟩
      rfl

/-- Less is guaranteed where more is. -/
theorem Leads.mono {call : Throwing ε σ α} {weaker : α → σ → Prop} {weaker' : ε → σ → Prop}
    (leads : Leads call returns throws st)
    (returning : ∀ result st', returns result st' → weaker result st')
    (throwing : ∀ thrown st', throws thrown st' → weaker' thrown st') :
    Leads call weaker weaker' st := by
  unfold Leads at leads ⊢
  rcases ran : outcome call st with ⟨thrown | result, st'⟩
  · rw [ran] at leads
    exact throwing thrown st' leads
  · rw [ran] at leads
    exact returning result st' leads

theorem Leads.and {call : Throwing ε σ α} {returns' : α → σ → Prop} {throws' : ε → σ → Prop}
    (leads : Leads call returns throws st) (leads' : Leads call returns' throws' st) :
    Leads call (fun result st' => returns result st' ∧ returns' result st')
      (fun thrown st' => throws thrown st' ∧ throws' thrown st') st := by
  unfold Leads at leads leads' ⊢
  rcases ran : outcome call st with ⟨thrown | result, st'⟩
  · rw [ran] at leads leads'
    exact ⟨leads, leads'⟩
  · rw [ran] at leads leads'
    exact ⟨leads, leads'⟩

/-- What holds after a call, whether it returns or throws. -/
def Leaves (call : Throwing ε σ α) (post : σ → Prop) (st : σ) : Prop :=
  Leads call (fun _ => post) (fun _ => post) st

theorem Leaves.mono {call : Throwing ε σ α} {post weaker : σ → Prop} (leaves : Leaves call post st)
    (weakens : ∀ st', post st' → weaker st') : Leaves call weaker st :=
  Leads.mono leaves (fun _ => weakens) (fun _ => weakens)

/-- A call is followed by another one if it returns. -/
theorem Leaves.bind {call : Throwing ε σ α} {next : α → Throwing ε σ β} {post : σ → Prop}
    (leads : Leads call (fun result => Leaves (next result) post) (fun _ => post) st) :
    Leaves (call >>= next) post st :=
  (leads_bind call next).mpr leads

/-- The same holds between two calls, and after the first one if it throws. -/
theorem Leaves.followed {call : Throwing ε σ α} {next : α → Throwing ε σ β}
    {between post : σ → Prop} (leaves : Leaves call between st)
    (returning : ∀ result st', between st' → Leaves (next result) post st')
    (throwing : ∀ st', between st' → post st') : Leaves (call >>= next) post st :=
  Leaves.bind (Leads.mono leaves returning fun _ => throwing)

theorem Leaves.after {call : Throwing ε σ α} {post : σ → Prop} (leaves : Leaves call post st) :
    post (outcome call st).2 := by
  unfold Leaves Leads at leaves
  rcases ran : outcome call st with ⟨thrown | result, st'⟩
  · rwa [ran] at leaves
  · rwa [ran] at leaves

end Rules

/-! ## Calls that change nothing -/

/-- The call leaves the state as it is, whether it returns or throws. -/
def OnlyReads (call : Throwing ε σ α) : Prop :=
  ∀ st, Leaves call (fun st' => st' = st) st

/-- The call never throws. -/
def AlwaysReturns (call : Throwing ε σ α) : Prop :=
  ∀ st, Leads call (fun _ _ => True) (fun _ _ => False) st

/-- The state is as before when the call throws. -/
def AllOrNothing (call : Throwing ε σ α) : Prop :=
  ∀ st, Leads call (fun _ _ => True) (fun _ st' => st' = st) st

section Nothing

variable {call : Throwing ε σ α} {next : α → Throwing ε σ β}

theorem onlyReads_pure (result : α) : OnlyReads (pure result : Throwing ε σ α) :=
  fun _ => rfl

theorem onlyReads_throw (thrown : ε) : OnlyReads (throw thrown : Throwing ε σ α) :=
  fun _ => rfl

theorem onlyReads_get : OnlyReads (get : Throwing ε σ σ) :=
  fun _ => rfl

theorem alwaysReturns_modify (update : σ → σ) :
    AlwaysReturns (modify update : Throwing ε σ PUnit) :=
  fun _ => trivial

namespace OnlyReads

theorem bind (reads : OnlyReads call) (later : ∀ result, OnlyReads (next result)) :
    OnlyReads (call >>= next) := by
  intro st
  apply (reads st).followed
  · intro result st' same
    rw [same]
    exact later result st
  · exact fun _ same => same

theorem map (f : α → β) (reads : OnlyReads call) : OnlyReads (f <$> call) :=
  fun st => (leads_map f call).mpr (reads st)

theorem ite {condition : Prop} [Decidable condition] {other : Throwing ε σ α}
    (reads : OnlyReads call) (otherwise : OnlyReads other) :
    OnlyReads (if condition then call else other) := by
  split
  · exact reads
  · exact otherwise

theorem allOrNothing (reads : OnlyReads call) : AllOrNothing call :=
  fun st => Leads.mono (reads st) (fun _ _ _ => trivial) (fun _ _ same => same)

/-- What is read before does not matter. -/
theorem followed (reads : OnlyReads call) (later : ∀ result, AllOrNothing (next result)) :
    AllOrNothing (call >>= next) := by
  intro st
  rw [leads_bind]
  apply Leads.mono (reads st)
  · intro result st' same
    rw [same]
    exact later result st
  · exact fun _ _ same => same

end OnlyReads

namespace AlwaysReturns

theorem bind (returns : AlwaysReturns call) (later : ∀ result, AlwaysReturns (next result)) :
    AlwaysReturns (call >>= next) := by
  intro st
  rw [leads_bind]
  apply (returns st).mono
  · exact fun result st' _ => later result st'
  · exact fun _ _ thrown => thrown

theorem allOrNothing (returns : AlwaysReturns call) : AllOrNothing call :=
  fun st => (returns st).mono (fun _ _ _ => trivial) (fun _ _ thrown => thrown.elim)

end AlwaysReturns

namespace AllOrNothing

/-- The calls that come last do not throw. -/
theorem bind (whole : AllOrNothing call) (later : ∀ result, AlwaysReturns (next result)) :
    AllOrNothing (call >>= next) := by
  intro st
  rw [leads_bind]
  apply (whole st).mono
  · intro result st' _
    apply (later result st').mono
    · exact fun _ _ _ => trivial
    · exact fun _ _ thrown => thrown.elim
  · exact fun _ _ same => same

theorem map (f : α → β) (whole : AllOrNothing call) : AllOrNothing (f <$> call) :=
  fun st => (leads_map f call).mpr (whole st)

theorem ite {condition : Prop} [Decidable condition] {other : Throwing ε σ α}
    (whole : AllOrNothing call) (otherwise : AllOrNothing other) :
    AllOrNothing (if condition then call else other) := by
  split
  · exact whole
  · exact otherwise

end AllOrNothing

end Nothing

end Throwing

end Foundation
