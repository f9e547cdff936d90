import Mindroid.Util.Concurrent.PromiseMachine

/-!
# Changes of the promises

The changes that instructions make are listed once, with what is known when they are
made.  None of them takes back an outcome, a claim or a registration.
-/

set_option autoImplicit false

namespace Mindroid

open Foundation

/-- `BiRelayAction::run` and the end of `andTree`, as a function of the outcomes of the
suppliers. -/
def BiRelayAction.run {V : Type} [Inhabited V] : Outcome V → Outcome V → Outcome V
  | .error exception, _ => .error (toCompletionException exception)
  | .ok _, .error exception => .error (toCompletionException exception)
  | .ok _, .ok _ => .ok default

/-- Which outcome of the consumer belongs to the outcomes of the suppliers. -/
def ActionClass.Gives {P A V : Type} [Inhabited V] :
    ActionClass P A V → Outcome V → Outcome V → Outcome V → Prop
  | .function _ _ _ _ produces, first, _, given => produces first = .outcome given
  | .relay _ _, first, _, given => given = RelayAction.run first
  | .biRelay _ _ _, first, second, given => given = BiRelayAction.run first second
  | .errorRelay _ _, first, _, given =>
      ∃ exception, first = .error exception ∧ given = .error (toCompletionException exception)

namespace Promise

variable {A V : Type} {promise : Promise A V}

theorem outcome_of_some {exception : Exception} (failed : promise.mException = some exception) :
    promise.outcome = .error exception := by
  rw [outcome, failed]

theorem outcome_of_none (succeeded : promise.mException = none) :
    promise.outcome = .ok promise.mResult := by
  rw [outcome, succeeded]

theorem outcome_settled (fresh : promise.mException = none) (outcome : Outcome V) :
    (promise.settled outcome).outcome = outcome := by
  cases outcome with
  | ok result => exact outcome_of_none fresh
  | error exception => rfl

end Promise

namespace Promises

variable {P A V : Type}

def Done (promises : Promises P A V) (promise : P) : Prop :=
  (promises.promise promise).mIsDone = true

/-- The action is waiting at the supplier, or has been there. -/
def Armed (promises : Promises P A V) (action : A) (supplier : P) : Prop :=
  action ∈ (promises.promise supplier).mActions ∨ promises.visited action supplier = true ∨
    promises.removed action supplier = true

section Table

variable (classOf : A → ActionClass P A V)

def AllDone (promises : Promises P A V) (action : A) : Prop :=
  ∀ supplier ∈ (classOf action).suppliers, promises.Done supplier

/-- The outcome that the action gives its consumer. -/
def Produces [Inhabited V] (promises : Promises P A V) (action : A) (outcome : Outcome V) : Prop :=
  promises.AllDone classOf action ∧
    (classOf action).Gives (promises.promise (classOf action).supplier).outcome
      (promises.promise (classOf action).supplier2).outcome outcome

end Table

end Promises

/-! ## Fields after an update -/

namespace Promises

variable {P A V : Type} [DecidableEq P] (promises : Promises P A V) (promise other : P)

theorem promise_setActions_of_ne {promise other : P} (actions : List A)
    (different : other ≠ promise) :
    (promises.setActions promise actions).promise other = promises.promise other := by
  simp only [setActions, Function.update_of_ne different]

@[simp] theorem mActions_setActions_self (actions : List A) :
    ((promises.setActions promise actions).promise promise).mActions = actions := by
  simp only [setActions, Function.update_self]

/-- Only the list of actions is replaced. -/
theorem promise_setActions (actions : List A) :
    ((promises.setActions promise actions).promise other).mIsDone =
        (promises.promise other).mIsDone ∧
      ((promises.setActions promise actions).promise other).mResult =
        (promises.promise other).mResult ∧
      ((promises.setActions promise actions).promise other).mException =
        (promises.promise other).mException := by
  by_cases same : other = promise
  · rw [same]
    simp only [setActions, Function.update_self, and_self]
  · rw [promises.promise_setActions_of_ne actions same]
    exact ⟨rfl, rfl, rfl⟩

theorem settle_of_done {promise : P} (done : promises.Done promise) (outcome : Outcome V)
    (completer : Completer) : promises.settle promise outcome completer = promises :=
  if_pos done

theorem promise_settle_of_ne {promise other : P} (outcome : Outcome V) (completer : Completer)
    (different : other ≠ promise) :
    (promises.settle promise outcome completer).promise other = promises.promise other ∧
      (promises.settle promise outcome completer).completedBy other = promises.completedBy other := by
  rw [settle]
  split
  · exact ⟨rfl, rfl⟩
  · simp only [Function.update_of_ne different, and_self]

/-- A promise that is not done gets the outcome. -/
theorem promise_settle_self {promise : P} (pending : ¬promises.Done promise)
    (outcome : Outcome V) (completer : Completer) :
    (promises.settle promise outcome completer).promise promise =
        (promises.promise promise).settled outcome ∧
      (promises.settle promise outcome completer).completedBy promise = some completer := by
  have notDone : (promises.promise promise).mIsDone = false := Bool.not_eq_true _ ▸ pending
  simp [settle, notDone]

theorem done_settle_self (outcome : Outcome V) (completer : Completer) :
    (promises.settle promise outcome completer).Done promise := by
  by_cases done : promises.Done promise
  · rwa [promises.settle_of_done done]
  · rw [Done, (promises.promise_settle_self done outcome completer).1]
    cases outcome <;> rfl

@[simp] theorem mActions_settle (outcome : Outcome V) (completer : Completer) :
    ((promises.settle promise outcome completer).promise other).mActions =
      (promises.promise other).mActions := by
  by_cases same : other = promise
  · rw [same]
    by_cases done : promises.Done promise
    · rw [promises.settle_of_done done]
    · rw [(promises.promise_settle_self done outcome completer).1]
      cases outcome <;> rfl
  · rw [(promises.promise_settle_of_ne outcome completer same).1]

/-- Settling a promise leaves all other fields alone. -/
theorem settle_rest (outcome : Outcome V) (completer : Completer) :
    (promises.settle promise outcome completer).claimed = promises.claimed ∧
      (promises.settle promise outcome completer).visited = promises.visited ∧
      (promises.settle promise outcome completer).removed = promises.removed ∧
      (promises.settle promise outcome completer).registered = promises.registered ∧
      (promises.settle promise outcome completer).combined = promises.combined ∧
      (promises.settle promise outcome completer).nextCall = promises.nextCall ∧
      (promises.settle promise outcome completer).returned = promises.returned ∧
      (promises.settle promise outcome completer).triggered = promises.triggered ∧
      (promises.settle promise outcome completer).submitted = promises.submitted := by
  rw [settle]
  split <;> simp

variable [DecidableEq A] (action : A)

@[simp] theorem promise_visit : (promises.visit action promise).promise = promises.promise := rfl

omit [DecidableEq P] in
@[simp] theorem promise_combine (actions : List A) :
    (promises.combine actions).promise = promises.promise := rfl

theorem visited_visit (later : A) :
    (promises.visit action promise).visited later other = true ↔
      later = action ∧ other = promise ∨ promises.visited later other = true := by
  by_cases sameAction : later = action
  · rw [sameAction]
    by_cases same : other = promise
    · simp [visit, same]
    · simp [visit, same]
  · simp [visit, sameAction]

theorem removed_remove (later : A) :
    (promises.remove action promise).removed later other = true ↔
      later = action ∧ other = promise ∨ promises.removed later other = true := by
  by_cases sameAction : later = action
  · rw [sameAction]
    by_cases same : other = promise
    · simp [remove, same]
    · simp [remove, same]
  · simp [remove, sameAction]

end Promises

namespace ActionClass

variable {P A V : Type}

/-- `run` goes on with the result of the supplier. -/
def passesResult : ActionClass P A V → Bool
  | function _ _ _ _ _ => true
  | relay _ _ => true
  | _ => false

theorem suppliers_eq_of_not_isBiRelay {type : ActionClass P A V} (single : type.isBiRelay = false) :
    type.suppliers = [type.supplier] := by
  rw [suppliers, single]
  rfl

theorem suppliers_of_isBiRelay {type : ActionClass P A V} (double : type.isBiRelay = true) :
    type.suppliers = [type.supplier, type.supplier2] := by
  rw [suppliers, double]
  rfl

@[simp] theorem supplier_mem (type : ActionClass P A V) : type.supplier ∈ type.suppliers := by
  rw [suppliers]
  split <;> exact List.mem_cons_self

@[simp] theorem supplier2_mem (type : ActionClass P A V) : type.supplier2 ∈ type.suppliers := by
  cases type <;> simp [suppliers, supplier2, supplier, isBiRelay]

theorem mem_suppliers {type : ActionClass P A V} {promise : P} (member : promise ∈ type.suppliers) :
    promise = type.supplier ∨ type.isBiRelay = true ∧ promise = type.supplier2 := by
  cases double : type.isBiRelay with
  | false =>
      rw [suppliers_eq_of_not_isBiRelay double, List.mem_singleton] at member
      exact .inl member
  | true =>
      rw [suppliers_of_isBiRelay double] at member
      rcases List.mem_cons.mp member with first | second
      · exact .inl first
      · exact .inr ⟨rfl, List.mem_singleton.mp second⟩

theorem isBiRelay_of_isRelay {type : ActionClass P A V} (isRelay : type.isRelay = true) :
    type.isBiRelay = false := by
  cases type with
  | relay => rfl
  | function => cases isRelay
  | biRelay => cases isRelay
  | errorRelay => cases isRelay

theorem isFunction_of_isRelay {type : ActionClass P A V} (isRelay : type.isRelay = true) :
    type.isFunction = false := by
  cases type with
  | function => cases isRelay
  | relay | biRelay | errorRelay => rfl

theorem isFunction_of_isBiRelay {type : ActionClass P A V} (isBiRelay : type.isBiRelay = true) :
    type.isFunction = false := by
  cases type with
  | function => cases isBiRelay
  | relay | biRelay | errorRelay => rfl

end ActionClass

namespace PromiseMachine

variable {P A V : Type} {classOf : A → ActionClass P A V}

/-! ## Done promises keep their outcome -/

/-- What no step takes back. -/
structure Grows (before after : Promises P A V) : Prop where
  kept : ∀ promise, before.Done promise → after.Done promise ∧
    (after.promise promise).mResult = (before.promise promise).mResult ∧
    (after.promise promise).mException = (before.promise promise).mException ∧
    after.completedBy promise = before.completedBy promise
  nextCall : before.nextCall ≤ after.nextCall
  claimed : ∀ action, before.claimed action = true → after.claimed action = true
  visited : ∀ action supplier, before.visited action supplier = true →
    after.visited action supplier = true
  armed : ∀ action supplier, before.Armed action supplier → after.Armed action supplier
  registered : ∀ action, before.registered action = true → after.registered action = true
  combined : ∀ action, before.combined action = true → after.combined action = true

namespace Grows

variable {before middle after : Promises P A V}

theorem refl (promises : Promises P A V) : Grows promises promises where
  kept _ done := ⟨done, rfl, rfl, rfl⟩
  nextCall := Nat.le_refl _
  claimed _ claimed := claimed
  visited _ _ visited := visited
  armed _ _ armed := armed
  registered _ registered := registered
  combined _ combined := combined

theorem trans (first : Grows before middle) (second : Grows middle after) : Grows before after where
  kept promise done := by
    obtain ⟨done', result, exception, completer⟩ := first.kept promise done
    obtain ⟨done'', result', exception', completer'⟩ := second.kept promise done'
    exact ⟨done'', result'.trans result, exception'.trans exception, completer'.trans completer⟩
  nextCall := Nat.le_trans first.nextCall second.nextCall
  claimed action holds := second.claimed action (first.claimed action holds)
  visited action supplier holds := second.visited action supplier (first.visited action supplier holds)
  armed action supplier holds := second.armed action supplier (first.armed action supplier holds)
  registered action holds := second.registered action (first.registered action holds)
  combined action holds := second.combined action (first.combined action holds)

theorem outcome (grows : Grows before after) {promise : P} (done : before.Done promise) :
    (after.promise promise).outcome = (before.promise promise).outcome := by
  obtain ⟨-, result, exception, -⟩ := grows.kept promise done
  rw [Promise.outcome, Promise.outcome, result, exception]

theorem allDone (grows : Grows before after) {action : A}
    (allDone : before.AllDone classOf action) : after.AllDone classOf action :=
  fun supplier member => (grows.kept supplier (allDone supplier member)).1

end Grows

/-! ## What an action produces -/

section Produces

variable {promises : Promises P A V}

theorem allDone_of_both {action : A} (first : promises.Done (classOf action).supplier)
    (second : promises.Done (classOf action).supplier2) : promises.AllDone classOf action := by
  intro supplier member
  rcases ActionClass.mem_suppliers member with rfl | ⟨-, rfl⟩
  · exact first
  · exact second

theorem allDone_single {action : A} (single : (classOf action).isBiRelay = false)
    (done : ∃ supplier ∈ (classOf action).suppliers, promises.Done supplier) :
    promises.AllDone classOf action := by
  rw [ActionClass.suppliers_eq_of_not_isBiRelay single] at done
  obtain ⟨supplier, member, done⟩ := done
  intro other isOther
  rw [ActionClass.suppliers_eq_of_not_isBiRelay single] at isOther
  rw [List.mem_singleton.mp isOther, ← List.mem_singleton.mp member]
  exact done

variable [Inhabited V]

theorem produces_exception {action : A} {supplier : P} {exception : Exception}
    (allDone : promises.AllDone classOf action)
    (noFunction : ∀ sync supplier consumer calls user,
      classOf action ≠ .function sync supplier consumer calls user)
    (asked : supplier = (classOf action).supplier ∨
      (classOf action).isBiRelay = true ∧ supplier = (classOf action).supplier2 ∧
        (promises.promise (classOf action).supplier).mException = none)
    (failed : (promises.promise supplier).mException = some exception) :
    promises.Produces classOf action (.error (toCompletionException exception)) := by
  refine ⟨allDone, ?_⟩
  have failure := Promise.outcome_of_some failed
  rcases asked with rfl | ⟨double, rfl, none⟩
  · rw [failure]
    cases type : classOf action with
    | function => exact absurd type (noFunction _ _ _ _ _)
    | relay => rfl
    | biRelay => rfl
    | errorRelay => exact ⟨exception, rfl, rfl⟩
  · rw [failure, Promise.outcome_of_none none]
    cases type : classOf action with
    | biRelay => rfl
    | function | relay | errorRelay =>
        rw [type] at double
        cases double

theorem produces_default {action : A} (double : (classOf action).isBiRelay = true)
    (allDone : promises.AllDone classOf action)
    (first : (promises.promise (classOf action).supplier).mException = none)
    (second : (promises.promise (classOf action).supplier2).mException = none) :
    promises.Produces classOf action (.ok default) := by
  refine ⟨allDone, ?_⟩
  rw [Promise.outcome_of_none first, Promise.outcome_of_none second]
  cases type : classOf action with
  | biRelay => rfl
  | function | relay | errorRelay =>
      rw [type] at double
      cases double

theorem produces_result {action : A} (allDone : promises.AllDone classOf action)
    (isRelay : (classOf action).isRelay = true)
    (succeeded : (promises.promise (classOf action).supplier).mException = none) :
    promises.Produces classOf action
      (.ok (promises.promise (classOf action).supplier).mResult) := by
  refine ⟨allDone, ?_⟩
  rw [Promise.outcome_of_none succeeded]
  cases type : classOf action with
  | relay => rfl
  | function | biRelay | errorRelay =>
      rw [type] at isRelay
      cases isRelay

theorem Grows.produces {before after : Promises P A V} (grows : Grows before after) {action : A}
    {outcome : Outcome V} (produces : before.Produces classOf action outcome) :
    after.Produces classOf action outcome := by
  obtain ⟨allDone, gives⟩ := produces
  refine ⟨grows.allDone allDone, ?_⟩
  rw [grows.outcome (allDone _ (classOf action).supplier_mem),
    grows.outcome (allDone _ (classOf action).supplier2_mem)]
  exact gives

end Produces

variable [Inhabited V]

/-! ## Updates -/

section Updates

variable [DecidableEq P]

variable {promises : Promises P A V} {action : A} {supplier : P}

omit [Inhabited V]

theorem grows_settle (promise : P) (outcome : Outcome V) (completer : Completer) :
    Grows promises (promises.settle promise outcome completer) := by
  obtain ⟨claimed, visited, removed, registered, combined, nextCall, -⟩ :=
    promises.settle_rest promise outcome completer
  exact
    { kept := by
        intro other done
        by_cases same : other = promise
        · rw [← same, promises.settle_of_done done]
          exact ⟨done, rfl, rfl, rfl⟩
        · obtain ⟨kept, completer⟩ := promises.promise_settle_of_ne outcome completer same
          rw [Promises.Done, kept]
          exact ⟨done, rfl, rfl, completer⟩
      nextCall := Nat.le_of_eq nextCall.symm
      claimed := by simp [claimed]
      visited := by simp [visited]
      armed := by simp [Promises.Armed, visited, removed]
      registered := by simp [registered]
      combined := by simp [combined] }

/-- Replacing the list of actions is harmless if no action that leaves it is forgotten. -/
theorem grows_setActions (supplier : P) (actions : List A)
    (armed : ∀ action ∈ (promises.promise supplier).mActions, action ∈ actions ∨
      promises.visited action supplier = true ∨ promises.removed action supplier = true) :
    Grows promises (promises.setActions supplier actions) where
  kept other done := by
    obtain ⟨isDone, result, exception⟩ := promises.promise_setActions supplier other actions
    exact ⟨isDone.trans done, result, exception, rfl⟩
  nextCall := Nat.le_refl _
  claimed _ claimed := claimed
  visited _ _ visited := visited
  armed action other waits := by
    by_cases same : other = supplier
    · rw [same] at waits ⊢
      rw [Promises.Armed, promises.mActions_setActions_self]
      exact waits.elim (armed action) .inr
    · rwa [Promises.Armed, promises.promise_setActions_of_ne actions same]
  registered _ registered := registered
  combined _ combined := combined

variable [DecidableEq A]

theorem grows_visit (action : A) (supplier : P) :
    Grows promises (promises.visit action supplier) where
  kept _ done := ⟨done, rfl, rfl, rfl⟩
  nextCall := Nat.le_refl _
  claimed _ claimed := claimed
  visited later other visited := (promises.visited_visit supplier other action later).mpr (.inr visited)
  armed later other armed := armed.imp_right <| Or.imp_left fun visited =>
    (promises.visited_visit supplier other action later).mpr (.inr visited)
  registered _ registered := registered
  combined _ combined := combined

/-- An action that leaves the list because it is visited stays armed. -/
theorem grows_setActions_visit {actions : List A}
    (others : ∀ other ∈ (promises.promise supplier).mActions, other ≠ action → other ∈ actions) :
    Grows promises ((promises.setActions supplier actions).visit action supplier) := by
  have visits : Grows (promises.visit action supplier)
      ((promises.visit action supplier).setActions supplier actions) := by
    apply grows_setActions
    intro other member
    by_cases same : other = action
    · exact .inr (.inl ((promises.visited_visit _ _ _ _).mpr (.inl ⟨same, rfl⟩)))
    · exact .inl (others other member same)
  exact (grows_visit action supplier).trans visits

theorem grows_remove (action : A) (supplier : P) :
    Grows promises (promises.remove action supplier) where
  kept other done := by
    obtain ⟨isDone, result, exception⟩ := promises.promise_setActions supplier other
      ((promises.promise supplier).mActions.erase action)
    exact ⟨isDone.trans done, result, exception, rfl⟩
  nextCall := Nat.le_refl _
  claimed _ claimed := claimed
  visited _ _ visited := visited
  armed later other armed := by
    rcases armed with waits | visited | removed
    · by_cases same : other = supplier
      · by_cases sameAction : later = action
        · exact .inr (.inr ((promises.removed_remove _ _ _ _).mpr (.inl ⟨sameAction, same⟩)))
        · left
          rw [same] at waits ⊢
          have listed : ((promises.remove action supplier).promise supplier).mActions =
              (promises.promise supplier).mActions.erase action :=
            promises.mActions_setActions_self supplier _
          rw [listed]
          exact (List.mem_erase_of_ne sameAction).mpr waits
      · left
        have kept : (promises.remove action supplier).promise other = promises.promise other :=
          promises.promise_setActions_of_ne _ same
        rwa [kept]
    · exact .inr (.inl visited)
    · exact .inr (.inr ((promises.removed_remove _ _ _ _).mpr (.inr removed)))
  registered _ registered := registered
  combined _ combined := combined

end Updates

variable [DecidableEq P] [DecidableEq A]

/-! ## The list of changes -/

variable (classOf) in
inductive Change : Promises P A V → Promises P A V → Prop where
  | refl (promises : Promises P A V) : Change promises promises
  | trans {promises middle after : Promises P A V} (first : Change promises middle)
      (second : Change middle after) : Change promises after
  | refused {promises : Promises P A V} {promise : P} (done : promises.Done promise) :
      Change promises
        ({ promises with nextCall := promises.nextCall + 1 }.returns promises.nextCall promise false)
  | completed {promises : Promises P A V} {promise : P} (outcome : Outcome V)
      (pending : ¬promises.Done promise) :
      Change promises ({ promises with nextCall := promises.nextCall + 1 }.settle promise outcome
        (.call promises.nextCall))
  | returned {promises : Promises P A V} {number : Nat} {promise : P}
      (completed : promises.completedBy promise = some (.call number)) :
      Change promises (promises.returns number promise true)
  | settled {promises : Promises P A V} {action : A} {outcome : Outcome V}
      (produces : promises.Produces classOf action outcome) :
      Change promises (promises.settle (classOf action).consumer outcome .action)
  | visited {promises : Promises P A V} {action : A} {supplier : P}
      (done : promises.Done supplier) :
      Change promises (promises.visit action supplier)
  | popped {promises : Promises P A V} {action : A} {supplier : P} {behind : List A}
      (done : promises.Done supplier)
      (front : (promises.promise supplier).mActions = action :: behind) :
      Change promises ((promises.setActions supplier behind).visit action supplier)
  | queued {promises : Promises P A V} {action : A} {supplier : P}
      (pending : ¬promises.Done supplier) (member : supplier ∈ (classOf action).suppliers) :
      Change promises
        (promises.setActions supplier ((promises.promise supplier).mActions ++ [action]))
  | passed {promises : Promises P A V} {action : A} {supplier : P}
      (done : promises.Done supplier) (member : supplier ∈ (classOf action).suppliers) :
      Change promises ((promises.setActions supplier
        (((promises.promise supplier).mActions ++ [action]).erase action)).visit action supplier)
  | removed {promises : Promises P A V} {action : A} (supplier : P)
      (isRelay : (classOf action).isRelay = true)
      (done : promises.Done (classOf action).consumer) :
      Change promises (promises.remove action supplier)
  | claimed {promises : Promises P A V} {action : A} (allDone : promises.AllDone classOf action)
      (unclaimed : promises.claimed action = false) :
      Change promises (promises.claim action)
  | handed {promises : Promises P A V} {action : A} (allDone : promises.AllDone classOf action)
      (isDeferred : (classOf action).isDeferred = true) :
      Change promises { promises with submitted := action :: promises.submitted }
  | taken {promises : Promises P A V} (action : A) :
      Change promises { promises with submitted := promises.submitted.erase action }
  | registered {promises : Promises P A V} {actions : List A}
      (armed : ∀ action ∈ actions, ∀ supplier ∈ (classOf action).suppliers,
        promises.Armed action supplier) :
      Change promises (promises.register actions)
  | combined {promises : Promises P A V} {actions : List A}
      (ready : ∀ action ∈ actions, promises.registered action = true ∨
        promises.Done (classOf action).consumer) :
      Change promises (promises.combine actions)

section Growth

variable {promises after : Promises P A V}

theorem Change.grows (change : Change classOf promises after) : Grows promises after := by
  induction change with
  | refl promises => exact Grows.refl promises
  | trans _ _ first second => exact first.trans second
  | refused done => exact { Grows.refl _ with nextCall := Nat.le_succ _ }
  | @completed promises promise outcome pending =>
      have counted : Grows promises { promises with nextCall := promises.nextCall + 1 } :=
        { Grows.refl _ with nextCall := Nat.le_succ _ }
      exact counted.trans (grows_settle promise outcome (.call promises.nextCall))
  | returned completed => exact { Grows.refl _ with }
  | settled produces => exact grows_settle _ _ _
  | visited done => exact grows_visit _ _
  | popped done front =>
      apply grows_setActions_visit
      intro other member different
      rw [front] at member
      exact (List.mem_cons.mp member).resolve_left different
  | queued pending member =>
      exact grows_setActions _ _ fun _ waits => .inl (List.mem_append_left _ waits)
  | passed done member =>
      apply grows_setActions_visit
      intro other waits different
      exact (List.mem_erase_of_ne different).mpr (List.mem_append_left _ waits)
  | removed supplier isRelay done => exact grows_remove _ supplier
  | @claimed promises action allDone unclaimed =>
      refine { Grows.refl promises with claimed := ?_ }
      intro other claimed
      by_cases same : other = action
      · simp [Promises.claim, same]
      · simp [Promises.claim, same, claimed]
  | handed allDone isDeferred => exact { Grows.refl _ with }
  | taken action => exact { Grows.refl _ with }
  | registered armed =>
      exact { Grows.refl _ with
        registered := fun _ registered => by simp [Promises.register, registered] }
  | combined ready =>
      exact { Grows.refl _ with combined := fun _ combined => by simp [Promises.combine, combined] }

end Growth

end PromiseMachine

end Mindroid
