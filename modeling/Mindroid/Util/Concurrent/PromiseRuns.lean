import Mathlib.Data.List.Nodup
import Mindroid.Util.Concurrent.PromiseRecords
import Mindroid.Util.Concurrent.PromiseSteps

/-!
# Runs of threads that share promises

In every reachable state the promises and the records agree, and whatever is still owed
to a registered action is the duty of an instruction that some thread has yet to
execute.
-/

set_option autoImplicit false

namespace Mindroid

namespace PromiseMachine

open Foundation

variable {P A V : Type} [Inhabited V] {classOf : A → ActionClass P A V}

/-! ## Duties -/

section Duties

variable [DecidableEq P] [DecidableEq A] {promises after : Promises P A V}
variable {instr : Instr P A V} {rest pushed : List (Instr P A V)}

/-- Instructions that run the actions of the promise. -/
def completes (promise : P) : Instr P A V → Prop
  | .onComplete other => other = promise
  | .runActions other => other = promise
  | _ => False

/-- Instructions that try to run the action. -/
def tries (action : A) : Instr P A V → Prop
  | .tryRun other => other = action
  | .isSecondDone other => other = action
  | .claim other => other = action
  | _ => False

/-- Whether the instruction may change a promise, visit an action or claim one. -/
def touches : Instr P A V → Bool
  | .call (.complete _ _) => true
  | .runActions _ => true
  | .claim _ => true
  | .setOutcome _ _ _ => true
  | .registerAt _ _ => true
  | .addAction _ _ _ => true
  | .addAll _ _ _ => true
  | .removeAll _ _ => true
  | _ => false

theorem execute_untouched (untouched : touches instr = false)
    (executes : execute classOf promises rest instr = some (after, pushed)) :
    after.promise = promises.promise ∧ after.visited = promises.visited ∧
      after.claimed = promises.claimed ∧ after.completedBy = promises.completedBy := by
  cases instr with
  | call call =>
      cases call with
      | complete => cases untouched
      | cancel =>
          cases executes
          exact ⟨rfl, rfl, rfl, rfl⟩
      | anyOf consumer actions =>
          cases actions with
          | nil =>
              cases executes
              exact ⟨rfl, rfl, rfl, rfl⟩
          | cons action actions =>
              simp only [execute, executeCall] at executes
              split at executes <;> cases executes
              exact ⟨rfl, rfl, rfl, rfl⟩
      | register =>
          simp only [execute, executeCall] at executes
          split at executes <;> cases executes
          exact ⟨rfl, rfl, rfl, rfl⟩
      | andTree =>
          simp only [execute, executeCall] at executes
          split at executes
          · cases executes
          · split at executes <;> cases executes <;> exact ⟨rfl, rfl, rfl, rfl⟩
  | runActions | claim | setOutcome | registerAt | addAction | addAll | removeAll =>
      cases untouched
  | unlock | returnTrue | isCancelled =>
      cases executes
      exact ⟨rfl, rfl, rfl, rfl⟩
  | onComplete =>
      simp only [execute] at executes
      split at executes <;> cases executes
      exact ⟨rfl, rfl, rfl, rfl⟩
  | isSecondDone | runSecond | linkSecond | linkException | linkExceptionSecond =>
      simp only [execute] at executes
      split at executes <;> cases executes <;> exact ⟨rfl, rfl, rfl, rfl⟩
  | tryRun =>
      simp only [execute] at executes
      split at executes
      · split at executes <;> cases executes <;> exact ⟨rfl, rfl, rfl, rfl⟩
      · cases executes
        exact ⟨rfl, rfl, rfl, rfl⟩
  | run =>
      simp only [execute] at executes
      split at executes
      · cases executes
        exact ⟨rfl, rfl, rfl, rfl⟩
      · split at executes <;> cases executes <;> exact ⟨rfl, rfl, rfl, rfl⟩
  | passResult =>
      simp only [execute] at executes
      split at executes <;> cases executes <;> exact ⟨rfl, rfl, rfl, rfl⟩
  | passException =>
      simp only [execute] at executes
      split at executes
      · cases executes
      · split at executes <;> cases executes <;> exact ⟨rfl, rfl, rfl, rfl⟩
  | apply =>
      simp only [execute] at executes
      split at executes
      · split at executes <;> cases executes <;> exact ⟨rfl, rfl, rfl, rfl⟩
      · cases executes
  | scan consumer actions all =>
      cases actions with
      | nil =>
          cases executes
          exact ⟨rfl, rfl, rfl, rfl⟩
      | cons action actions =>
          simp only [execute] at executes
          split at executes <;> cases executes <;> exact ⟨rfl, rfl, rfl, rfl⟩
  | cleanUp =>
      simp only [execute] at executes
      split at executes <;> cases executes <;> exact ⟨rfl, rfl, rfl, rfl⟩

/-- A done promise whose actions have not been run. -/
def OwesActions (promise : P) (promises : Promises P A V) : Prop :=
  promises.Done promise ∧ (promises.promise promise).mActions ≠ []

/-- An action that was visited by all its suppliers but has not been claimed. -/
def OwesRun (classOf : A → ActionClass P A V) (action : A) (promises : Promises P A V) : Prop :=
  (∀ supplier ∈ (classOf action).suppliers, promises.visited action supplier = true) ∧
    promises.claimed action = false

omit [Inhabited V] [DecidableEq P] [DecidableEq A] in
theorem OwesActions.of_eq {promise : P} (owes : OwesActions promise after)
    (same : after.promise promise = promises.promise promise) : OwesActions promise promises := by
  rwa [OwesActions, Promises.Done, same] at owes

omit [Inhabited V] [DecidableEq P] in
/-- What happens to the list when a promise that is done gets an action. -/
theorem erase_append_ne_nil {actions : List A} {action : A}
    (left : (actions ++ [action]).erase action ≠ []) : actions ≠ [] := by
  rintro rfl
  rw [List.nil_append, List.erase_cons_head] at left
  exact left rfl

omit [Inhabited V] [DecidableEq A] in
theorem owesActions_setActions {promise supplier : P} {actions : List A}
    (shorter : actions ≠ [] → (promises.promise supplier).mActions ≠ [])
    (owes : OwesActions promise (promises.setActions supplier actions)) :
    OwesActions promise promises := by
  refine ⟨?_, ?_⟩
  · rw [Promises.Done, ← (promises.promise_setActions supplier promise actions).1]
    exact owes.1
  · by_cases same : promise = supplier
    · rw [same]
      apply shorter
      have left := owes.2
      rwa [same, promises.mActions_setActions_self] at left
    · have left := owes.2
      rwa [promises.promise_setActions_of_ne actions same] at left

omit [Inhabited V] [DecidableEq A] in
/-- A promise that is not done may get an action. -/
theorem owesActions_append {promise supplier : P} {actions : List A}
    (pending : ¬promises.Done supplier)
    (owes : OwesActions promise (promises.setActions supplier actions)) :
    OwesActions promise promises := by
  by_cases same : promise = supplier
  · have done := owes.1
    rw [Promises.Done, (promises.promise_setActions supplier promise actions).1, same] at done
    exact absurd done pending
  · exact owes.of_eq (promises.promise_setActions_of_ne actions same)

theorem execute_owesActions (promise : P)
    (executes : execute classOf promises rest instr = some (after, pushed))
    (owes : OwesActions promise after) :
    (OwesActions promise promises ∧ ¬completes promise instr) ∨
      ∃ next ∈ pushed, completes promise next := by
  cases touched : touches instr with
  | false =>
      obtain ⟨same, -⟩ := execute_untouched touched executes
      rw [OwesActions, Promises.Done, same] at owes
      by_cases serves : completes promise instr
      · right
        cases instr with
        | onComplete other =>
            obtain rfl := serves
            simp only [execute] at executes
            split at executes <;> cases executes
            exact ⟨_, List.mem_cons_self, rfl⟩
        | runActions other => cases touched
        | _ => exact serves.elim
      · exact .inl ⟨owes, serves⟩
  | true =>
      cases instr with
      | call call =>
          cases call with
          | complete other outcome =>
              simp only [execute, executeCall] at executes
              split at executes
              · cases executes
                exact .inl ⟨owes, not_false⟩
              · cases executes
                by_cases same : promise = other
                · exact .inr ⟨_, List.mem_cons_self, same.symm⟩
                · exact .inl ⟨owes.of_eq (Promises.promise_settle_of_ne _ _ _ same).1, not_false⟩
          | _ => cases touched
      | runActions other =>
          simp only [execute] at executes
          split at executes
          · next empty =>
              cases executes
              refine .inl ⟨owes, fun same => owes.2 ?_⟩
              rw [← show other = promise from same, empty]
          · cases executes
            by_cases same : promise = other
            · exact .inr ⟨_, List.mem_cons_of_mem _ List.mem_cons_self, same.symm⟩
            · refine .inl ⟨owes.of_eq ?_, fun serves => same serves.symm⟩
              rw [Promises.promise_visit, promises.promise_setActions_of_ne _ same]
      | claim action =>
          simp only [execute] at executes
          split at executes
          · cases executes
            exact .inl ⟨owes, not_false⟩
          · split at executes <;> cases executes <;> exact .inl ⟨owes, not_false⟩
      | setOutcome action outcome ending =>
          by_cases same : promise = (classOf action).consumer
          · cases ending with
            | onComplete =>
                cases executes
                exact .inr ⟨_, List.mem_cons_self, same.symm⟩
            | returns actions =>
                simp only [execute] at executes
                split at executes
                · next empty =>
                    cases executes
                    have left : (promises.promise promise).mActions ≠ [] := by
                      rw [← promises.mActions_settle (classOf action).consumer promise outcome .action]
                      exact owes.2
                    rw [← same] at empty
                    exact absurd (List.isEmpty_iff.mp empty) left
                · cases executes
          · have kept := (promises.promise_settle_of_ne outcome .action same).1
            have before : OwesActions promise promises := by
              cases ending with
              | onComplete =>
                  cases executes
                  exact owes.of_eq kept
              | returns actions =>
                  simp only [execute] at executes
                  split at executes
                  · cases executes
                    exact owes.of_eq kept
                  · cases executes
            exact .inl ⟨before, not_false⟩
      | registerAt action suppliers =>
          cases suppliers with
          | nil =>
              cases executes
              exact .inl ⟨owes, not_false⟩
          | cons supplier suppliers =>
              simp only [execute] at executes
              split at executes <;> cases executes <;> exact .inl ⟨owes, not_false⟩
      | addAction action supplier suppliers =>
          simp only [execute] at executes
          split at executes
          · cases executes
            exact .inl ⟨owesActions_setActions erase_append_ne_nil owes, not_false⟩
          · next pending =>
              cases executes
              exact .inl ⟨owesActions_append pending owes, not_false⟩
      | addAll consumer actions all =>
          cases actions with
          | nil =>
              cases executes
              exact .inl ⟨owes, not_false⟩
          | cons action actions =>
              simp only [execute] at executes
              split at executes
              · cases executes
                exact .inl ⟨owesActions_setActions erase_append_ne_nil owes, not_false⟩
              · next pending =>
                  cases executes
                  exact .inl ⟨owesActions_append pending owes, not_false⟩
      | removeAll actions all =>
          cases actions with
          | nil =>
              cases executes
              exact .inl ⟨owes, not_false⟩
          | cons action actions =>
              simp only [execute] at executes
              split at executes
              · cases executes
              · cases executes
                refine .inl ⟨owesActions_setActions ?_ owes, not_false⟩
                intro left empty
                rw [empty] at left
                exact left rfl
      | _ => cases touched

theorem execute_owesRun (consistent : Consistent classOf promises) (action : A)
    (executes : execute classOf promises rest instr = some (after, pushed))
    (owes : OwesRun classOf action after) :
    (OwesRun classOf action promises ∧ ¬tries action instr) ∨ ∃ next ∈ pushed, tries action next := by
  have visitedElse : ∀ {other : A} {supplier : P} {changed : Promises P A V},
      changed.visited = promises.visited → changed.claimed = promises.claimed → action ≠ other →
      OwesRun classOf action (changed.visit other supplier) → OwesRun classOf action promises := by
    intro other supplier changed visited claimed different owes
    refine ⟨fun asked member => ?_, by rw [← claimed]; exact owes.2⟩
    rcases (Promises.visited_visit _ _ _ _ _).mp (owes.1 asked member) with ⟨same, -⟩ | before
    · exact absurd same different
    · rwa [← visited]
  cases touched : touches instr with
  | false =>
      obtain ⟨-, visited, claimed, -⟩ := execute_untouched touched executes
      rw [OwesRun, visited, claimed] at owes
      by_cases serves : tries action instr
      · right
        have done : ∀ supplier ∈ (classOf action).suppliers, promises.Done supplier :=
          fun supplier member => consistent.visited action supplier (owes.1 supplier member)
        have first : (promises.promise (classOf action).supplier).mIsDone = true :=
          done _ (classOf action).supplier_mem
        have second : (promises.promise (classOf action).supplier2).mIsDone = true :=
          done _ (classOf action).supplier2_mem
        cases instr with
        | tryRun other =>
            obtain rfl := serves
            simp only [execute, first, if_true] at executes
            split at executes <;> cases executes <;> exact ⟨_, List.mem_cons_self, rfl⟩
        | isSecondDone other =>
            obtain rfl := serves
            simp only [execute, second, if_true] at executes
            cases executes
            exact ⟨_, List.mem_cons_self, rfl⟩
        | claim other => cases touched
        | _ => exact serves.elim
      · exact .inl ⟨owes, serves⟩
  | true =>
      cases instr with
      | call call =>
          cases call with
          | complete other outcome =>
              simp only [execute, executeCall] at executes
              split at executes
              · cases executes
                exact .inl ⟨owes, not_false⟩
              · cases executes
                obtain ⟨claimed, visited, -⟩ := Promises.settle_rest
                  { promises with nextCall := promises.nextCall + 1 } other outcome
                  (.call promises.nextCall)
                rw [OwesRun, visited, claimed] at owes
                exact .inl ⟨owes, not_false⟩
          | _ => cases touched
      | runActions supplier =>
          simp only [execute] at executes
          split at executes
          · cases executes
            exact .inl ⟨owes, not_false⟩
          · next other behind front =>
              cases executes
              by_cases same : action = other
              · exact .inr ⟨_, List.mem_cons_self, same.symm⟩
              · exact .inl ⟨visitedElse rfl rfl same owes, not_false⟩
      | claim other =>
          have different : action ≠ other := by
            rintro rfl
            have unclaimed := owes.2
            simp only [execute] at executes
            split at executes
            · next claimed =>
                cases executes
                rw [claimed] at unclaimed
                cases unclaimed
            · split at executes <;> cases executes <;> simp [Promises.claim] at unclaimed
          have before : OwesRun classOf action promises := by
            simp only [execute] at executes
            split at executes
            · cases executes
              exact owes
            · split at executes <;> cases executes <;>
                exact ⟨owes.1, by simpa [Promises.claim, different] using owes.2⟩
          exact .inl ⟨before, fun same => different same.symm⟩
      | setOutcome other outcome ending =>
          obtain ⟨claimed, visited, -⟩ :=
            promises.settle_rest (classOf other).consumer outcome .action
          have before : OwesRun classOf action promises := by
            cases ending with
            | onComplete =>
                cases executes
                rwa [OwesRun, visited, claimed] at owes
            | returns actions =>
                simp only [execute] at executes
                split at executes
                · cases executes
                  rw [OwesRun, Promises.combine, visited, claimed] at owes
                  exact owes
                · cases executes
          exact .inl ⟨before, not_false⟩
      | registerAt other suppliers =>
          cases suppliers with
          | nil =>
              cases executes
              exact .inl ⟨owes, not_false⟩
          | cons supplier suppliers =>
              simp only [execute] at executes
              split at executes
              · cases executes
                by_cases same : action = other
                · exact .inr ⟨_, List.mem_cons_self, same.symm⟩
                · exact .inl ⟨visitedElse rfl rfl same owes, not_false⟩
              · cases executes
                exact .inl ⟨owes, not_false⟩
      | addAction other supplier suppliers =>
          simp only [execute] at executes
          split at executes
          · cases executes
            by_cases same : action = other
            · exact .inr ⟨_, List.mem_cons_self, same.symm⟩
            · exact .inl ⟨visitedElse rfl rfl same owes, not_false⟩
          · cases executes
            exact .inl ⟨owes, not_false⟩
      | addAll consumer actions all =>
          cases actions with
          | nil =>
              cases executes
              exact .inl ⟨owes, not_false⟩
          | cons other actions =>
              simp only [execute] at executes
              split at executes
              · cases executes
                by_cases same : action = other
                · exact .inr ⟨_, List.mem_cons_self, same.symm⟩
                · exact .inl ⟨visitedElse rfl rfl same owes, not_false⟩
              · cases executes
                exact .inl ⟨owes, not_false⟩
      | removeAll actions all =>
          cases actions with
          | nil =>
              cases executes
              exact .inl ⟨owes, not_false⟩
          | cons other actions =>
              simp only [execute] at executes
              split at executes <;> cases executes
              exact .inl ⟨owes, not_false⟩
      | _ => cases touched

end Duties

/-! ## Every reachable state -/

section Runs

variable [DecidableEq P] [DecidableEq A]

/-- The states of the machine. -/
abbrev State (P A V : Type) := Config (Promises P A V) (Instr P A V)

variable (classOf) in
/-- What holds between the steps of all threads. -/
structure Sound (state : State P A V) : Prop where
  consistent : Consistent classOf state.shared
  facts : Machine.Facts (Fact classOf) state
  served : ∀ promise, OwesActions promise state.shared → state.Pending (completes promise)
  tried : ∀ action, OwesRun classOf action state.shared → state.Pending (tries action)

variable {state state' : State P A V}

omit [DecidableEq P] [DecidableEq A] in
theorem Sound.initial (initial : Initial state) : Sound classOf state where
  consistent := by
    rw [initial.shared]
    exact consistent_fresh
  facts thread instr member := by
    obtain ⟨call, rfl⟩ := initial.calls thread instr member
    exact trivial
  served promise owes := by
    rw [initial.shared] at owes
    cases owes.1
  tried action owes := by
    have visited := owes.1 _ (classOf action).supplier_mem
    rw [initial.shared] at visited
    cases visited

/-- A step of a thread makes a change of the list. -/
theorem Sound.change (sound : Sound classOf state) (step : (machine classOf).Step state state') :
    Change classOf state.shared state'.shared := by
  cases step with
  | @exec thread instr rest pushed shared top free executes =>
      have fact := sound.facts thread instr (by rw [top]; exact List.mem_cons_self)
      exact (executes_of sound.consistent.listed fact executes).change
  | take idle takes =>
      obtain ⟨action, -, rfl, -⟩ := takes
      exact .taken action

theorem Sound.step (sound : Sound classOf state) (step : (machine classOf).Step state state') :
    Sound classOf state' where
  consistent := sound.consistent.change (sound.change step)
  facts := by
    apply step.facts sound.facts
    · intro rest instr shared pushed executes fact others
      obtain ⟨change, facts⟩ := executes_of sound.consistent.listed fact executes
      exact ⟨fun other => Fact.mono change.grows, facts⟩
    · rintro shared pushed ⟨action, member, rfl, rfl⟩
      have change : Change classOf state.shared _ := .taken action
      have grows := change.grows
      refine ⟨fun other => Fact.mono grows, fun next isNext => ?_⟩
      rw [List.mem_singleton.mp isNext]
      exact ⟨grows.allDone (sound.consistent.submitted action member), trivial⟩
  served promise := by
    apply step.pending (sound.served promise)
    · exact fun _ => execute_owesActions promise
    · rintro shared pushed ⟨action, member, rfl, rfl⟩ owes
      exact owes
  tried action := by
    apply step.pending (sound.tried action)
    · exact fun _ => execute_owesRun sound.consistent action
    · rintro shared pushed ⟨action, member, rfl, rfl⟩ owes
      exact owes

theorem Sound.reachable (start : State P A V) (initial : Initial start)
    (reached : Reachable (· = start) (machine classOf).Step state) : Sound classOf state := by
  apply Reachable.invariant _ _ reached
  · rintro _ rfl
    exact .initial initial
  · intro before after _ sound step
    exact sound.step step

/-- Whatever happens later, what no step takes back stays. -/
theorem grows_later (sound : Sound classOf state)
    (reached : Reachable (· = state) (machine classOf).Step state') :
    Sound classOf state' ∧ Grows state.shared state'.shared := by
  apply Reachable.invariant _ _ reached
  · rintro _ rfl
    exact ⟨sound, .refl _⟩
  · rintro before after _ ⟨soundBefore, grows⟩ step
    exact ⟨soundBefore.step step, grows.trans (soundBefore.change step).grows⟩

/-! ## The contract of a promise -/

variable (classOf) in
/-- What promises guarantee to the code that completes them and registers with them. -/
structure Contract (state : State P A V) : Prop where
  /-- The first completion wins. -/
  final : ∀ promise, state.shared.Done promise →
    ∀ later, Reachable (· = state) (machine classOf).Step later →
      later.shared.Done promise ∧
        (later.shared.promise promise).mResult = (state.shared.promise promise).mResult ∧
        (later.shared.promise promise).mException = (state.shared.promise promise).mException ∧
        later.shared.completedBy promise = state.shared.completedBy promise
  completer : ∀ promise, state.shared.Done promise ↔ state.shared.completedBy promise ≠ none
  /-- Exactly the call that has completed the promise returns true. -/
  returns : ∀ number promise result, (number, promise, result) ∈ state.shared.returned →
    (result = true ↔ state.shared.completedBy promise = some (.call number))
  once : ∀ action, state.shared.triggered.count action ≤ 1
  /-- No action is triggered before its suppliers are done. -/
  notBefore : ∀ action ∈ state.shared.triggered, state.shared.AllDone classOf action
  /-- A registered action is triggered once its suppliers are done and no thread is still
  running their actions or trying the action itself. -/
  triggered : ∀ action, state.shared.registered action = true →
    (∀ supplier ∈ (classOf action).suppliers, state.shared.Done supplier ∧
      state.shared.removed action supplier = false ∧ ¬state.Pending (completes supplier)) →
    ¬state.Pending (tries action) → state.shared.triggered.count action = 1

omit [DecidableEq P] [DecidableEq A] in
theorem Sound.claimed (sound : Sound classOf state) {action : A}
    (registered : state.shared.registered action = true)
    (done : ∀ supplier ∈ (classOf action).suppliers, state.shared.Done supplier ∧
      state.shared.removed action supplier = false ∧ ¬state.Pending (completes supplier))
    (tried : ¬state.Pending (tries action)) : state.shared.claimed action = true := by
  have visited : ∀ supplier ∈ (classOf action).suppliers,
      state.shared.visited action supplier = true := by
    intro supplier member
    obtain ⟨isDone, kept, idle⟩ := done supplier member
    rcases sound.consistent.registered action registered supplier member with
      waits | visited | removed
    · have owes : OwesActions supplier state.shared :=
        ⟨isDone, fun empty => by rw [empty] at waits; cases waits⟩
      exact absurd (sound.served supplier owes) idle
    · exact visited
    · rw [kept] at removed
      cases removed
  cases isClaimed : state.shared.claimed action with
  | true => rfl
  | false => exact absurd (sound.tried action ⟨visited, isClaimed⟩) tried

/-- Whatever the interleaving, every reachable state keeps the contract. -/
theorem reachable_contract {start state : State P A V} (initial : Initial start)
    (reached : Reachable (· = start) (machine classOf).Step state) : Contract classOf state := by
  have sound : Sound classOf state := .reachable start initial reached
  have consistent := sound.consistent
  exact
    { final := fun promise done later reachedLater =>
        (grows_later sound reachedLater).2.kept promise done
      completer := fun promise => (consistent.completedBy promise).symm
      returns := fun number promise result member =>
        (consistent.returned number promise result member).2.2
      once := fun action => List.nodup_iff_count_le_one.mp consistent.once action
      notBefore := fun action member =>
        consistent.claimed action ((consistent.triggered action).mp member)
      triggered := by
        intro action registered done tried
        have member := (consistent.triggered action).mpr (sound.claimed registered done tried)
        exact List.count_eq_one_of_mem consistent.once member }

end Runs

/-! A relay is registered with a promise, which is then completed. -/

def oneRelay : Unit → ActionClass Bool Unit Nat := fun _ => .relay false true

theorem oneRelay_contract : ∃ final : State Bool Unit Nat, Contract oneRelay final ∧
    final.stack 0 = [] ∧ final.shared.triggered = [()] ∧
    final.shared.returned = [(0, false, true)] := by
  have initial : Initial (.running fresh
      [[.call (.register ()), .call (.complete false (.ok 7))]] : State Bool Unit Nat) :=
    { shared := rfl
      calls := by
        intro thread instr member
        match thread with
        | 0 =>
            rcases List.mem_cons.mp member with rfl | member
            · exact ⟨_, rfl⟩
            · exact ⟨_, List.mem_singleton.mp member⟩
        | _ + 1 => cases member }
  have scheduled : ∃ final, (machine oneRelay).schedule (execute oneRelay)
      (List.replicate 17 0) fresh [[.call (.register ()), .call (.complete false (.ok 7))]] =
        some (final, [[]]) ∧ final.triggered = [()] ∧ final.returned = [(0, false, true)] :=
    ⟨_, rfl, rfl, rfl⟩
  obtain ⟨final, scheduled, triggered, returned⟩ := scheduled
  have reached := Machine.schedule_reachable id scheduled (.initial rfl)
  exact ⟨_, reachable_contract initial reached, rfl, triggered, returned⟩

end PromiseMachine

end Mindroid
