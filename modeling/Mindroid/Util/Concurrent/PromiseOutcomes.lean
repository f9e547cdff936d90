import Mindroid.Util.Concurrent.PromiseRuns

/-!
# Where outcomes come from

The outcome of a promise was given by a call that some thread has made, or by an action
whose suppliers are done.  A relay that has been claimed delivers its outcome.
-/

set_option autoImplicit false

namespace Mindroid

namespace ActionClass

variable {P A V : Type}

/-- Whether an action completes its consumer itself, given the exception of its
supplier. -/
def delivers : ActionClass P A V → Option Exception → Bool
  | function _ _ _ _ _, _ => false
  | relay _ _, _ => true
  | biRelay _ _ _, _ => true
  | errorRelay _ _, exception => exception.isSome

/-- The calls that the user function of an action makes. -/
def calls : ActionClass P A V → Outcome V → List (Call P A V)
  | function _ _ _ calls _, outcome => calls outcome
  | _, _ => []

end ActionClass

namespace PromiseMachine

open Foundation

variable {P A V : Type} [Inhabited V] {classOf : A → ActionClass P A V}

/-! ## Claimed relays deliver -/

/-- Instructions of a `run` method that lead to the completion of the consumer. -/
def delivering (action : A) : Instr P A V → Prop
  | .run other .onComplete => other = action
  | .runSecond other .onComplete => other = action
  | .passResult other .onComplete => other = action
  | .passException other _ .onComplete => other = action
  | .apply other _ => other = action
  | .setOutcome other _ .onComplete => other = action
  | _ => False

variable (classOf) in
/-- A claimed relay whose consumer is not done. -/
def OwesOutcome (action : A) (promises : Promises P A V) : Prop :=
  promises.claimed action = true ∧ ¬promises.Done (classOf action).consumer ∧
    (classOf action).delivers (promises.promise (classOf action).supplier).mException = true

section Deliver

variable [DecidableEq P] [DecidableEq A] {promises after : Promises P A V}
variable {instr : Instr P A V} {rest pushed : List (Instr P A V)}

theorem claimed_execute {action : A}
    (executes : execute classOf promises rest instr = some (after, pushed))
    (claimed : after.claimed action = true) :
    promises.claimed action = true ∨ instr = .claim action ∧ promises.claimed action = false := by
  cases touched : touches instr with
  | false =>
      rw [(execute_untouched touched executes).2.2.1] at claimed
      exact .inl claimed
  | true =>
      cases instr with
      | call call =>
          cases call with
          | complete promise outcome =>
              simp only [execute, executeCall] at executes
              split at executes
              · cases executes
                exact .inl claimed
              · cases executes
                rw [(Promises.settle_rest _ _ _ _).1] at claimed
                exact .inl claimed
          | _ => cases touched
      | claim other =>
          by_cases same : action = other
          · cases before : promises.claimed action with
            | true => exact .inl rfl
            | false => exact .inr ⟨by rw [same], rfl⟩
          · left
            simp only [execute] at executes
            split at executes
            · cases executes
              exact claimed
            · split at executes <;> cases executes <;>
                simpa [Promises.claim, same] using claimed
      | setOutcome other outcome ending =>
          left
          have settled := (promises.settle_rest (classOf other).consumer outcome .action).1
          cases ending with
          | onComplete =>
              cases executes
              rwa [settled] at claimed
          | returns actions =>
              simp only [execute] at executes
              split at executes
              · cases executes
                rw [Promises.combine, settled] at claimed
                exact claimed
              · cases executes
      | runActions promise =>
          simp only [execute] at executes
          split at executes <;> cases executes <;> exact .inl claimed
      | registerAt other suppliers =>
          cases suppliers with
          | nil =>
              cases executes
              exact .inl claimed
          | cons supplier suppliers =>
              simp only [execute] at executes
              split at executes <;> cases executes <;> exact .inl claimed
      | addAction other supplier suppliers =>
          simp only [execute] at executes
          split at executes <;> cases executes <;> exact .inl claimed
      | addAll consumer actions all =>
          cases actions with
          | nil =>
              cases executes
              exact .inl claimed
          | cons other actions =>
              simp only [execute] at executes
              split at executes <;> cases executes <;> exact .inl claimed
      | removeAll actions all =>
          cases actions with
          | nil =>
              cases executes
              exact .inl claimed
          | cons other actions =>
              simp only [execute] at executes
              split at executes <;> cases executes
              exact .inl claimed
      | _ => cases touched

/-- A `run` method hands the delivery on from instruction to instruction. -/
theorem delivering_execute {action : A} (fact : Fact classOf promises instr)
    (delivers : (classOf action).delivers
      (promises.promise (classOf action).supplier).mException = true)
    (delivering' : delivering action instr)
    (executes : execute classOf promises rest instr = some (after, pushed)) :
    after.Done (classOf action).consumer ∨ ∃ next ∈ pushed, delivering action next := by
  cases instr with
  | run other ending =>
      cases ending with
      | returns actions => exact delivering'.elim
      | onComplete =>
          obtain rfl := delivering'
          right
          simp only [execute] at executes
          split at executes
          · cases executes
            exact ⟨_, List.mem_cons_self, rfl⟩
          · next none =>
              cases type : classOf other with
              | biRelay | relay =>
                  simp only [type] at executes
                  cases executes
                  exact ⟨_, List.mem_cons_self, rfl⟩
              | errorRelay =>
                  rw [type] at delivers none
                  rw [none] at delivers
                  cases delivers
              | function =>
                  rw [type] at delivers
                  cases delivers
  | runSecond other ending =>
      cases ending with
      | returns actions => exact delivering'.elim
      | onComplete =>
          obtain rfl := delivering'
          simp only [execute] at executes
          split at executes <;> cases executes <;> exact .inr ⟨_, List.mem_cons_self, rfl⟩
  | passResult other ending =>
      cases ending with
      | returns actions => exact delivering'.elim
      | onComplete =>
          obtain rfl := delivering'
          cases type : classOf other with
          | relay =>
              simp only [execute, type] at executes
              cases executes
              exact .inr ⟨_, List.mem_cons_self, rfl⟩
          | function =>
              rw [type] at delivers
              cases delivers
          | biRelay | errorRelay =>
              have passes := fact.2.2.1
              rw [type] at passes
              cases passes
  | passException other supplier ending =>
      cases ending with
      | returns actions => exact delivering'.elim
      | onComplete =>
          obtain rfl := delivering'
          simp only [execute] at executes
          split at executes
          · cases executes
          · cases type : classOf other with
            | relay | biRelay | errorRelay =>
                simp only [type] at executes
                cases executes
                exact .inr ⟨_, List.mem_cons_self, rfl⟩
            | function =>
                rw [type] at delivers
                cases delivers
  | apply other outcome =>
      obtain rfl := delivering'
      cases type : classOf other with
      | function =>
          rw [type] at delivers
          cases delivers
      | relay | biRelay | errorRelay =>
          simp only [execute, type] at executes
          cases executes
  | setOutcome other outcome ending =>
      cases ending with
      | returns actions => exact delivering'.elim
      | onComplete =>
          obtain rfl := delivering'
          cases executes
          exact .inl (promises.done_settle_self _ _ _)
  | _ => exact delivering'.elim

theorem execute_owesOutcome (consistent : Consistent classOf promises)
    (fact : Fact classOf promises instr) (action : A)
    (executes : execute classOf promises rest instr = some (after, pushed))
    (owes : OwesOutcome classOf action after) :
    (OwesOutcome classOf action promises ∧ ¬delivering action instr) ∨
      ∃ next ∈ pushed, delivering action next := by
  have grows := (executes_of consistent.listed fact executes).change.grows
  obtain ⟨claimed, notDone, delivers⟩ := owes
  rcases claimed_execute executes claimed with before | ⟨rfl, unclaimed⟩
  · have kept := (grows.kept _ (consistent.claimed action before _
      (classOf action).supplier_mem)).2.2.1
    rw [kept] at delivers
    by_cases isDelivering : delivering action instr
    · right
      exact (delivering_execute fact delivers isDelivering executes).resolve_left notDone
    · exact .inl ⟨⟨before, fun done => notDone (grows.kept _ done).1, delivers⟩, isDelivering⟩
  · right
    simp only [execute, unclaimed] at executes
    cases type : classOf action with
    | function =>
        rw [type] at delivers
        cases delivers
    | relay | biRelay | errorRelay =>
        simp only [type] at executes
        cases executes
        exact ⟨_, List.mem_cons_self, rfl⟩

end Deliver

/-! ## Calls that complete a promise -/

section Calls

variable (allowed : Promises P A V → P → Outcome V → Prop)

/-- Whether the call completes a promise only with an outcome that is allowed. -/
def CallAllowed (promises : Promises P A V) : Call P A V → Prop
  | .complete promise outcome => allowed promises promise outcome
  | .cancel promise => allowed promises promise (.error cancellation)
  | _ => True

variable (classOf) in
/-- What is allowed stays allowed, and user functions keep to it. -/
structure Discipline : Prop where
  stable : ∀ {before after : Promises P A V}, Grows before after →
    ∀ promise outcome, allowed before promise outcome → allowed after promise outcome
  calls : ∀ promises action, promises.AllDone classOf action →
    ∀ call ∈ (classOf action).calls (promises.promise (classOf action).supplier).outcome,
      CallAllowed allowed promises call

/-- Every call that a thread has yet to make is allowed. -/
def CallsAllowed (promises : Promises P A V) (instr : Instr P A V) : Prop :=
  ∀ call, instr = .call call → CallAllowed allowed promises call

variable [DecidableEq P] [DecidableEq A] {promises after : Promises P A V}
variable {instr : Instr P A V} {rest pushed : List (Instr P A V)}

/-- Only `cancel` and user functions make further calls. -/
theorem pushed_call {call : Call P A V}
    (executes : execute classOf promises rest instr = some (after, pushed))
    (member : .call call ∈ pushed) :
    (∃ promise, instr = .call (.cancel promise) ∧
        call = .complete promise (.error cancellation)) ∨
      ∃ action outcome, instr = .apply action outcome ∧
        (call ∈ (classOf action).calls outcome ∨ ∃ relay, call = .register relay) := by
  cases instr with
  | call made =>
      cases made with
      | cancel promise =>
          cases executes
          exact .inl ⟨promise, rfl, by simpa using member⟩
      | complete =>
          simp only [execute, executeCall] at executes
          split at executes <;> cases executes <;> simp at member
      | register =>
          simp only [execute, executeCall] at executes
          split at executes <;> cases executes
          simp at member
      | andTree =>
          simp only [execute, executeCall] at executes
          split at executes
          · cases executes
          · split at executes <;> cases executes <;> simp at member
      | anyOf consumer actions =>
          cases actions with
          | nil =>
              cases executes
              cases member
          | cons action actions =>
              simp only [execute, executeCall] at executes
              split at executes <;> cases executes
              simp at member
  | apply action outcome =>
      right
      refine ⟨action, outcome, rfl, ?_⟩
      cases type : classOf action with
      | function sync supplier consumer calls produces =>
          simp only [execute, type] at executes
          split at executes <;> cases executes
          · left
            rcases List.mem_append.mp member with isCall | isLast
            · simpa [ActionClass.calls] using isCall
            · simp at isLast
          · rcases List.mem_append.mp member with isCall | isLast
            · exact .inl (by simpa [ActionClass.calls] using isCall)
            · exact .inr ⟨_, by simpa using isLast⟩
      | relay | biRelay | errorRelay =>
          simp only [execute, type] at executes
          cases executes
  | unlock | returnTrue | isCancelled =>
      cases executes
      cases member
  | onComplete | runActions | isSecondDone | runSecond | addAction | linkSecond | linkException
  | linkExceptionSecond | cleanUp =>
      simp only [execute] at executes
      split at executes <;> cases executes <;> simp at member
  | tryRun =>
      simp only [execute] at executes
      split at executes
      · split at executes <;> cases executes <;> simp at member
      · cases executes
        simp at member
  | claim =>
      simp only [execute] at executes
      split at executes
      · cases executes
        cases member
      · split at executes <;> cases executes <;> simp at member
  | run =>
      simp only [execute] at executes
      split at executes
      · cases executes
        simp at member
      · split at executes <;> cases executes <;> simp at member
  | passResult =>
      simp only [execute] at executes
      split at executes <;> cases executes <;> simp at member
  | passException =>
      simp only [execute] at executes
      split at executes
      · cases executes
      · split at executes <;> cases executes <;> simp at member
  | setOutcome action outcome ending =>
      cases ending with
      | onComplete =>
          cases executes
          simp at member
      | returns =>
          simp only [execute] at executes
          split at executes <;> cases executes
          cases member
  | registerAt action suppliers =>
      cases suppliers with
      | nil =>
          cases executes
          cases member
      | cons =>
          simp only [execute] at executes
          split at executes <;> cases executes <;> simp at member
  | scan consumer actions all | addAll consumer actions all =>
      cases actions with
      | nil =>
          cases executes
          simp at member
      | cons =>
          simp only [execute] at executes
          split at executes <;> cases executes <;> simp at member
  | removeAll actions all =>
      cases actions with
      | nil =>
          cases executes
          cases member
      | cons =>
          simp only [execute] at executes
          split at executes <;> cases executes
          simp at member

/-- A call that completes a promise gives it its outcome. -/
theorem completedBy_execute (consistent : Consistent classOf promises) {promise : P} {number : Nat}
    (executes : execute classOf promises rest instr = some (after, pushed))
    (completer : after.completedBy promise = some (.call number)) :
    promises.completedBy promise = some (.call number) ∨
      instr = .call (.complete promise (after.promise promise).outcome) := by
  have settled : ∀ {action : A} {outcome : Outcome V},
      (promises.settle (classOf action).consumer outcome .action).completedBy promise =
        some (.call number) → promises.completedBy promise = some (.call number) := by
    intro action outcome completer
    by_cases same : promise = (classOf action).consumer
    · rw [same] at completer ⊢
      by_cases done : promises.Done (classOf action).consumer
      · rwa [promises.settle_of_done done] at completer
      · rw [(promises.promise_settle_self done outcome .action).2] at completer
        cases completer
    · rwa [(promises.promise_settle_of_ne outcome .action same).2] at completer
  cases touched : touches instr with
  | false =>
      rw [(execute_untouched touched executes).2.2.2] at completer
      exact .inl completer
  | true =>
      cases instr with
      | call call =>
          cases call with
          | complete other outcome =>
              simp only [execute, executeCall] at executes
              split at executes
              · cases executes
                exact .inl completer
              · next pending =>
                  cases executes
                  by_cases same : promise = other
                  · right
                    rw [same, (Promises.promise_settle_self
                      { promises with nextCall := promises.nextCall + 1 } pending outcome
                      (.call promises.nextCall)).1,
                      Promise.outcome_settled (consistent.noException other pending)]
                  · rw [(Promises.promise_settle_of_ne _ outcome _ same).2] at completer
                    exact .inl completer
          | _ => cases touched
      | claim other =>
          simp only [execute] at executes
          split at executes
          · cases executes
            exact .inl completer
          · split at executes <;> cases executes <;> exact .inl completer
      | setOutcome action outcome ending =>
          cases ending with
          | onComplete =>
              cases executes
              exact .inl (settled completer)
          | returns =>
              simp only [execute] at executes
              split at executes <;> cases executes
              exact .inl (settled completer)
      | runActions | addAction =>
          simp only [execute] at executes
          split at executes <;> cases executes <;> exact .inl completer
      | registerAt other suppliers =>
          cases suppliers with
          | nil =>
              cases executes
              exact .inl completer
          | cons =>
              simp only [execute] at executes
              split at executes <;> cases executes <;> exact .inl completer
      | addAll consumer actions all =>
          cases actions with
          | nil =>
              cases executes
              exact .inl completer
          | cons =>
              simp only [execute] at executes
              split at executes <;> cases executes <;> exact .inl completer
      | removeAll actions all =>
          cases actions with
          | nil =>
              cases executes
              exact .inl completer
          | cons =>
              simp only [execute] at executes
              split at executes <;> cases executes
              exact .inl completer
      | _ => cases touched

end Calls

/-! ## Runs in which calls complete promises only as they are allowed to -/

section Runs

variable [DecidableEq P] [DecidableEq A] {allowed : Promises P A V → P → Outcome V → Prop}
variable {state state' : State P A V}

variable (classOf allowed) in
structure Disciplined (state : State P A V) : Prop extends Sound classOf state where
  calls : Machine.Facts (CallsAllowed allowed) state
  completed : ∀ promise number, state.shared.completedBy promise = some (.call number) →
    allowed state.shared promise (state.shared.promise promise).outcome
  delivered : ∀ action, OwesOutcome classOf action state.shared →
    state.Pending (delivering action)

omit [Inhabited V] [DecidableEq P] [DecidableEq A] in
theorem CallAllowed.mono (discipline : Discipline classOf allowed) {before after : Promises P A V}
    (grows : Grows before after) {call : Call P A V} (isAllowed : CallAllowed allowed before call) :
    CallAllowed allowed after call := by
  cases call with
  | complete promise outcome => exact discipline.stable grows promise outcome isAllowed
  | cancel promise => exact discipline.stable grows promise _ isAllowed
  | register | andTree | anyOf => exact trivial

omit [DecidableEq P] [DecidableEq A] in
theorem Disciplined.initial (initial : Initial state)
    (calls : Machine.Facts (CallsAllowed allowed) state) : Disciplined classOf allowed state where
  toSound := .initial initial
  calls := calls
  completed promise number completer := by
    rw [initial.shared] at completer
    cases completer
  delivered action owes := by
    have claimed := owes.1
    rw [initial.shared] at claimed
    cases claimed

theorem Disciplined.step (discipline : Discipline classOf allowed)
    (disciplined : Disciplined classOf allowed state)
    (step : (machine classOf).Step state state') : Disciplined classOf allowed state' where
  toSound := disciplined.toSound.step step
  calls := by
    have consistent := disciplined.consistent
    -- the facts of the instructions are needed as well, since user functions are given outcomes
    have both : Machine.Facts
        (fun shared instr => Fact classOf shared instr ∧ CallsAllowed allowed shared instr) state :=
      fun thread instr member =>
        ⟨disciplined.facts thread instr member, disciplined.calls thread instr member⟩
    have after := step.facts both ?_ ?_
    · exact fun thread instr member => (after thread instr member).2
    · rintro rest instr shared pushed executes ⟨fact, isAllowed⟩ others
      obtain ⟨change, facts⟩ := executes_of consistent.listed fact executes
      have grows := change.grows
      refine ⟨fun other both => ⟨Fact.mono grows both.1, ?_⟩, fun next member =>
        ⟨facts next member, ?_⟩⟩
      · rintro call rfl
        exact CallAllowed.mono discipline grows (both.2 call rfl)
      · rintro call rfl
        apply CallAllowed.mono discipline grows
        rcases pushed_call executes member with ⟨promise, rfl, rfl⟩ | ⟨action, outcome, rfl, made⟩
        · exact isAllowed (.cancel promise) rfl
        · rcases made with isCall | ⟨relay, rfl⟩
          · obtain ⟨allDone, rfl⟩ := fact
            exact discipline.calls _ action allDone call isCall
          · exact trivial
    · rintro shared pushed ⟨action, member, rfl, rfl⟩
      have change : Change classOf state.shared _ := .taken action
      refine ⟨fun other both => ⟨Fact.mono change.grows both.1, ?_⟩, fun next isNext => ?_⟩
      · rintro call rfl
        exact CallAllowed.mono discipline change.grows (both.2 call rfl)
      · rw [List.mem_singleton.mp isNext]
        refine ⟨⟨change.grows.allDone (consistent.submitted action member), trivial⟩, ?_⟩
        rintro call ⟨⟩
  completed promise number completer := by
    have grows := (disciplined.toSound.change step).grows
    have done := disciplined.consistent.completedBy promise
    have before : state.shared.completedBy promise = some (.call number) →
        allowed state'.shared promise (state'.shared.promise promise).outcome := by
      intro completer
      rw [grows.outcome (done.mp (by rw [completer]; exact Option.some_ne_none _))]
      exact discipline.stable grows promise _ (disciplined.completed promise number completer)
    cases step with
    | @exec thread instr rest pushed shared top free executes =>
        rcases completedBy_execute disciplined.consistent executes completer with earlier | rfl
        · exact before earlier
        · have onTop := disciplined.calls thread _ (by rw [top]; exact List.mem_cons_self)
          exact discipline.stable grows promise _ (onTop _ rfl)
    | take idle takes =>
        obtain ⟨action, -, rfl, -⟩ := takes
        exact before completer
  delivered action := by
    apply step.pending (disciplined.delivered action)
    · intro thread rest instr shared pushed top executes
      have fact := disciplined.facts thread instr (by rw [top]; exact List.mem_cons_self)
      exact execute_owesOutcome disciplined.consistent fact action executes
    · rintro shared pushed ⟨other, member, rfl, rfl⟩ owes
      exact owes

theorem Disciplined.reachable (discipline : Discipline classOf allowed) {start : State P A V}
    (initial : Initial start) (calls : Machine.Facts (CallsAllowed allowed) start)
    (reached : Reachable (· = start) (machine classOf).Step state) :
    Disciplined classOf allowed state := by
  apply Reachable.invariant _ _ reached
  · rintro _ rfl
    exact .initial initial calls
  · intro before after _ disciplined step
    exact disciplined.step discipline step

omit [DecidableEq P] [DecidableEq A] in
/-- A promise that no call may complete has its outcome from an action. -/
theorem Disciplined.produced (disciplined : Disciplined classOf allowed state) {promise : P}
    (done : state.shared.Done promise)
    (forbidden : ¬allowed state.shared promise (state.shared.promise promise).outcome) :
    ∃ action, (classOf action).consumer = promise ∧
      state.shared.Produces classOf action (state.shared.promise promise).outcome := by
  apply disciplined.consistent.produced
  have completed := (disciplined.consistent.completedBy promise).mpr done
  cases completer : state.shared.completedBy promise with
  | none => exact absurd completer completed
  | some by' =>
      cases by' with
      | call number => exact absurd (disciplined.completed promise number completer) forbidden
      | action => rfl

variable (classOf) in
/-- No thread is completing a supplier of the action or running the action. -/
structure AtRest (state : State P A V) (action : A) : Prop where
  completed : ∀ supplier ∈ (classOf action).suppliers, ¬state.Pending (completes supplier)
  tried : ¬state.Pending (tries action)
  delivered : ¬state.Pending (delivering action)

omit [DecidableEq P] [DecidableEq A] in
/-- An action that was registered and is not being run any more has delivered. -/
theorem Disciplined.delivers (disciplined : Disciplined classOf allowed state) {action : A}
    (registered : state.shared.registered action = true)
    (done : state.shared.AllDone classOf action)
    (kept : ∀ supplier, state.shared.removed action supplier = false)
    (atRest : AtRest classOf state action)
    (delivers : (classOf action).delivers
      (state.shared.promise (classOf action).supplier).mException = true) :
    state.shared.Done (classOf action).consumer := by
  have claimed := disciplined.toSound.claimed registered
    (fun supplier member => ⟨done supplier member, kept supplier, atRest.completed supplier member⟩)
    atRest.tried
  by_contra notDone
  exact atRest.delivered (disciplined.delivered action ⟨claimed, notDone, delivers⟩)

omit [DecidableEq P] [DecidableEq A] in
/-- So has one whose `andTree` or `anyOf` has returned. -/
theorem Disciplined.combined_delivers (disciplined : Disciplined classOf allowed state) {action : A}
    (combined : state.shared.combined action = true)
    (done : state.shared.AllDone classOf action) (atRest : AtRest classOf state action)
    (delivers : (classOf action).delivers
      (state.shared.promise (classOf action).supplier).mException = true) :
    state.shared.Done (classOf action).consumer := by
  by_contra notDone
  have registered := (disciplined.consistent.combined action combined).resolve_right notDone
  refine notDone (disciplined.delivers registered done (fun supplier => ?_) atRest delivers)
  cases removed : state.shared.removed action supplier with
  | false => rfl
  | true => exact absurd (disciplined.consistent.removed action supplier removed).2 notDone

end Runs

end PromiseMachine

end Mindroid
