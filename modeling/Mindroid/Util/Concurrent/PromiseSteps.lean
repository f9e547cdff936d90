import Mindroid.Util.Concurrent.PromiseChanges

/-!
# Single steps

Every instruction that may be on a stack comes with a fact that no step invalidates.
Executing the instruction makes a change of the list, and the facts of the instructions
that it expands to hold.
-/

set_option autoImplicit false

namespace Mindroid

open Foundation

namespace PromiseMachine

variable {P A V : Type} [Inhabited V] {classOf : A → ActionClass P A V}

/-! ## What is known when an instruction is executed -/

variable (classOf) in
/-- Only relays complete a consumer for its creator, which has made other relays that have
the same consumer. -/
def Ending.Fits (action : A) : Ending A → Prop
  | .onComplete => True
  | .returns actions =>
      (classOf action).isFunction = false ∧
        ∀ other ∈ actions, (classOf other).consumer = (classOf action).consumer

variable (classOf) in
def Fact (promises : Promises P A V) : Instr P A V → Prop
  | .onComplete promise => promises.Done promise
  | .runActions promise => promises.Done promise
  | .returnTrue number promise =>
      promises.Done promise ∧ promises.completedBy promise = some (.call number)
  | .tryRun action => ∃ supplier ∈ (classOf action).suppliers, promises.Done supplier
  | .isSecondDone action => promises.Done (classOf action).supplier
  | .claim action => promises.AllDone classOf action
  | .run action ending => promises.AllDone classOf action ∧ Ending.Fits classOf action ending
  | .runSecond action ending =>
      promises.AllDone classOf action ∧ Ending.Fits classOf action ending ∧
        (classOf action).isBiRelay = true ∧
        (promises.promise (classOf action).supplier).mException = none
  | .passResult action ending =>
      promises.AllDone classOf action ∧ Ending.Fits classOf action ending ∧
        (classOf action).passesResult = true ∧
        (promises.promise (classOf action).supplier).mException = none
  | .passException action supplier ending =>
      promises.AllDone classOf action ∧ Ending.Fits classOf action ending ∧
        (supplier = (classOf action).supplier ∨
          (classOf action).isBiRelay = true ∧ supplier = (classOf action).supplier2 ∧
            (promises.promise (classOf action).supplier).mException = none)
  | .apply action outcome =>
      promises.AllDone classOf action ∧
        outcome = (promises.promise (classOf action).supplier).outcome
  | .setOutcome action outcome ending =>
      promises.Produces classOf action outcome ∧ Ending.Fits classOf action ending
  | .registerAt action suppliers =>
      suppliers ⊆ (classOf action).suppliers ∧
        ∀ supplier ∈ (classOf action).suppliers, supplier ∈ suppliers ∨
          promises.Armed action supplier
  | .addAction action supplier suppliers =>
      supplier :: suppliers ⊆ (classOf action).suppliers ∧
        ∀ other ∈ (classOf action).suppliers, other ∈ supplier :: suppliers ∨
          promises.Armed action other
  | .linkSecond action =>
      (classOf action).isBiRelay = true ∧ promises.Done (classOf action).supplier
  | .linkException action =>
      (classOf action).isBiRelay = true ∧ promises.AllDone classOf action
  | .linkExceptionSecond action =>
      (classOf action).isBiRelay = true ∧ promises.AllDone classOf action ∧
        (promises.promise (classOf action).supplier).mException = none
  | .scan consumer actions all =>
      actions ⊆ all ∧ ∀ action ∈ all, (classOf action).isRelay = true ∧
        (classOf action).consumer = consumer
  | .addAll consumer actions all =>
      actions ⊆ all ∧ ∀ action ∈ all, (classOf action).isRelay = true ∧
        (classOf action).consumer = consumer ∧
          (action ∈ actions ∨ promises.Armed action (classOf action).supplier)
  | .cleanUp consumer all =>
      ∀ action ∈ all, (classOf action).isRelay = true ∧
        (classOf action).consumer = consumer ∧ promises.registered action = true
  | .removeAll actions all =>
      actions ⊆ all ∧ ∀ action ∈ all, (classOf action).isRelay = true ∧
        promises.Done (classOf action).consumer ∧ promises.registered action = true
  | _ => True

/-! ## Facts stay true -/

section Facts

variable {before after : Promises P A V}

theorem Fact.mono (grows : Grows before after) {instr : Instr P A V}
    (fact : Fact classOf before instr) : Fact classOf after instr := by
  have noException : ∀ {action : A}, before.AllDone classOf action →
      (before.promise (classOf action).supplier).mException = none →
      (after.promise (classOf action).supplier).mException = none := by
    intro action allDone none
    rw [(grows.kept _ (allDone _ (classOf action).supplier_mem)).2.2.1, none]
  cases instr with
  | onComplete promise => exact (grows.kept promise fact).1
  | runActions promise => exact (grows.kept promise fact).1
  | returnTrue number promise =>
      obtain ⟨done, -, -, completer⟩ := grows.kept promise fact.1
      exact ⟨done, completer.trans fact.2⟩
  | tryRun action =>
      obtain ⟨supplier, member, done⟩ := fact
      exact ⟨supplier, member, (grows.kept supplier done).1⟩
  | isSecondDone action => exact (grows.kept _ fact).1
  | claim action => exact grows.allDone fact
  | run action ending => exact ⟨grows.allDone fact.1, fact.2⟩
  | runSecond action ending =>
      exact ⟨grows.allDone fact.1, fact.2.1, fact.2.2.1, noException fact.1 fact.2.2.2⟩
  | passResult action ending =>
      exact ⟨grows.allDone fact.1, fact.2.1, fact.2.2.1, noException fact.1 fact.2.2.2⟩
  | passException action supplier ending =>
      refine ⟨grows.allDone fact.1, fact.2.1, fact.2.2.imp_right fun second => ?_⟩
      exact ⟨second.1, second.2.1, noException fact.1 second.2.2⟩
  | apply action outcome =>
      refine ⟨grows.allDone fact.1, fact.2.trans ?_⟩
      exact (grows.outcome (fact.1 _ (classOf action).supplier_mem)).symm
  | setOutcome action outcome ending => exact ⟨grows.produces fact.1, fact.2⟩
  | registerAt action suppliers =>
      exact ⟨fact.1, fun supplier member => (fact.2 supplier member).imp_right (grows.armed _ _)⟩
  | addAction action supplier suppliers =>
      exact ⟨fact.1, fun other member => (fact.2 other member).imp_right (grows.armed _ _)⟩
  | linkSecond action => exact ⟨fact.1, (grows.kept _ fact.2).1⟩
  | linkException action => exact ⟨fact.1, grows.allDone fact.2⟩
  | linkExceptionSecond action =>
      exact ⟨fact.1, grows.allDone fact.2.1, noException fact.2.1 fact.2.2⟩
  | scan consumer actions all => exact fact
  | addAll consumer actions all =>
      refine ⟨fact.1, fun action member => ?_⟩
      obtain ⟨isRelay, isConsumer, waits⟩ := fact.2 action member
      exact ⟨isRelay, isConsumer, waits.imp_right (grows.armed _ _)⟩
  | cleanUp consumer all =>
      intro action member
      obtain ⟨isRelay, isConsumer, registered⟩ := fact action member
      exact ⟨isRelay, isConsumer, grows.registered _ registered⟩
  | removeAll actions all =>
      refine ⟨fact.1, fun action member => ?_⟩
      obtain ⟨isRelay, done, registered⟩ := fact.2 action member
      exact ⟨isRelay, (grows.kept _ done).1, grows.registered _ registered⟩
  | call | unlock | isCancelled => exact trivial

end Facts

variable [DecidableEq P] [DecidableEq A]

/-! ## Executing an instruction -/

section Execute

variable {promises after : Promises P A V} {instr : Instr P A V} {rest pushed : List (Instr P A V)}

variable (classOf) in
/-- The instruction makes a change of the list, and the facts of the instructions that
it expands to hold. -/
structure Executes (promises after : Promises P A V) (pushed : List (Instr P A V)) : Prop where
  change : Change classOf promises after
  facts : ∀ next ∈ pushed, Fact classOf after next

/-- The instruction expands to another one and changes nothing. -/
theorem executes_next {next : Instr P A V} (fact : Fact classOf promises next) :
    Executes classOf promises promises [next] where
  change := .refl promises
  facts other member := by
    rw [List.mem_singleton.mp member]
    exact fact

theorem executes_nil (change : Change classOf promises after) :
    Executes classOf promises after [] where
  change := change
  facts _ member := absurd member List.not_mem_nil

theorem executes_call {call : Call P A V}
    (executes : executeCall classOf promises call = some (after, pushed)) :
    Executes classOf promises after pushed := by
  cases call with
  | complete promise outcome =>
      simp only [executeCall] at executes
      split at executes
      · next done =>
          cases executes
          exact executes_nil (.refused done)
      · next pending =>
          cases executes
          refine ⟨.completed outcome pending, ?_⟩
          have done := Promises.done_settle_self { promises with nextCall := promises.nextCall + 1 }
            promise outcome (.call promises.nextCall)
          have completer := (Promises.promise_settle_self
            { promises with nextCall := promises.nextCall + 1 } pending outcome
            (.call promises.nextCall)).2
          intro next member
          rcases List.mem_cons.mp member with rfl | member
          · exact done
          · rcases List.mem_cons.mp member with rfl | member
            · exact trivial
            · rw [List.mem_singleton.mp member]
              exact ⟨done, completer⟩
  | cancel promise =>
      cases executes
      refine ⟨.refl promises, fun next member => ?_⟩
      rcases List.mem_cons.mp member with rfl | member
      · exact trivial
      · rw [List.mem_singleton.mp member]
        exact trivial
  | register action =>
      simp only [executeCall] at executes
      split at executes
      · cases executes
      · next single =>
          cases executes
          have suppliers := ActionClass.suppliers_eq_of_not_isBiRelay (Bool.eq_false_iff.mpr single)
          apply executes_next
          rw [← suppliers]
          exact ⟨List.Subset.refl _, fun supplier member => .inl member⟩
  | andTree action =>
      simp only [executeCall] at executes
      split at executes
      · cases executes
      · next double =>
          have double : (classOf action).isBiRelay = true := by simpa using double
          split at executes
          · next done =>
              cases executes
              exact executes_next ⟨double, done⟩
          · cases executes
            apply executes_next
            exact ⟨List.Subset.refl _, fun supplier member => .inl member⟩
  | anyOf consumer actions =>
      cases actions with
      | nil =>
          cases executes
          exact executes_nil (.refl promises)
      | cons action actions =>
          simp only [executeCall] at executes
          split at executes
          · next created =>
              cases executes
              refine executes_next ⟨List.Subset.refl _, fun other member => ?_⟩
              simpa using List.all_eq_true.mp created other member
          · cases executes

/-! ### Running the actions of a promise -/

section Actions

variable {action : A} {promise : P}

theorem executes_onComplete (fact : Fact classOf promises (.onComplete promise))
    (executes : execute classOf promises rest (.onComplete promise) = some (after, pushed)) :
    Executes classOf promises after pushed := by
  simp only [execute] at executes
  split at executes
  · cases executes
  · cases executes
    refine ⟨.refl promises, fun next member => ?_⟩
    rcases List.mem_cons.mp member with rfl | member
    · exact fact
    · rw [List.mem_singleton.mp member]
      exact trivial

theorem executes_runActions (listed : ∀ action ∈ (promises.promise promise).mActions,
      promise ∈ (classOf action).suppliers) (fact : Fact classOf promises (.runActions promise))
    (executes : execute classOf promises rest (.runActions promise) = some (after, pushed)) :
    Executes classOf promises after pushed := by
  simp only [execute] at executes
  split at executes
  · cases executes
    exact executes_nil (.refl promises)
  · next action behind front =>
      cases executes
      have change : Change classOf promises _ := .popped fact front
      have done := (change.grows.kept promise fact).1
      refine ⟨change, fun next member => ?_⟩
      rcases List.mem_cons.mp member with rfl | member
      · exact ⟨promise, listed action (by rw [front]; exact List.mem_cons_self), done⟩
      · rw [List.mem_singleton.mp member]
        exact done

theorem executes_tryRun (fact : Fact classOf promises (.tryRun action))
    (executes : execute classOf promises rest (.tryRun action) = some (after, pushed)) :
    Executes classOf promises after pushed := by
  simp only [execute] at executes
  split at executes
  · split at executes
    · next done =>
        cases executes
        exact executes_next done
    · cases executes
      exact executes_nil (.refl promises)
  · next single =>
      cases executes
      exact executes_next (allDone_single (Bool.eq_false_iff.mpr single) fact)

theorem executes_isSecondDone (fact : Fact classOf promises (.isSecondDone action))
    (executes : execute classOf promises rest (.isSecondDone action) = some (after, pushed)) :
    Executes classOf promises after pushed := by
  simp only [execute] at executes
  split at executes
  · next done =>
      cases executes
      exact executes_next (allDone_of_both fact done)
  · cases executes
    exact executes_nil (.refl promises)

theorem executes_claim (fact : Fact classOf promises (.claim action))
    (executes : execute classOf promises rest (.claim action) = some (after, pushed)) :
    Executes classOf promises after pushed := by
  simp only [execute] at executes
  split at executes
  · cases executes
    exact executes_nil (.refl promises)
  · next unclaimed =>
      have change : Change classOf promises (promises.claim action) :=
        .claimed fact (Bool.eq_false_iff.mpr unclaimed)
      have allDone := change.grows.allDone fact
      split at executes
      · next type =>
          cases executes
          exact executes_nil (change.trans (.handed allDone (by rw [type]; rfl)))
      · cases executes
        refine ⟨change, fun next member => ?_⟩
        rw [List.mem_singleton.mp member]
        exact ⟨allDone, trivial⟩

/-! ### The `run` methods -/

theorem executes_run {ending : Ending A} (fact : Fact classOf promises (.run action ending))
    (executes : execute classOf promises rest (.run action ending) = some (after, pushed)) :
    Executes classOf promises after pushed := by
  obtain ⟨allDone, fits⟩ := fact
  simp only [execute] at executes
  split at executes
  · cases executes
    exact executes_next ⟨allDone, fits, .inl rfl⟩
  · next succeeded =>
      cases type : classOf action with
      | biRelay =>
          simp only [type] at executes
          cases executes
          exact executes_next ⟨allDone, fits, by rw [type]; rfl, succeeded⟩
      | errorRelay =>
          simp only [type] at executes
          cases executes
          exact executes_nil (.refl promises)
      | function | relay =>
          simp only [type] at executes
          cases executes
          exact executes_next ⟨allDone, fits, by rw [type]; rfl, succeeded⟩

theorem executes_runSecond {ending : Ending A}
    (fact : Fact classOf promises (.runSecond action ending))
    (executes : execute classOf promises rest (.runSecond action ending) = some (after, pushed)) :
    Executes classOf promises after pushed := by
  obtain ⟨allDone, fits, double, none⟩ := fact
  simp only [execute] at executes
  split at executes
  · cases executes
    exact executes_next ⟨allDone, fits, .inr ⟨double, rfl, none⟩⟩
  · next succeeded =>
      cases executes
      exact executes_next ⟨produces_default double allDone none succeeded, fits⟩

theorem executes_passResult {ending : Ending A}
    (fact : Fact classOf promises (.passResult action ending))
    (executes : execute classOf promises rest (.passResult action ending) = some (after, pushed)) :
    Executes classOf promises after pushed := by
  obtain ⟨allDone, fits, passes, none⟩ := fact
  have outcome := Promise.outcome_of_none none
  cases type : classOf action with
  | function =>
      simp only [execute, type] at executes
      cases executes
      rw [type] at outcome
      exact executes_next ⟨allDone, by rw [type, outcome]⟩
  | relay =>
      simp only [execute, type] at executes
      cases executes
      have produces := produces_result allDone (by rw [type]; rfl) none
      rw [type] at produces
      exact executes_next ⟨produces, fits⟩
  | biRelay | errorRelay =>
      rw [type] at passes
      cases passes

theorem executes_passException {supplier : P} {ending : Ending A}
    (fact : Fact classOf promises (.passException action supplier ending))
    (executes : execute classOf promises rest (.passException action supplier ending) =
      some (after, pushed)) : Executes classOf promises after pushed := by
  obtain ⟨allDone, fits, asked⟩ := fact
  simp only [execute] at executes
  split at executes
  · cases executes
  · next exception failed =>
      cases type : classOf action with
      | function =>
          simp only [type] at executes
          cases executes
          have first : supplier = (classOf action).supplier := by
            rcases asked with first | ⟨double, -⟩
            · exact first
            · rw [type] at double
              cases double
          rw [first] at failed
          exact executes_next ⟨allDone, (Promise.outcome_of_some failed).symm⟩
      | relay | biRelay | errorRelay =>
          simp only [type] at executes
          cases executes
          refine executes_next ⟨produces_exception allDone ?_ asked failed, fits⟩
          intro _ _ _ _ _ isFunction
          rw [type] at isFunction
          cases isFunction

theorem executes_apply {outcome : Outcome V} (fact : Fact classOf promises (.apply action outcome))
    (executes : execute classOf promises rest (.apply action outcome) = some (after, pushed)) :
    Executes classOf promises after pushed := by
  obtain ⟨allDone, rfl⟩ := fact
  have calls : ∀ {calls : List (Call P A V)} {last next : Instr P A V}, Fact classOf promises last →
      next ∈ calls.map .call ++ [last] → Fact classOf promises next := by
    intro calls last next fact member
    rcases List.mem_append.mp member with isCall | isLast
    · obtain ⟨call, -, rfl⟩ := List.mem_map.mp isCall
      exact trivial
    · rw [List.mem_singleton.mp isLast]
      exact fact
  cases type : classOf action with
  | function sync supplier consumer user produces =>
      simp only [execute, type] at executes
      split at executes
      · next produced gives =>
          cases executes
          have produces : promises.Produces classOf action produced := ⟨allDone, by rwa [type]⟩
          exact ⟨.refl promises, fun next => calls ⟨produces, trivial⟩⟩
      · cases executes
        exact ⟨.refl promises, fun next => calls trivial⟩
  | relay | biRelay | errorRelay =>
      simp only [execute, type] at executes
      cases executes

theorem executes_setOutcome {outcome : Outcome V} {ending : Ending A}
    (fact : Fact classOf promises (.setOutcome action outcome ending))
    (executes : execute classOf promises rest (.setOutcome action outcome ending) =
      some (after, pushed)) : Executes classOf promises after pushed := by
  obtain ⟨produces, fits⟩ := fact
  cases ending with
  | onComplete =>
      cases executes
      refine ⟨.settled produces, fun next member => ?_⟩
      rw [List.mem_singleton.mp member]
      exact promises.done_settle_self _ _ _
  | returns actions =>
      simp only [execute] at executes
      split at executes
      · cases executes
        refine executes_nil (.trans (.settled produces) (.combined fun other member => .inr ?_))
        rw [fits.2 other member]
        exact promises.done_settle_self _ _ _
      · cases executes

/-! ### Registering -/

/-- An action is added to the list of a supplier, or tried if that is done. -/
theorem executes_add {later : Instr P A V} {supplier : P}
    (member : supplier ∈ (classOf action).suppliers)
    (goesOn : ∀ {after : Promises P A V}, Grows promises after → after.Armed action supplier →
      Fact classOf after later)
    (executes : (let actions := (promises.promise supplier).mActions ++ [action]
      if (promises.promise supplier).mIsDone then
        some ((promises.setActions supplier (actions.erase action)).visit action supplier,
          [.tryRun action, .unlock supplier, later])
      else
        some (promises.setActions supplier actions, [later])) = some (after, pushed)) :
    Executes classOf promises after pushed := by
  simp only at executes
  split at executes
  · next done =>
      cases executes
      have change : Change classOf promises _ := .passed done member
      refine ⟨change, fun next isNext => ?_⟩
      rcases List.mem_cons.mp isNext with rfl | isNext
      · exact ⟨supplier, member, (change.grows.kept _ done).1⟩
      · rcases List.mem_cons.mp isNext with rfl | isNext
        · exact trivial
        · rw [List.mem_singleton.mp isNext]
          exact goesOn change.grows
            (.inr (.inl ((Promises.visited_visit _ _ _ _ _).mpr (.inl ⟨rfl, rfl⟩))))
  · next pending =>
      cases executes
      have change : Change classOf promises _ := .queued pending member
      refine ⟨change, fun next isNext => ?_⟩
      rw [List.mem_singleton.mp isNext]
      refine goesOn change.grows (.inl ?_)
      rw [promises.mActions_setActions_self]
      exact List.mem_append_right _ List.mem_cons_self

theorem executes_registerAt {suppliers : List P}
    (fact : Fact classOf promises (.registerAt action suppliers))
    (executes : execute classOf promises rest (.registerAt action suppliers) =
      some (after, pushed)) : Executes classOf promises after pushed := by
  obtain ⟨within, waits⟩ := fact
  cases suppliers with
  | nil =>
      cases executes
      refine executes_nil (.trans (.registered ?_) (.combined ?_))
      · intro other member supplier isSupplier
        rw [List.mem_singleton.mp member] at isSupplier ⊢
        exact (waits supplier isSupplier).resolve_left List.not_mem_nil
      · intro other member
        rw [List.mem_singleton.mp member]
        exact .inl (by simp [Promises.register])
  | cons supplier suppliers =>
      simp only [execute] at executes
      split at executes
      · next done =>
          cases executes
          have change : Change classOf promises (promises.visit action supplier) := .visited done
          refine ⟨change, fun next member => ?_⟩
          rcases List.mem_cons.mp member with rfl | member
          · exact ⟨supplier, within List.mem_cons_self, (change.grows.kept _ done).1⟩
          · rw [List.mem_singleton.mp member]
            refine ⟨fun other isOther => within (List.mem_cons_of_mem _ isOther), ?_⟩
            intro other isSupplier
            rcases waits other isSupplier with later | armed
            · rcases List.mem_cons.mp later with rfl | later
              · exact .inr (.inr (.inl
                  ((promises.visited_visit _ _ _ _).mpr (.inl ⟨rfl, rfl⟩))))
              · exact .inl later
            · exact .inr (change.grows.armed _ _ armed)
      · cases executes
        exact executes_next ⟨within, waits⟩

theorem executes_addAction {supplier : P} {suppliers : List P}
    (fact : Fact classOf promises (.addAction action supplier suppliers))
    (executes : execute classOf promises rest (.addAction action supplier suppliers) =
      some (after, pushed)) : Executes classOf promises after pushed := by
  obtain ⟨within, waits⟩ := fact
  apply executes_add (within List.mem_cons_self) _ executes
  intro after grows armed
  refine ⟨fun other isOther => within (List.mem_cons_of_mem _ isOther), ?_⟩
  intro other isSupplier
  rcases waits other isSupplier with later | armed'
  · rcases List.mem_cons.mp later with rfl | later
    · exact .inr armed
    · exact .inl later
  · exact .inr (grows.armed _ _ armed')

/-! ### The end of `andTree` -/

theorem executes_linkSecond (fact : Fact classOf promises (.linkSecond action))
    (executes : execute classOf promises rest (.linkSecond action) = some (after, pushed)) :
    Executes classOf promises after pushed := by
  obtain ⟨double, first⟩ := fact
  simp only [execute] at executes
  split at executes
  · next second =>
      cases executes
      exact executes_next ⟨double, allDone_of_both first second⟩
  · cases executes
    exact executes_next ⟨List.Subset.refl _, fun supplier member => .inl member⟩

omit [DecidableEq P] [DecidableEq A] in
/-- The exception of a supplier becomes the outcome of the node. -/
theorem fact_link_exception {supplier : P} {exception : Exception}
    (double : (classOf action).isBiRelay = true) (allDone : promises.AllDone classOf action)
    (asked : supplier = (classOf action).supplier ∨
      (classOf action).isBiRelay = true ∧ supplier = (classOf action).supplier2 ∧
        (promises.promise (classOf action).supplier).mException = none)
    (failed : (promises.promise supplier).mException = some exception) :
    Fact classOf promises
      (.setOutcome action (.error (toCompletionException exception)) (.returns [action])) := by
  refine ⟨produces_exception allDone ?_ asked failed, ActionClass.isFunction_of_isBiRelay double,
    fun other member => ?_⟩
  · intro _ _ _ _ _ isFunction
    rw [isFunction] at double
    cases double
  · rw [List.mem_singleton.mp member]

theorem executes_linkException (fact : Fact classOf promises (.linkException action))
    (executes : execute classOf promises rest (.linkException action) = some (after, pushed)) :
    Executes classOf promises after pushed := by
  obtain ⟨double, allDone⟩ := fact
  simp only [execute] at executes
  split at executes
  · next exception failed =>
      cases executes
      exact executes_next (fact_link_exception double allDone (.inl rfl) failed)
  · next none =>
      cases executes
      exact executes_next ⟨double, allDone, none⟩

theorem executes_linkExceptionSecond (fact : Fact classOf promises (.linkExceptionSecond action))
    (executes : execute classOf promises rest (.linkExceptionSecond action) =
      some (after, pushed)) : Executes classOf promises after pushed := by
  obtain ⟨double, allDone, none⟩ := fact
  simp only [execute] at executes
  split at executes
  · next exception failed =>
      cases executes
      exact executes_next (fact_link_exception double allDone (.inr ⟨double, rfl, none⟩) failed)
  · next succeeded =>
      cases executes
      refine executes_next ⟨produces_default double allDone none succeeded,
        ActionClass.isFunction_of_isBiRelay double, fun other member => ?_⟩
      rw [List.mem_singleton.mp member]

/-! ### `anyOf` -/

theorem executes_scan {consumer : P} {actions all : List A}
    (fact : Fact classOf promises (.scan consumer actions all))
    (executes : execute classOf promises rest (.scan consumer actions all) = some (after, pushed)) :
    Executes classOf promises after pushed := by
  obtain ⟨within, created⟩ := fact
  cases actions with
  | nil =>
      cases executes
      refine executes_next ⟨List.Subset.refl _, fun action member => ?_⟩
      exact ⟨(created action member).1, (created action member).2, .inl member⟩
  | cons action actions =>
      obtain ⟨isRelay, isConsumer⟩ := created action (within List.mem_cons_self)
      simp only [execute] at executes
      split at executes
      · next done =>
          cases executes
          refine executes_next ⟨?_, ActionClass.isFunction_of_isRelay isRelay,
            fun other member => ?_⟩
          · apply allDone_single (ActionClass.isBiRelay_of_isRelay isRelay)
            exact ⟨_, (classOf action).supplier_mem, done⟩
          · rw [isConsumer, (created other member).2]
      · cases executes
        exact executes_next ⟨fun other member => within (List.mem_cons_of_mem _ member), created⟩

theorem executes_addAll {consumer : P} {actions all : List A}
    (fact : Fact classOf promises (.addAll consumer actions all))
    (executes : execute classOf promises rest (.addAll consumer actions all) =
      some (after, pushed)) : Executes classOf promises after pushed := by
  obtain ⟨within, waits⟩ := fact
  cases actions with
  | nil =>
      cases executes
      refine ⟨.registered ?_, fun next member => ?_⟩
      · intro action member supplier isSupplier
        obtain ⟨isRelay, -, armed⟩ := waits action member
        have single := ActionClass.isBiRelay_of_isRelay isRelay
        rw [ActionClass.suppliers_eq_of_not_isBiRelay single] at isSupplier
        rw [List.mem_singleton.mp isSupplier]
        exact armed.resolve_left List.not_mem_nil
      · rw [List.mem_singleton.mp member]
        intro action isAction
        obtain ⟨isRelay, isConsumer, -⟩ := waits action isAction
        exact ⟨isRelay, isConsumer, by simp [Promises.register, isAction]⟩
  | cons action actions =>
      apply executes_add (classOf action).supplier_mem _ executes
      intro after grows armed
      refine ⟨fun other isOther => within (List.mem_cons_of_mem _ isOther), ?_⟩
      intro other isOther
      obtain ⟨isRelay, isConsumer, later | armed'⟩ := waits other isOther
      · rcases List.mem_cons.mp later with rfl | later
        · exact ⟨isRelay, isConsumer, .inr armed⟩
        · exact ⟨isRelay, isConsumer, .inl later⟩
      · exact ⟨isRelay, isConsumer, .inr (grows.armed _ _ armed')⟩

theorem executes_cleanUp {consumer : P} {all : List A}
    (fact : Fact classOf promises (.cleanUp consumer all))
    (executes : execute classOf promises rest (.cleanUp consumer all) = some (after, pushed)) :
    Executes classOf promises after pushed := by
  simp only [execute] at executes
  split at executes
  · next done =>
      cases executes
      refine executes_next ⟨List.Subset.refl _, fun action member => ?_⟩
      obtain ⟨isRelay, isConsumer, registered⟩ := fact action member
      exact ⟨isRelay, by rw [isConsumer]; exact done, registered⟩
  · cases executes
    exact executes_nil (.combined fun action member => .inl (fact action member).2.2)

theorem executes_removeAll {actions all : List A}
    (fact : Fact classOf promises (.removeAll actions all))
    (executes : execute classOf promises rest (.removeAll actions all) = some (after, pushed)) :
    Executes classOf promises after pushed := by
  obtain ⟨within, created⟩ := fact
  cases actions with
  | nil =>
      cases executes
      exact executes_nil (.combined fun action member => .inl (created action member).2.2)
  | cons action actions =>
      obtain ⟨isRelay, done, -⟩ := created action (within List.mem_cons_self)
      simp only [execute] at executes
      split at executes
      · cases executes
      · cases executes
        have change : Change classOf promises (promises.remove action (classOf action).supplier) :=
          .removed _ isRelay done
        refine ⟨change, fun next member => ?_⟩
        rw [List.mem_singleton.mp member]
        refine Fact.mono change.grows ⟨?_, created⟩
        exact fun other isOther => within (List.mem_cons_of_mem _ isOther)

end Actions

theorem executes_of (listed : ∀ action supplier, action ∈ (promises.promise supplier).mActions →
      supplier ∈ (classOf action).suppliers) (fact : Fact classOf promises instr)
    (executes : execute classOf promises rest instr = some (after, pushed)) :
    Executes classOf promises after pushed := by
  cases instr with
  | call call => exact executes_call executes
  | onComplete promise => exact executes_onComplete fact executes
  | runActions promise =>
      exact executes_runActions (fun action => listed action promise) fact executes
  | unlock promise =>
      cases executes
      exact executes_nil (.refl promises)
  | returnTrue number promise =>
      cases executes
      exact executes_nil (.returned fact.2)
  | isCancelled promise =>
      cases executes
      exact executes_nil (.refl promises)
  | tryRun action => exact executes_tryRun fact executes
  | isSecondDone action => exact executes_isSecondDone fact executes
  | claim action => exact executes_claim fact executes
  | run action ending => exact executes_run fact executes
  | runSecond action ending => exact executes_runSecond fact executes
  | passResult action ending => exact executes_passResult fact executes
  | passException action supplier ending => exact executes_passException fact executes
  | apply action outcome => exact executes_apply fact executes
  | setOutcome action outcome ending => exact executes_setOutcome fact executes
  | registerAt action suppliers => exact executes_registerAt fact executes
  | addAction action supplier suppliers => exact executes_addAction fact executes
  | linkSecond action => exact executes_linkSecond fact executes
  | linkException action => exact executes_linkException fact executes
  | linkExceptionSecond action => exact executes_linkExceptionSecond fact executes
  | scan consumer actions all => exact executes_scan fact executes
  | addAll consumer actions all => exact executes_addAll fact executes
  | cleanUp consumer all => exact executes_cleanUp fact executes
  | removeAll actions all => exact executes_removeAll fact executes

end Execute

end PromiseMachine

end Mindroid
