import Mindroid.Util.Concurrent.PromiseOutcomes

/-!
# What goes on inside which call

A relay is tried and run only inside a call that completes one of its suppliers, or
inside the call that registers it.  So nothing is left to be done for it when no such
call is in progress.
-/

set_option autoImplicit false

namespace Mindroid

namespace PromiseMachine

open Foundation

variable {P A V : Type} [Inhabited V] {classOf : A → ActionClass P A V}

/-- Instructions of an action that is being tried or run. -/
def engages (action : A) (instr : Instr P A V) : Prop :=
  tries action instr ∨ delivering action instr

/-- Instructions of a call that has not registered the action with all its suppliers. -/
def registers (action : A) : Instr P A V → Prop
  | .registerAt other _ => other = action
  | .addAll _ _ all => action ∈ all
  | _ => False

variable (classOf) in
/-- Instructions of a call inside which the action may be tried. -/
def attends (action : A) (instr : Instr P A V) : Prop :=
  (∃ supplier ∈ (classOf action).suppliers, completes supplier instr) ∨ registers action instr

section Frames

variable [DecidableEq P] [DecidableEq A] {promises after : Promises P A V}
variable {instr : Instr P A V} {rest pushed : List (Instr P A V)}

/-- Whether the instruction may begin to try an action. -/
def recruits : Instr P A V → Bool
  | .runActions _ => true
  | .registerAt _ _ => true
  | .addAction _ _ _ => true
  | .addAll _ _ _ => true
  | _ => false

/-- An action is tried and run by its own instructions. -/
theorem pushed_engages {action : A} (fact : Fact classOf promises instr)
    (others : recruits instr = false)
    (different : ¬engages action instr)
    (executes : execute classOf promises rest instr = some (after, pushed)) :
    ∀ next ∈ pushed, ¬engages action next := by
  cases instr with
  | runActions | registerAt | addAction | addAll => cases others
  | call call =>
      cases call with
      | complete | register =>
          simp only [execute, executeCall] at executes
          split at executes <;> cases executes <;> simp [engages, tries, delivering]
      | cancel =>
          cases executes
          simp [engages, tries, delivering]
      | andTree =>
          simp only [execute, executeCall] at executes
          split at executes
          · cases executes
          · split at executes <;> cases executes <;> simp [engages, tries, delivering]
      | anyOf consumer actions =>
          cases actions with
          | nil =>
              cases executes
              simp
          | cons other actions =>
              simp only [execute, executeCall] at executes
              split at executes <;> cases executes
              simp [engages, tries, delivering]
  | unlock | returnTrue | isCancelled =>
      cases executes
      simp
  | onComplete | linkSecond | linkException | linkExceptionSecond | cleanUp =>
      simp only [execute] at executes
      split at executes <;> cases executes <;> simp [engages, tries, delivering]
  | scan consumer actions all | removeAll actions all =>
      cases actions with
      | nil =>
          cases executes
          simp [engages, tries, delivering]
      | cons =>
          simp only [execute] at executes
          split at executes <;> cases executes <;> simp [engages, tries, delivering]
  | tryRun other =>
      simp only [execute] at executes
      split at executes
      · split at executes <;> cases executes
        · simpa [engages, tries, delivering] using different
        · simp
      · cases executes
        simpa [engages, tries, delivering] using different
  | isSecondDone other =>
      simp only [execute] at executes
      split at executes <;> cases executes
      · simpa [engages, tries, delivering] using different
      · simp
  | claim other =>
      simp only [execute] at executes
      split at executes
      · cases executes
        simp
      · split at executes <;> cases executes
        · simp
        · simpa [engages, tries, delivering] using different
  | run other ending | runSecond other ending =>
      cases ending with
      | onComplete =>
          simp only [execute] at executes
          (repeat' split at executes) <;> cases executes <;>
            simp only [engages, tries, delivering, false_or] at different <;>
            simp [engages, tries, delivering, different]
      | returns =>
          simp only [execute] at executes
          (repeat' split at executes) <;> cases executes <;> simp [engages, tries, delivering]
  | passResult other ending | passException other supplier ending =>
      cases ending with
      | onComplete =>
          simp only [execute] at executes
          (repeat' split at executes) <;> cases executes <;>
            simpa [engages, tries, delivering] using different
      | returns =>
          have relay := fact.2.1.1
          simp only [execute] at executes
          (repeat' split at executes) <;> cases executes
          · next type =>
              rw [type] at relay
              cases relay
          · simp [engages, tries, delivering]
  | apply other outcome =>
      have isOther : other ≠ action := fun same => different (.inr same)
      simp only [execute] at executes
      split at executes
      · split at executes <;> cases executes <;>
          simp +contextual [engages, tries, delivering, isOther, or_imp]
      · cases executes
  | setOutcome other outcome ending =>
      cases ending with
      | onComplete =>
          cases executes
          simp [engages, tries, delivering]
      | returns =>
          simp only [execute] at executes
          split at executes <;> cases executes
          simp

/-- An instruction that belongs to an action expands to instructions of this action, and
the other ones begin to try an action only while they go on with something else. -/
theorem execute_engages (consistent : Consistent classOf promises)
    (fact : Fact classOf promises instr)
    (executes : execute classOf promises rest instr = some (after, pushed)) (action : A) :
    engages action instr ∨ (∀ next ∈ pushed, ¬engages action next) ∨
      ∃ below, pushed = .tryRun action :: below ∧ (∀ next ∈ below, ¬engages action next) ∧
        ∃ next ∈ below, attends classOf action next := by
  by_cases engaged : engages action instr
  · exact .inl engaged
  refine .inr ?_
  cases recruiting : recruits instr with
  | false => exact .inl (pushed_engages fact recruiting engaged executes)
  | true =>
  cases instr with
  | runActions promise =>
      simp only [execute] at executes
      split at executes
      · cases executes
        exact .inl fun next member => by cases member
      · next other behind front =>
          cases executes
          by_cases same : other = action
          · subst same
            refine .inr ⟨_, rfl, by simp [engages, tries, delivering], ?_⟩
            have listed := consistent.listed other promise (by rw [front]; exact List.mem_cons_self)
            exact ⟨_, List.mem_cons_self, .inl ⟨promise, listed, rfl⟩⟩
          · exact .inl (by simp [engages, tries, delivering, same])
  | registerAt other suppliers =>
      cases suppliers with
      | nil =>
          cases executes
          exact .inl fun next member => by cases member
      | cons supplier suppliers =>
          simp only [execute] at executes
          split at executes <;> cases executes
          · by_cases same : other = action
            · subst same
              refine .inr ⟨_, rfl, by simp [engages, tries, delivering], ?_⟩
              exact ⟨_, List.mem_cons_self, .inr rfl⟩
            · exact .inl (by simp [engages, tries, delivering, same])
          · exact .inl (by simp [engages, tries, delivering])
  | addAction other supplier suppliers =>
      simp only [execute] at executes
      split at executes <;> cases executes
      · by_cases same : other = action
        · subst same
          refine .inr ⟨_, rfl, by simp [engages, tries, delivering], ?_⟩
          exact ⟨_, List.mem_cons_of_mem _ List.mem_cons_self, .inr rfl⟩
        · exact .inl (by simp [engages, tries, delivering, same])
      · exact .inl (by simp [engages, tries, delivering])
  | addAll consumer actions all =>
      cases actions with
      | nil =>
          cases executes
          exact .inl (by simp [engages, tries, delivering])
      | cons other actions =>
          simp only [execute] at executes
          split at executes <;> cases executes
          · by_cases same : other = action
            · subst same
              refine .inr ⟨_, rfl, by simp [engages, tries, delivering], ?_⟩
              exact ⟨_, List.mem_cons_of_mem _ List.mem_cons_self,
                .inr (fact.1 List.mem_cons_self)⟩
            · exact .inl (by simp [engages, tries, delivering, same])
          · exact .inl (by simp [engages, tries, delivering])
  | _ => cases recruiting

theorem execute_covered (consistent : Consistent classOf promises)
    (fact : Fact classOf promises instr)
    (executes : execute classOf promises rest instr = some (after, pushed)) {action : A}
    (covered : Machine.Covered (engages action) (attends classOf action) (instr :: rest)) :
    Machine.Covered (engages action) (attends classOf action) (pushed ++ rest) := by
  rcases execute_engages consistent fact executes action with engaged | quiet | begins
  · exact .under (covered.1 engaged) covered.2
  · exact .append quiet covered.2
  · obtain ⟨below, rfl, quiet, next, member, attending⟩ := begins
    exact ⟨fun _ => ⟨next, List.mem_append_left _ member, attending⟩, .append quiet covered.2⟩

end Frames

section Runs

variable [DecidableEq P] [DecidableEq A] {start state : State P A V}

/-- Whenever an action is tried or run, a call is in progress that completes one of its
suppliers or registers the action. -/
theorem reachable_covered {action : A} (direct : (classOf action).isDeferred = false)
    (initial : Initial start) (reached : Reachable (· = start) (machine classOf).Step state) :
    ∀ thread, Machine.Covered (engages action) (attends classOf action) (state.stack thread) := by
  have both : Sound classOf state ∧ ∀ thread,
      Machine.Covered (engages action) (attends classOf action) (state.stack thread) := by
    apply Reachable.invariant _ _ reached
    · intro first isFirst
      cases isFirst
      refine ⟨.initial initial, fun thread => ?_⟩
      rw [← List.append_nil (start.stack thread)]
      refine .append (fun instr member => ?_) trivial
      obtain ⟨call, rfl⟩ := initial.calls thread instr member
      simp [engages, tries, delivering]
    · rintro before after _ ⟨sound, covered⟩ step
      refine ⟨sound.step step, step.covered covered ?_ ?_⟩
      · intro thread rest instr shared pushed top executes onTop
        have fact := sound.facts thread instr (by rw [top]; exact List.mem_cons_self)
        exact execute_covered sound.consistent fact executes onTop
      · rintro shared pushed ⟨other, member, rfl, rfl⟩
        refine ⟨fun engaged => ?_, trivial⟩
        have same : other = action := by simpa [engages, tries, delivering] using engaged
        have isDeferred := sound.consistent.deferred other member
        rw [same, direct] at isDeferred
        cases isDeferred
  exact both.2

omit [Inhabited V] [DecidableEq P] [DecidableEq A] in
theorem atRest_of_covered {action : A}
    (covered : ∀ thread,
      Machine.Covered (engages action) (attends classOf action) (state.stack thread))
    (completed : ∀ supplier ∈ (classOf action).suppliers, ¬state.Pending (completes supplier))
    (registered : ¬state.Pending (registers action)) : AtRest classOf state action := by
  have idle : ¬state.Pending (engages action) := by
    intro engaged
    obtain ⟨thread, instr, member, attending⟩ := Machine.Covered.pending covered engaged
    rcases attending with ⟨supplier, isSupplier, completing⟩ | registering
    · exact completed supplier isSupplier ⟨thread, instr, member, completing⟩
    · exact registered ⟨thread, instr, member, registering⟩
  exact
    { completed := completed
      tried := fun pending => idle (pending.mono fun _ tried => .inl tried)
      delivered := fun pending => idle (pending.mono fun _ delivers => .inr delivers) }

/-- When no call is in progress that completes a supplier or registers the action, the
action has delivered. -/
theorem Disciplined.quiet_delivers {allowed : Promises P A V → P → Outcome V → Prop}
    (disciplined : Disciplined classOf allowed state) (initial : Initial start)
    (reached : Reachable (· = start) (machine classOf).Step state) {action : A}
    (direct : (classOf action).isDeferred = false)
    (returned : state.shared.combined action = true ∧ ¬state.Pending (registers action))
    (done : state.shared.AllDone classOf action)
    (completed : ∀ supplier ∈ (classOf action).suppliers, ¬state.Pending (completes supplier))
    (delivers : (classOf action).delivers
      (state.shared.promise (classOf action).supplier).mException = true) :
    state.shared.Done (classOf action).consumer := by
  have atRest := atRest_of_covered (reachable_covered direct initial reached) completed returned.2
  exact disciplined.combined_delivers returned.1 done atRest delivers

end Runs

end PromiseMachine

end Mindroid
