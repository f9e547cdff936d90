import Mathlib.Logic.Function.Basic
import Mindroid.Foundation.Transition

/-!
# Threads with stacks of instructions

A program runs on any number of threads.  Every thread has a stack of instructions
that it still has to execute; an instruction works on the shared state and is replaced
by the instructions that it expands to.  A lock is held as long as the instruction that
releases it is on the stack of a thread, so locks are reentrant.
-/

set_option autoImplicit false

namespace Foundation

/-- What the instructions of a program do. -/
structure Machine (Shared Instr Lock : Type) where
  /-- The lock without which the instruction cannot be executed. -/
  acquires : Instr → Option Lock
  releases : Instr → Option Lock
  /-- Execute an instruction, given the rest of the stack. -/
  exec : Shared → List Instr → Instr → Shared → List Instr → Prop
  /-- Work that a thread takes when it has none. -/
  take : Shared → Shared → List Instr → Prop

/-- The shared state and the stack of every thread. -/
structure Config (Shared Instr : Type) where
  shared : Shared
  stack : Nat → List Instr

namespace Config

variable {Shared Instr : Type}

/-- Some thread still has to execute an instruction of the given kind. -/
def Pending (config : Config Shared Instr) (kind : Instr → Prop) : Prop :=
  ∃ thread, ∃ instr ∈ config.stack thread, kind instr

/-- The thread goes on with other instructions and another shared state. -/
def proceed (config : Config Shared Instr) (thread : Nat) (shared : Shared)
    (stack : List Instr) : Config Shared Instr where
  shared := shared
  stack := Function.update config.stack thread stack

@[simp] theorem shared_proceed (config : Config Shared Instr) (thread : Nat) (shared : Shared)
    (stack : List Instr) : (config.proceed thread shared stack).shared = shared := rfl

@[simp] theorem stack_proceed_self (config : Config Shared Instr) (thread : Nat)
    (shared : Shared) (stack : List Instr) :
    (config.proceed thread shared stack).stack thread = stack := by
  simp only [proceed, Function.update_self]

theorem stack_proceed_of_ne (config : Config Shared Instr) {thread other : Nat}
    (shared : Shared) (stack : List Instr) (different : other ≠ thread) :
    (config.proceed thread shared stack).stack other = config.stack other := by
  simp only [proceed, Function.update_of_ne different]

theorem Pending.mono {config : Config Shared Instr} {kind other : Instr → Prop}
    (pending : config.Pending kind) (implies : ∀ instr, kind instr → other instr) :
    config.Pending other := by
  obtain ⟨thread, instr, member, isKind⟩ := pending
  exact ⟨thread, instr, member, implies instr isKind⟩

end Config

namespace Machine

variable {Shared Instr Lock : Type} (machine : Machine Shared Instr Lock)

/-- The thread holds the lock. -/
def Holds (config : Config Shared Instr) (thread : Nat) (lock : Lock) : Prop :=
  ∃ instr ∈ config.stack thread, machine.releases instr = some lock

/-- No other thread holds a lock that the instruction acquires. -/
def Free (config : Config Shared Instr) (thread : Nat) (instr : Instr) : Prop :=
  ∀ lock, machine.acquires instr = some lock →
    ∀ other, other ≠ thread → ¬machine.Holds config other lock

inductive Step (config : Config Shared Instr) : Config Shared Instr → Prop where
  | exec {thread : Nat} {instr : Instr} {rest pushed : List Instr} {shared : Shared}
      (top : config.stack thread = instr :: rest) (free : machine.Free config thread instr)
      (executes : machine.exec config.shared rest instr shared pushed) :
      Step config (config.proceed thread shared (pushed ++ rest))
  | take {thread : Nat} {pushed : List Instr} {shared : Shared}
      (idle : config.stack thread = []) (takes : machine.take config.shared shared pushed) :
      Step config (config.proceed thread shared pushed)

variable {machine} {config config' : Config Shared Instr}

/-- Every instruction on a stack satisfies what may depend on the shared state. -/
def Facts (fact : Shared → Instr → Prop) (config : Config Shared Instr) : Prop :=
  ∀ thread, ∀ instr ∈ config.stack thread, fact config.shared instr

/-- Facts about the instructions on the stacks hold as long as no step invalidates them
for the others, and every instruction expands to instructions that satisfy them. -/
theorem Step.facts {fact : Shared → Instr → Prop} (step : machine.Step config config')
    (facts : Facts fact config)
    (execs : ∀ {rest instr shared pushed}, machine.exec config.shared rest instr shared pushed →
      fact config.shared instr → (∀ other ∈ rest, fact config.shared other) →
      (∀ other, fact config.shared other → fact shared other) ∧
        ∀ next ∈ pushed, fact shared next)
    (takes : ∀ {shared pushed}, machine.take config.shared shared pushed →
      (∀ other, fact config.shared other → fact shared other) ∧
        ∀ next ∈ pushed, fact shared next) : Facts fact config' := by
  cases step with
  | @exec thread instr rest pushed shared top free executes =>
      have onStack : ∀ other ∈ instr :: rest, fact config.shared other := by
        rw [← top]
        exact facts thread
      obtain ⟨stable, fresh⟩ := execs executes (onStack instr List.mem_cons_self)
        fun other member => onStack other (List.mem_cons_of_mem _ member)
      intro running other member
      rw [Config.shared_proceed]
      by_cases same : running = thread
      · rw [same, Config.stack_proceed_self] at member
        rcases List.mem_append.mp member with isPushed | isRest
        · exact fresh other isPushed
        · exact stable other (onStack other (List.mem_cons_of_mem _ isRest))
      · rw [Config.stack_proceed_of_ne _ _ _ same] at member
        exact stable other (facts running other member)
  | @take thread pushed shared idle taken =>
      obtain ⟨stable, fresh⟩ := takes taken
      intro running other member
      rw [Config.shared_proceed]
      by_cases same : running = thread
      · rw [same, Config.stack_proceed_self] at member
        exact fresh other member
      · rw [Config.stack_proceed_of_ne _ _ _ same] at member
        exact stable other (facts running other member)

/-- As long as something is owed, an instruction is pending that will see to it: a step
that executes it either pays or passes the duty on. -/
theorem Step.pending {owes : Shared → Prop} {serves : Instr → Prop}
    (step : machine.Step config config')
    (pending : owes config.shared → config.Pending serves)
    (execs : ∀ {thread rest instr shared pushed}, config.stack thread = instr :: rest →
      machine.exec config.shared rest instr shared pushed → owes shared →
        (owes config.shared ∧ ¬serves instr) ∨ ∃ next ∈ pushed, serves next)
    (takes : ∀ {shared pushed}, machine.take config.shared shared pushed →
      owes shared → owes config.shared) :
    owes config'.shared → config'.Pending serves := by
  intro owed
  cases step with
  | @exec thread instr rest pushed shared top free executes =>
      rcases execs top executes owed with ⟨before, other⟩ | ⟨next, isPushed, isServing⟩
      · obtain ⟨running, found, member, isServing⟩ := pending before
        refine ⟨running, found, ?_, isServing⟩
        by_cases same : running = thread
        · rw [same, top] at member
          rw [same, Config.stack_proceed_self]
          rcases List.mem_cons.mp member with rfl | isRest
          · exact absurd isServing other
          · exact List.mem_append_right _ isRest
        · rwa [Config.stack_proceed_of_ne _ _ _ same]
      · refine ⟨thread, next, ?_, isServing⟩
        rw [Config.stack_proceed_self]
        exact List.mem_append_left _ isPushed
  | @take thread pushed shared idle taken =>
      obtain ⟨running, found, member, isServing⟩ := pending (takes taken owed)
      refine ⟨running, found, ?_, isServing⟩
      by_cases same : running = thread
      · rw [same, idle] at member
        cases member
      · rwa [Config.stack_proceed_of_ne _ _ _ same]

/-- A step is made by one thread. -/
theorem Step.stays (step : machine.Step config config') :
    ∃ thread, ∀ other, other ≠ thread → config'.stack other = config.stack other := by
  cases step with
  | @exec thread => exact ⟨thread, fun other => Config.stack_proceed_of_ne _ _ _⟩
  | @take thread => exact ⟨thread, fun other => Config.stack_proceed_of_ne _ _ _⟩

/-! ## Instructions below others -/

/-- Below every instruction of the one kind there is one of the other kind. -/
def Covered (kind cover : Instr → Prop) : List Instr → Prop
  | [] => True
  | instr :: below => (kind instr → ∃ other ∈ below, cover other) ∧ Covered kind cover below

section Covered

variable {kind cover : Instr → Prop} {front back : List Instr}

theorem Covered.append (others : ∀ instr ∈ front, ¬kind instr) (covered : Covered kind cover back) :
    Covered kind cover (front ++ back) := by
  induction front with
  | nil => exact covered
  | cons instr front ih =>
      refine ⟨fun isKind => absurd isKind (others instr List.mem_cons_self), ih ?_⟩
      exact fun other member => others other (List.mem_cons_of_mem _ member)

/-- Whatever is put on top of an instruction that covers it is covered. -/
theorem Covered.under (covers : ∃ other ∈ back, cover other) (covered : Covered kind cover back) :
    Covered kind cover (front ++ back) := by
  induction front with
  | nil => exact covered
  | cons instr front ih =>
      obtain ⟨other, member, isCover⟩ := covers
      exact ⟨fun _ => ⟨other, List.mem_append_right _ member, isCover⟩, ih⟩

theorem Covered.exists {stack : List Instr} (covered : Covered kind cover stack) {instr : Instr}
    (member : instr ∈ stack) (isKind : kind instr) : ∃ other ∈ stack, cover other := by
  induction stack with
  | nil => cases member
  | cons top below ih =>
      obtain ⟨other, isBelow, isCover⟩ : ∃ other ∈ below, cover other := by
        rcases List.mem_cons.mp member with rfl | later
        · exact covered.1 isKind
        · exact ih covered.2 later
      exact ⟨other, List.mem_cons_of_mem _ isBelow, isCover⟩

/-- An instruction that is pending is covered by one that is pending. -/
theorem Covered.pending (covered : ∀ thread, Covered kind cover (config.stack thread))
    (pending : config.Pending kind) : config.Pending cover := by
  obtain ⟨thread, instr, member, isKind⟩ := pending
  exact ⟨thread, (covered thread).exists member isKind⟩

/-- Instructions stay covered if those that an instruction expands to are. -/
theorem Step.covered (step : machine.Step config config')
    (covered : ∀ thread, Covered kind cover (config.stack thread))
    (execs : ∀ {thread rest instr shared pushed}, config.stack thread = instr :: rest →
      machine.exec config.shared rest instr shared pushed → Covered kind cover (instr :: rest) →
        Covered kind cover (pushed ++ rest))
    (takes : ∀ {shared pushed}, machine.take config.shared shared pushed →
      Covered kind cover pushed) :
    ∀ thread, Covered kind cover (config'.stack thread) := by
  intro running
  cases step with
  | @exec thread instr rest pushed shared top free executes =>
      by_cases same : running = thread
      · rw [same, Config.stack_proceed_self]
        exact execs top executes (top ▸ covered thread)
      · rw [Config.stack_proceed_of_ne _ _ _ same]
        exact covered running
  | @take thread pushed shared idle taken =>
      by_cases same : running = thread
      · rw [same, Config.stack_proceed_self]
        exact takes taken
      · rw [Config.stack_proceed_of_ne _ _ _ same]
        exact covered running

end Covered

end Machine

/-! ## Finitely many threads -/

/-- The first threads have the given stacks, all others are idle. -/
def Config.running {Shared Instr : Type} (shared : Shared) (programs : List (List Instr)) :
    Config Shared Instr where
  shared := shared
  stack thread := programs.getD thread []

theorem Config.mem_running {Shared Instr : Type} {shared : Shared} {programs : List (List Instr)}
    {thread : Nat} {instr : Instr} (member : instr ∈ (running shared programs).stack thread) :
    ∃ program ∈ programs, instr ∈ program := by
  change instr ∈ programs.getD thread [] at member
  rcases Nat.lt_or_ge thread programs.length with within | beyond
  · refine ⟨programs[thread], List.getElem_mem within, ?_⟩
    rwa [List.getD_eq_getElem?_getD, List.getElem?_eq_getElem within,
      Option.getD_some] at member
  · rw [List.getD_eq_getElem?_getD, List.getElem?_eq_none beyond, Option.getD_none] at member
    cases member

namespace Machine

variable {Shared Instr Lock : Type} {machine : Machine Shared Instr Lock}

private theorem Step.running {shared shared' : Shared} {programs : List (List Instr)} {instr : Instr}
    {rest pushed : List Instr} (thread : Nat) (top : programs[thread]? = some (instr :: rest))
    (free : ∀ lock ∈ machine.acquires instr, ∀ other < programs.length, other ≠ thread →
      ∀ held ∈ programs.getD other [], machine.releases held ≠ some lock)
    (executes : machine.exec shared rest instr shared' pushed) :
    machine.Step (.running shared programs)
      (.running shared' (programs.set thread (pushed ++ rest))) := by
  have onTop : (Config.running shared programs).stack thread = instr :: rest := by
    simp only [Config.running, List.getD_eq_getElem?_getD, top, Option.getD_some]
  have isFree : machine.Free (.running shared programs) thread instr := by
    rintro lock acquires other different ⟨held, member, releases⟩
    rcases Nat.lt_or_ge other programs.length with within | beyond
    · exact free lock acquires other within different held member releases
    · simp only [Config.running, List.getD_eq_getElem?_getD,
        List.getElem?_eq_none beyond, Option.getD_none] at member
      cases member
  have step := Step.exec onTop isFree executes
  have same : (Config.running shared programs).proceed thread shared' (pushed ++ rest) =
      .running shared' (programs.set thread (pushed ++ rest)) := by
    obtain ⟨within, -⟩ := List.getElem?_eq_some_iff.mp top
    simp only [Config.proceed, Config.running]
    congr 1
    funext other
    by_cases isThread : other = thread
    · simp [isThread, within]
    · simp [Function.update_of_ne isThread, Ne.symm isThread]
  rwa [same] at step

/-! ## Schedules -/

section Schedule

variable [DecidableEq Lock] (machine)
variable (execute : Shared → List Instr → Instr → Option (Shared × List Instr))

/-- No other thread holds a lock that the instruction acquires. -/
def isFree (programs : List (List Instr)) (thread : Nat) (instr : Instr) : Bool :=
  (machine.acquires instr).isNone ||
    (programs.eraseIdx thread).all fun stack => stack.all fun held =>
      machine.releases held ≠ machine.acquires instr

/-- Let the threads execute one instruction each, in the given order. -/
def schedule : List Nat → Shared → List (List Instr) → Option (Shared × List (List Instr))
  | [], shared, programs => some (shared, programs)
  | thread :: threads, shared, programs =>
      match programs[thread]? with
      | some (instr :: rest) =>
          if machine.isFree programs thread instr then
            match execute shared rest instr with
            | some (shared, pushed) =>
                schedule threads shared (programs.set thread (pushed ++ rest))
            | none => none
          else
            none
      | _ => none

variable {machine execute}

/-- What a schedule ends with is reachable. -/
theorem schedule_reachable
    (executes : ∀ {shared rest instr shared' pushed},
      execute shared rest instr = some (shared', pushed) →
        machine.exec shared rest instr shared' pushed)
    {start : Config Shared Instr} {threads : List Nat} {shared shared' : Shared}
    {programs programs' : List (List Instr)}
    (scheduled : machine.schedule execute threads shared programs = some (shared', programs'))
    (reached : Reachable (· = start) machine.Step (.running shared programs)) :
    Reachable (· = start) machine.Step (.running shared' programs') := by
  induction threads generalizing shared programs with
  | nil =>
      cases scheduled
      exact reached
  | cons thread threads ih =>
      simp only [schedule] at scheduled
      split at scheduled
      · next instr rest top =>
          split at scheduled
          · next free =>
              split at scheduled
              · next executed =>
                  refine ih scheduled (.step reached (.running thread top ?_ (executes executed)))
                  intro lock acquires other within different held member releases
                  rw [isFree, acquires, Option.isNone_some, Bool.false_or, List.all_eq_true] at free
                  have isOther : programs.getD other [] ∈ programs.eraseIdx thread := by
                    rw [List.getD_eq_getElem?_getD, List.getElem?_eq_getElem within,
                      Option.getD_some]
                    exact List.mem_eraseIdx_iff_getElem.mpr ⟨other, within, different, rfl⟩
                  have notHeld := List.all_eq_true.mp (free _ isOther) held member
                  rw [releases] at notHeld
                  simp at notHeld
              · cases scheduled
          · cases scheduled
      · cases scheduled

end Schedule

end Machine

end Foundation
