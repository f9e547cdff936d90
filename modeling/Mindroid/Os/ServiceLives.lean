import Mindroid.Foundation.Tables
import Mindroid.Foundation.Transition
import Mindroid.Os.Process

/-!
# The lives of services

Services are created, used and destroyed, each of them by the process that has it.  Whatever the
manager and the processes execute in which order, they do nothing else to a service; so it is
destroyed at most once and not used after that.
-/

set_option autoImplicit false

namespace Mindroid

open Foundation

/-- Neither the first nor the last function of a service. -/
def ServiceEvent.IsUse (event : ServiceEvent) : Prop :=
  event ≠ .onCreate ∧ event ≠ .onDestroy

/-- The services that have been made, and which process has which of them. -/
structure Instances where
  events : Nat → List ServiceEvent
  made : Nat
  tables : Nat → AList fun _ : ComponentName => Nat

namespace Instances

variable (instances : Instances)

/-- A process has the service for a component. -/
def Holds (index : Nat) (component : ComponentName) (service : Nat) : Prop :=
  (instances.tables index).lookup component = some service

/-- The event of a service. -/
def occur (service : Nat) (event : ServiceEvent) : Instances :=
  { instances with
    events := Function.update instances.events service (instances.events service ++ [event]) }

/-- What can be done to services, where `mayCreate` says which can be created. -/
inductive Step (mayCreate : Nat → ComponentName → Prop) : Instances → Prop where
  | create {index : Nat} {component : ComponentName} (called : mayCreate index component) :
      Step mayCreate
        { events := Function.update instances.events instances.made [.onCreate]
          made := instances.made + 1
          tables := Function.update instances.tables index
            ((instances.tables index).insert component instances.made) }
  | use (index : Nat) (component : ComponentName) {service : Nat} {event : ServiceEvent}
      (holds : instances.Holds index component service) (isUse : event.IsUse) :
      Step mayCreate (instances.occur service event)
  | destroy (index : Nat) (component : ComponentName) {service : Nat}
      (holds : instances.Holds index component service) :
      Step mayCreate
        { instances.occur service .onDestroy with
          tables := Function.update instances.tables index
            ((instances.tables index).erase component) }

/-- A service that is created, then used and perhaps destroyed. -/
def Life (events : List ServiceEvent) (destroyed : Bool) : Prop :=
  ∃ uses : List ServiceEvent, (∀ event ∈ uses, event.IsUse) ∧
    events = .onCreate :: uses ++ (if destroyed then [.onDestroy] else [])

/-- A service that a process has is not destroyed, and no other process or component has it. -/
structure Lives : Prop where
  life : ∀ service, service < instances.made →
    ∃ destroyed, Life (instances.events service) destroyed
  held : ∀ index component service, instances.Holds index component service →
    service < instances.made ∧ Life (instances.events service) false
  apart : ∀ index component other otherComponent service,
    instances.Holds index component service → instances.Holds other otherComponent service →
      index = other ∧ component = otherComponent

variable {instances} {mayCreate : Nat → ComponentName → Prop}

theorem life_created : Life [.onCreate] false :=
  ⟨[], fun _ member => absurd member List.not_mem_nil, rfl⟩

theorem Life.used {events : List ServiceEvent} {event : ServiceEvent} (life : Life events false)
    (isUse : event.IsUse) : Life (events ++ [event]) false := by
  rcases life with ⟨uses, areUses, rfl⟩
  refine ⟨uses ++ [event], fun other member => ?_, ?_⟩
  · rcases List.mem_append.mp member with before | last
    · exact areUses other before
    · rw [List.mem_singleton.mp last]
      exact isUse
  · simp only [Bool.false_eq_true, if_false, List.append_nil, List.cons_append]

theorem Life.destroyed {events : List ServiceEvent} (life : Life events false) :
    Life (events ++ [.onDestroy]) true := by
  rcases life with ⟨uses, areUses, rfl⟩
  refine ⟨uses, areUses, ?_⟩
  simp only [Bool.false_eq_true, if_false, if_true, List.append_nil]

/-- The events of one service are new. -/
theorem life_update {events : Nat → List ServiceEvent} {service : Nat}
    {changed : List ServiceEvent} {destroyed : Bool} (life : Life changed destroyed) {other : Nat}
    (others : other ≠ service → ∃ destroyed, Life (events other) destroyed) :
    ∃ destroyed, Life (Function.update events service changed other) destroyed := by
  by_cases same : other = service
  · rw [same, Function.update_self]
    exact ⟨destroyed, life⟩
  · rw [Function.update_of_ne same]
    exact others same

/-- A process has the new service and what it had for the other components. -/
theorem lookup_insert {tables : Nat → AList fun _ : ComponentName => Nat} {index other : Nat}
    {component otherComponent : ComponentName} {service otherService : Nat}
    (holds : (Function.update tables index ((tables index).insert component service) other).lookup
      otherComponent = some otherService) :
    (other = index ∧ otherComponent = component ∧ otherService = service) ∨
      (tables other).lookup otherComponent = some otherService := by
  by_cases isIndex : other = index
  · rw [isIndex, Function.update_self] at holds
    by_cases isComponent : otherComponent = component
    · rw [isComponent, AList.lookup_insert] at holds
      exact .inl ⟨isIndex, isComponent, (Option.some.inj holds).symm⟩
    · rw [AList.lookup_insert_ne isComponent, ← isIndex] at holds
      exact .inr holds
  · rw [Function.update_of_ne isIndex] at holds
    exact .inr holds

theorem lookup_erase {tables : Nat → AList fun _ : ComponentName => Nat} {index other : Nat}
    {component otherComponent : ComponentName} {otherService : Nat}
    (holds : (Function.update tables index ((tables index).erase component) other).lookup
      otherComponent = some otherService) :
    ¬(other = index ∧ otherComponent = component) ∧
      (tables other).lookup otherComponent = some otherService := by
  by_cases isIndex : other = index
  · rw [isIndex, Function.update_self] at holds
    have isOther : otherComponent ≠ component := by
      rintro rfl
      rw [AList.lookup_erase] at holds
      cases holds
    rw [AList.lookup_erase_ne isOther, ← isIndex] at holds
    exact ⟨fun same => isOther same.2, holds⟩
  · rw [Function.update_of_ne isIndex] at holds
    exact ⟨fun same => isIndex same.1, holds⟩

theorem Lives.step {next : Instances} (lives : instances.Lives)
    (step : instances.Step mayCreate next) : next.Lives := by
  cases step with
  | @create index component called =>
      have old : ∀ {other otherComponent service}, instances.Holds other otherComponent service →
          service ≠ instances.made :=
        fun holds => Nat.ne_of_lt (lives.held _ _ _ holds).1
      constructor
      case life =>
        intro service isMade
        refine life_update life_created fun isOld => ?_
        exact lives.life service (Nat.lt_of_le_of_ne (Nat.le_of_lt_succ isMade) isOld)
      case held =>
        intro other otherComponent service holds
        rcases lookup_insert holds with ⟨_, _, rfl⟩ | before
        · refine ⟨Nat.lt_succ_self _, ?_⟩
          simp only [Function.update_self]
          exact life_created
        · have held := lives.held other otherComponent service before
          refine ⟨Nat.lt_succ_of_lt held.1, ?_⟩
          simp only [Function.update_of_ne (old before)]
          exact held.2
      case apart =>
        intro first firstComponent second secondComponent service isFirst isSecond
        rcases lookup_insert isFirst with ⟨rfl, rfl, isNew⟩ | wasFirst
        · rcases lookup_insert isSecond with ⟨rfl, rfl, _⟩ | wasSecond
          · exact ⟨rfl, rfl⟩
          · exact absurd isNew (old wasSecond)
        · rcases lookup_insert isSecond with ⟨_, _, isNew⟩ | wasSecond
          · exact absurd isNew (old wasFirst)
          · exact lives.apart _ _ _ _ service wasFirst wasSecond
  | @use index component service event holds isUse =>
      have life := (lives.held index component service holds).2.used isUse
      refine ⟨fun other isMade => life_update life fun _ => lives.life other isMade, ?_,
        lives.apart⟩
      intro other otherComponent otherService otherHolds
      have held := lives.held other otherComponent otherService otherHolds
      refine ⟨held.1, ?_⟩
      by_cases same : otherService = service
      · simp only [occur, same, Function.update_self]
        exact life
      · simp only [occur, Function.update_of_ne same]
        exact held.2
  | @destroy index component service holds =>
      have destroyed := (lives.held index component service holds).2.destroyed
      constructor
      case life =>
        exact fun other isMade => life_update destroyed fun _ => lives.life other isMade
      case held =>
        intro other otherComponent otherService otherHolds
        rcases lookup_erase otherHolds with ⟨isOther, before⟩
        have apart : otherService ≠ service := by
          rintro rfl
          exact isOther (lives.apart other otherComponent index component otherService before holds)
        simp only [occur, Function.update_of_ne apart]
        exact lives.held other otherComponent otherService before
      case apart =>
        intro first firstComponent second secondComponent other isFirst isSecond
        exact lives.apart _ _ _ _ other (lookup_erase isFirst).2 (lookup_erase isSecond).2

end Instances

namespace ServiceSystem

variable (system : ServiceSystem)

/-- The services of a process. -/
def servicesOf (index : Nat) : AList fun _ : ComponentName => Nat :=
  (system.processes index).mServices

def instances : Instances :=
  ⟨system.events, system.made, system.servicesOf⟩

/-- The next call of a process creates the service of the component. -/
def Creates (index : Nat) (component : ComponentName) : Prop :=
  ∃ callback calls, (system.processes index).calls = .createService component callback :: calls

variable {system} {mayCreate : Nat → ComponentName → Prop}

/-! ## Steps -/

theorem servicesOf_setProcess (index : Nat) (process : Process) :
    (system.setProcess index process).servicesOf =
      Function.update system.servicesOf index process.mServices := by
  funext other
  by_cases isIndex : other = index
  · rw [isIndex, Function.update_self]
    exact field_update_self _ _ _ Process.mServices
  · rw [Function.update_of_ne isIndex]
    exact field_update_of_ne _ _ Process.mServices isIndex

/-- The services of the process are as before. -/
theorem servicesOf_kept {index : Nat} {process : Process}
    (kept : process.mServices = (system.processes index).mServices) :
    (system.setProcess index process).servicesOf = system.servicesOf := by
  rw [servicesOf_setProcess, kept]
  exact Function.update_eq_self index system.servicesOf

theorem send_mServices (process : Process) (call : ProcessCall) :
    (process.send call).mServices = process.mServices := by
  rw [Process.send]
  split
  · rfl
  · rfl

/-- Calls that are sent are not executed yet. -/
theorem sendAll_instances (calls : List (Nat × ProcessCall)) :
    (system.sendAll calls).instances = system.instances := by
  induction calls generalizing system with
  | nil => rfl
  | cons call calls ih =>
      refine ih.trans ?_
      rw [instances, servicesOf_kept (send_mServices _ _)]
      rfl

theorem use_instances (index : Nat) (component : ComponentName) {event : ServiceEvent}
    (isUse : event.IsUse) :
    (system.use index component event).instances = system.instances ∨
      system.instances.Step mayCreate (system.use index component event).instances := by
  rw [use]
  split
  case h_1 service holds => exact .inr (.use index component holds isUse)
  case h_2 => exact .inl rfl

theorem createService_instances {index : Nat} {component : ComponentName}
    (called : mayCreate index component) (callback : ServiceCallback) (found : Bool) :
    (system.createService index component callback found).instances = system.instances ∨
      system.instances.Step mayCreate
        (system.createService index component callback found).instances := by
  cases found with
  | true =>
      have tables : (system.createService index component callback true).servicesOf =
          Function.update system.servicesOf index
            ((system.servicesOf index).insert component system.made) := servicesOf_setProcess _ _
      rw [instances, tables]
      exact .inr (.create called)
  | false => exact .inl rfl

theorem stopService_instances (index : Nat) (component : ComponentName)
    (callback : Option ServiceCallback) :
    (system.stopService index component callback).instances = system.instances ∨
      system.instances.Step mayCreate (system.stopService index component callback).instances := by
  have stopped : (system.stopService index component callback).instances =
      ((system.use index component .onDestroy).setProcess index
        { system.processes index with
          mServices := (system.processes index).mServices.erase component }).instances := by
    cases callback with
    | none => rfl
    | some callback => rfl
  rw [stopped, instances, servicesOf_setProcess, use]
  split
  case h_1 service holds => exact .inr (.destroy index component holds)
  case h_2 absent =>
    have same : (system.servicesOf index).erase component = system.servicesOf index :=
      AList.ext (List.kerase_of_notMem_keys (AList.lookup_eq_none.mp absent))
    refine .inl (congrArg (Instances.mk system.events system.made) ?_)
    exact (congrArg (Function.update system.servicesOf index) same).trans
      (Function.update_eq_self index system.servicesOf)

theorem onTransact_instances {index : Nat} (found : Bool) {call : ProcessCall}
    (called : ∀ component callback, call = .createService component callback →
      mayCreate index component) :
    (system.onTransact index found call).instances = system.instances ∨
      system.instances.Step mayCreate (system.onTransact index found call).instances := by
  cases call with
  | createService component callback =>
      exact createService_instances (called component callback rfl) callback found
  | startService component startId callback =>
      have isUse : (ServiceEvent.onStartCommand startId).IsUse :=
        ⟨ServiceEvent.noConfusion, ServiceEvent.noConfusion⟩
      exact use_instances index component isUse
  | stopService component callback => exact stopService_instances index component callback
  | bindService component =>
      exact use_instances index component ⟨ServiceEvent.noConfusion, ServiceEvent.noConfusion⟩
  | unbindService component =>
      exact use_instances index component ⟨ServiceEvent.noConfusion, ServiceEvent.noConfusion⟩

/-- The manager executes a request. -/
theorem step_request {next : ServiceSystem} {action : ServiceAction}
    (taken : system.step (.request action) = some next) :
    (∀ callback result, action ≠ .onResult callback result) ∧
      ∃ manager, system.manager.step action = some manager ∧
        next = { system with manager := manager }.sendAll (system.manager.calls action) := by
  have isRequest : ∀ callback result, action ≠ .onResult callback result := by
    rintro callback result rfl
    cases taken
  cases executed : system.manager.step action with
  | none =>
      have stuck : system.step (.request action) = none := by
        cases action with
        | onResult callback result => rfl
        | _ => simp only [step, executed]
      cases stuck.symm.trans taken
  | some manager =>
      refine ⟨isRequest, manager, rfl, ?_⟩
      cases action with
      | onResult callback result => exact absurd rfl (isRequest callback result)
      | _ =>
          simp only [step, executed] at taken
          exact (Option.some.inj taken).symm

/-- A step does nothing to the services, or what can be done to them. -/
theorem step_instances {next : ServiceSystem} {action : SystemAction}
    (taken : system.step action = some next) :
    next.instances = system.instances ∨ system.instances.Step system.Creates next.instances := by
  have kept : ∀ {index process}, process.mServices = (system.processes index).mServices →
      (system.setProcess index process).instances = system.instances := by
    intro index process same
    rw [instances, servicesOf_kept same]
    rfl
  cases action with
  | request action =>
      rcases step_request taken with ⟨_, manager, _, rfl⟩
      exact .inl (sendAll_instances _)
  | result =>
      rw [step] at taken
      split at taken
      · cases taken
      · cases taken
        exact .inl rfl
  | execute index found =>
      rw [step, execute] at taken
      split at taken
      case h_1 => cases taken
      case h_2 call calls isNext =>
        cases taken
        have same : (system.setProcess index { system.processes index with
            calls := calls }).instances = system.instances := kept rfl
        rw [← same]
        refine onTransact_instances found ?_
        rintro component callback rfl
        exact ⟨callback, calls, isNext⟩
  | stop index =>
      rw [step, stop] at taken
      split at taken
      · cases taken
        exact .inl (kept rfl)
      · cases taken
  | quit index =>
      rw [step, quit] at taken
      split at taken
      · cases taken
        exact .inl (kept rfl)
      · cases taken

theorem initial_lives : initial.instances.Lives where
  life := fun _ isMade => absurd isMade (Nat.not_lt_zero _)
  held := fun _ _ _ holds => absurd holds (Option.some_ne_none _).symm
  apart := fun _ _ _ _ _ holds => absurd holds (Option.some_ne_none _).symm

/-- In every run of the manager and the processes, a service is created, then used, and destroyed
at most once and after that. -/
theorem reachable_lives
    (reachable : Reachable (fun system => system = initial)
      (fun system next => ∃ action, system.step action = some next) system) :
    system.instances.Lives := by
  induction reachable with
  | initial isInitial =>
      rw [isInitial]
      exact initial_lives
  | step _ taken lives =>
      rcases taken with ⟨action, taken⟩
      rcases step_instances taken with same | step
      · rw [same]
        exact lives
      · exact lives.step step

/-- A service is started and bound. -/
def binding : List SystemAction :=
  [.request (.startService ⟨⟨[112], [97]⟩, false, none, none⟩ (some ⟨[97], [112], [112]⟩)),
    .execute 0 true, .execute 0 true,
    .request (.bindService ⟨⟨[112], [97]⟩, false, none, none⟩ 7 (some ⟨[97], [112], [112]⟩)),
    .execute 0 true]

theorem bound_lives :
    ∃ system, runAll step initial binding = some system ∧
      system.instances.Lives ∧ system.events 0 = [.onCreate, .onStartCommand 0, .onBind] := by
  have ran : ∃ system, runAll step initial binding = some system ∧
      system.events 0 = [.onCreate, .onStartCommand 0, .onBind] := ⟨_, rfl, rfl⟩
  rcases ran with ⟨system, ran, events⟩
  exact ⟨system, ran, reachable_lives (.runAll (.initial rfl) ran), events⟩

end ServiceSystem

end Mindroid
