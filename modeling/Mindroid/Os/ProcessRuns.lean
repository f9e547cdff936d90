import Mindroid.Os.ProcessCalls
import Mindroid.Os.ServiceLives

/-!
# What the manager and the processes agree on

The manager decides from its own table, while the processes are still executing earlier calls.
For a component whose class is found whenever its service is created, the calls of each process
lead from what the process has to what the manager has recorded: a service is never replaced by
another one, and a process that has executed its calls has the services that it should have.
-/

set_option autoImplicit false

namespace Mindroid

open Foundation
open ServiceManager (callsFor Requests serves_home)

namespace ServiceSystem

variable (component : ComponentName) (system : ServiceSystem)

/-- The class of the component is found if its service is to be created. -/
def Finds (action : SystemAction) : Prop :=
  ∀ index, action = .execute index false → ¬system.Creates index component

/-- The calls of a process lead from the service that it has to the one that the manager has
recorded. -/
structure Fits (manager : ServiceManager) (index : Nat) (process : Process) : Prop where
  proper : ∀ call ∈ process.calls, call.Proper
  leads : process.quitting = false → ∃ after,
    Turns (ProcessCall.switch component) (process.mServices.lookup component).isSome
        process.calls after ∧ (after = true ↔ manager.home component = some index)
  quits : process.quitting = true → process.stopping = true ∧ process.calls = []
  stops : process.stopping = true → manager.mProcessManager.stopped index = true

/-- The calls that are under way fit the tables of the manager. -/
structure Agrees : Prop where
  inv : system.manager.Inv none
  alive : system.manager.Alive
  succeeds : ∀ record, (.created component record, false) ∉ system.results
  fits : ∀ index, Fits component system.manager index (system.processes index)

/-- A process that should have the service has not quit, and a process that has executed the calls
that create or stop it has what the manager has recorded.  No process has a service already when
it is to create one. -/
structure Settles : Prop where
  new : ∀ index, system.Creates index component → component ∉ system.servicesOf index
  serves : ∀ index, system.manager.Serves index component →
    (system.processes index).quitting = false
  agree : ∀ index, (system.processes index).quitting = false →
    (∀ call ∈ (system.processes index).calls, call.switch component = none) →
      (component ∈ system.servicesOf index ↔ system.manager.Serves index component)

variable {component system}

theorem initial_agrees : initial.Agrees component where
  inv := ServiceManager.initial_inv
  alive := ServiceManager.initial_alive
  succeeds := fun _ => List.not_mem_nil
  fits := by
    intro index
    exact ⟨fun _ member => absurd member List.not_mem_nil, fun _ => ⟨false, rfl, nofun, nofun⟩,
      nofun, nofun⟩

theorem Agrees.not_serves (agrees : system.Agrees component) {index : Nat}
    (stopped : system.manager.mProcessManager.stopped index = true) (other : ComponentName) :
    ¬system.manager.Serves index other := by
  intro serves
  have running := (agrees.inv.consistent.running index).mpr ⟨other, serves⟩
  exact Bool.noConfusion (stopped.symm.trans running.2)

theorem Agrees.running (agrees : system.Agrees component) {index : Nat} {call : ProcessCall}
    {calls : List ProcessCall} (isNext : (system.processes index).calls = call :: calls) :
    (system.processes index).quitting = false := by
  refine eq_false_of_ne_true fun quits => ?_
  have noCalls := ((agrees.fits index).quits quits).2
  rw [isNext] at noCalls
  cases noCalls

theorem Agrees.settles (agrees : system.Agrees component) : system.Settles component where
  new := by
    rintro index ⟨callback, calls, isNext⟩ member
    rcases (agrees.fits index).leads (agrees.running isNext) with ⟨after, turns, _⟩
    rw [isNext, Turns.cons_on (ProcessCall.createService_switch _ _)] at turns
    cases (AList.lookup_isSome.mpr member).symm.trans turns.1
  serves := by
    intro index serves
    refine eq_false_of_ne_true fun quits => ?_
    have fits := agrees.fits index
    exact agrees.not_serves (fits.stops (fits.quits quits).1) component serves
  agree := by
    intro index runs quiet
    rcases (agrees.fits index).leads runs with ⟨after, turns, serves⟩
    rw [serves_home, ← serves, ← turns.eq_of_quiet quiet]
    exact AList.lookup_isSome.symm

/-! ## Requests -/

section Request

variable (calls : List (Nat × ProcessCall)) (index : Nat)

/-- Only the processes change. -/
theorem sendAll_eq : system.sendAll calls =
    { system with processes := (system.sendAll calls).processes } := by
  induction calls generalizing system with
  | nil => rfl
  | cons call calls ih => exact ih

theorem setProcess_self (process : Process) :
    (system.setProcess index process).processes index = process :=
  Function.update_self _ _ _

theorem setProcess_other (process : Process) {other : Nat} (apart : other ≠ index) :
    (system.setProcess index process).processes other = system.processes other :=
  Function.update_of_ne apart _ _

/-- A process that has not quit gets its calls. -/
theorem sendAll_process :
    (system.sendAll calls).processes index =
      if (system.processes index).quitting then system.processes index
      else { system.processes index with
        calls := (system.processes index).calls ++ callsFor index calls } := by
  induction calls generalizing system with
  | nil =>
      rw [callsFor, List.filter_nil, List.map_nil, List.append_nil, ite_self]
      rfl
  | cons call calls ih =>
      refine (@ih (system.setProcess call.1 ((system.processes call.1).send call.2))).trans ?_
      rw [ServiceManager.callsFor_cons]
      by_cases isIndex : call.1 = index
      · rw [isIndex, setProcess_self, if_pos rfl, Process.send]
        cases quits : (system.processes index).quitting with
        | true => simp only [if_true, quits]
        | false => simp only [Bool.false_eq_true, if_false, quits, List.append_assoc,
            List.singleton_append]
      · rw [setProcess_other _ _ (Ne.symm isIndex), if_neg isIndex]

variable {calls index} {manager : ServiceManager}

theorem Agrees.sendAll (agrees : system.Agrees component)
    (requests : Requests system.manager manager calls) (inv : manager.Inv none)
    (alive : manager.Alive)
    (stopped : ∀ index, system.manager.mProcessManager.stopped index = true →
      manager.mProcessManager.stopped index = true) :
    ({ system with manager := manager }.sendAll calls).Agrees component := by
  rw [sendAll_eq]
  refine ⟨inv, alive, agrees.succeeds, fun index => ?_⟩
  have fits := agrees.fits index
  have stops : (system.processes index).stopping = true →
      manager.mProcessManager.stopped index = true :=
    fun stopping => stopped index (fits.stops stopping)
  change Fits component manager index _
  rw [sendAll_process]
  split
  case isTrue quits =>
    exact ⟨fits.proper, fun runs => Bool.noConfusion (runs.symm.trans quits), fits.quits, stops⟩
  case isFalse running =>
    refine ⟨fun call member => ?_, fun runs => ?_, fun quits => absurd quits running, stops⟩
    · rcases List.mem_append.mp member with before | sent
      · exact fits.proper call before
      · exact requests.proper _ (ServiceManager.mem_callsFor sent)
    · rcases fits.leads runs with ⟨before, turns, serves⟩
      rcases requests.leads serves with ⟨after, more, servesNext⟩
      exact ⟨after, turns.append more, servesNext⟩

end Request

/-! ## Results -/

theorem startProcess_stopped (manager : ProcessManager) (name : List UInt8) :
    (manager.startProcess name).2.stopped = manager.stopped := by
  rw [ProcessManager.startProcess]
  split
  · rfl
  · rfl

/-- A stopped process stays stopped. -/
theorem stable_stopped (index : Nat) :
    ServiceManager.Stable fun manager => manager.mProcessManager.stopped index = true where
  prepared := by
    intro manager intent resolved stopped
    have prepared : ∀ name,
        (manager.prepareProcess name).2.mProcessManager.stopped index = true := by
      intro name
      rw [ServiceManager.prepareProcess]
      split
      · exact stopped
      · exact (congrFun (startProcess_stopped _ name) index).trans stopped
    rw [ServiceManager.prepareService]
    split
    · exact stopped
    case h_2 info _ =>
      split
      case h_1 record _ =>
        rw [(ServiceManager.createService_same _ record).processManager]
        exact stopped
      case h_2 =>
        rw [(ServiceManager.createService_same _ _).processManager]
        exact prepared info.processName
  dropped := by
    intro manager component record stopped _
    rw [ServiceManager.dropService]
    split
    · rw [ProcessManager.stopProcess]
      split
      · exact stopped
      case h_2 process _ =>
        by_cases isIndex : index = process
        · rw [isIndex]
          exact Function.update_self _ _ _
        · exact (Function.update_of_ne isIndex _ _).trans stopped
    · exact stopped
  touched := by
    intro manager next stopped touches
    rw [touches.processManager]
    exact stopped

/-- A failure cleans up its own component only. -/
theorem onResult_home (manager : ServiceManager) {callback : ServiceCallback} {result : Bool}
    (succeeds : ∀ record, (callback, result) ≠ (.created component record, false)) :
    (manager.onResult callback result).home component = manager.home component := by
  have erased : ∀ called : ServiceManager,
      { called with mServiceCallbacks := called.mServiceCallbacks.erase callback }.home =
        called.home := fun _ => rfl
  cases callback with
  | created other record =>
      cases result with
      | true => rfl
      | false =>
          rw [ServiceManager.onResult, if_neg Bool.noConfusion, erased,
            ServiceManager.cleanupService]
          split
          case h_1 => rfl
          case h_2 current served =>
            rw [ServiceManager.dropService_home]
            exact Function.update_of_ne (fun isOther => succeeds record (by rw [isOther])) _ _
  | started => rfl
  | stopped => rfl

theorem Agrees.onResult (agrees : system.Agrees component) {callback : ServiceCallback}
    {result : Bool} {results : List (ServiceCallback × Bool)}
    (isNext : system.results = (callback, result) :: results) :
    { system with
      manager := system.manager.onResult callback result
      results := results }.Agrees component where
  inv := ServiceManager.stable_inv.onResult agrees.inv callback result
  alive := ServiceManager.stable_alive.onResult agrees.alive callback result
  succeeds := by
    intro record member
    exact agrees.succeeds record (isNext ▸ List.mem_cons_of_mem _ member)
  fits := by
    intro index
    have fits := agrees.fits index
    refine ⟨fits.proper, fun runs => ?_, fits.quits, fun stopping =>
      (stable_stopped index).onResult (fits.stops stopping) callback result⟩
    have succeeds : ∀ record, (callback, result) ≠ (.created component record, false) :=
      fun record same => agrees.succeeds record (isNext ▸ same ▸ List.mem_cons_self)
    rw [onResult_home _ succeeds]
    exact fits.leads runs

/-! ## Calls -/

section Execution

variable {index : Nat} {process : Process} {next : ServiceSystem}

/-- One process changes. -/
theorem Agrees.setProcess (agrees : system.Agrees component)
    (manager : next.manager = system.manager)
    (processes : next.processes = Function.update system.processes index process)
    (fits : Fits component system.manager index process)
    (succeeds : ∀ record, (.created component record, false) ∉ next.results) :
    next.Agrees component := by
  refine ⟨manager ▸ agrees.inv, manager ▸ agrees.alive, succeeds, fun other => ?_⟩
  rw [manager, processes]
  by_cases isIndex : other = index
  · rw [isIndex, Function.update_self]
    exact fits
  · rw [Function.update_of_ne isIndex]
    exact agrees.fits other

/-- `Process::stop` adds calls that stop the services of a process that should have none. -/
theorem Agrees.stop (agrees : system.Agrees component)
    (taken : system.stop index = some next) : next.Agrees component := by
  rw [ServiceSystem.stop] at taken
  split at taken
  case isFalse => cases taken
  case isTrue mayStop =>
    cases taken
    have stopCalls : ∀ call ∈ (system.processes index).mServices.keys.map
        fun component => ProcessCall.stopService component none,
        ∃ component, call = .stopService component none := by
      intro call member
      rcases List.mem_map.mp member with ⟨component, _, rfl⟩
      exact ⟨component, rfl⟩
    have fits := agrees.fits index
    refine agrees.setProcess rfl rfl ⟨?_, ?_, ?_, fun _ => mayStop.1⟩ agrees.succeeds
    · intro call member
      rcases List.mem_append.mp member with before | isStop
      · exact fits.proper call before
      · rcases stopCalls call isStop with ⟨component, rfl⟩
        intro _ _ same
        cases same
    · intro runs
      rcases fits.leads runs with ⟨after, turns, serves⟩
      have notAfter : after = false := eq_false_of_ne_true fun isAfter =>
        agrees.not_serves mayStop.1 component (serves_home.mpr (serves.mp isAfter))
      refine ⟨after, turns.append ?_, serves⟩
      rw [notAfter]
      refine .of_offs fun call isStop => ?_
      rcases stopCalls call isStop with ⟨other, rfl⟩
      by_cases same : other = component
      · rw [same]
        exact .inr (ProcessCall.stopService_switch component none)
      · exact .inl (ProcessCall.stopService_other same none)
    · intro quits
      have before := (fits.quits quits).1
      rw [mayStop.2] at before
      cases before

theorem Agrees.quit (agrees : system.Agrees component)
    (taken : system.quit index = some next) : next.Agrees component := by
  rw [ServiceSystem.quit] at taken
  split at taken
  case isFalse => cases taken
  case isTrue mayQuit =>
    cases taken
    exact agrees.setProcess rfl rfl ⟨fun _ member => absurd member List.not_mem_nil,
      fun isRunning => Bool.noConfusion isRunning, fun _ => ⟨mayQuit.1, rfl⟩,
      (agrees.fits index).stops⟩ agrees.succeeds

theorem use_eq (system : ServiceSystem) (index : Nat) (other : ComponentName)
    (event : ServiceEvent) :
    ∃ events, system.use index other event = { system with events := events } := by
  rw [use]
  split
  · exact ⟨_, rfl⟩
  · exact ⟨_, rfl⟩

/-- The services of a process after a call. -/
def after (made : Nat) (found : Bool) (services : AList fun _ : ComponentName => Nat) :
    ProcessCall → AList fun _ : ComponentName => Nat
  | .createService component _ => if found then services.insert component made else services
  | .stopService component _ => services.erase component
  | _ => services

/-- The result of a call. -/
def sent (found : Bool) (services : AList fun _ : ComponentName => Nat) :
    ProcessCall → List (ServiceCallback × Bool)
  | .createService _ callback => [(callback, found)]
  | .startService component _ callback => [(callback, (services.lookup component).isSome)]
  | .stopService component (some callback) => [(callback, (services.lookup component).isSome)]
  | _ => []

variable {found : Bool} {call : ProcessCall}

/-- A call changes the services of its process only. -/
theorem onTransact_eq : ∃ made events, system.onTransact index found call =
    { system with
      processes := Function.update system.processes index
        { system.processes index with
          mServices := after system.made found (system.servicesOf index) call }
      results := system.results ++ sent found (system.servicesOf index) call
      made := made
      events := events } := by
  have same : Function.update system.processes index
      { system.processes index with mServices := system.servicesOf index } = system.processes :=
    Function.update_eq_self index system.processes
  cases call with
  | createService other callback =>
      cases found with
      | true => exact ⟨_, _, rfl⟩
      | false =>
          refine ⟨system.made, system.events, ?_⟩
          simp only [after, same, Bool.false_eq_true, if_false]
          rfl
  | stopService other callback =>
      rcases use_eq system index other .onDestroy with ⟨events, used⟩
      refine ⟨system.made, events, ?_⟩
      cases callback with
      | none =>
          simp only [onTransact, stopService, used, sent, List.append_nil]
          rfl
      | some callback =>
          simp only [onTransact, stopService, used]
          rfl
  | startService other startId =>
      rcases use_eq system index other (.onStartCommand startId) with ⟨events, used⟩
      refine ⟨system.made, events, ?_⟩
      simp only [onTransact, startService, used, after, same]
      rfl
  | bindService other =>
      rcases use_eq system index other .onBind with ⟨events, used⟩
      refine ⟨system.made, events, ?_⟩
      simp only [onTransact, used, after, same, sent, List.append_nil]
  | unbindService other =>
      rcases use_eq system index other .onUnbind with ⟨events, used⟩
      refine ⟨system.made, events, ?_⟩
      simp only [onTransact, used, after, same, sent, List.append_nil]

/-- A failure is sent only where no instance has been found. -/
theorem sent_failed {services : AList fun _ : ComponentName => Nat} (proper : call.Proper)
    {record : Nat} (failed : (.created component record, false) ∈ sent found services call) :
    found = false ∧ ∃ callback, call = .createService component callback := by
  cases call with
  | createService other callback =>
      rcases proper with ⟨current, rfl⟩
      cases List.mem_singleton.mp failed
      exact ⟨rfl, _, rfl⟩
  | stopService other callback =>
      cases callback with
      | none => cases failed
      | some callback =>
          have same := congrArg Prod.fst (List.mem_singleton.mp failed)
          exact absurd (congrArg some same).symm (proper component record)
  | startService other startId callback =>
      exact absurd (congrArg Prod.fst (List.mem_singleton.mp failed)).symm (proper component record)
  | bindService other => cases failed
  | unbindService other => cases failed

/-- The other calls lead from what a process has after a call. -/
theorem turns_after {services : AList fun _ : ComponentName => Nat} {calls : List ProcessCall}
    {last : Bool} (made : Nat)
    (finds : ∀ callback, call = .createService component callback → found = true)
    (turns : Turns (ProcessCall.switch component) (services.lookup component).isSome
      (call :: calls) last) :
    Turns (ProcessCall.switch component) ((after made found services call).lookup component).isSome
      calls last := by
  cases call with
  | createService other callback =>
      by_cases same : other = component
      · rw [same] at finds turns ⊢
        rw [Turns.cons_on (ProcessCall.createService_switch _ _)] at turns
        rw [after, if_pos (finds callback rfl), AList.lookup_insert]
        exact turns.2
      · rw [Turns.cons_none (ProcessCall.createService_other same _)] at turns
        rw [after]
        split
        · rw [AList.lookup_insert_ne (Ne.symm same)]
          exact turns
        · exact turns
  | stopService other callback =>
      by_cases same : other = component
      · rw [same] at turns ⊢
        rw [Turns.cons_off (ProcessCall.stopService_switch _ _)] at turns
        rw [after, AList.lookup_erase]
        exact turns
      · rw [Turns.cons_none (ProcessCall.stopService_other same _)] at turns
        rw [after, AList.lookup_erase_ne (Ne.symm same)]
        exact turns
  | _ => exact (Turns.cons_none rfl).mp turns

theorem Agrees.execute (agrees : system.Agrees component)
    (finds : system.Finds component (.execute index found))
    (taken : system.execute index found = some next) : next.Agrees component := by
  rw [ServiceSystem.execute] at taken
  split at taken
  · cases taken
  case h_2 call calls isNext =>
    cases taken
    have fits := agrees.fits index
    have found_of_creates : ∀ callback, call = .createService component callback →
        found = true := by
      rintro callback rfl
      refine eq_true_of_ne_false fun notFound => ?_
      exact finds index (notFound ▸ rfl) ⟨callback, calls, isNext⟩
    rcases @onTransact_eq (system.setProcess index
      { system.processes index with calls := calls }) index found call with ⟨made, events, executed⟩
    rw [servicesOf, setProcess_self] at executed
    rw [executed]
    refine agrees.setProcess rfl (Function.update_idem _ _ _)
      ⟨?_, fun runs => ?_, fun quits => ?_, fits.stops⟩ fun record failed => ?_
    · intro other member
      exact fits.proper other (isNext ▸ List.mem_cons_of_mem _ member)
    · rcases fits.leads runs with ⟨last, turns, serves⟩
      rw [isNext] at turns
      exact ⟨last, turns_after system.made found_of_creates turns, serves⟩
    · exact Bool.noConfusion ((agrees.running isNext).symm.trans quits)
    · rcases List.mem_append.mp failed with before | sent
      · exact agrees.succeeds record before
      · rcases sent_failed (fits.proper call (isNext ▸ List.mem_cons_self)) sent with
          ⟨notFound, callback, creates⟩
        exact Bool.noConfusion (notFound.symm.trans (found_of_creates callback creates))

end Execution

/-! ## Runs -/

theorem Agrees.step (agrees : system.Agrees component) {next : ServiceSystem}
    {action : SystemAction} (finds : system.Finds component action)
    (taken : system.step action = some next) : next.Agrees component := by
  cases action with
  | request action =>
      rcases step_request taken with ⟨isRequest, manager, executed, rfl⟩
      exact agrees.sendAll
        (ServiceManager.step_requests agrees.inv agrees.alive isRequest executed)
        (ServiceManager.step_inv agrees.inv executed)
        (ServiceManager.step_alive agrees.alive executed)
        fun index stopped => (stable_stopped index).step stopped executed
  | result =>
      rw [ServiceSystem.step] at taken
      split at taken
      · cases taken
      case h_2 callback result results isNext =>
        cases taken
        exact agrees.onResult isNext
  | execute index found => exact agrees.execute finds taken
  | stop index => exact agrees.stop taken
  | quit index => exact agrees.quit taken

/-- In every run in which the class of the component is found, no process replaces its service by
another one, and a process that has executed the calls for it has it if and only if the manager
has recorded it there. -/
theorem reachable_settles (component : ComponentName) {system : ServiceSystem}
    (reachable : Reachable (fun system => system = initial)
      (fun system next => ∃ action, system.step action = some next ∧ system.Finds component action)
      system) : system.Settles component := by
  have agrees : system.Agrees component := by
    induction reachable with
    | initial isInitial =>
        rw [isInitial]
        exact initial_agrees
    | step _ taken agrees =>
        rcases taken with ⟨action, taken, finds⟩
        exact agrees.step finds taken
  exact agrees.settles

theorem finds_of_ne {action : SystemAction} (isOther : ∀ index, action ≠ .execute index false) :
    system.Finds component action :=
  fun index same => absurd same (isOther index)

/-- A service is created and is going to be stopped, while another one cannot be created. -/
def stopping : List SystemAction :=
  [.request (.startService ⟨⟨[112], [97]⟩, false, none, none⟩ (some ⟨[97], [112], [112]⟩)),
    .execute 0 true,
    .request (.startService ⟨⟨[112], [98]⟩, false, none, none⟩ (some ⟨[98], [112], [113]⟩)),
    .execute 1 false,
    .request (.stopService ⟨⟨[112], [97]⟩, false, none, none⟩)]

theorem stopped_settles :
    ∃ system, runAll step initial stopping = some system ∧
      system.Settles ⟨[112], [97]⟩ ∧ system.instances.Holds 0 ⟨[112], [97]⟩ 0 ∧
        system.manager.mServices ⟨[112], [97]⟩ = none := by
  have ran : ∃ system, runAll step initial stopping = some system ∧
      system.instances.Holds 0 ⟨[112], [97]⟩ 0 ∧
        system.manager.mServices ⟨[112], [97]⟩ = none := ⟨_, rfl, rfl, rfl⟩
  rcases ran with ⟨system, ran, holds, unserved⟩
  have meets : Meets step (Finds ⟨[112], [97]⟩) initial stopping := by
    refine .cons (finds_of_ne fun _ same => by cases same) rfl ?_
    refine .cons (finds_of_ne fun _ same => by cases same) rfl ?_
    refine .cons (finds_of_ne fun _ same => by cases same) rfl ?_
    refine .cons (fun index same creates => ?_) rfl ?_
    · cases same
      rcases creates with ⟨callback, calls, isNext⟩
      cases isNext
    · exact .cons (finds_of_ne fun _ same => by cases same) rfl trivial
  exact ⟨system, ran, reachable_settles _ (meets.reachable (.initial rfl) ran), holds, unserved⟩

end ServiceSystem

end Mindroid
