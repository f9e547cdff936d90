import Mindroid.Foundation.Switches
import Mindroid.Os.Process
import Mindroid.Os.ServiceBindings
import Mindroid.Os.ServiceProcesses

/-!
# The calls of the service manager

A request enters a service and has it created, drops one and has it stopped, or leaves the table
of services as it is and calls nothing that creates or stops a service.
-/

set_option autoImplicit false

namespace Mindroid

open Foundation

/-- Whether a call creates or stops the service of the component. -/
def ProcessCall.switch (component : ComponentName) : ProcessCall → Option Bool
  | .createService other _ => if other = component then some true else none
  | .stopService other _ => if other = component then some false else none
  | _ => none

theorem ProcessCall.createService_switch (component : ComponentName) (callback : ServiceCallback) :
    (ProcessCall.createService component callback).switch component = some true :=
  if_pos rfl

theorem ProcessCall.createService_other {component other : ComponentName}
    (apart : other ≠ component) (callback : ServiceCallback) :
    (ProcessCall.createService other callback).switch component = none :=
  if_neg apart

theorem ProcessCall.stopService_switch (component : ComponentName)
    (callback : Option ServiceCallback) :
    (ProcessCall.stopService component callback).switch component = some false :=
  if_pos rfl

theorem ProcessCall.stopService_other {component other : ComponentName} (apart : other ≠ component)
    (callback : Option ServiceCallback) :
    (ProcessCall.stopService other callback).switch component = none :=
  if_neg apart

/-- The callback of a call is of the kind of the call. -/
def ProcessCall.Proper : ProcessCall → Prop
  | .createService component callback => ∃ record, callback = .created component record
  | .startService _ _ callback => ∀ component record, callback ≠ .created component record
  | .stopService _ callback => ∀ component record, callback ≠ some (.created component record)
  | _ => True

/-- A call that neither creates nor stops a service. -/
structure ProcessCall.Neutral (call : ProcessCall) : Prop where
  switch : ∀ component, call.switch component = none
  proper : call.Proper

theorem ProcessCall.startService_neutral (component other : ComponentName) (startId : Int32)
    (serviceName processName : List UInt8) :
    (ProcessCall.startService component startId
      (.started other serviceName processName)).Neutral where
  switch := fun _ => rfl
  proper := fun _ _ same => by cases same

theorem ProcessCall.bindService_neutral (component : ComponentName) :
    (ProcessCall.bindService component).Neutral where
  switch := fun _ => rfl
  proper := trivial

theorem ProcessCall.unbindService_neutral (component : ComponentName) :
    (ProcessCall.unbindService component).Neutral where
  switch := fun _ => rfl
  proper := trivial

namespace ServiceManager

/-- The process in which the manager has recorded the service of a component. -/
def home (manager : ServiceManager) (component : ComponentName) : Option Nat :=
  (manager.mServices component).map manager.processFor

variable {manager : ServiceManager}

theorem serves_home {index : Nat} {component : ComponentName} :
    manager.Serves index component ↔ manager.home component = some index :=
  Option.map_eq_some_iff.symm

/-- What a request does to the recorded processes, with the calls it makes. -/
inductive Requests (manager next : ServiceManager) (calls : List (Nat × ProcessCall)) : Prop where
  | same (homes : next.home = manager.home) (neutral : ∀ call ∈ calls, call.2.Neutral)
  | creates (component : ComponentName) (record index : Nat) (later : List (Nat × ProcessCall))
      (absent : manager.home component = none)
      (homes : next.home = Function.update manager.home component (some index))
      (calls_eq : calls = (index, .createService component (.created component record)) :: later)
      (neutral : ∀ call ∈ later, call.2.Neutral)
  | stops (component : ComponentName) (name : List UInt8) (index : Nat)
      (served : manager.home component = some index)
      (homes : next.home = Function.update manager.home component none)
      (calls_eq : calls = [(index, .stopService component (some (.stopped name)))])

theorem SameTables.processFor {next : ServiceManager} (same : SameTables manager next)
    (record : Nat) : next.processFor record = manager.processFor record := by
  rw [ServiceManager.processFor, ServiceManager.processFor, same.processRecords]
  exact congrArg (fun index => (manager.processRecords index).process) (same.processRecordOf record)

theorem SameTables.home {next : ServiceManager} (same : SameTables manager next) :
    next.home = manager.home := by
  funext component
  rw [ServiceManager.home, ServiceManager.home, same.services, funext same.processFor]

/-- One entry of the table changes, and the other services have the same processes. -/
theorem home_update {next : ServiceManager} {component : ComponentName} {entry : Option Nat}
    (services : next.mServices = Function.update manager.mServices component entry)
    (process : ∀ other record, manager.mServices other = some record →
      next.processFor record = manager.processFor record) :
    next.home = Function.update manager.home component (entry.map next.processFor) := by
  funext other
  by_cases same : other = component
  · rw [same, Function.update_self, home, services, Function.update_self]
  · rw [Function.update_of_ne same, home, home, services, Function.update_of_ne same]
    exact Option.map_congr fun record served => process other record served

/-! ## Preparing a service -/

theorem prepareProcess_processFor (inv : manager.Inv none) (name : List UInt8)
    {component : ComponentName} {record : Nat}
    (served : manager.mServices component = some record) :
    (manager.prepareProcess name).2.processFor record = manager.processFor record := by
  cases entered : manager.mProcesses name with
  | some processRecord => rw [prepareProcess_of_some entered]
  | none =>
      have notManaged : manager.mProcessManager.mProcesses name = none := by
        rw [inv.managed, entered]
        rfl
      have makes := prepareProcess_makes entered notManaged
      have known := (inv.named _ _ (inv.service component record served).1).1
      rw [processFor, processFor, makes.serviceRecords]
      exact congrArg ProcessRecord.process (makes.oldRecord _ (Nat.ne_of_lt known))

/-- A new record is entered. -/
theorem newService_home (inv : manager.Inv none) {intent : Intent}
    (absent : manager.mServices intent.component = none) (info : ServiceInfo) :
    (manager.newService intent info).home = Function.update manager.home intent.component
      (some ((manager.newService intent info).processFor manager.serviceRecordsMade)) := by
  have prepares := prepareProcess_prepares inv info.processName
  have stillAbsent : (manager.prepareProcess info.processName).2.mServices intent.component =
      none := by
    rw [prepares.services]
    exact absent
  have adds : AddsService (manager.prepareProcess info.processName).2
      (manager.newService intent info) intent.component
      (manager.prepareProcess info.processName).1 :=
    newService_adds rfl (prepares.inv.not_listed prepares.entered stillAbsent)
  have services := adds.services
  rw [prepares.services, prepares.serviceRecordsMade] at services
  have process : ∀ component record, manager.mServices component = some record →
      (manager.newService intent info).processFor record = manager.processFor record := by
    intro component record served
    have known := inv.recordMade component record served
    rw [← prepares.serviceRecordsMade] at known
    have sameRecord := adds.oldRecord record (Nat.ne_of_lt known)
    calc (manager.newService intent info).processFor record
        = (manager.newService intent info).processOf
            ((manager.newService intent info).processRecordOf record) := rfl
      _ = (manager.prepareProcess info.processName).2.processFor record := by
          rw [adds.processOf, sameRecord]
          rfl
      _ = manager.processFor record := prepareProcess_processFor inv _ served
  have homes := home_update services process
  exact homes

/-- What the callers of `prepareService` do with the service is not seen in the tables. -/
theorem prepareService_requests (inv : manager.Inv none) (alive : manager.Alive)
    {intent : Intent} {resolved : Option ServiceInfo} {record : Nat}
    {prepared next : ServiceManager} {later : List (Nat × ProcessCall)}
    (prepares : manager.prepareService intent resolved = (some record, prepared))
    (touches : Touches prepared next) (neutral : ∀ call ∈ later, call.2.Neutral) :
    Requests manager next (manager.prepareCalls intent resolved ++ later) := by
  have outcome := prepares
  rw [prepareService] at prepares
  split at prepares
  · cases prepares
  case h_2 info _ =>
    split at prepares
    case h_1 served =>
      cases prepares
      have noCalls : manager.prepareCalls intent resolved = [] := by
        simp only [prepareCalls, outcome, served, alive.alive _ record served, if_true]
      rw [noCalls, List.nil_append]
      exact .same (touches.sameTables.home.trans (createService_same _ _).home) neutral
    case h_2 absent =>
      cases prepares
      have same : SameTables (manager.newService intent info) _ :=
        createService_same intent.component manager.serviceRecordsMade
      refine .creates intent.component manager.serviceRecordsMade _ later
        (by rw [home, absent]; rfl)
        (touches.sameTables.home.trans (same.home.trans (newService_home inv absent info)))
        ?_ neutral
      simp only [prepareCalls, outcome, absent, same.processFor, List.singleton_append]

/-- No service is prepared. -/
theorem prepareService_none {intent : Intent} {resolved : Option ServiceInfo}
    {prepared : ServiceManager}
    (prepares : manager.prepareService intent resolved = (none, prepared)) :
    prepared = manager := by
  rw [prepareService] at prepares
  split at prepares
  · cases prepares
    rfl
  · split at prepares
    · cases prepares
    · cases prepares

/-! ## Requests -/

theorem startCalls_requests (inv : manager.Inv none) (alive : manager.Alive) (intent : Intent)
    (resolved : Option ServiceInfo) :
    Requests manager (manager.startPrepared intent resolved)
      (manager.startCalls intent resolved) := by
  rw [startPrepared, startCalls]
  cases prepares : manager.prepareService intent resolved with
  | mk found prepared =>
      cases found with
      | none =>
          cases prepareService_none prepares
          exact .same rfl fun call member => absurd member List.not_mem_nil
      | some record =>
          refine prepareService_requests inv alive prepares
            (touches_update _ _ rfl rfl fun component other created => ?_) fun call member => ?_
          · exact created_of_append (fun same => by cases same) created
          · cases List.mem_singleton.mp member
            exact ProcessCall.startService_neutral _ _ _ _ _

theorem bindCalls_requests (inv : manager.Inv none) (alive : manager.Alive) (intent : Intent)
    (conn : Nat) (resolved : Option ServiceInfo) :
    Requests manager (manager.bindService intent conn resolved).2
      (manager.bindCalls intent conn resolved) := by
  rw [bindService, bindCalls]
  cases prepares : manager.prepareService { intent with systemService := false } resolved with
  | mk found prepared =>
      cases found with
      | none =>
          cases prepareService_none prepares
          exact .same rfl fun call member => absurd member List.not_mem_nil
      | some record =>
          dsimp only
          split
          · refine prepareService_requests inv alive prepares
              (touches_requests prepared.posted fun _ _ created => created) fun call member => ?_
            exact absurd member List.not_mem_nil
          · refine prepareService_requests inv alive prepares
              (touches_update _ _ rfl rfl fun _ _ created => created) fun call member => ?_
            cases List.mem_singleton.mp member
            exact ProcessCall.bindService_neutral _

/-- A service that goes. -/
theorem dropService_home (component : ComponentName) (record : Nat) :
    (manager.dropService component record).home = Function.update manager.home component none := by
  have drops := manager.unlistService_drops component record
  have process : ∀ other, (manager.unlistService component record).processFor other =
      manager.processFor other := by
    intro other
    calc (manager.unlistService component record).processFor other
        = (manager.unlistService component record).processOf
            ((manager.unlistService component record).processRecordOf other) := rfl
      _ = manager.processFor other := by
          rw [drops.processOf, drops.recordOf]
          rfl
  rw [dropService]
  split
  · exact home_update rfl fun _ other _ => process other
  · exact home_update rfl fun _ other _ => process other

theorem stopCalls_requests (manager : ServiceManager) (intent : Intent) (posted : List Intent) :
    Requests manager ({ manager with posted := posted }.stopService intent).2
      (manager.stopCalls intent) := by
  rw [stopService, stopCalls]
  cases served : manager.mServices intent.component with
  | none => exact .same rfl fun call member => absurd member List.not_mem_nil
  | some record =>
      dsimp only
      split
      · exact .same rfl fun call member => absurd member List.not_mem_nil
      · split
        · exact .same rfl fun call member => absurd member List.not_mem_nil
        · refine .stops intent.component _ _ (by rw [home, served]; rfl) ?_ rfl
          exact dropService_home intent.component record

theorem unbindCalls_requests (intent : Intent) (conn : Nat) :
    Requests manager (manager.unbindService intent conn) (manager.unbindCalls intent) := by
  rw [unbindService, unbindCalls]
  cases served : manager.mServices intent.component with
  | none => exact .same rfl fun call member => absurd member List.not_mem_nil
  | some record =>
      have neutral : ∀ call ∈ [(manager.processFor record,
          ProcessCall.unbindService intent.component)], call.2.Neutral := by
        intro call member
        cases List.mem_singleton.mp member
        exact ProcessCall.unbindService_neutral _
      dsimp only
      split
      · refine .same (Touches.sameTables ?_).home neutral
        exact touches_update _ _ rfl rfl fun _ _ created => created
      · refine .same (Touches.sameTables ?_).home neutral
        exact touches_update _ _ rfl rfl fun _ _ created => created

/-- What a step does, unless it executes a result. -/
theorem step_requests {next : ServiceManager} {action : ServiceAction} (inv : manager.Inv none)
    (alive : manager.Alive) (isRequest : ∀ callback result, action ≠ .onResult callback result)
    (taken : manager.step action = some next) :
    Requests manager next (manager.calls action) := by
  cases action with
  | startService intent resolved =>
      cases taken
      exact startCalls_requests inv alive _ resolved
  | stopService intent =>
      cases taken
      exact stopCalls_requests manager intent manager.posted
  | bindService intent conn resolved =>
      cases taken
      exact bindCalls_requests inv alive intent conn resolved
  | unbindService intent conn =>
      cases taken
      exact unbindCalls_requests intent conn
  | startSystemService intent =>
      cases taken
      exact startCalls_requests inv alive _ _
  | stopSystemService intent =>
      cases taken
      exact stopCalls_requests manager { intent with systemService := true } manager.posted
  | stopPosted =>
      rw [ServiceManager.step] at taken
      split at taken
      case h_1 => cases taken
      case h_2 intent rest isPosted =>
        cases taken
        have stops : manager.calls .stopPosted = manager.stopCalls intent := by
          simp only [calls, isPosted]
        rw [stops]
        exact stopCalls_requests manager intent rest
  | onResult callback result => exact absurd rfl (isRequest callback result)

/-! ## The calls for one process -/

/-- The calls for a process. -/
def callsFor (index : Nat) (calls : List (Nat × ProcessCall)) : List ProcessCall :=
  (calls.filter fun call => call.1 = index).map Prod.snd

variable {index : Nat} {component : ComponentName}

theorem callsFor_cons (call : Nat × ProcessCall) (calls : List (Nat × ProcessCall)) :
    callsFor index (call :: calls) =
      if call.1 = index then call.2 :: callsFor index calls else callsFor index calls := by
  rw [callsFor, List.filter_cons]
  split
  case isTrue same =>
    rw [if_pos (of_decide_eq_true same)]
    rfl
  case isFalse apart =>
    rw [if_neg (of_decide_eq_false (eq_false_of_ne_true apart))]
    rfl

theorem mem_callsFor {calls : List (Nat × ProcessCall)} {call : ProcessCall}
    (member : call ∈ callsFor index calls) : (index, call) ∈ calls := by
  rw [callsFor, List.mem_map] at member
  rcases member with ⟨⟨other, _⟩, found, rfl⟩
  rw [List.mem_filter] at found
  rw [← of_decide_eq_true found.2]
  exact found.1

theorem switch_of_neutral {calls : List (Nat × ProcessCall)}
    (neutral : ∀ call ∈ calls, call.2.Neutral) :
    ∀ call ∈ callsFor index calls, call.switch component = none :=
  fun _ member => (neutral _ (mem_callsFor member)).switch component

namespace Requests

variable {next : ServiceManager} {calls : List (Nat × ProcessCall)}

theorem proper (requests : Requests manager next calls) : ∀ call ∈ calls, call.2.Proper := by
  cases requests with
  | same _ neutral => exact fun call member => (neutral call member).proper
  | creates component record _ later _ _ calls_eq neutral =>
      rw [calls_eq]
      exact List.forall_mem_cons.mpr
        ⟨⟨record, rfl⟩, fun call member => (neutral call member).proper⟩
  | stops _ _ _ _ _ calls_eq =>
      rw [calls_eq]
      exact List.forall_mem_singleton.mpr fun _ _ same => by cases same

/-- The calls lead from what the manager had recorded for a process to what it has now. -/
theorem leads (requests : Requests manager next calls) {before : Bool}
    (served : before = true ↔ manager.home component = some index) :
    ∃ after, Turns (ProcessCall.switch component) before (callsFor index calls) after ∧
      (after = true ↔ next.home component = some index) := by
  cases requests with
  | same homes neutral => exact ⟨before, .of_quiet (switch_of_neutral neutral), homes ▸ served⟩
  | creates other record target later absent homes calls_eq neutral =>
      have quiet : ∀ turned, Turns (ProcessCall.switch component) turned (callsFor index later) turned :=
        fun _ => .of_quiet (switch_of_neutral neutral)
      rw [calls_eq, callsFor_cons, homes]
      by_cases isComponent : other = component
      · rw [isComponent] at absent ⊢
        rw [absent] at served
        have notBefore : before = false := eq_false_of_ne_true fun isBefore => nomatch served.mp isBefore
        rw [Function.update_self]
        by_cases isIndex : target = index
        · rw [if_pos isIndex, isIndex]
          exact ⟨true, (Turns.cons_on (ProcessCall.createService_switch _ _)).mpr
            ⟨notBefore, quiet true⟩, iff_of_true rfl rfl⟩
        · rw [if_neg isIndex]
          refine ⟨before, quiet before, iff_of_false (by rw [notBefore]; nofun) fun same => ?_⟩
          exact isIndex (Option.some.inj same)
      · rw [Function.update_of_ne (Ne.symm isComponent)]
        refine ⟨before, ?_, served⟩
        split
        · exact (Turns.cons_none (ProcessCall.createService_other isComponent _)).mpr (quiet before)
        · exact quiet before
  | stops other name target wasServed homes calls_eq =>
      rw [calls_eq, callsFor_cons, homes]
      by_cases isComponent : other = component
      · rw [isComponent] at wasServed ⊢
        rw [wasServed] at served
        rw [Function.update_self]
        by_cases isIndex : target = index
        · rw [if_pos isIndex]
          exact ⟨false, (Turns.cons_off (ProcessCall.stopService_switch _ _)).mpr rfl,
            iff_of_false nofun nofun⟩
        · rw [if_neg isIndex]
          refine ⟨before, rfl, iff_of_false (fun isBefore => ?_) nofun⟩
          exact isIndex (Option.some.inj (served.mp isBefore))
      · rw [Function.update_of_ne (Ne.symm isComponent)]
        refine ⟨before, ?_, served⟩
        split
        · exact (Turns.cons_none (ProcessCall.stopService_other isComponent _)).mpr rfl
        · rfl

end Requests

end ServiceManager

end Mindroid
