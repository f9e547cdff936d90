import Mindroid.Os.ServiceManager

/-!
# Processes and their services

A process executes the calls of the service manager one after the other on its main thread, and
sends a result for most of them, which the manager executes as one of its own requests.  A stopped
process is asked to stop all of its services and quits after that, or when it has waited long
enough; what it has not executed then is lost.

Services are numbered as they are instantiated.  Whether the class of a service is found is left
open, and so is what its functions do.
-/

set_option autoImplicit false

namespace Mindroid

/-- A call of `IProcess`, with the callback of the manager. -/
inductive ProcessCall where
  | createService (component : ComponentName) (callback : ServiceCallback)
  | startService (component : ComponentName) (startId : Int32) (callback : ServiceCallback)
  | stopService (component : ComponentName) (callback : Option ServiceCallback)
  | bindService (component : ComponentName)
  | unbindService (component : ComponentName)

/-- A function of a service that has been called. -/
inductive ServiceEvent where
  | onCreate
  | onStartCommand (startId : Int32)
  | onBind
  | onUnbind
  | onDestroy
  deriving DecidableEq

/-- `calls` are the messages of the main thread.  `stopping` says that `stop` has been called. -/
structure Process where
  mServices : AList fun _ : ComponentName => Nat
  calls : List ProcessCall
  stopping : Bool
  quitting : Bool

/-- The manager, the processes that it has made, and the results under way to it.  `events` is
history. -/
structure ServiceSystem where
  manager : ServiceManager
  processes : Nat → Process
  results : List (ServiceCallback × Bool)
  made : Nat
  events : Nat → List ServiceEvent

namespace ServiceManager

variable (manager : ServiceManager)

/-- The process of a service record. -/
def processFor (record : Nat) : Nat :=
  (manager.processRecords (manager.serviceRecords record).processRecord).process

/-- The call that `prepareService` makes, unless the service is alive. -/
def prepareCalls (intent : Intent) (resolved : Option ServiceInfo) : List (Nat × ProcessCall) :=
  match manager.prepareService intent resolved with
  | (none, _) => []
  | (some record, next) =>
      let create := (next.processFor record,
        ProcessCall.createService intent.component (.created intent.component record))
      match manager.mServices intent.component with
      | none => [create]
      | some record => if (manager.serviceRecords record).alive then [] else [create]

/-- The calls of `ServiceManager::startService`. -/
def startCalls (intent : Intent) (resolved : Option ServiceInfo) : List (Nat × ProcessCall) :=
  match manager.prepareService intent resolved with
  | (none, _) => []
  | (some record, next) =>
      let service := next.serviceRecords record
      let callback := ServiceCallback.started intent.component service.name
        (next.processRecords service.processRecord).name
      manager.prepareCalls intent resolved ++
        [(next.processFor record, .startService intent.component next.mStartId callback)]

def stopCalls (intent : Intent) : List (Nat × ProcessCall) :=
  match manager.mServices intent.component with
  | none => []
  | some record =>
      let service := manager.serviceRecords record
      if service.alive = false then
        []
      else if service.serviceConnections.length ≠ 0 then
        []
      else
        [(manager.processFor record, .stopService intent.component (some (.stopped service.name)))]

def bindCalls (intent : Intent) (conn : Nat) (resolved : Option ServiceInfo) :
    List (Nat × ProcessCall) :=
  match manager.prepareService { intent with systemService := false } resolved with
  | (none, _) => []
  | (some record, next) =>
      manager.prepareCalls { intent with systemService := false } resolved ++
        (if conn ∈ (next.serviceRecords record).serviceConnections then []
        else [(next.processFor record, .bindService intent.component)])

def unbindCalls (intent : Intent) : List (Nat × ProcessCall) :=
  match manager.mServices intent.component with
  | none => []
  | some record => [(manager.processFor record, .unbindService intent.component)]

/-- The calls that a request makes.  A result makes none. -/
def calls : ServiceAction → List (Nat × ProcessCall)
  | .startService intent resolved =>
      manager.startCalls { intent with systemService := false } resolved
  | .stopService intent => manager.stopCalls intent
  | .bindService intent conn resolved => manager.bindCalls intent conn resolved
  | .unbindService intent _ => manager.unbindCalls intent
  | .startSystemService intent =>
      manager.startCalls
        { component := intent.component
          systemService := true
          name := some (intent.name.getD (String.cStr intent.component.mClass))
          process := some (intent.process.getD (String.cStr intent.component.mPackage)) }
        none
  | .stopSystemService intent => manager.stopCalls intent
  | .stopPosted =>
      match manager.posted with
      | [] => []
      | intent :: _ => manager.stopCalls intent
  | .onResult _ _ => []

end ServiceManager

namespace Process

def initial : Process where
  mServices := ∅
  calls := []
  stopping := false
  quitting := false

/-- A message for a process that has quit is lost. -/
def send (process : Process) (call : ProcessCall) : Process :=
  if process.quitting then process else { process with calls := process.calls ++ [call] }

end Process

inductive SystemAction where
  /-- The manager executes a request. -/
  | request (action : ServiceAction)
  /-- The manager executes the first result. -/
  | result
  /-- A process executes its first call; for `createService`, whether there is an instance. -/
  | execute (process : Nat) (found : Bool)
  /-- `Process::stop` starts. -/
  | stop (process : Nat)
  /-- `Process::stop` has waited. -/
  | quit (process : Nat)

namespace ServiceSystem

variable (system : ServiceSystem)

def setProcess (index : Nat) (process : Process) : ServiceSystem :=
  { system with processes := Function.update system.processes index process }

def sendAll (calls : List (Nat × ProcessCall)) : ServiceSystem :=
  calls.foldl (fun system call =>
    system.setProcess call.1 ((system.processes call.1).send call.2)) system

/-- `callback->sendResult(result)`. -/
def sendResult (callback : ServiceCallback) (result : Bool) : ServiceSystem :=
  { system with results := system.results ++ [(callback, result)] }

def record (service : Nat) (event : ServiceEvent) : ServiceSystem :=
  { system with
    events := Function.update system.events service (system.events service ++ [event]) }

/-- A new service is created. -/
def instantiate : ServiceSystem :=
  { system with
    made := system.made + 1
    events := Function.update system.events system.made [.onCreate] }

/-- `ProcessImpl::createService`, where the process has no calls but the later ones. -/
def createService (index : Nat) (component : ComponentName) (callback : ServiceCallback)
    (found : Bool) : ServiceSystem :=
  let process := system.processes index
  if found then
    ((system.setProcess index
      { process with mServices := process.mServices.insert component system.made }).instantiate).sendResult
        callback true
  else
    system.sendResult callback false

/-- A function of the service is called, if there is one for the component. -/
def use (index : Nat) (component : ComponentName) (event : ServiceEvent) : ServiceSystem :=
  match (system.processes index).mServices.lookup component with
  | some service => system.record service event
  | none => system

def startService (index : Nat) (component : ComponentName) (startId : Int32)
    (callback : ServiceCallback) : ServiceSystem :=
  (system.use index component (.onStartCommand startId)).sendResult callback
    ((system.processes index).mServices.lookup component).isSome

def stopService (index : Nat) (component : ComponentName) (callback : Option ServiceCallback) :
    ServiceSystem :=
  let process := system.processes index
  let stopped :=
    (system.use index component .onDestroy).setProcess index
      { process with mServices := process.mServices.erase component }
  match callback with
  | some callback => stopped.sendResult callback (process.mServices.lookup component).isSome
  | none => stopped

/-- `ProcessImpl` executes a call. -/
def onTransact (index : Nat) (found : Bool) : ProcessCall → ServiceSystem
  | .createService component callback => system.createService index component callback found
  | .startService component startId callback =>
      system.startService index component startId callback
  | .stopService component callback => system.stopService index component callback
  | .bindService component => system.use index component .onBind
  | .unbindService component => system.use index component .onUnbind

def execute (index : Nat) (found : Bool) : Option ServiceSystem :=
  let process := system.processes index
  match process.calls with
  | [] => none
  | call :: calls =>
      some ((system.setProcess index { process with calls := calls }).onTransact index found call)

/-- `Process::stop`, which `stopProcess` has posted, up to its waiting. -/
def stop (index : Nat) : Option ServiceSystem :=
  let process := system.processes index
  if system.manager.mProcessManager.stopped index = true ∧ process.stopping = false then
    some (system.setProcess index
      { process with
        stopping := true
        calls := process.calls ++
          process.mServices.keys.map fun component => .stopService component none })
  else
    none

/-- `mMainThread->quit()`. -/
def quit (index : Nat) : Option ServiceSystem :=
  let process := system.processes index
  if process.stopping = true ∧ process.quitting = false then
    some (system.setProcess index { process with quitting := true, calls := [] })
  else
    none

def step : SystemAction → Option ServiceSystem
  | .request (.onResult _ _) => none
  | .request action =>
      match system.manager.step action with
      | none => none
      | some manager => some ({ system with manager := manager }.sendAll (system.manager.calls action))
  | .result =>
      match system.results with
      | [] => none
      | (callback, result) :: results =>
          some { system with manager := system.manager.onResult callback result, results := results }
  | .execute index found => system.execute index found
  | .stop index => system.stop index
  | .quit index => system.quit index

def initial : ServiceSystem where
  manager := ServiceManager.initial
  processes := fun _ => Process.initial
  results := []
  made := 0
  events := fun _ => []

end ServiceSystem

end Mindroid
