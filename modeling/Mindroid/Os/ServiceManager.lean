import Mathlib.Data.List.AList
import Mathlib.Logic.Function.Basic
import Mindroid.Lang.String

/-!
# The service manager

The manager keeps a record of each service and of each process.  A process runs as long as it
has services.  Records and processes are objects, which are numbered as they are made; what a
process does with the calls it gets is left open.
-/

set_option autoImplicit false

namespace Mindroid

structure ComponentName where
  mPackage : List UInt8
  mClass : List UInt8
  deriving DecidableEq

/-- The fields of a `ServiceInfo` that the manager reads. -/
structure ServiceInfo where
  name : List UInt8
  packageName : List UInt8
  processName : List UInt8

/-- An intent that names a service, with the extras that the manager reads. -/
structure Intent where
  component : ComponentName
  systemService : Bool
  name : Option (List UInt8)
  process : Option (List UInt8)

structure ProcessRecord where
  name : List UInt8
  process : Nat
  services : AList fun _ : ComponentName => Nat

structure ServiceRecord where
  name : List UInt8
  processRecord : Nat
  systemService : Bool
  alive : Bool
  running : Bool
  serviceConnections : List Nat

/-- A callback in `mServiceCallbacks`.  The code does not keep the record for which
`createService` was called. -/
inductive ServiceCallback where
  | created (component : ComponentName) (record : Nat)
  | started (component : ComponentName) (serviceName processName : List UInt8)
  | stopped (serviceName : List UInt8)
  deriving DecidableEq

/-- `ProcessManager`, with the processes that were made and the ones for which `stop` was
posted. -/
structure ProcessManager where
  mProcesses : List UInt8 → Option Nat
  made : Nat
  stopped : Nat → Bool

/-- `posted` are the intents for which the manager has called its own `stopService`. -/
structure ServiceManager where
  mProcesses : List UInt8 → Option Nat
  mServices : ComponentName → Option Nat
  mServiceCallbacks : List ServiceCallback
  mStartId : Int32
  mProcessManager : ProcessManager
  processRecords : Nat → ProcessRecord
  processRecordsMade : Nat
  serviceRecords : Nat → ServiceRecord
  serviceRecordsMade : Nat
  posted : List Intent

namespace ProcessManager

variable (manager : ProcessManager)

def startProcess (name : List UInt8) : Nat × ProcessManager :=
  match manager.mProcesses name with
  | some process => (process, manager)
  | none =>
      (manager.made,
        { manager with
          mProcesses := Function.update manager.mProcesses name (some manager.made)
          made := manager.made + 1 })

def stopProcess (name : List UInt8) : ProcessManager :=
  match manager.mProcesses name with
  | none => manager
  | some process =>
      { manager with
        mProcesses := Function.update manager.mProcesses name none
        stopped := Function.update manager.stopped process true }

end ProcessManager

namespace ServiceManager

variable (manager : ServiceManager)

/-- The record of a process, which `prepareProcess` makes if there is none. -/
def prepareProcess (name : List UInt8) : Nat × ServiceManager :=
  match manager.mProcesses name with
  | some record => (record, manager)
  | none =>
      let (process, processManager) := manager.mProcessManager.startProcess name
      let record := manager.processRecordsMade
      (record,
        { manager with
          mProcesses := Function.update manager.mProcesses name (some record)
          mProcessManager := processManager
          processRecords := Function.update manager.processRecords record ⟨name, process, ∅⟩
          processRecordsMade := record + 1 })

/-- The information about a service: from the extras that `startSystemService` sets, or what
`resolveService` returns. -/
def infoOf (intent : Intent) (resolved : Option ServiceInfo) : Option ServiceInfo :=
  if intent.systemService then
    intent.process.map fun processName =>
      { name := intent.component.mClass
        packageName := intent.component.mPackage
        processName := processName }
  else
    resolved

/-- The name of a new record: `%s::%s` for a service that is not a system service. -/
def nameOf (intent : Intent) (info : ServiceInfo) : List UInt8 :=
  if intent.systemService then
    intent.name.getD []
  else
    String.cStr info.packageName ++ String.valueOf "::" ++ String.cStr info.name

/-- The part of `prepareService` for a component without a record. -/
def newService (intent : Intent) (info : ServiceInfo) : ServiceManager :=
  let (processRecord, manager) := manager.prepareProcess info.processName
  let record := manager.serviceRecordsMade
  let process := manager.processRecords processRecord
  let services :=
    if intent.component ∈ process.services then process.services
    else process.services.insert intent.component record
  { manager with
    mServices := Function.update manager.mServices intent.component (some record)
    processRecords := Function.update manager.processRecords processRecord
      { process with services := services }
    serviceRecords := Function.update manager.serviceRecords record
      ⟨nameOf intent info, processRecord, intent.systemService, false, false, []⟩
    serviceRecordsMade := record + 1 }

/-- The part of `prepareService` that has a service created which is not alive. -/
def createService (component : ComponentName) (record : Nat) : ServiceManager :=
  if (manager.serviceRecords record).alive then
    manager
  else
    { manager with
      serviceRecords := Function.update manager.serviceRecords record
        { manager.serviceRecords record with alive := true }
      mServiceCallbacks := manager.mServiceCallbacks ++ [.created component record] }

/-- `prepareService`, with the record that its callers look up when it returns true. -/
def prepareService (intent : Intent) (resolved : Option ServiceInfo) :
    Option Nat × ServiceManager :=
  match infoOf intent resolved with
  | none => (none, manager)
  | some info =>
      match manager.mServices intent.component with
      | some record => (some record, manager.createService intent.component record)
      | none =>
          (some manager.serviceRecordsMade,
            (manager.newService intent info).createService intent.component
              manager.serviceRecordsMade)

/-- `ServiceManager::startService`. -/
def startPrepared (intent : Intent) (resolved : Option ServiceInfo) : ServiceManager :=
  match manager.prepareService intent resolved with
  | (none, manager) => manager
  | (some record, manager) =>
      let service := manager.serviceRecords record
      { manager with
        serviceRecords := Function.update manager.serviceRecords record
          { service with running := true }
        mServiceCallbacks := manager.mServiceCallbacks ++ [.started intent.component service.name
          (manager.processRecords service.processRecord).name]
        mStartId := manager.mStartId + 1 }

def startService (intent : Intent) (resolved : Option ServiceInfo) : ServiceManager :=
  manager.startPrepared { intent with systemService := false } resolved

/-- `startSystemService`, which sets the extras that are missing. -/
def startSystemService (intent : Intent) : ServiceManager :=
  manager.startPrepared
    { component := intent.component
      systemService := true
      name := some (intent.name.getD (String.cStr intent.component.mClass))
      process := some (intent.process.getD (String.cStr intent.component.mPackage)) }
    none

/-- The part of `stopService` and `cleanupService` that takes a service from its process. -/
def unlistService (component : ComponentName) (record : Nat) : ServiceManager :=
  let service := manager.serviceRecords record
  let process := manager.processRecords service.processRecord
  { manager with
    serviceRecords := Function.update manager.serviceRecords record
      { service with alive := false, running := false }
    mServices := Function.update manager.mServices component none
    processRecords := Function.update manager.processRecords service.processRecord
      { process with services := process.services.erase component } }

/-- The end of `stopService` and `cleanupService`: a process without services is stopped. -/
def dropService (component : ComponentName) (record : Nat) : ServiceManager :=
  let unlisted := manager.unlistService component record
  let process := unlisted.processRecords (manager.serviceRecords record).processRecord
  if process.services.entries.length = 0 then
    { unlisted with
      mProcessManager := unlisted.mProcessManager.stopProcess process.name
      mProcesses := Function.update unlisted.mProcesses process.name none }
  else
    unlisted

/-- `ServiceManagerImpl::stopService`, with the value of its promise if there is one already. -/
def stopService (intent : Intent) : Option Bool × ServiceManager :=
  match manager.mServices intent.component with
  | none => (some false, manager)
  | some record =>
      let service := manager.serviceRecords record
      if service.alive = false then
        (some false, manager)
      else if service.serviceConnections.length ≠ 0 then
        (some false, manager)
      else
        let callback := ServiceCallback.stopped service.name
        let called := { manager with mServiceCallbacks := manager.mServiceCallbacks ++ [callback] }
        (none, called.dropService intent.component record)

def cleanupService (component : ComponentName) : Bool × ServiceManager :=
  match manager.mServices component with
  | none => (false, manager)
  | some record => (true, manager.dropService component record)

def bindService (intent : Intent) (conn : Nat) (resolved : Option ServiceInfo) :
    Bool × ServiceManager :=
  match manager.prepareService { intent with systemService := false } resolved with
  | (none, manager) => (false, manager)
  | (some record, manager) =>
      let service := manager.serviceRecords record
      if conn ∈ service.serviceConnections then
        (true, manager)
      else
        (true,
          { manager with
            serviceRecords := Function.update manager.serviceRecords record
              { service with serviceConnections := service.serviceConnections ++ [conn] } })

/-- `unbindService`.  The call of `stopService` is a message to the manager itself. -/
def unbindService (intent : Intent) (conn : Nat) : ServiceManager :=
  match manager.mServices intent.component with
  | none => manager
  | some record =>
      let service := manager.serviceRecords record
      let connections := service.serviceConnections.erase conn
      let manager :=
        { manager with
          serviceRecords := Function.update manager.serviceRecords record
            { service with serviceConnections := connections } }
      if connections.length = 0 then
        { manager with posted := manager.posted ++ [intent] }
      else
        manager

/-- `onResult` of a callback. -/
def onResult (callback : ServiceCallback) (result : Bool) : ServiceManager :=
  let called :=
    match callback with
    | .created component _ => if result then manager else (manager.cleanupService component).2
    | .started _ _ _ => manager
    | .stopped _ => manager
  { called with mServiceCallbacks := called.mServiceCallbacks.erase callback }

/-- No service has been started. -/
def initial : ServiceManager where
  mProcesses := fun _ => none
  mServices := fun _ => none
  mServiceCallbacks := []
  mStartId := 0
  mProcessManager := ⟨fun _ => none, 0, fun _ => false⟩
  processRecords := fun _ => ⟨[], 0, ∅⟩
  processRecordsMade := 0
  serviceRecords := fun _ => ⟨[], 0, false, false, false, []⟩
  serviceRecordsMade := 0
  posted := []

end ServiceManager

/-- The requests and callbacks that the manager executes one at a time. -/
inductive ServiceAction where
  | startService (intent : Intent) (resolved : Option ServiceInfo)
  | stopService (intent : Intent)
  | bindService (intent : Intent) (conn : Nat) (resolved : Option ServiceInfo)
  | unbindService (intent : Intent) (conn : Nat)
  | startSystemService (intent : Intent)
  | stopSystemService (intent : Intent)
  | stopPosted
  | onResult (callback : ServiceCallback) (result : Bool)

namespace ServiceManager

variable (manager : ServiceManager)

def step : ServiceAction → Option ServiceManager
  | .startService intent resolved => some (manager.startService intent resolved)
  | .stopService intent => some (manager.stopService intent).2
  | .bindService intent conn resolved => some (manager.bindService intent conn resolved).2
  | .unbindService intent conn => some (manager.unbindService intent conn)
  | .startSystemService intent => some (manager.startSystemService intent)
  | .stopSystemService intent => some (manager.stopService { intent with systemService := true }).2
  | .stopPosted =>
      match manager.posted with
      | [] => none
      | intent :: rest => some ({ manager with posted := rest }.stopService intent).2
  | .onResult callback result =>
      if callback ∈ manager.mServiceCallbacks then
        some (manager.onResult callback result)
      else
        none

end ServiceManager

end Mindroid
