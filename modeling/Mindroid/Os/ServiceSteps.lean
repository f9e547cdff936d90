import Mindroid.Foundation.Tables
import Mindroid.Os.ServiceManager

/-!
# Steps of the service manager

Each request and each callback prepares a service, drops one, or changes what neither the tables
nor the life of a service depends on.  A property that survives these three survives every step.
-/

set_option autoImplicit false

namespace Mindroid

namespace ServiceManager

/-- The tables and the life of each service are as before, and no callback of a created service is
new. -/
structure Touches (manager next : ServiceManager) : Prop where
  processes : next.mProcesses = manager.mProcesses
  services : next.mServices = manager.mServices
  processManager : next.mProcessManager = manager.mProcessManager
  processRecords : next.processRecords = manager.processRecords
  processRecordsMade : next.processRecordsMade = manager.processRecordsMade
  serviceRecordsMade : next.serviceRecordsMade = manager.serviceRecordsMade
  processRecord : ∀ record,
    (next.serviceRecords record).processRecord = (manager.serviceRecords record).processRecord
  alive : ∀ record, (next.serviceRecords record).alive = (manager.serviceRecords record).alive
  created : ∀ component record, .created component record ∈ next.mServiceCallbacks →
    .created component record ∈ manager.mServiceCallbacks

variable {manager : ServiceManager}

/-- A change of a service record that keeps its process and whether it is alive. -/
theorem touches_update {record : Nat} {service : ServiceRecord} {callbacks : List ServiceCallback}
    (startId : Int32) (posted : List Intent)
    (processRecord : service.processRecord = (manager.serviceRecords record).processRecord)
    (alive : service.alive = (manager.serviceRecords record).alive)
    (created : ∀ component other, .created component other ∈ callbacks →
      .created component other ∈ manager.mServiceCallbacks) :
    Touches manager
      { manager with
        serviceRecords := Function.update manager.serviceRecords record service
        mServiceCallbacks := callbacks
        mStartId := startId
        posted := posted } where
  processes := rfl
  services := rfl
  processManager := rfl
  processRecords := rfl
  processRecordsMade := rfl
  serviceRecordsMade := rfl
  processRecord := Foundation.field_update_kept ServiceRecord.processRecord processRecord
  alive := Foundation.field_update_kept ServiceRecord.alive alive
  created := created

theorem touches_requests {callbacks : List ServiceCallback} (posted : List Intent)
    (created : ∀ component other, .created component other ∈ callbacks →
      .created component other ∈ manager.mServiceCallbacks) :
    Touches manager { manager with mServiceCallbacks := callbacks, posted := posted } :=
  ⟨rfl, rfl, rfl, rfl, rfl, rfl, fun _ => rfl, fun _ => rfl, created⟩

theorem created_of_append {callbacks : List ServiceCallback} {callback : ServiceCallback}
    {component : ComponentName} {record : Nat} (apart : .created component record ≠ callback)
    (created : .created component record ∈ callbacks ++ [callback]) :
    .created component record ∈ callbacks := by
  rw [List.mem_append, List.mem_singleton] at created
  exact created.resolve_right apart

/-- What a property has to survive. -/
structure Stable (Holds : ServiceManager → Prop) : Prop where
  prepared : ∀ {manager : ServiceManager} (intent : Intent) (resolved : Option ServiceInfo),
    Holds manager → Holds (manager.prepareService intent resolved).2
  dropped : ∀ {manager : ServiceManager} {component : ComponentName} {record : Nat},
    Holds manager → manager.mServices component = some record →
      Holds (manager.dropService component record)
  touched : ∀ {manager next : ServiceManager}, Holds manager → Touches manager next → Holds next

namespace Stable

variable {Holds : ServiceManager → Prop} (stable : Stable Holds)

include stable

theorem startPrepared (holds : Holds manager) (intent : Intent) (resolved : Option ServiceInfo) :
    Holds (manager.startPrepared intent resolved) := by
  have prepared := stable.prepared intent resolved holds
  rw [ServiceManager.startPrepared]
  split
  case h_1 next prepares =>
    rw [prepares] at prepared
    exact prepared
  case h_2 record next prepares =>
    rw [prepares] at prepared
    refine stable.touched prepared (touches_update _ _ rfl rfl fun component other created => ?_)
    exact created_of_append (fun same => by cases same) created

theorem stopService (holds : Holds manager) (intent : Intent) :
    Holds (manager.stopService intent).2 := by
  rw [ServiceManager.stopService]
  split
  case h_1 => exact holds
  case h_2 record served =>
    dsimp only
    split
    · exact holds
    · split
      · exact holds
      · refine stable.dropped (stable.touched holds ?_) served
        refine touches_requests _ fun component other created => ?_
        exact created_of_append (fun same => by cases same) created

theorem cleanupService (holds : Holds manager) (component : ComponentName) :
    Holds (manager.cleanupService component).2 := by
  rw [ServiceManager.cleanupService]
  split
  case h_1 => exact holds
  case h_2 record served => exact stable.dropped holds served

theorem bindService (holds : Holds manager) (intent : Intent) (conn : Nat)
    (resolved : Option ServiceInfo) : Holds (manager.bindService intent conn resolved).2 := by
  have prepared := stable.prepared { intent with systemService := false } resolved holds
  rw [ServiceManager.bindService]
  split
  case h_1 next prepares =>
    rw [prepares] at prepared
    exact prepared
  case h_2 record next prepares =>
    rw [prepares] at prepared
    dsimp only
    split
    · exact prepared
    · exact stable.touched prepared (touches_update _ _ rfl rfl fun _ _ created => created)

theorem unbindService (holds : Holds manager) (intent : Intent) (conn : Nat) :
    Holds (manager.unbindService intent conn) := by
  rw [ServiceManager.unbindService]
  split
  case h_1 => exact holds
  case h_2 record served =>
    dsimp only
    split
    · exact stable.touched holds (touches_update _ _ rfl rfl fun _ _ created => created)
    · exact stable.touched holds (touches_update _ _ rfl rfl fun _ _ created => created)

theorem onResult (holds : Holds manager) (callback : ServiceCallback) (result : Bool) :
    Holds (manager.onResult callback result) := by
  have called : ∀ {called : ServiceManager}, Holds called →
      Holds { called with mServiceCallbacks := called.mServiceCallbacks.erase callback } :=
    fun holds => stable.touched holds
      (touches_requests _ fun _ _ created => List.mem_of_mem_erase created)
  cases callback with
  | created component record =>
      rw [ServiceManager.onResult]
      split
      · exact called holds
      · exact called (stable.cleanupService holds component)
  | started => exact called holds
  | stopped => exact called holds

theorem step {next : ServiceManager} {action : ServiceAction} (holds : Holds manager)
    (taken : manager.step action = some next) : Holds next := by
  cases action with
  | startService intent resolved =>
      cases taken
      exact stable.startPrepared holds _ resolved
  | stopService intent =>
      cases taken
      exact stable.stopService holds intent
  | bindService intent conn resolved =>
      cases taken
      exact stable.bindService holds intent conn resolved
  | unbindService intent conn =>
      cases taken
      exact stable.unbindService holds intent conn
  | startSystemService intent =>
      cases taken
      exact stable.startPrepared holds _ _
  | stopSystemService intent =>
      cases taken
      exact stable.stopService holds _
  | stopPosted =>
      rw [ServiceManager.step] at taken
      split at taken
      case h_1 => cases taken
      case h_2 intent rest _ =>
        cases taken
        refine stable.stopService (stable.touched holds ?_) intent
        exact touches_requests _ fun _ _ created => created
  | onResult callback result =>
      rw [ServiceManager.step] at taken
      split at taken
      · cases taken
        exact stable.onResult holds callback result
      · cases taken

end Stable

end ServiceManager

end Mindroid
