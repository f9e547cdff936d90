import Mindroid.Foundation.Tables
import Mindroid.Foundation.Transition
import Mindroid.Os.ServiceSteps

/-!
# Services and their processes

Whatever requests and callbacks the manager executes, its two tables and the lists of the processes
agree, and a process runs exactly while it has services.
-/

set_option autoImplicit false

namespace Mindroid

open Foundation

namespace ServiceManager

variable (manager : ServiceManager)

/-- The process record of a service record. -/
def processRecordOf (record : Nat) : Nat :=
  (manager.serviceRecords record).processRecord

def servicesOf (processRecord : Nat) : AList fun _ : ComponentName => Nat :=
  (manager.processRecords processRecord).services

def processName (processRecord : Nat) : List UInt8 :=
  (manager.processRecords processRecord).name

def processOf (processRecord : Nat) : Nat :=
  (manager.processRecords processRecord).process

/-- A process that was made and not told to stop. -/
def Running (process : Nat) : Prop :=
  process < manager.mProcessManager.made ∧ manager.mProcessManager.stopped process = false

/-- The record of a component says that the process serves it. -/
def Serves (process : Nat) (component : ComponentName) : Prop :=
  ∃ record, manager.mServices component = some record ∧
    manager.processOf (manager.processRecordOf record) = process

/-- The process of each service is in the table and lists it, each process in the table lists its
services and no others, of which there are some, and the processes with services are those that
run. -/
structure Consistent : Prop where
  service : ∀ component record, manager.mServices component = some record →
    manager.mProcesses (manager.processName (manager.processRecordOf record)) =
        some (manager.processRecordOf record) ∧
      (manager.servicesOf (manager.processRecordOf record)).lookup component = some record
  process : ∀ name processRecord, manager.mProcesses name = some processRecord →
    manager.processName processRecord = name ∧
      (∀ component record, (manager.servicesOf processRecord).lookup component = some record ↔
        manager.mServices component = some record ∧
          manager.processRecordOf record = processRecord) ∧
      ∃ component record, (manager.servicesOf processRecord).lookup component = some record
  running : ∀ process, manager.Running process ↔ ∃ component, manager.Serves process component

/-- The tables agree; only one process may be without services. -/
structure Inv (bare : Option Nat) : Prop where
  recordMade : ∀ component record, manager.mServices component = some record →
    record < manager.serviceRecordsMade
  service : ∀ component record, manager.mServices component = some record →
    manager.mProcesses (manager.processName (manager.processRecordOf record)) =
        some (manager.processRecordOf record) ∧
      (manager.servicesOf (manager.processRecordOf record)).lookup component = some record
  listed : ∀ name processRecord, manager.mProcesses name = some processRecord →
    ∀ component record, (manager.servicesOf processRecord).lookup component = some record →
      manager.mServices component = some record ∧ manager.processRecordOf record = processRecord
  nonempty : ∀ name processRecord, manager.mProcesses name = some processRecord →
    bare ≠ some processRecord →
      ∃ component record, (manager.servicesOf processRecord).lookup component = some record
  named : ∀ name processRecord, manager.mProcesses name = some processRecord →
    processRecord < manager.processRecordsMade ∧ manager.processName processRecord = name
  managed : ∀ name, manager.mProcessManager.mProcesses name =
    (manager.mProcesses name).map manager.processOf
  live : ∀ name process, manager.mProcessManager.mProcesses name = some process →
    manager.Running process
  kept : ∀ process, manager.Running process →
    ∃ name, manager.mProcessManager.mProcesses name = some process
  apart : ∀ name other process, manager.mProcessManager.mProcesses name = some process →
    manager.mProcessManager.mProcesses other = some process → name = other
  stoppedMade : ∀ process, manager.mProcessManager.stopped process = true →
    process < manager.mProcessManager.made

variable {manager}

theorem Inv.consistent (inv : manager.Inv none) : manager.Consistent where
  service := inv.service
  process := by
    intro name processRecord entered
    refine ⟨(inv.named name processRecord entered).2, fun component record => ⟨?_, ?_⟩,
      inv.nonempty name processRecord entered
      (Option.some_ne_none processRecord).symm⟩
    · exact inv.listed name processRecord entered component record
    · rintro ⟨served, rfl⟩
      exact (inv.service component record served).2
  running := by
    intro process
    constructor
    · intro running
      rcases inv.kept process running with ⟨name, entered⟩
      rw [inv.managed, Option.map_eq_some_iff] at entered
      rcases entered with ⟨processRecord, found, rfl⟩
      rcases inv.nonempty name processRecord found
        (Option.some_ne_none processRecord).symm with ⟨component, record, lists⟩
      rcases inv.listed name processRecord found component record lists with ⟨served, rfl⟩
      exact ⟨component, record, served, rfl⟩
    · rintro ⟨component, record, served, rfl⟩
      apply inv.live (manager.processName (manager.processRecordOf record))
      rw [inv.managed, (inv.service component record served).1]
      rfl

/-- What the tables depend on. -/
structure SameTables (manager next : ServiceManager) : Prop where
  processes : next.mProcesses = manager.mProcesses
  services : next.mServices = manager.mServices
  processManager : next.mProcessManager = manager.mProcessManager
  processRecords : next.processRecords = manager.processRecords
  processRecordsMade : next.processRecordsMade = manager.processRecordsMade
  serviceRecordsMade : next.serviceRecordsMade = manager.serviceRecordsMade
  processRecordOf : ∀ record, next.processRecordOf record = manager.processRecordOf record

theorem SameTables.refl (manager : ServiceManager) : SameTables manager manager :=
  ⟨rfl, rfl, rfl, rfl, rfl, rfl, fun _ => rfl⟩

theorem Touches.sameTables {next : ServiceManager} (touches : Touches manager next) :
    SameTables manager next :=
  ⟨touches.processes, touches.services, touches.processManager, touches.processRecords,
    touches.processRecordsMade, touches.serviceRecordsMade, touches.processRecord⟩

theorem Inv.of_same {next : ServiceManager} {bare : Option Nat} (inv : manager.Inv bare)
    (same : SameTables manager next) : next.Inv bare := by
  rcases same with ⟨processes, services, processManager, processRecords, processRecordsMade,
    serviceRecordsMade, processRecordOf⟩
  have running : ∀ process, next.Running process ↔ manager.Running process := by
    intro process
    rw [Running, Running, processManager]
  have servicesOf : next.servicesOf = manager.servicesOf := by
    funext processRecord
    rw [ServiceManager.servicesOf, ServiceManager.servicesOf, processRecords]
  have processName : next.processName = manager.processName := by
    funext processRecord
    rw [ServiceManager.processName, ServiceManager.processName, processRecords]
  have processOf : next.processOf = manager.processOf := by
    funext processRecord
    rw [ServiceManager.processOf, ServiceManager.processOf, processRecords]
  have recordOf : next.processRecordOf = manager.processRecordOf := funext processRecordOf
  constructor
  · rw [services, serviceRecordsMade]
    exact inv.recordMade
  · rw [services, processes, recordOf, processName, servicesOf]
    exact inv.service
  · rw [services, processes, recordOf, servicesOf]
    exact inv.listed
  · rw [processes, servicesOf]
    exact inv.nonempty
  · rw [processes, processName, processRecordsMade]
    exact inv.named
  · rw [processManager, processes, processOf]
    exact inv.managed
  · rw [processManager]
    intro name process entered
    exact (running process).mpr (inv.live name process entered)
  · rw [processManager]
    intro process isRunning
    exact inv.kept process ((running process).mp isRunning)
  · rw [processManager]
    exact inv.apart
  · rw [processManager]
    exact inv.stoppedMade

/-! ## A process for a service -/

theorem prepareProcess_of_some {name : List UInt8} {record : Nat}
    (entered : manager.mProcesses name = some record) :
    manager.prepareProcess name = (record, manager) := by
  rw [prepareProcess, entered]

/-- A new process with a record that lists nothing. -/
theorem prepareProcess_of_none {name : List UInt8} (absent : manager.mProcesses name = none)
    (notManaged : manager.mProcessManager.mProcesses name = none) :
    manager.prepareProcess name =
      (manager.processRecordsMade,
        { manager with
          mProcesses := Function.update manager.mProcesses name (some manager.processRecordsMade)
          mProcessManager :=
            { manager.mProcessManager with
              mProcesses := Function.update manager.mProcessManager.mProcesses name
                (some manager.mProcessManager.made)
              made := manager.mProcessManager.made + 1 }
          processRecords := Function.update manager.processRecords manager.processRecordsMade
            ⟨name, manager.mProcessManager.made, ∅⟩
          processRecordsMade := manager.processRecordsMade + 1 }) := by
  rw [prepareProcess, absent, ProcessManager.startProcess, notManaged]

/-- A process record that is in the table, whether it was there before or not. -/
structure Prepares (manager next : ServiceManager) (name : List UInt8) (processRecord : Nat) :
    Prop where
  inv : next.Inv (some processRecord)
  entered : next.mProcesses name = some processRecord
  services : next.mServices = manager.mServices
  serviceRecords : next.serviceRecords = manager.serviceRecords
  serviceRecordsMade : next.serviceRecordsMade = manager.serviceRecordsMade

theorem Inv.weaken {processRecord : Nat} (inv : manager.Inv none) :
    manager.Inv (some processRecord) :=
  { inv with
    nonempty := fun name other entered _ =>
      inv.nonempty name other entered (Option.some_ne_none other).symm }

/-- A process that was made, with a record that lists nothing. -/
structure MakesProcess (manager next : ServiceManager) (name : List UInt8) : Prop where
  newEntry : next.mProcesses name = some manager.processRecordsMade
  oldEntry : ∀ other, other ≠ name → next.mProcesses other = manager.mProcesses other
  newRecord : next.processRecords manager.processRecordsMade =
    ⟨name, manager.mProcessManager.made, ∅⟩
  oldRecord : ∀ other, other ≠ manager.processRecordsMade →
    next.processRecords other = manager.processRecords other
  recordsMade : next.processRecordsMade = manager.processRecordsMade + 1
  newProcess : next.mProcessManager.mProcesses name = some manager.mProcessManager.made
  oldProcess : ∀ other, other ≠ name →
    next.mProcessManager.mProcesses other = manager.mProcessManager.mProcesses other
  made : next.mProcessManager.made = manager.mProcessManager.made + 1
  stopped : next.mProcessManager.stopped = manager.mProcessManager.stopped
  services : next.mServices = manager.mServices
  serviceRecords : next.serviceRecords = manager.serviceRecords
  serviceRecordsMade : next.serviceRecordsMade = manager.serviceRecordsMade

theorem prepareProcess_makes {name : List UInt8} (absent : manager.mProcesses name = none)
    (notManaged : manager.mProcessManager.mProcesses name = none) :
    MakesProcess manager (manager.prepareProcess name).2 name := by
  rw [prepareProcess_of_none absent notManaged]
  exact
    { newEntry := Function.update_self _ _ _
      oldEntry := fun _ apart => Function.update_of_ne apart _ _
      newRecord := Function.update_self _ _ _
      oldRecord := fun _ apart => Function.update_of_ne apart _ _
      recordsMade := rfl
      newProcess := Function.update_self _ _ _
      oldProcess := fun _ apart => Function.update_of_ne apart _ _
      made := rfl
      stopped := rfl
      services := rfl
      serviceRecords := rfl
      serviceRecordsMade := rfl }

theorem MakesProcess.running {next : ServiceManager} {name : List UInt8}
    (makes : MakesProcess manager next name) (inv : manager.Inv none) (process : Nat) :
    next.Running process ↔ manager.Running process ∨ process = manager.mProcessManager.made := by
  rw [Running, Running, makes.made, makes.stopped]
  constructor
  · rintro ⟨isMade, notStopped⟩
    rcases Nat.lt_succ_iff_lt_or_eq.mp isMade with less | same
    · exact .inl ⟨less, notStopped⟩
    · exact .inr same
  · rintro (⟨isMade, notStopped⟩ | rfl)
    · exact ⟨Nat.lt_succ_of_lt isMade, notStopped⟩
    · refine ⟨Nat.lt_succ_self _, eq_false_of_ne_true fun stopped => ?_⟩
      exact absurd (inv.stoppedMade _ stopped) (Nat.lt_irrefl _)

theorem MakesProcess.inv {next : ServiceManager} {name : List UInt8}
    (makes : MakesProcess manager next name) (inv : manager.Inv none)
    (absent : manager.mProcesses name = none) :
    next.Inv (some manager.processRecordsMade) := by
  have notManaged : manager.mProcessManager.mProcesses name = none := by
    rw [inv.managed, absent]
    rfl
  have recordOf : next.processRecordOf = manager.processRecordOf := by
    funext record
    rw [processRecordOf, processRecordOf, makes.serviceRecords]
  have old : ∀ {other processRecord}, manager.mProcesses other = some processRecord →
      other ≠ name ∧ next.processRecords processRecord = manager.processRecords processRecord := by
    intro other processRecord entered
    refine ⟨?_, makes.oldRecord _ (Nat.ne_of_lt (inv.named other processRecord entered).1)⟩
    rintro rfl
    rw [absent] at entered
    cases entered
  have entry : ∀ {other processRecord}, next.mProcesses other = some processRecord →
      other = name ∧ processRecord = manager.processRecordsMade ∨
        manager.mProcesses other = some processRecord := by
    intro other processRecord entered
    by_cases isName : other = name
    · rw [isName, makes.newEntry] at entered
      exact .inl ⟨isName, (Option.some.inj entered).symm⟩
    · rw [makes.oldEntry other isName] at entered
      exact .inr entered
  have managedEntry : ∀ {other process}, next.mProcessManager.mProcesses other = some process →
      other = name ∧ process = manager.mProcessManager.made ∨
        manager.mProcessManager.mProcesses other = some process := by
    intro other process entered
    by_cases isName : other = name
    · rw [isName, makes.newProcess] at entered
      exact .inl ⟨isName, (Option.some.inj entered).symm⟩
    · rw [makes.oldProcess other isName] at entered
      exact .inr entered
  constructor
  · rw [makes.services, makes.serviceRecordsMade]
    exact inv.recordMade
  · intro component record served
    rw [makes.services] at served
    have before := inv.service component record served
    rcases old before.1 with ⟨otherName, sameRecord⟩
    rw [recordOf, processName, servicesOf, sameRecord]
    exact ⟨(makes.oldEntry _ otherName).trans before.1, before.2⟩
  · intro other processRecord entered component record lists
    rw [servicesOf] at lists
    rw [makes.services, recordOf]
    rcases entry entered with ⟨_, rfl⟩ | wasEntered
    · rw [makes.newRecord] at lists
      exact absurd lists (by rw [AList.lookup_empty]; exact (Option.some_ne_none record).symm)
    · rw [(old wasEntered).2] at lists
      exact inv.listed other processRecord wasEntered component record lists
  · intro other processRecord entered apart
    rcases entry entered with ⟨_, rfl⟩ | wasEntered
    · exact absurd rfl apart
    · rw [servicesOf, (old wasEntered).2]
      exact inv.nonempty other processRecord wasEntered (Option.some_ne_none processRecord).symm
  · intro other processRecord entered
    rw [makes.recordsMade, processName]
    rcases entry entered with ⟨rfl, rfl⟩ | wasEntered
    · rw [makes.newRecord]
      exact ⟨Nat.lt_succ_self _, rfl⟩
    · have before := inv.named other processRecord wasEntered
      rw [(old wasEntered).2]
      exact ⟨Nat.lt_succ_of_lt before.1, before.2⟩
  · intro other
    by_cases isName : other = name
    · rw [isName, makes.newProcess, makes.newEntry, Option.map_some, processOf, makes.newRecord]
    · rw [makes.oldProcess other isName, makes.oldEntry other isName, inv.managed]
      cases entered : manager.mProcesses other with
      | none => rfl
      | some processRecord =>
          rw [Option.map_some, Option.map_some, processOf, processOf, (old entered).2]
  · intro other process entered
    rw [makes.running inv]
    rcases managedEntry entered with ⟨_, isNew⟩ | wasEntered
    · exact .inr isNew
    · exact .inl (inv.live other process wasEntered)
  · intro process running
    rcases (makes.running inv process).mp running with wasRunning | rfl
    · rcases inv.kept process wasRunning with ⟨other, entered⟩
      have isOther : other ≠ name := by
        rintro rfl
        rw [notManaged] at entered
        cases entered
      exact ⟨other, (makes.oldProcess other isOther).trans entered⟩
    · exact ⟨name, makes.newProcess⟩
  · intro first second process isFirst isSecond
    have notMade : ∀ {other}, manager.mProcessManager.mProcesses other =
        some manager.mProcessManager.made → False := fun entered =>
      Nat.lt_irrefl _ (inv.live _ _ entered).1
    rcases managedEntry isFirst with ⟨firstNew, firstMade⟩ | wasFirst
    · rcases managedEntry isSecond with ⟨secondNew, _⟩ | wasSecond
      · exact firstNew.trans secondNew.symm
      · rw [firstMade] at wasSecond
        exact (notMade wasSecond).elim
    · rcases managedEntry isSecond with ⟨_, secondMade⟩ | wasSecond
      · rw [secondMade] at wasFirst
        exact (notMade wasFirst).elim
      · exact inv.apart first second process wasFirst wasSecond
  · intro process stopped
    rw [makes.stopped] at stopped
    rw [makes.made]
    exact Nat.lt_succ_of_lt (inv.stoppedMade process stopped)

theorem prepareProcess_prepares (inv : manager.Inv none) (name : List UInt8) :
    Prepares manager (manager.prepareProcess name).2 name (manager.prepareProcess name).1 := by
  cases entered : manager.mProcesses name with
  | some record =>
      rw [prepareProcess_of_some entered]
      exact ⟨inv.weaken, entered, rfl, rfl, rfl⟩
  | none =>
      have notManaged : manager.mProcessManager.mProcesses name = none := by
        rw [inv.managed, entered]
        rfl
      have makes := prepareProcess_makes entered notManaged
      have isNew : (manager.prepareProcess name).1 = manager.processRecordsMade := by
        rw [prepareProcess_of_none entered notManaged]
      rw [isNew]
      exact ⟨makes.inv inv entered, makes.newEntry, makes.services, makes.serviceRecords,
        makes.serviceRecordsMade⟩

/-! ## A service for a component -/

/-- A new service record that is entered and listed. -/
structure AddsService (manager next : ServiceManager) (component : ComponentName)
    (processRecord : Nat) : Prop where
  processes : next.mProcesses = manager.mProcesses
  processManager : next.mProcessManager = manager.mProcessManager
  processRecordsMade : next.processRecordsMade = manager.processRecordsMade
  services : next.mServices =
    Function.update manager.mServices component (some manager.serviceRecordsMade)
  recordsMade : next.serviceRecordsMade = manager.serviceRecordsMade + 1
  newRecord : next.processRecordOf manager.serviceRecordsMade = processRecord
  oldRecord : ∀ record, record ≠ manager.serviceRecordsMade →
    next.processRecordOf record = manager.processRecordOf record
  processName : next.processName = manager.processName
  processOf : next.processOf = manager.processOf
  newList : next.servicesOf processRecord =
    (manager.servicesOf processRecord).insert component manager.serviceRecordsMade
  oldList : ∀ other, other ≠ processRecord → next.servicesOf other = manager.servicesOf other

theorem Inv.not_listed {bare : Option Nat} (inv : manager.Inv bare) {name : List UInt8}
    {processRecord : Nat} (entered : manager.mProcesses name = some processRecord)
    {component : ComponentName} (absent : manager.mServices component = none) :
    component ∉ manager.servicesOf processRecord := by
  intro member
  rcases Option.isSome_iff_exists.mp (AList.lookup_isSome.mpr member) with ⟨record, lists⟩
  have served := (inv.listed name processRecord entered component record lists).1
  rw [absent] at served
  cases served

theorem AddsService.inv {next : ServiceManager} {component : ComponentName} {processRecord : Nat}
    (adds : AddsService manager next component processRecord)
    (inv : manager.Inv (some processRecord)) {name : List UInt8}
    (entered : manager.mProcesses name = some processRecord)
    (absent : manager.mServices component = none) : next.Inv none := by
  have running : ∀ process, next.Running process ↔ manager.Running process := by
    intro process
    rw [Running, Running, adds.processManager]
  have served : ∀ {other record}, next.mServices other = some record →
      other = component ∧ record = manager.serviceRecordsMade ∨
        other ≠ component ∧ manager.mServices other = some record ∧
          next.processRecordOf record = manager.processRecordOf record := by
    intro other record serves
    rw [adds.services] at serves
    by_cases isNew : other = component
    · rw [isNew, Function.update_self] at serves
      exact .inl ⟨isNew, (Option.some.inj serves).symm⟩
    · rw [Function.update_of_ne isNew] at serves
      exact .inr ⟨isNew, serves,
        adds.oldRecord record (Nat.ne_of_lt (inv.recordMade other record serves))⟩
  have lookups : ∀ {record other listed}, (next.servicesOf record).lookup other = some listed →
      record = processRecord ∧ other = component ∧ listed = manager.serviceRecordsMade ∨
        other ≠ component ∧ (manager.servicesOf record).lookup other = some listed ∨
        record ≠ processRecord ∧ (manager.servicesOf record).lookup other = some listed := by
    intro record other listed lists
    by_cases isNew : record = processRecord
    · rw [isNew, adds.newList] at lists
      by_cases isComponent : other = component
      · rw [isComponent, AList.lookup_insert] at lists
        exact .inl ⟨isNew, isComponent, (Option.some.inj lists).symm⟩
      · rw [AList.lookup_insert_ne isComponent] at lists
        rw [isNew]
        exact .inr (.inl ⟨isComponent, lists⟩)
    · rw [adds.oldList record isNew] at lists
      exact .inr (.inr ⟨isNew, lists⟩)
  constructor
  · intro other record serves
    rw [adds.recordsMade]
    rcases served serves with ⟨_, rfl⟩ | ⟨_, before, _⟩
    · exact Nat.lt_succ_self _
    · exact Nat.lt_succ_of_lt (inv.recordMade other record before)
  · intro other record serves
    rw [adds.processes, adds.processName]
    rcases served serves with ⟨rfl, rfl⟩ | ⟨isOther, before, sameRecord⟩
    · rw [adds.newRecord, (inv.named name processRecord entered).2, adds.newList,
        AList.lookup_insert]
      exact ⟨entered, rfl⟩
    · have known := inv.service other record before
      rw [sameRecord]
      refine ⟨known.1, ?_⟩
      by_cases isNew : manager.processRecordOf record = processRecord
      · rw [isNew] at known ⊢
        rw [adds.newList, AList.lookup_insert_ne isOther]
        exact known.2
      · rw [adds.oldList _ isNew]
        exact known.2
  · intro otherName record isEntered other listed lists
    rw [adds.processes] at isEntered
    have old : (manager.servicesOf record).lookup other = some listed → other ≠ component →
        next.mServices other = some listed ∧ next.processRecordOf listed = record := by
      intro lists isOther
      have before := inv.listed otherName record isEntered other listed lists
      rw [adds.services, Function.update_of_ne isOther,
        adds.oldRecord listed (Nat.ne_of_lt (inv.recordMade other listed before.1))]
      exact before
    rcases lookups lists with ⟨rfl, rfl, rfl⟩ | ⟨isOther, lists⟩ | ⟨isNew, lists⟩
    · rw [adds.services, Function.update_self]
      exact ⟨rfl, adds.newRecord⟩
    · exact old lists isOther
    · apply old lists
      rintro rfl
      have before := (inv.listed otherName record isEntered other listed lists).1
      rw [absent] at before
      cases before
  · intro otherName record isEntered _
    rw [adds.processes] at isEntered
    by_cases isNew : record = processRecord
    · rw [isNew, adds.newList]
      exact ⟨component, manager.serviceRecordsMade, AList.lookup_insert _⟩
    · rw [adds.oldList record isNew]
      exact inv.nonempty otherName record isEntered fun same =>
        isNew (Option.some.inj same).symm
  · rw [adds.processes, adds.processName, adds.processRecordsMade]
    exact inv.named
  · rw [adds.processManager, adds.processes, adds.processOf]
    exact inv.managed
  · rw [adds.processManager]
    intro otherName process isManaged
    exact (running process).mpr (inv.live otherName process isManaged)
  · rw [adds.processManager]
    intro process isRunning
    exact inv.kept process ((running process).mp isRunning)
  · rw [adds.processManager]
    exact inv.apart
  · rw [adds.processManager]
    exact inv.stoppedMade

theorem newService_adds {intent : Intent} {info : ServiceInfo} {processRecord : Nat}
    {prepared : ServiceManager}
    (prepares : manager.prepareProcess info.processName = (processRecord, prepared))
    (notListed : intent.component ∉ prepared.servicesOf processRecord) :
    AddsService prepared (manager.newService intent info) intent.component processRecord := by
  have notMember : ¬intent.component ∈ (prepared.processRecords processRecord).services := notListed
  rw [newService, prepares]
  simp only [if_neg notMember]
  exact
    { processes := rfl
      processManager := rfl
      processRecordsMade := rfl
      services := rfl
      recordsMade := rfl
      newRecord := field_update_self _ _ _ ServiceRecord.processRecord
      oldRecord := fun _ apart => field_update_of_ne _ _ ServiceRecord.processRecord apart
      processName := funext (field_update_kept ProcessRecord.name rfl)
      processOf := funext (field_update_kept ProcessRecord.process rfl)
      newList := field_update_self _ _ _ ProcessRecord.services
      oldList := fun _ apart => field_update_of_ne _ _ ProcessRecord.services apart }

theorem newService_inv (inv : manager.Inv none) {intent : Intent}
    (absent : manager.mServices intent.component = none) (info : ServiceInfo) :
    (manager.newService intent info).Inv none ∧
      (manager.newService intent info).mServices intent.component =
        some manager.serviceRecordsMade := by
  have prepares := prepareProcess_prepares inv info.processName
  have stillAbsent : (manager.prepareProcess info.processName).2.mServices intent.component =
      none := by
    rw [prepares.services]
    exact absent
  have adds : AddsService (manager.prepareProcess info.processName).2
      (manager.newService intent info) intent.component (manager.prepareProcess info.processName).1 :=
    newService_adds rfl (prepares.inv.not_listed prepares.entered stillAbsent)
  refine ⟨adds.inv prepares.inv prepares.entered stillAbsent, ?_⟩
  rw [adds.services, prepares.serviceRecordsMade, Function.update_self]

/-! ## The end of a service -/

/-- A service that is no longer entered and listed. -/
structure DropsService (manager next : ServiceManager) (component : ComponentName)
    (processRecord : Nat) : Prop where
  processes : next.mProcesses = manager.mProcesses
  processManager : next.mProcessManager = manager.mProcessManager
  processRecordsMade : next.processRecordsMade = manager.processRecordsMade
  services : next.mServices = Function.update manager.mServices component none
  recordsMade : next.serviceRecordsMade = manager.serviceRecordsMade
  recordOf : ∀ record, next.processRecordOf record = manager.processRecordOf record
  processName : next.processName = manager.processName
  processOf : next.processOf = manager.processOf
  newList : next.servicesOf processRecord = (manager.servicesOf processRecord).erase component
  oldList : ∀ other, other ≠ processRecord → next.servicesOf other = manager.servicesOf other

theorem DropsService.inv {next : ServiceManager} {component : ComponentName} {record : Nat}
    (drops : DropsService manager next component (manager.processRecordOf record))
    (inv : manager.Inv none) (served : manager.mServices component = some record) :
    next.Inv (some (manager.processRecordOf record)) := by
  have recordOf : next.processRecordOf = manager.processRecordOf := funext drops.recordOf
  have running : ∀ process, next.Running process ↔ manager.Running process := by
    intro process
    rw [Running, Running, drops.processManager]
  have serves : ∀ {other otherRecord}, next.mServices other = some otherRecord →
      other ≠ component ∧ manager.mServices other = some otherRecord := by
    intro other otherRecord serves
    rw [drops.services] at serves
    have apart : other ≠ component := by
      rintro rfl
      rw [Function.update_self] at serves
      cases serves
    rw [Function.update_of_ne apart] at serves
    exact ⟨apart, serves⟩
  have lookups : ∀ {processRecord other}, other ≠ component →
      (next.servicesOf processRecord).lookup other =
        (manager.servicesOf processRecord).lookup other := by
    intro processRecord other apart
    by_cases isIt : processRecord = manager.processRecordOf record
    · rw [isIt, drops.newList, AList.lookup_erase_ne apart]
    · rw [drops.oldList _ isIt]
  constructor
  · intro other otherRecord isServed
    rw [drops.recordsMade]
    exact inv.recordMade other otherRecord (serves isServed).2
  · intro other otherRecord isServed
    rcases serves isServed with ⟨apart, wasServed⟩
    rw [drops.processes, recordOf, drops.processName, lookups apart]
    exact inv.service other otherRecord wasServed
  · intro name processRecord entered other otherRecord lists
    rw [drops.processes] at entered
    have apart : other ≠ component := by
      rintro rfl
      by_cases isIt : processRecord = manager.processRecordOf record
      · rw [isIt, drops.newList, AList.lookup_erase] at lists
        cases lists
      · rw [drops.oldList _ isIt] at lists
        have before := inv.listed name processRecord entered other otherRecord lists
        rw [served] at before
        cases before.1
        exact isIt before.2.symm
    rw [lookups apart] at lists
    rw [recordOf, drops.services, Function.update_of_ne apart]
    exact inv.listed name processRecord entered other otherRecord lists
  · intro name processRecord entered isOther
    rw [drops.processes] at entered
    rw [drops.oldList processRecord fun same => isOther (congrArg some same.symm)]
    exact inv.nonempty name processRecord entered (Option.some_ne_none processRecord).symm
  · rw [drops.processes, drops.processName, drops.processRecordsMade]
    exact inv.named
  · rw [drops.processManager, drops.processes, drops.processOf]
    exact inv.managed
  · rw [drops.processManager]
    intro name process entered
    exact (running process).mpr (inv.live name process entered)
  · rw [drops.processManager]
    intro process isRunning
    exact inv.kept process ((running process).mp isRunning)
  · rw [drops.processManager]
    exact inv.apart
  · rw [drops.processManager]
    exact inv.stoppedMade

/-- A process that is told to stop and is no longer in the tables. -/
theorem Inv.stopProcess {processRecord : Nat} (inv : manager.Inv (some processRecord))
    {name : List UInt8} (entered : manager.mProcesses name = some processRecord)
    (bare : ∀ component, (manager.servicesOf processRecord).lookup component = none) :
    { manager with
      mProcessManager := manager.mProcessManager.stopProcess name
      mProcesses := Function.update manager.mProcesses name none }.Inv none := by
  have managed : manager.mProcessManager.mProcesses name =
      some (manager.processOf processRecord) := by
    rw [inv.managed, entered]
    rfl
  have stops : manager.mProcessManager.stopProcess name =
      { manager.mProcessManager with
        mProcesses := Function.update manager.mProcessManager.mProcesses name none
        stopped := Function.update manager.mProcessManager.stopped
          (manager.processOf processRecord) true } := by
    rw [ProcessManager.stopProcess, managed]
  rw [stops]
  have isOther : ∀ {other otherRecord}, other ≠ name →
      manager.mProcesses other = some otherRecord → otherRecord ≠ processRecord := by
    rintro other otherRecord apart isEntered rfl
    exact apart ((inv.named other otherRecord isEntered).2.symm.trans
      (inv.named name otherRecord entered).2)
  have remains : ∀ {other : List UInt8} {δ : Type} {table : List UInt8 → Option δ} {value : δ},
      Function.update table name none other = some value → other ≠ name ∧ table other = some value := by
    intro other δ table value isEntered
    have apart : other ≠ name := by
      rintro rfl
      rw [Function.update_self] at isEntered
      cases isEntered
    rw [Function.update_of_ne apart] at isEntered
    exact ⟨apart, isEntered⟩
  constructor
  · exact inv.recordMade
  · intro component record served
    have known := inv.service component record served
    refine ⟨?_, known.2⟩
    have apart : manager.processName (manager.processRecordOf record) ≠ name := by
      intro same
      rw [same, entered] at known
      have lists := known.2
      rw [← Option.some.inj known.1, bare component] at lists
      cases lists
    exact (Function.update_of_ne apart _ _).trans known.1
  · intro other otherRecord isEntered
    exact inv.listed other otherRecord (remains isEntered).2
  · intro other otherRecord isEntered _
    rcases remains isEntered with ⟨apart, wasEntered⟩
    exact inv.nonempty other otherRecord wasEntered fun same =>
      isOther apart wasEntered (Option.some.inj same).symm
  · intro other otherRecord isEntered
    exact inv.named other otherRecord (remains isEntered).2
  · intro other
    change Function.update manager.mProcessManager.mProcesses name none other =
      (Function.update manager.mProcesses name none other).map manager.processOf
    by_cases isName : other = name
    · rw [isName, Function.update_self, Function.update_self]
      rfl
    · rw [Function.update_of_ne isName, Function.update_of_ne isName]
      exact inv.managed other
  · intro other process isManaged
    rcases remains isManaged with ⟨apart, wasManaged⟩
    have running := inv.live other process wasManaged
    have notIt : process ≠ manager.processOf processRecord := by
      rintro rfl
      exact apart (inv.apart other name _ wasManaged managed)
    exact ⟨running.1, (Function.update_of_ne notIt _ _).trans running.2⟩
  · intro process running
    have notIt : process ≠ manager.processOf processRecord := by
      rintro rfl
      have stopped := running.2.symm.trans (Function.update_self _ _ _)
      cases stopped
    have wasRunning : manager.Running process :=
      ⟨running.1, (Function.update_of_ne notIt _ _).symm.trans running.2⟩
    rcases inv.kept process wasRunning with ⟨other, wasManaged⟩
    have apart : other ≠ name := by
      rintro rfl
      rw [managed] at wasManaged
      exact notIt (Option.some.inj wasManaged).symm
    exact ⟨other, (Function.update_of_ne apart _ _).trans wasManaged⟩
  · intro first second process isFirst isSecond
    exact inv.apart first second process (remains isFirst).2 (remains isSecond).2
  · intro process stopped
    by_cases isIt : process = manager.processOf processRecord
    · rw [isIt]
      exact (inv.live name _ managed).1
    · exact inv.stoppedMade process ((Function.update_of_ne isIt _ _).symm.trans stopped)

theorem unlistService_drops (component : ComponentName) (record : Nat) :
    DropsService manager (manager.unlistService component record) component
      (manager.processRecordOf record) where
  processes := rfl
  processManager := rfl
  processRecordsMade := rfl
  services := rfl
  recordsMade := rfl
  recordOf := field_update_kept ServiceRecord.processRecord rfl
  processName := funext (field_update_kept ProcessRecord.name rfl)
  processOf := funext (field_update_kept ProcessRecord.process rfl)
  newList := field_update_self _ _ _ ProcessRecord.services
  oldList := fun _ apart => field_update_of_ne _ _ ProcessRecord.services apart

theorem dropService_inv (inv : manager.Inv none) {component : ComponentName} {record : Nat}
    (served : manager.mServices component = some record) :
    (manager.dropService component record).Inv none := by
  have drops := manager.unlistService_drops component record
  have unlisted := drops.inv inv served
  have entered : (manager.unlistService component record).mProcesses
      ((manager.unlistService component record).processName (manager.processRecordOf record)) =
        some (manager.processRecordOf record) := by
    rw [drops.processName]
    exact (inv.service component record served).1
  rw [dropService]
  split
  case isTrue empty =>
    have bare : (manager.unlistService component record).servicesOf
        (manager.processRecordOf record) = ∅ := AList.ext (List.eq_nil_of_length_eq_zero empty)
    refine unlisted.stopProcess entered fun other => ?_
    rw [bare, AList.lookup_empty]
  case isFalse nonempty =>
    rcases List.exists_mem_of_length_pos (Nat.pos_of_ne_zero nonempty) with
      ⟨⟨other, otherRecord⟩, member⟩
    have lists := AList.mem_lookup_iff.mpr member
    exact
      { unlisted with
        nonempty := by
          intro name processRecord isEntered _
          by_cases same : processRecord = manager.processRecordOf record
          · rw [same]
            exact ⟨other, otherRecord, lists⟩
          · exact unlisted.nonempty name processRecord isEntered fun isIt =>
              same (Option.some.inj isIt).symm }

/-! ## Requests and callbacks -/

theorem createService_same (component : ComponentName) (record : Nat) :
    SameTables manager (manager.createService component record) := by
  rw [createService]
  split
  · exact .refl manager
  · exact ⟨rfl, rfl, rfl, rfl, rfl, rfl, Foundation.field_update_kept _ rfl⟩

theorem prepareService_inv (inv : manager.Inv none) (intent : Intent)
    (resolved : Option ServiceInfo) : (manager.prepareService intent resolved).2.Inv none := by
  rw [prepareService]
  split
  · exact inv
  · split
    case h_1 => exact inv.of_same (createService_same _ _)
    case h_2 absent =>
      exact (newService_inv inv absent _).1.of_same (createService_same _ _)

theorem initial_inv : initial.Inv none where
  recordMade := fun _ _ served => absurd served (Option.some_ne_none _).symm
  service := fun _ _ served => absurd served (Option.some_ne_none _).symm
  listed := fun _ _ entered => absurd entered (Option.some_ne_none _).symm
  nonempty := fun _ _ entered => absurd entered (Option.some_ne_none _).symm
  named := fun _ _ entered => absurd entered (Option.some_ne_none _).symm
  managed := fun _ => rfl
  live := fun _ _ managed => absurd managed (Option.some_ne_none _).symm
  kept := fun _ running => absurd running.1 (Nat.not_lt_zero _)
  apart := fun _ _ _ managed => absurd managed (Option.some_ne_none _).symm
  stoppedMade := fun _ stopped => Bool.noConfusion stopped

theorem stable_inv : Stable fun manager => manager.Inv none where
  prepared := fun intent resolved inv => prepareService_inv inv intent resolved
  dropped := fun inv served => dropService_inv inv served
  touched := fun inv touches => inv.of_same touches.sameTables

theorem step_inv {next : ServiceManager} {action : ServiceAction} (inv : manager.Inv none)
    (taken : manager.step action = some next) : next.Inv none :=
  stable_inv.step inv taken

/-- The tables agree after any run, and a process is stopped exactly when its last service goes. -/
theorem services_and_processes
    (reachable : Foundation.Reachable (fun manager => manager = initial)
      (fun manager next => ∃ action, manager.step action = some next) manager) :
    manager.Consistent ∧ ∀ action next, manager.step action = some next →
      ∀ process, manager.Running process →
        (¬next.Running process ↔ ∀ component, ¬next.Serves process component) := by
  have starts : ∀ st : ServiceManager, st = initial → st.Inv none := by
    intro st start
    rw [start]
    exact initial_inv
  have preserved : ∀ st next : ServiceManager,
      Foundation.Reachable (fun manager => manager = initial)
        (fun manager next => ∃ action, manager.step action = some next) st →
      st.Inv none → (∃ action, st.step action = some next) → next.Inv none := by
    intro st next _ inv ⟨action, taken⟩
    exact step_inv inv taken
  have inv : manager.Inv none := reachable.invariant starts preserved
  refine ⟨inv.consistent, ?_⟩
  intro action next taken process _
  rw [(step_inv inv taken).consistent.running, not_exists]

/-- Two services of one process: one is started and stopped, one is bound and unbound. -/
theorem services_and_processes_two :
    ∃ manager : ServiceManager,
      Foundation.runAll step initial
        [.startService ⟨⟨[112], [97]⟩, false, none, none⟩ (some ⟨[97], [112], [112]⟩),
          .bindService ⟨⟨[112], [98]⟩, false, none, none⟩ 7 (some ⟨[98], [112], [112]⟩),
          .stopService ⟨⟨[112], [97]⟩, false, none, none⟩,
          .unbindService ⟨⟨[112], [98]⟩, false, none, none⟩ 7] = some manager ∧
      manager.Consistent ∧ ∀ action next, manager.step action = some next →
        ∀ process, manager.Running process →
          (¬next.Running process ↔ ∀ component, ¬next.Serves process component) := by
  have ran : ∃ manager : ServiceManager,
      Foundation.runAll step initial
        [.startService ⟨⟨[112], [97]⟩, false, none, none⟩ (some ⟨[97], [112], [112]⟩),
          .bindService ⟨⟨[112], [98]⟩, false, none, none⟩ 7 (some ⟨[98], [112], [112]⟩),
          .stopService ⟨⟨[112], [97]⟩, false, none, none⟩,
          .unbindService ⟨⟨[112], [98]⟩, false, none, none⟩ 7] = some manager := ⟨_, rfl⟩
  obtain ⟨manager, ran⟩ := ran
  exact ⟨manager, ran, services_and_processes (.runAll (.initial rfl) ran)⟩

end ServiceManager

end Mindroid
